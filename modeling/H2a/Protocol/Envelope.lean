import H2a.Protocol.Canonical
import H2a.Library.JsonInteger
/-!
# Signatures

`packages/h2a/src/signature.ts` and the signing view of `packages/h2a/src/envelope.ts`:
"The portion of an envelope that a signature covers: everything except the `signatures`
array itself."  A signature, a hash and the canonical text tell apart any two values
but those that differ in members named `__proto__` alone (`signed_content_iff`).
-/

namespace H2a.Protocol

open H2a.Library

variable {N : Type}

/-! ## The source -/

/-- What the code uses of `node:crypto`. -/
structure NodeCrypto (N : Type) where
  Key : Type
  /-- `createPublicKey({ key, format: "pem" })`; `none` where it throws -/
  createPublicKey : Json N → Option Key
  /-- `Buffer.from(value, "base64")`; `none` where it throws -/
  fromBase64 : Json N → Option (List UInt8)
  /-- `verify(null, message, key, raw)`; `false` where it throws -/
  verify : List UInt8 → Key → List UInt8 → Bool

/-- The members of an envelope. -/
abbrev Envelope (N : Type) := List (JsString × Json N)

section Source

variable [JsonNumber N]

/-- `verifyCanonical(value, signature, publicKeyPem)` -/
def verifyCanonical (crypto : NodeCrypto N) (value signature publicKeyPem : Json N) :
    Except String Bool := do
  let alg ← signature.member (js "alg")
  if Json.isText (js "ed25519") alg then
    match crypto.createPublicKey publicKeyPem with
    | none => return false
    | some key =>
        let message ← canonicalize value
        match (signature.get (js "value")).bind crypto.fromBase64 with
        | none => return false
        | some raw => return crypto.verify (Utf8.encode message) key raw
  else return false

/-- The portion of an envelope that a signature covers. -/
def envelopeSigningView (envelope : Envelope N) : Json N :=
  .obj (eraseMember (js "signatures") envelope)

/-- `envelope.signatures ?? []`, where it has the methods of an array -/
def signaturesOf (envelope : Envelope N) : Except String (List (Json N)) :=
  match lookupMember (js "signatures") envelope with
  | none => .ok []
  | some .null => .ok []
  | some (.arr signatures) => .ok signatures
  | some _ => .error "signatures.filter is not a function"

/-- `(s) => s.by === signer` -/
def signedBy (signer : JsString) (signature : Json N) : Except String Bool := do
  let signatureBy ← signature.member (js "by")
  return Json.isText signer signatureBy

/-- `verifyEnvelopeSignature(envelope, publicKeyPem, { by: signer })` -/
def verifyEnvelopeSignature (crypto : NodeCrypto N) (envelope : Envelope N)
    (publicKeyPem : Json N) (signer : JsString) : Except String Bool := do
  let signatures ← signaturesOf envelope
  let candidates ←
    if signer.units.isEmpty then pure signatures else signatures.filterM (signedBy signer)
  candidates.anyM fun signature =>
    verifyCanonical crypto (envelopeSigningView envelope) signature publicKeyPem

end Source

/-! ## What a text, a hash and a signature cover -/

/-- `f` does not give `v` and `w` the same result unless they are the same value, up to
the order of members. -/
def TellsApart {α : Type} (f : Json N → Except String α) (v w : Json N) : Prop :=
  ∀ a, f v = .ok a → f w = .ok a → v.SameMembers w

section Covers

variable [JsonNumber N]

/-- Both can be printed, they are different values, and the difference is in members
named `__proto__`. -/
def OnlyProtoDiffers (v w : Json N) : Prop :=
  AllFinite v ∧ AllFinite w ∧ ¬v.SameMembers w ∧ (dropProto v).SameMembers (dropProto w)

/-- No signature verifies over two different values. -/
def SignaturesCover (crypto : NodeCrypto N) (v w : Json N) : Prop :=
  ∀ signature pem, verifyCanonical crypto v signature pem = .ok true →
    verifyCanonical crypto w signature pem = .ok true → v.SameMembers w

/-- Signatures are unforgeable: one verifies over one message only, under a given key. -/
def Unforgeable (crypto : NodeCrypto N) : Prop :=
  ∀ key raw message message', crypto.verify message key raw = true →
    crypto.verify message' key raw = true → message = message'

/-- Any message can be signed with some key. -/
def CanSign (crypto : NodeCrypto N) : Prop :=
  ∀ message, ∃ pem key value raw, crypto.createPublicKey pem = some key ∧
    crypto.fromBase64 value = some raw ∧ crypto.verify message key raw = true

/-! ## The text -/

theorem tellsApart_canonicalize_iff (v w : Json N) :
    TellsApart canonicalize v w ↔ ¬OnlyProtoDiffers v w := by
  constructor
  · rintro h ⟨hv, hw, hne, hdrop⟩
    have htext : canonicalize v = .ok (canonicalForm v).render := canonicalize_eq_ok.mpr ⟨hv, rfl⟩
    exact hne (h _ htext ((canonicalize_eq_iff hv hw).mpr hdrop ▸ htext))
  · intro h t hv hw
    by_contra hne
    have hv' := (canonicalize_eq_ok.mp hv).1
    have hw' := (canonicalize_eq_ok.mp hw).1
    exact h ⟨hv', hw', hne, (canonicalize_eq_iff hv' hw').mp (hv.trans hw.symm)⟩

/-- What is computed from the text alone, and determines it, tells apart what the text does. -/
theorem tellsApart_iff_of_text {α : Type} {f : Json N → Except String α} {g : List Char → α}
    (hf : ∀ j a, f j = .ok a ↔ ∃ t, canonicalize j = .ok t ∧ a = g t)
    (hg : Function.Injective g) (v w : Json N) :
    TellsApart f v w ↔ TellsApart canonicalize v w := by
  constructor
  · exact fun h t hv hw => h (g t) ((hf v _).mpr ⟨t, hv, rfl⟩) ((hf w _).mpr ⟨t, hw, rfl⟩)
  · intro h a hv hw
    obtain ⟨t, htv, hat⟩ := (hf v a).mp hv
    obtain ⟨t', htw, hat'⟩ := (hf w a).mp hw
    obtain rfl : t = t' := hg (hat.symm.trans hat')
    exact h t htv htw

/-- Different texts have different hashes. -/
theorem hash_injective {sha256 : List UInt8 → JsString} (hsha256 : Function.Injective sha256) :
    Function.Injective fun t : List Char => js "sha256:" ++ sha256 (Utf8.encode t) := by
  intro t t' h
  have hdigest : sha256 (Utf8.encode t) = sha256 (Utf8.encode t') := by
    apply JsString.ext_units
    exact List.append_cancel_left (congrArg JsString.units h)
  have hbytes := congrArg Utf8.decode (hsha256 hdigest)
  rwa [Utf8.decode_encode, Utf8.decode_encode] at hbytes

/-! ## The signature -/

theorem verifyCanonical_eq_true {crypto : NodeCrypto N} {value signature pem : Json N} :
    verifyCanonical crypto value signature pem = .ok true ↔
      Json.isText (js "ed25519") (signature.get (js "alg")) = true ∧
        ∃ key t raw, crypto.createPublicKey pem = some key ∧ canonicalize value = .ok t ∧
          (signature.get (js "value")).bind crypto.fromBase64 = some raw ∧
          crypto.verify (Utf8.encode t) key raw = true := by
  have hmember : signature.member (js "alg") = .ok (signature.get (js "alg")) ∨
      signature.get (js "alg") = none ∧ ∃ e, signature.member (js "alg") = .error e := by
    cases signature with
    | null => exact Or.inr ⟨rfl, _, rfl⟩
    | _ => exact Or.inl rfl
  rcases hmember with hmember | ⟨hnone, e, hmember⟩
  · rw [verifyCanonical, hmember, ok_bind]
    cases halg : Json.isText (js "ed25519") (signature.get (js "alg")) with
    | false => simp
    | true =>
        cases hkey : crypto.createPublicKey pem with
        | none => simp
        | some key =>
            cases htext : canonicalize value with
            | error e => simp
            | ok t =>
                cases hraw : (signature.get (js "value")).bind crypto.fromBase64 with
                | none => simp
                | some raw => simp
  · rw [verifyCanonical, hmember, hnone, error_bind]
    simp [Json.isText]

/-- A signature covers what the text tells apart. -/
theorem signaturesCover_iff {crypto : NodeCrypto N} (hunforgeable : Unforgeable crypto)
    (hsign : CanSign crypto) (v w : Json N) :
    SignaturesCover crypto v w ↔ TellsApart canonicalize v w := by
  constructor
  · intro h t hv hw
    obtain ⟨pem, key, value, raw, hkey, hraw, hverify⟩ := hsign (Utf8.encode t)
    have hne : ¬js "alg" = js "value" := by decide
    have hverified : ∀ {j : Json N}, canonicalize j = .ok t → verifyCanonical crypto j
        (.obj [(js "alg", .str (js "ed25519")), (js "value", value)]) pem = .ok true := by
      intro j hj
      refine verifyCanonical_eq_true.mpr ⟨?_, key, t, raw, hkey, hj, ?_, hverify⟩
      · rw [Json.get, lookupMember, if_pos rfl, Json.isText, beq_self_eq_true]
      · rw [Json.get, lookupMember, if_neg hne, lookupMember, if_pos rfl]
        exact hraw
    exact h _ pem (hverified hv) (hverified hw)
  · intro h signature pem hv hw
    obtain ⟨-, key, t, raw, hkey, ht, hraw, hverify⟩ := verifyCanonical_eq_true.mp hv
    obtain ⟨-, key', t', raw', hkey', ht', hraw', hverify'⟩ := verifyCanonical_eq_true.mp hw
    obtain rfl : key = key' := Option.some.inj (hkey.symm.trans hkey')
    obtain rfl : raw = raw' := Option.some.inj (hraw.symm.trans hraw')
    have hbytes := congrArg Utf8.decode (hunforgeable key raw _ _ hverify hverify')
    rw [Utf8.decode_encode, Utf8.decode_encode] at hbytes
    exact h t ht (hbytes ▸ ht')

/-- The canonical text, the hash and the signatures tell two values apart, and the
signatures on two envelopes tell their signing views apart, except where the difference
is in members named `__proto__` alone. -/
theorem signed_content_iff {sha256 : List UInt8 → JsString} {crypto : NodeCrypto N}
    (hsha256 : Function.Injective sha256) (hunforgeable : Unforgeable crypto)
    (hsign : CanSign crypto) :
    (∀ v w : Json N, (TellsApart canonicalize v w ↔ ¬OnlyProtoDiffers v w) ∧
      (TellsApart (computeHash sha256) v w ↔ ¬OnlyProtoDiffers v w) ∧
      (SignaturesCover crypto v w ↔ ¬OnlyProtoDiffers v w)) ∧
    ∀ e e' : Envelope N,
      SignaturesCover crypto (envelopeSigningView e) (envelopeSigningView e') ↔
        ¬OnlyProtoDiffers (envelopeSigningView e) (envelopeSigningView e') := by
  have hsigned : ∀ v w : Json N, SignaturesCover crypto v w ↔ ¬OnlyProtoDiffers v w :=
    fun v w => (signaturesCover_iff hunforgeable hsign v w).trans (tellsApart_canonicalize_iff v w)
  refine ⟨fun v w => ⟨tellsApart_canonicalize_iff v w, ?_, hsigned v w⟩,
    fun e e' => hsigned _ _⟩
  rw [← tellsApart_canonicalize_iff]
  exact tellsApart_iff_of_text (fun _ _ => computeHash_eq_ok) (hash_injective hsha256) v w

end Covers

/-! ## An envelope and the same with a member more -/

/-- `{"id":"env:1","body":{"kind":"task"}}` -/
def plainEnvelope : Envelope Int :=
  [(js "body", .obj [(js "kind", .str (js "task"))]), (js "id", .str (js "env:1"))]

/-- `{"id":"env:1","body":{"__proto__":{"approve":true},"kind":"task"}}` -/
def extendedEnvelope : Envelope Int :=
  [(js "body", .obj [(js "__proto__", .obj [(js "approve", .bool true)]),
      (js "kind", .str (js "task"))]),
    (js "id", .str (js "env:1"))]

theorem extended_ne_plain :
    ¬(Json.obj extendedEnvelope).SameMembers (.obj plainEnvelope) := by
  have hkinds : ((Json.obj extendedEnvelope).ordered.get (js "body")).bind
      (fun body => (body.get (js "kind")).map fun _ => (body.get (js "__proto__")).isSome) =
        some true := by decide
  intro h
  rw [h] at hkinds
  exact absurd hkinds (by decide)

/-- Two parsed values with one canonical text that differ in more than the order of members. -/
theorem canonical_text_shared :
    ¬∀ (s s' : List Char) (v w : Json Int) (t : List Char), Json.parse s = some v →
      Json.parse s' = some w → canonicalize v = .ok t → canonicalize w = .ok t →
        v.SameMembers w := by
  intro h
  have hv : (Json.obj extendedEnvelope).Canonical := by decide
  have hw : (Json.obj plainEnvelope).Canonical := by decide
  exact extended_ne_plain (h _ _ _ _ (Json.obj plainEnvelope).render
    (Json.parse_render_self hv) (Json.parse_render_self hw) rfl rfl)

/-- Signatures that are the message: nothing else is signed by them. -/
def plainCrypto : NodeCrypto Int where
  Key := Unit
  createPublicKey _ := some ()
  fromBase64
    | .str s => some (s.units.map UInt16.toUInt8)
    | _ => none
  verify message _ raw := message == raw

/-- Hashes that are the bytes. -/
theorem plainHash_injective : Function.Injective fun bytes : List UInt8 =>
    (⟨bytes.map UInt8.toUInt16⟩ : JsString) := by
  intro a b h
  apply List.map_injective_iff.mpr _ (JsString.mk.inj h)
  intro x y hxy
  simpa using congrArg UInt16.toUInt8 hxy

/-- A signature over an envelope is one over the envelope with a member more in its body. -/
theorem extended_envelope_covered :
    ¬SignaturesCover plainCrypto (envelopeSigningView extendedEnvelope)
      (envelopeSigningView plainEnvelope) := by
  have hunforgeable : Unforgeable plainCrypto := by
    intro _ raw message message' h h'
    exact (eq_of_beq h).trans (eq_of_beq h').symm
  have hsign : CanSign plainCrypto := by
    intro message
    refine ⟨.null, (), .str ⟨message.map UInt8.toUInt16⟩, message, rfl, ?_, beq_self_eq_true _⟩
    have hbyte : UInt16.toUInt8 ∘ UInt8.toUInt16 = id := by
      ext x
      simp
    simp [plainCrypto, hbyte]
  have hv : (Json.obj extendedEnvelope).Canonical := by decide
  have hw : (Json.obj plainEnvelope).Canonical := by decide
  rw [(signed_content_iff plainHash_injective hunforgeable hsign).2, not_not]
  exact ⟨allFinite_of_canonical hv, allFinite_of_canonical hw, extended_ne_plain, rfl⟩

end H2a.Protocol
