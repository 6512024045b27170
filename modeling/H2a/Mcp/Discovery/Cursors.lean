import H2a.Library.Jsonl
import H2a.Library.Result
import H2a.Mcp.Discovery.Pager
import H2a.Mcp.FrameSizes
import H2a.Mcp.PayloadKept
/-!
# The cursors of discovery

A cursor the pager gives is short enough to be sent back, and is read back as what it was made from
(`decode_cursorAt`).
-/

namespace H2a.Mcp.Discovery

open H2a.Library

/-! ## What is relied on -/

/-- What `node:crypto` and `Buffer` promise. -/
structure DiscoveryHost.Sound (host : DiscoveryHost) : Prop where
  sha256_length : ∀ bytes, (host.sha256 bytes).length = 32
  hmac_length : ∀ secret text, (host.hmacSha256 secret text).length = 32
  fromBase64url_b64url : ∀ bytes, host.fromBase64url (b64url bytes) = bytes

/-- The epoch is a `randomUUID()`. -/
structure Pager.Sound {σ : Type} (pager : Pager σ) : Prop where
  host : pager.host.Sound
  epoch : pager.serverEpoch.units.length ≤ 36

/-! ## Filters -/

/-- A filter that passed its check. -/
structure PlainText (maxBytes : Nat) (s : JsString) : Prop where
  nonempty : s.units ≠ []
  printable : ∀ u ∈ s.units, 0x20 ≤ u.toNat
  short : Utf8.byteLength s ≤ maxBytes

def PlainFilter (maxBytes : Nat) (filter : Option JsString) : Prop :=
  ∀ s, filter = some s → PlainText maxBytes s

/-- A position whose filters and limit passed their checks. -/
structure Position.Plain (p : Position) : Prop where
  role : PlainFilter maxRoleBytes p.role
  scope : PlainFilter maxScopeBytes p.scope
  limit_pos : 1 ≤ p.limit
  limit_le : p.limit ≤ maxLimit

theorem filterOf_getD {maxBytes : Nat} {filter : Option JsString}
    (h : PlainFilter maxBytes filter) :
    filterOf (filter.getD (js "")) = filter := by
  cases filter with
  | none => rfl
  | some s =>
      have hne : s.units.isEmpty = false := by
        rw [List.isEmpty_eq_false_iff]
        exact (h s rfl).nonempty
      rw [Option.getD_some, filterOf, hne]
      rfl

section Checks

variable {N : Type}

theorem validateFilter_ok {value : Option (Json N)} {maxBytes : Nat} {filter : Option JsString}
    (h : validateFilter value maxBytes = .ok filter) : PlainFilter maxBytes filter := by
  intro s hs
  unfold validateFilter at h
  split at h
  · rw [← Except.ok.inj h] at hs
    cases hs
  · rename_i text
    obtain ⟨hplain, h⟩ := ok_of_guard h
    obtain ⟨hshort, h⟩ := ok_of_guard h
    rw [← Except.ok.inj h] at hs
    split at hs
    · cases hs
    · rename_i hempty
      obtain rfl := Option.some.inj hs
      refine ⟨fun hnil => hempty (List.isEmpty_iff.mpr hnil), fun u hu => ?_, Nat.not_lt.mp hshort⟩
      by_contra hsmall
      refine hplain (List.any_eq_true.mpr ⟨u, hu, ?_⟩)
      rw [isC0OrDel, Bool.or_eq_true, decide_eq_true_eq]
      omega
  · cases h

theorem validateLimit_ok [JsonNumber N] {value : Option (Json N)} {limit : Option Int}
    (h : validateLimit value = .ok limit) :
    1 ≤ limit.getD defaultLimit ∧ limit.getD defaultLimit ≤ maxLimit := by
  unfold validateLimit at h
  split at h
  · rw [← Except.ok.inj h]
    decide
  · split at h
    · obtain ⟨hrange, h⟩ := ok_of_guard h
      rw [← Except.ok.inj h, Option.getD_some]
      omega
    · cases h

end Checks

/-! ## Texts -/

theorem unitsOf_encodeUrl (bytes : List UInt8) :
    (b64url bytes).units = (Base64.encodeUrl bytes).map fun c => UInt16.ofNat c.toNat := by
  rw [b64url, unitsOf, List.map_eq_flatMap]
  refine List.flatMap_congr fun c hc => ?_
  have hc' := (Base64.encodeUrl_mem hc).2
  rw [JsString.utf16, if_pos (by omega)]

theorem length_b64url (bytes : List UInt8) :
    (b64url bytes).units.length ≤ 4 * ((bytes.length + 2) / 3) := by
  rw [unitsOf_encodeUrl, List.length_map]
  exact Base64.length_encodeUrl_le bytes

theorem b64url_ne_nil {bytes : List UInt8} (h : bytes ≠ []) : (b64url bytes).units ≠ [] := by
  rw [unitsOf_encodeUrl]
  exact fun hnil => Base64.encodeUrl_ne_nil h (List.map_eq_nil_iff.mp hnil)

theorem mem_b64url {bytes : List UInt8} {u : UInt16} (hu : u ∈ (b64url bytes).units) :
    u.toNat ≠ 0x2E ∧ 0x20 ≤ u.toNat ∧ u.toNat < 0x80 ∧ u.toNat ≠ 0x22 ∧ u.toNat ≠ 0x5C := by
  rw [unitsOf_encodeUrl] at hu
  obtain ⟨c, hc, rfl⟩ := List.mem_map.mp hu
  have hdigit := Base64.encodeUrl_mem hc
  rw [UInt16.toNat_ofNat', Nat.mod_eq_of_lt (by omega)]
  exact hdigit

theorem PlainFilter.size_quote_le {maxBytes : Nat} {filter : Option JsString}
    (h : PlainFilter maxBytes filter) :
    Utf8.size (quote (filter.getD (js ""))) ≤ 2 * maxBytes + 2 := by
  cases filter with
  | none =>
      have hempty : Utf8.size (quote (js "")) = 2 := by decide
      rw [Option.getD_none, hempty]
      omega
  | some s =>
      have hs := h s rfl
      have hquote := size_quote_plain hs.printable
      have hshort := hs.short
      rw [Option.getD_some]
      omega

/-! ## Reading a cursor back -/

section Cursors

variable {N : Type} [JsonNumber N] {σ : Type} {pager : Pager σ}

theorem splitCursor_encodeCursor (payload : CursorPayload) :
    splitCursor (encodeCursor N pager payload) =
      (cursorBody N payload, b64url (macFor pager (cursorBody N payload))) := by
  have hbody : ∀ u ∈ (cursorBody N payload).units, decide (u ≠ 0x2E) = true :=
    fun u hu => decide_eq_true fun heq => (mem_b64url hu).1 (congrArg UInt16.toNat heq)
  have hdot : (js ".").units = [0x2E] := by decide
  rw [splitCursor, encodeCursor, JsString.append_units, JsString.append_units, hdot,
    List.append_assoc, List.takeWhile_append_of_pos hbody, List.dropWhile_append_of_pos hbody]
  simp

/-- A payload is read back from its JSON. -/
theorem payloadOf_json {payload : CursorPayload} (hl : 0 ≤ payload.l) :
    payloadOf (payload.json N).ordered = some payload := by
  have hnodup : ([js "v", js "e", js "g", js "o", js "l", js "r", js "s"] :
      List JsString).Nodup := by decide
  obtain ⟨k, hk⟩ := Int.eq_ofNat_of_zero_le hl
  obtain ⟨e, g, o, l, r, s⟩ := payload
  subst hk
  have hget : ∀ key, ((CursorPayload.mk e g o (k : Int) r s).json N).ordered.get key = _ :=
    fun key => Json.get_ordered (by rw [List.map]; exact hnodup) key
  rw [payloadOf]
  simp only [hget]
  simp [lookupMember, JsString.ofString, JsString.utf16, textOf, intOf, Json.ordered,
    JsonNumber.toInt?_ofNat, intNumber]

theorem printable_json {payload : CursorPayload} (hl : 0 ≤ payload.l) :
    (payload.json N).Printable := by
  obtain ⟨k, hk⟩ := Int.eq_ofNat_of_zero_le hl
  obtain ⟨e, g, o, l, r, s⟩ := payload
  subst hk
  rw [CursorPayload.json, Json.printable_obj]
  simp [Json.Printable, intNumber, JsonNumber.isFinite_ofNat]

/-- What a pager puts into a cursor. -/
structure ShortPayload (p : CursorPayload) : Prop where
  epoch : p.e.units.length ≤ 36
  generation : p.g.units.length ≤ 71
  offset : p.o < 10 ^ 21
  limit_pos : 0 ≤ p.l
  limit_le : p.l ≤ maxLimit
  role : Utf8.size (quote p.r) ≤ 2 * maxRoleBytes + 2
  scope : Utf8.size (quote p.s) ≤ 2 * maxScopeBytes + 2

theorem size_intNumber_le (hnumbers : PrintsIntegers N) {l : Int} (hl : 0 ≤ l)
    (hle : l ≤ maxLimit) : (Json.num (intNumber l : N)).size ≤ 21 := by
  obtain ⟨k, rfl⟩ := Int.eq_ofNat_of_zero_le hl
  exact size_counter_le hnumbers (by unfold maxLimit at hle; omega)

theorem size_payload_le (hnumbers : PrintsIntegers N) {p : CursorPayload} (hp : ShortPayload p) :
    (p.json N).size ≤ 1420 := by
  have hkeys : Utf8.size (quote (js "v")) = 3 ∧ Utf8.size (quote (js "e")) = 3 ∧
      Utf8.size (quote (js "g")) = 3 ∧ Utf8.size (quote (js "o")) = 3 ∧
      Utf8.size (quote (js "l")) = 3 ∧ Utf8.size (quote (js "r")) = 3 ∧
      Utf8.size (quote (js "s")) = 3 := by decide
  have hversion := size_counter_le hnumbers (k := 1) (by decide)
  have hoffset := size_counter_le hnumbers hp.offset
  have hlimit := size_intNumber_le hnumbers hp.limit_pos hp.limit_le
  have hepoch := size_quote_le p.e
  have hgeneration := size_quote_le p.g
  have he := hp.epoch
  have hg := hp.generation
  have hrole := hp.role
  have hscope := hp.scope
  unfold maxRoleBytes at hrole
  unfold maxScopeBytes at hscope
  rw [CursorPayload.json, Json.size_obj]
  simp only [List.map_cons, List.map_nil, List.sum_cons, List.sum_nil, Json.size_str, hkeys]
  omega

theorem length_encodeCursor_le (hhost : pager.host.Sound) (hnumbers : PrintsIntegers N)
    {p : CursorPayload} (hp : ShortPayload p) :
    (encodeCursor N pager p).units.length ≤ maxCursorChars := by
  have hsize := size_payload_le hnumbers hp
  have hbody := length_b64url (Utf8.encode (p.json N).render)
  have hmac := length_b64url (macFor pager (cursorBody N p))
  have hdot : (js ".").units.length = 1 := by decide
  rw [macFor, hhost.hmac_length] at hmac
  change (cursorBody N p).units.length ≤ 4 * (((p.json N).size + 2) / 3) at hbody
  rw [encodeCursor, JsString.append_units, JsString.append_units, List.length_append,
    List.length_append, hdot, macFor]
  unfold maxCursorChars
  omega

variable (N) in
/-- What the body of a cursor is read as. -/
def readBody (pager : Pager σ) (body : JsString) : Option CursorPayload :=
  (Json.parse (Utf8.decode (pager.host.fromBase64url body)) : Option (Json N)).bind payloadOf

theorem readBody_cursorBody (hhost : pager.host.Sound) {p : CursorPayload} (hl : 0 ≤ p.l) :
    readBody N pager (cursorBody N p) = some p := by
  rw [readBody, cursorBody, hhost.fromBase64url_b64url, Utf8.decode_encode,
    Json.parse_stringify (printable_json hl), Option.bind_some]
  exact payloadOf_json hl

/-- What a cursor that is accepted has: a body that is read, under its own code. -/
theorem decodeCursor_ok {raw : JsString} {p : CursorPayload}
    (h : decodeCursor N pager raw = .ok p) :
    readBody N pager (splitCursor raw).1 = some p ∧
      pager.host.fromBase64url (splitCursor raw).2 = macFor pager (splitCursor raw).1 := by
  unfold decodeCursor at h
  split at h
  · cases h
  · dsimp only at h
    split at h
    · cases h
    · split at h
      · cases h
      · rename_i payload hread
        split at h
        · rename_i hmac
          split at h
          · cases h
          · rw [← Except.ok.inj h]
            exact ⟨hread, hmac⟩
        · split at h <;> cases h

/-- A cursor of this pager is read back. -/
theorem decodeCursor_encodeCursor (hhost : pager.host.Sound) (hnumbers : PrintsIntegers N)
    {p : CursorPayload} (hp : ShortPayload p) (hepoch : p.e = pager.serverEpoch) :
    decodeCursor N pager (encodeCursor N pager p) = .ok p := by
  have hlength := length_encodeCursor_le (N := N) hhost hnumbers hp
  have hprintable : (p.json N).Printable := printable_json hp.limit_pos
  have hbody : (cursorBody N p).units ≠ [] := by
    refine b64url_ne_nil fun hnil => render_ne_nil hprintable ?_
    have hdecode := Utf8.decode_encode (p.json N).render
    rw [hnil] at hdecode
    exact hdecode.symm
  have hmac : (b64url (macFor pager (cursorBody N p))).units ≠ [] := by
    refine b64url_ne_nil fun hnil => ?_
    have hlength := hhost.hmac_length pager.secret (utf8Bytes (cursorBody N p))
    rw [macFor] at hnil
    rw [hnil] at hlength
    cases hlength
  have hread := readBody_cursorBody (N := N) hhost hp.limit_pos
  unfold readBody at hread
  have hlong : ((encodeCursor N pager p).units.isEmpty ||
      decide (maxCursorChars < (encodeCursor N pager p).units.length)) = false := by
    rw [Bool.or_eq_false_iff, decide_eq_false_iff_not, List.isEmpty_eq_false_iff]
    refine ⟨?_, Nat.not_lt.mpr hlength⟩
    rw [encodeCursor, JsString.append_units, JsString.append_units]
    simp [hbody]
  have hparts : ((cursorBody N p).units.isEmpty ||
      (b64url (macFor pager (cursorBody N p))).units.isEmpty) = false := by
    rw [Bool.or_eq_false_iff, List.isEmpty_eq_false_iff, List.isEmpty_eq_false_iff]
    exact ⟨hbody, hmac⟩
  unfold decodeCursor
  rw [hlong, splitCursor_encodeCursor]
  simp only [Bool.false_eq_true, if_false, hparts, hread, hhost.fromBase64url_b64url, if_true,
    hepoch, ne_eq, not_true_eq_false]

theorem length_computeGeneration {host : DiscoveryHost} (hhost : host.Sound)
    (capture : SourceCapture) : (computeGeneration host capture).units.length = 71 := by
  rw [computeGeneration, JsString.append_units, List.length_append, hexText_length,
    hhost.sha256_length]
  decide

/-- What the pager pages: a position that passed its checks in a listing of a possible length. -/
structure Selection.Sound (pager : Pager σ) (sel : Selection N) : Prop where
  plain : sel.position.Plain
  generation : ∃ capture, sel.generation = computeGeneration pager.host capture
  offset : sel.position.offset ≤ sel.total
  total : sel.total < 10 ^ 21

/-- What a cursor of the pager stands for. -/
def payloadAt (pager : Pager σ) (sel : Selection N) (offset : Nat) : CursorPayload :=
  ⟨pager.serverEpoch, sel.generation, offset, sel.position.limit,
    sel.position.role.getD (js ""), sel.position.scope.getD (js "")⟩

omit [JsonNumber N] in
theorem shortPayload_payloadAt (hpager : pager.Sound) {sel : Selection N} (hsel : sel.Sound pager)
    {offset : Nat} (hoffset : offset ≤ sel.total) : ShortPayload (payloadAt pager sel offset) := by
  obtain ⟨capture, hcapture⟩ := hsel.generation
  have hgeneration : sel.generation.units.length ≤ 71 := by
    rw [hcapture, length_computeGeneration hpager.host]
  exact ⟨hpager.epoch, hgeneration, Nat.lt_of_le_of_lt hoffset hsel.total,
    Int.le_trans (by decide) hsel.plain.limit_pos, hsel.plain.limit_le,
    hsel.plain.role.size_quote_le, hsel.plain.scope.size_quote_le⟩

/-- A cursor the pager gives is read back. -/
theorem decode_cursorAt (hpager : pager.Sound) (hnumbers : PrintsIntegers N) {sel : Selection N}
    (hsel : sel.Sound pager) {offset : Nat} (hoffset : offset ≤ sel.total) :
    decodeCursor N pager (cursorAt pager sel offset) = .ok (payloadAt pager sel offset) :=
  decodeCursor_encodeCursor hpager.host hnumbers (shortPayload_payloadAt hpager hsel hoffset) rfl

/-- It passes the check of its form. -/
theorem validateCursor_cursorAt (hpager : pager.Sound) (hnumbers : PrintsIntegers N)
    {sel : Selection N} (hsel : sel.Sound pager) {offset : Nat} (hoffset : offset ≤ sel.total) :
    validateCursor (some (.str (cursorAt pager sel offset)) : Option (Json N)) =
      .ok (some (cursorAt pager sel offset)) := by
  have hlength := length_encodeCursor_le (N := N) hpager.host hnumbers
    (shortPayload_payloadAt hpager hsel hoffset)
  have hdecode := decode_cursorAt hpager hnumbers hsel hoffset
  have hnonempty : (cursorAt pager sel offset).units.isEmpty = false := by
    rw [Bool.eq_false_iff]
    intro hempty
    rw [decodeCursor, hempty] at hdecode
    cases hdecode
  have hshort : decide (maxCursorChars < (cursorAt pager sel offset).units.length) = false :=
    decide_eq_false (Nat.not_lt.mpr hlength)
  rw [validateCursor, hnonempty, hshort]
  rfl

end Cursors

end H2a.Mcp.Discovery
