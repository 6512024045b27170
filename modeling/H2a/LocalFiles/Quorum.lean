import H2a.Library.JsonOrder
import H2a.LocalFiles.Finality
/-!
# The quorum of a stabilization

`stabilizeNegotiation` verifies signatures against the keys of the registration, and
`listInstanceKeys` lists the keys that are active: "the verifier stops accepting" a
revoked key.  A stabilization is decided by signatures of active keys, and accepts them,
exactly when the two lists verify the same signatures (`quorum_sound_iff`).
-/

namespace H2a.LocalFiles

open H2a.Library H2a.Protocol

variable {N : Type} [JsonNumber N]

/-! ## What is checked, and what should be -/

/-- The keys of the registration. -/
def Registry.registeredKeys (registry : Registry) (signer : JsString) : List JsString :=
  ((registry.findInstance signer).map (·.publicKeys)).getD []

/-- The roles of the registration. -/
def Registry.rolesOf (registry : Registry) (signer : JsString) : List H2ARole :=
  ((registry.findInstance signer).map (·.roles)).getD []

/-- The signature verifies over the hash under a key. -/
def Verifies (crypto : NodeCrypto N) (hash : JsString) (signature : Json N) (pem : JsString) :
    Prop :=
  verifyCanonical crypto (signedHash hash) signature (.str pem) = .ok true

/-- A signature entry over a hash, made by `signer`. -/
structure SignedBy (signer hash : JsString) (signature entry : Json N) : Prop where
  signature_eq : signatureOf entry = some (hash, signature)
  actor_eq : actorInstance entry = .ok (some (.str signer))
  by_eq : signature.get (js "by") = some (.str signer)

/-- The signer has a role allowed for the kind of the artifact, when that kind is known. -/
def MaySign (registry : Registry) (signer : JsString) (artifact : Json N) : Prop :=
  ∀ kind, artifactKind artifact = some kind →
    ∃ role ∈ registry.rolesOf signer, canSignArtifactKind role kind = true

/-- Each required signer signed the hash of the persisted artifact with an active key. -/
def QuorumHeld (crypto : NodeCrypto N) (sha256 : List UInt8 → JsString) (registry : Registry)
    (required entries : List (Json N)) (result : StabilizeResult N)
    (files : NegotiationFiles N) : Prop :=
  ∃ artifact, files.artifacts.get result.artifactPath = some artifact ∧
    computeHash sha256 artifact = .ok result.artifactHash ∧
    ∀ id ∈ required, ∃ signer, id = .str signer ∧ MaySign registry signer artifact ∧
      ∃ entry ∈ entries, ∃ signature, SignedBy signer result.artifactHash signature entry ∧
        ∃ pem ∈ registry.listInstanceKeys signer, Verifies crypto result.artifactHash signature pem

/-- A stabilization that returns was decided by signatures of active keys. -/
def StabilizationsSound (crypto : NodeCrypto N) (sha256 : List UInt8 → JsString)
    (registry : Registry) : Prop :=
  ∀ (env : StabilizeEnv N) (id eventId : JsString) (files files' : NegotiationFiles N)
    (result : StabilizeResult N), env.crypto = crypto → env.sha256 = sha256 →
    (stabilizeNegotiation env registry id eventId).run.run files = (.ok result, files') →
      ∃ record required entries, files.state = some record ∧
        signersOf record = some required ∧
        readNegotiationJournal sha256 id files.journal = .ok entries ∧
        QuorumHeld crypto sha256 registry required entries result files'

/-- A required signer's signature by an added key that is still active is accepted as such. -/
def AddedKeysAccepted (crypto : NodeCrypto N) (sha256 : List UInt8 → JsString)
    (registry : Registry) : Prop :=
  ∀ (id : JsString) (files : NegotiationFiles N) (record : Members N)
    (required entries : List (Json N)), files.state = some record →
    signersOf record = some required →
    readNegotiationJournal sha256 id files.journal = .ok entries →
    ∀ signer hash signature, ∀ entry ∈ entries, .str signer ∈ required →
      SignedBy signer hash signature entry →
      (∃ pem ∈ registry.eventKeys signer .added, pem ∈ registry.listInstanceKeys signer ∧
        Verifies crypto hash signature pem) →
      checkSignature crypto registry id entry hash signature = .ok signer

/-- The keys of the registrations and the active keys verify the same signatures. -/
structure KeysAgree (crypto : NodeCrypto N) (sha256 : List UInt8 → JsString)
    (registry : Registry) : Prop where
  /-- over the hash of an artifact that the signer may sign -/
  registered : ∀ (signer hash : JsString) (signature artifact : Json N), signature.Canonical →
    artifact.Canonical → signature.get (js "by") = some (.str signer) →
    computeHash sha256 artifact = .ok hash → MaySign registry signer artifact →
    (∃ pem ∈ registry.registeredKeys signer, Verifies crypto hash signature pem) →
      ∃ pem ∈ registry.listInstanceKeys signer, Verifies crypto hash signature pem
  active : ∀ (signer hash : JsString) (signature : Json N), signature.Canonical →
    signature.get (js "by") = some (.str signer) →
    (∃ pem ∈ registry.listInstanceKeys signer, Verifies crypto hash signature pem) →
      ∃ pem ∈ registry.registeredKeys signer, Verifies crypto hash signature pem

/-! ## The check of one signature -/

section Checks

variable {crypto : NodeCrypto N} {sha256 : List UInt8 → JsString} {registry : Registry}
  {id signer hash : JsString} {entry signature : Json N}

/-- A signature that verifies under one key throws under no other. -/
theorem verifyCanonical_ok {value value' : Json N} {pem : Json N} {t : List Char}
    (h : verifyCanonical crypto value signature pem = .ok true) (ht : canonicalize value' = .ok t)
    (pem' : Json N) : ∃ b, verifyCanonical crypto value' signature pem' = .ok b := by
  have hmember : signature.member (js "alg") = .ok (signature.get (js "alg")) := by
    cases signature with
    | null => exact absurd (verifyCanonical_eq_true.mp h).1 (by simp [Json.get, Json.isText])
    | _ => rfl
  rw [verifyCanonical, hmember, ok_bind, (verifyCanonical_eq_true.mp h).1, if_pos rfl]
  cases crypto.createPublicKey pem' with
  | none => exact ⟨false, rfl⟩
  | some key =>
      rw [ht]
      cases (signature.get (js "value")).bind crypto.fromBase64 <;> exact ⟨_, rfl⟩

theorem someKeyVerifies_eq_true {keys : List JsString} :
    someKeyVerifies crypto hash signature keys = .ok true ↔
      ∃ pem ∈ keys, Verifies crypto hash signature pem := by
  induction keys with
  | nil => simp [someKeyVerifies]
  | cons pem keys ih =>
      rw [someKeyVerifies, List.exists_mem_cons_iff, ← ih]
      constructor
      · intro h
        obtain ⟨verified, hverified, hrest⟩ := bind_eq_ok_iff.mp h
        cases verified with
        | true => exact Or.inl hverified
        | false => exact Or.inr hrest
      · rintro (h | h)
        · rw [h]
          rfl
        · obtain ⟨pem', -, hpem'⟩ := ih.mp h
          obtain ⟨-, _, t, _, -, ht, -⟩ := verifyCanonical_eq_true.mp hpem'
          obtain ⟨verified, hverified⟩ := verifyCanonical_ok hpem' ht (.str pem)
          rw [hverified]
          cases verified with
          | true => rfl
          | false => exact h

omit [JsonNumber N] in
theorem registrationOf_eq_some {actor : Option (Json N)} {registration : H2AActorRegistration} :
    registrationOf registry actor = some registration ↔
      actor = some (.str registration.id) ∧
        registry.findInstance registration.id = some registration := by
  constructor
  · intro h
    unfold registrationOf at h
    split at h
    · rename_i id
      obtain rfl : registration.id = id := by simpa using List.find?_some h
      exact ⟨rfl, h⟩
    · simp at h
  · rintro ⟨rfl, h⟩
    exact h

/-- A signature is accepted when it is the actor's own and verifies under a registered key. -/
theorem checkSignature_eq_ok :
    checkSignature crypto registry id entry hash signature = .ok signer ↔
      actorInstance entry = .ok (some (.str signer)) ∧
        signature.get (js "by") = some (.str signer) ∧
        ∃ pem ∈ registry.registeredKeys signer, Verifies crypto hash signature pem := by
  simp only [checkSignature, bind_eq_ok_iff, orThrow_eq_ok, refuseWhen_eq_ok, pure_eq_ok,
    registrationOf_eq_some]
  constructor
  · rintro ⟨actor, hactor, _, hby, registration, ⟨rfl, hfind⟩, _, -, verified, hverified, _,
      htrue, hsigner⟩
    obtain rfl := Except.ok.inj hsigner
    obtain rfl : verified = true := by simpa using htrue
    refine ⟨hactor, ?_, ?_⟩
    · cases hget : signature.get (js "by") with
      | none => simp [hget, Json.strictEq] at hby
      | some v => cases v <;> simp_all [Json.strictEq]
    · rw [Registry.registeredKeys, hfind]
      exact someKeyVerifies_eq_true.mp hverified
  · rintro ⟨hactor, hby, hverifies⟩
    obtain ⟨registration, hfind⟩ : ∃ registration, registry.findInstance signer =
        some registration := by
      cases hfind : registry.findInstance signer with
      | none => simp [Registry.registeredKeys, hfind] at hverifies
      | some registration => exact ⟨registration, rfl⟩
    obtain rfl : registration.id = signer := by simpa using List.find?_some hfind
    rw [Registry.registeredKeys, hfind] at hverifies
    have hkeys : registration.publicKeys.isEmpty = false := by
      obtain ⟨pem, hpem, -⟩ := hverifies
      simpa using List.ne_nil_of_mem hpem
    refine ⟨_, hactor, (), ?_, registration, ⟨rfl, hfind⟩, (), hkeys, true,
      someKeyVerifies_eq_true.mpr hverifies, (), rfl, rfl⟩
    rw [hby]
    simp [Json.strictEq]

end Checks

/-! ## What the loops of a stabilization find -/

section Loops

variable {crypto : NodeCrypto N} {sha256 : List UInt8 → JsString} {registry : Registry}
  {id hash : JsString} {entries : List (Json N)}

/-- Each collected signature is that of an entry that passed the check. -/
def Collected (crypto : NodeCrypto N) (registry : Registry) (id : JsString)
    (entries : List (Json N)) (byHash : SignaturesByHash N) : Prop :=
  ∀ hash bucket signer, byHash.get hash = some bucket → bucket.has signer = true →
    ∃ entry ∈ entries, ∃ signature, signatureOf entry = some (hash, signature) ∧
      checkSignature crypto registry id entry hash signature = .ok signer

theorem Collected.step {byHash byHash' : SignaturesByHash N}
    (h : Collected crypto registry id entries byHash) {entry : Json N} (hentry : entry ∈ entries)
    (hstep : collectSignature crypto registry id byHash entry = .ok byHash') :
    Collected crypto registry id entries byHash' := by
  rw [collectSignature] at hstep
  split at hstep
  · exact Except.ok.inj hstep ▸ h
  · rename_i hash signature hsignature
    obtain ⟨signer, hchecked, hset⟩ := bind_eq_ok_iff.mp hstep
    obtain rfl := Except.ok.inj hset
    intro hash' bucket signer' hbucket hsigner'
    by_cases hhash : hash' = hash
    · rw [hhash, JsMap.get_set_self] at hbucket
      obtain rfl := Option.some.inj hbucket
      by_cases hsigner : signer' = signer
      · exact ⟨entry, hentry, signature, hhash ▸ hsignature, hhash ▸ hsigner ▸ hchecked⟩
      · rw [JsMap.has, JsMap.get_set_of_ne _ _ hsigner] at hsigner'
        cases hget : byHash.get hash with
        | none =>
            rw [hget, Option.getD_none] at hsigner'
            exact absurd hsigner' (by simp [JsMap.empty, JsMap.get, getEntries])
        | some bucket' =>
            rw [hget, Option.getD_some] at hsigner'
            exact hhash ▸ h hash bucket' signer' hget hsigner'
    · rw [JsMap.get_set_of_ne _ _ hhash] at hbucket
      exact h hash' bucket signer' hbucket hsigner'

theorem collected_of_foldlM {byHash : SignaturesByHash N}
    (h : entries.foldlM (collectSignature crypto registry id) .empty = .ok byHash) :
    Collected crypto registry id entries byHash :=
  foldlM_ok_keeps (P := Collected crypto registry id entries)
    (fun _ hentry _ _ hcollected hstep => hcollected.step hentry hstep)
    (fun _ _ _ hbucket => absurd hbucket (by simp [JsMap.empty, JsMap.get, getEntries])) h

/-- A required signer is a text, and has a signature that passed the check. -/
theorem signed_of_winner {required : List (Json N)} {byHash : SignaturesByHash N}
    {bucket : JsMap JsString (Json N)} (h : Collected crypto registry id entries byHash)
    (hwinner : findWinner required byHash = some (hash, bucket)) {member : Json N}
    (hmember : member ∈ required) :
    ∃ signer, member = .str signer ∧ bucket.has signer = true ∧ ∃ entry ∈ entries, ∃ signature,
      signatureOf entry = some (hash, signature) ∧
        checkSignature crypto registry id entry hash signature = .ok signer := by
  have hbucket : byHash.get hash = some bucket :=
    (JsMap.mem_entries_iff _ _ _).mp (List.mem_of_find?_eq_some hwinner)
  have hall : hasQuorum required bucket = true := by simpa using List.find?_some hwinner
  have hquorum := List.all_eq_true.mp hall member hmember
  cases member with
  | str signer => exact ⟨signer, rfl, hquorum, h hash bucket signer hbucket hquorum⟩
  | _ => simp at hquorum

theorem findArtifact_eq_some {artifact : Json N}
    (h : findArtifact sha256 hash entries = .ok (some artifact)) :
    computeHash sha256 artifact = .ok hash ∧
      ∃ entry ∈ entries, ∃ body, entry.get (js "body") = some body ∧
        body.get (js "artifact") = some artifact := by
  induction entries with
  | nil => simp [findArtifact] at h
  | cons entry entries ih =>
      rw [findArtifact] at h
      split at h
      · obtain ⟨hhash, entry', hentry', hbody⟩ := ih h
        exact ⟨hhash, entry', List.mem_cons_of_mem _ hentry', hbody⟩
      · rename_i artifact' hartifact
        obtain ⟨hash', hhash, h⟩ := bind_eq_ok_iff.mp h
        split_ifs at h with heq
        · obtain rfl := Option.some.inj (Except.ok.inj h)
          exact ⟨heq ▸ hhash, entry, List.mem_cons_self, Option.bind_eq_some_iff.mp hartifact⟩
        · obtain ⟨hhash', entry', hentry', hbody⟩ := ih h
          exact ⟨hhash', entry', List.mem_cons_of_mem _ hentry', hbody⟩

omit [JsonNumber N] in
theorem maySign_of_check {artifact : Json N} {signers : List JsString}
    (h : checkKnownKind registry id artifact signers = .ok ()) {signer : JsString}
    (hsigner : signer ∈ signers) : MaySign registry signer artifact := by
  intro kind hkind
  rw [checkKnownKind, hkind] at h
  dsimp only at h
  induction signers with
  | nil => simp at hsigner
  | cons signer' signers ih =>
      rw [checkAuthority] at h
      dsimp only at h
      split_ifs at h with hallowed
      · rcases List.mem_cons.mp hsigner with rfl | hsigner
        · exact List.any_eq_true.mp hallowed
        · exact ih hsigner h

end Loops

/-! ## What a journal holds -/

section Entries

variable {sha256 : List UInt8 → JsString} {id : JsString} {journal : FileBytes}
  {entries : List (Json N)} {entry body : Json N}

/-- The payload part of each entry of a verified chain has a hash. -/
theorem hash_of_verified {prev : Option (Json N)} {i : Nat}
    (h : verifyFrom sha256 prev i entries = .ok .ok) (hentry : entry ∈ entries) :
    ∃ hash, computeHash sha256 (stripFrame entry) = .ok hash := by
  induction entries generalizing prev i with
  | nil => simp at hentry
  | cons e entries ih =>
      rw [verifyFrom] at h
      obtain ⟨fault, hfault, h⟩ := bind_eq_ok_iff.mp h
      cases fault with
      | some reason => simp at h
      | none =>
          rcases List.mem_cons.mp hentry with rfl | hentry
          · obtain ⟨-, -, -, -, hash, hhash, -⟩ := entryFault_eq_none.mp hfault
            exact ⟨hash, hhash⟩
          · exact ih h hentry

theorem allFinite_of_hash {v : Json N} {hash : JsString} (h : computeHash sha256 v = .ok hash) :
    AllFinite v := by
  obtain ⟨_, htext, -⟩ := computeHash_eq_ok.mp h
  exact (canonicalize_eq_ok.mp htext).1

/-- The body of an entry that is read is a value that can be printed and read back. -/
theorem canonical_body (h : readNegotiationJournal sha256 id journal = .ok entries)
    (hentry : entry ∈ entries) (hbody : entry.get (js "body") = some body) : body.Canonical := by
  obtain ⟨hread, hverified⟩ := readNegotiationJournal_eq_ok.mp h
  have hinOrder := Json.readJsonl_inOrder hread hentry
  obtain ⟨hash, hhash⟩ := hash_of_verified hverified hentry
  have hfinite := allFinite_of_hash hhash
  cases entry with
  | obj members =>
      obtain ⟨hsorted, hmembers⟩ := Json.inOrder_obj.mp hinOrder
      have hstripped : (stripFrame (Json.obj members)).InOrder :=
        Json.inOrder_obj.mpr ⟨hsorted.filter _, fun m hm => hmembers m (List.mem_of_mem_filter hm)⟩
      apply (hstripped.canonical hfinite).get
      rw [stripFrame, Json.get, lookupMember_filter fun k => !frameKeys.contains k,
        if_pos (show (!frameKeys.contains (js "body")) = true by decide)]
      exact hbody
  | _ => simp [Json.get] at hbody

theorem canonical_signature {signer hash : JsString} {signature : Json N}
    (h : readNegotiationJournal sha256 id journal = .ok entries) (hentry : entry ∈ entries)
    (hsigned : SignedBy signer hash signature entry) : signature.Canonical := by
  obtain ⟨body, hbody, hsignature⟩ := Option.bind_eq_some_iff.mp hsigned.signature_eq
  apply (canonical_body h hentry hbody).get (k := js "signature")
  split_ifs at hsignature
  split at hsignature
  · rename_i signature' _ hget
    split_ifs at hsignature
    rw [hget, (Prod.mk.inj (Option.some.inj hsignature)).2]
  · simp at hsignature

end Entries

/-! ## Agreeing keys are enough -/

section Agreeing

variable {env : StabilizeEnv N} {registry : Registry} {id eventId : JsString}
  {files files' : NegotiationFiles N}

/-- What was written is the artifact that was found. -/
theorem persist_artifact {decision : Decision N} {result : StabilizeResult N}
    (h : (persist env decision eventId).run.run files = (.ok result, files')) :
    result.artifactHash = decision.winningHash ∧
      files'.artifacts.get result.artifactPath = some decision.winningArtifact.readBack := by
  obtain ⟨_, files₁, hartifact, h⟩ := stateRun_bind_eq_ok.mp h
  obtain ⟨entries, files₂, hevents, h⟩ := stateRun_bind_eq_ok.mp h
  rw [stateRun_modify_bind] at h
  obtain ⟨hresult, rfl⟩ := Prod.mk.inj h
  obtain rfl := Except.ok.inj hresult
  rw [writeArtifact, stateRun_get_bind] at hartifact
  obtain ⟨_, _, hrefuse, hartifact⟩ := stateRun_bind_eq_ok.mp hartifact
  obtain ⟨-, rfl⟩ := ofExcept_eq_ok.mp hrefuse
  let path := resolveStabilizedArtifactPath decision.winningArtifact decision.winningHash
  have hkeeps : Keeps (fun files => files.artifacts) (writeEvents env decision path eventId) :=
    keeps_writeEvents (fun _ _ => rfl) decision path
  have hkept := hkeeps files₁
  rw [hevents] at hkept
  refine ⟨rfl, ?_⟩
  change files₂.artifacts.get _ = _
  rw [show files₂.artifacts = files₁.artifacts from hkept, ← (Prod.mk.inj hartifact).2]
  exact JsMap.get_set_self _ _ _

theorem stabilizationsSound_of_registered {crypto : NodeCrypto N} {sha256 : List UInt8 → JsString}
    (h : KeysAgree crypto sha256 registry) : StabilizationsSound crypto sha256 registry := by
  rintro env id eventId files files' result rfl rfl hrun
  obtain ⟨decision, hdecided, hpersist⟩ := stabilize_eq_ok hrun
  obtain ⟨byHash, bucket, hcollected, hwinner, hkind⟩ := hdecided.quorum
  obtain ⟨hhash, entry, hentry, body, hbody, hget⟩ := findArtifact_eq_some hdecided.artifact
  have hartifact := (canonical_body hdecided.journal hentry hbody).get hget
  obtain ⟨hresult, hwritten⟩ := persist_artifact hpersist
  rw [hartifact.printable.readBack_eq, hartifact.ordered_eq] at hwritten
  refine ⟨decision.record, decision.requiredSigners, decision.entries, hdecided.state,
    hdecided.signers, hdecided.journal, decision.winningArtifact, hwritten, hresult ▸ hhash, ?_⟩
  intro member hmember
  obtain ⟨signer, rfl, hhas, entry', hentry', signature, hsignature, hchecked⟩ :=
    signed_of_winner (collected_of_foldlM hcollected) hwinner hmember
  obtain ⟨hactor, hby, hverifies⟩ := checkSignature_eq_ok.mp hchecked
  have hsigned : SignedBy signer decision.winningHash signature entry' :=
    ⟨hsignature, hactor, hby⟩
  have hmay : MaySign registry signer decision.winningArtifact := by
    apply maySign_of_check hkind
    obtain ⟨_, hget'⟩ := (JsMap.has_iff _ _).mp hhas
    exact List.mem_map_of_mem ((JsMap.mem_entries_iff _ _ _).mpr hget')
  refine ⟨signer, rfl, hmay, entry', hentry', signature, hresult ▸ hsigned, ?_⟩
  rw [hresult]
  exact h.registered signer _ signature _ (canonical_signature hdecided.journal hentry' hsigned)
    hartifact hby hhash hmay hverifies

theorem addedKeysAccepted_of_active {crypto : NodeCrypto N} {sha256 : List UInt8 → JsString}
    (h : KeysAgree crypto sha256 registry) : AddedKeysAccepted crypto sha256 registry := by
  intro id files record required entries _ _ hjournal signer hash signature entry hentry _ hsigned
    hverifies
  obtain ⟨pem, -, hactive, hverifies⟩ := hverifies
  exact checkSignature_eq_ok.mpr ⟨hsigned.actor_eq, hsigned.by_eq,
    h.active signer hash signature (canonical_signature hjournal hentry hsigned) hsigned.by_eq
      ⟨pem, hactive, hverifies⟩⟩

end Agreeing

/-! ## A negotiation of one signature -/

section Soles

/-- The body of an entry that offers an artifact and signs its hash. -/
def signingBody (hash : JsString) (signature artifact : Json N) : Json N :=
  .obj [(js "artifact", artifact), (js "artifactHash", .str hash),
    (js "kind", .str (js "signature")), (js "signature", signature)]

def signingPayload (signer hash : JsString) (signature artifact : Json N) : Members N :=
  [(js "actor", .obj [(js "instance", .str signer)]),
    (js "body", signingBody hash signature artifact)]

/-- The record of a negotiation that `signer` alone decides. -/
def recordOf (signer : JsString) : Members N :=
  [(js "requiredSigners", .arr [.str signer]), (js "status", .str (js "draft"))]

variable {sha256 : List UInt8 → JsString} {signer hash : JsString} {signature artifact : Json N}

theorem canonical_signingBody (hsignature : signature.Canonical) (hartifact : artifact.Canonical) :
    (signingBody hash signature artifact).Canonical := by
  have hkeys : [js "artifact", js "artifactHash", js "kind", js "signature"].Pairwise (· < ·) := by
    decide
  exact ⟨List.pairwise_map.mp hkeys, hartifact, trivial, trivial, hsignature, trivial⟩

theorem canonical_signingPayload (hsignature : signature.Canonical)
    (hartifact : artifact.Canonical) :
    (Json.obj (signingPayload signer hash signature artifact)).Canonical := by
  have hkeys : [js "actor", js "body"].Pairwise (· < ·) := by decide
  exact ⟨List.pairwise_map.mp hkeys, ⟨List.pairwise_singleton _ _, trivial, trivial⟩,
    canonical_signingBody hsignature hartifact, trivial⟩

theorem truthy_of_get {v member : Json N} {k : JsString} (h : v.get k = some member) :
    v.truthy = true := by
  cases v with
  | obj members => rfl
  | _ => simp [Json.get] at h

variable (sha256 hash) in
/-- A journal that holds the signature, and the artifact that it signs. -/
theorem exists_signingEntry (id : JsString) (hsignature : signature.Canonical)
    (hartifact : artifact.Canonical) (hby : signature.get (js "by") = some (.str signer)) :
    ∃ (journal : FileBytes) (entry : Json N),
      readNegotiationJournal sha256 id journal = .ok [entry] ∧
        entry.get (js "body") = some (signingBody hash signature artifact) ∧
        SignedBy signer hash signature entry := by
  let payload := signingPayload signer hash signature artifact
  have hcanonical : (Json.obj payload).Canonical := canonical_signingPayload hsignature hartifact
  have hbody : (signingBody hash signature artifact).Canonical :=
    canonical_signingBody hsignature hartifact
  have hfree : FrameFree payload :=
    (by decide : ∀ k ∈ frameKeys, k ∉ [js "actor", js "body"])
  obtain ⟨contentHash, hhash⟩ : ∃ contentHash, computeHash sha256 (.obj payload) = .ok contentHash :=
    ⟨_, computeHash_eq_ok.mpr ⟨_, canonicalize_eq_ok.mpr ⟨allFinite_of_canonical hcanonical, rfl⟩,
      rfl⟩⟩
  let entry : Json N := .obj (spread (frameAfter none contentHash) payload)
  have hentry : makeEntry sha256 id payload none = .ok entry := by
    have hread : readNegotiationJournal (N := N) sha256 id none = .ok [] := rfl
    rw [makeEntry_eq payload hread]
    exact nextEntry_eq_ok.mpr ⟨contentHash, hhash, rfl⟩
  have hok := (journalOk_noJournal (N := N)).extend hcanonical.inOrder.distinct hfree hentry
  have hget : ∀ k, entry.ordered.get k =
      ((lookupMember k payload.reverse).or (lookupMember k (frameAfter none contentHash))).map
        Json.ordered := by
    intro k
    rw [Json.get_ordered (nodup_spread payload (nodup_frameAfter none contentHash)),
      lookupMember_spread]
  have hgetBody : entry.ordered.get (js "body") = some (signingBody hash signature artifact) := by
    rw [hget, show lookupMember (js "body") payload.reverse =
      some (signingBody hash signature artifact) from rfl, Option.some_or, Option.map_some,
      hbody.ordered_eq]
  refine ⟨_, entry.ordered, hok.read, hgetBody, ?_, ?_, hby⟩
  · have hkind : Json.isText (js "signature")
        ((signingBody hash signature artifact).get (js "kind")) = true := isText_of_eq rfl
    rw [signatureOf, hgetBody, Option.bind_some, if_pos hkind]
    exact if_pos (truthy_of_get hby)
  · rw [actorInstance, hget]
    rfl

/-- Surroundings without advisories. -/
def quietEnv (crypto : NodeCrypto N) (sha256 : List UInt8 → JsString) : StabilizeEnv N where
  sha256 := sha256
  crypto := crypto
  root := js "/h2a"
  now := js "2026-01-01T00:00:00.000Z"
  conflictAdvisories _ _ _ := .ok []
  trustAdvisory _ _ _ := .ok none

/-- The negotiation of one signature, with nothing stabilized before. -/
def soleFiles (signer : JsString) (journal : FileBytes) : NegotiationFiles N :=
  ⟨some (recordOf signer), journal, .empty⟩

variable {crypto : NodeCrypto N} {registry : Registry} {id : JsString} {journal : FileBytes}
  {entry : Json N}

/-- One signature of a registered key decides for its artifact. -/
theorem decided_by_one (hjournal : readNegotiationJournal sha256 id journal = .ok [entry])
    (hbody : entry.get (js "body") = some (signingBody hash signature artifact))
    (hsigned : SignedBy signer hash signature entry)
    (hhash : computeHash sha256 artifact = .ok hash) (hmay : MaySign registry signer artifact)
    (hverifies : ∃ pem ∈ registry.registeredKeys signer, Verifies crypto hash signature pem) :
    Decided (quietEnv crypto sha256) registry id (soleFiles signer journal)
      ⟨recordOf signer, [.str signer], [entry], hash, artifact⟩ := by
  have hchecked : checkSignature crypto registry id entry hash signature = .ok signer :=
    checkSignature_eq_ok.mpr ⟨hsigned.actor_eq, hsigned.by_eq, hverifies⟩
  let bucket : JsMap JsString (Json N) := JsMap.empty.set signer signature
  have hkeys : bucket.keys = [signer] := rfl
  have hhas : bucket.has signer = true := (JsMap.has_iff _ _).mpr ⟨_, JsMap.get_set_self _ _ _⟩
  refine ⟨rfl, rfl, rfl, hjournal, ⟨JsMap.empty.set hash bucket, bucket, ?_, ?_, ?_⟩, ?_⟩
  · rw [List.foldlM_cons, collectSignature, hsigned.signature_eq]
    dsimp only [quietEnv]
    rw [hchecked]
    rfl
  · have hquorum : hasQuorum [.str signer] bucket = true := by simp [hasQuorum, hhas]
    exact List.find?_cons_of_pos hquorum
  · rw [checkKnownKind, hkeys]
    cases hkind : artifactKind artifact with
    | none => rfl
    | some kind =>
        obtain ⟨role, hrole, hallowed⟩ := hmay kind hkind
        have hany : (registry.rolesOf signer).any (fun role => canSignArtifactKind role kind) = true :=
          List.any_eq_true.mpr ⟨role, hrole, hallowed⟩
        exact if_pos hany
  · rw [findArtifact, hbody, Option.bind_some,
      show (signingBody hash signature artifact).get (js "artifact") = some artifact from rfl]
    dsimp only [quietEnv]
    rw [hhash, ok_bind, if_pos rfl]
    rfl

theorem allFinite_members {members : Members N} (h : ∀ m ∈ members, AllFinite m.2) :
    AllFinite (.obj members) :=
  (allFinite_obj members).mpr fun m hm => h m (mem_ofMembers hm)

variable (crypto sha256 signer hash artifact entry) in
/-- The final event of a negotiation of one signature can be appended. -/
theorem exists_finalEntry (prev : Option (Json N)) (eventId artifactPath : JsString) :
    ∃ final, nextEntry sha256 prev (stabilizedPayload (quietEnv crypto sha256)
      ⟨recordOf signer, [.str signer], [entry], hash, artifact⟩ eventId artifactPath) =
        .ok final := by
  have hfinite : AllFinite (.obj (stabilizedPayload (quietEnv crypto sha256)
      ⟨recordOf signer, [.str signer], [entry], hash, artifact⟩ eventId artifactPath)) := by
    have htext : ∀ s : JsString, AllFinite (.str s : Json N) := fun _ => trivial
    apply allFinite_members
    refine List.forall_mem_cons.mpr ⟨htext _, List.forall_mem_cons.mpr ⟨htext _,
      List.forall_mem_cons.mpr ⟨?_, List.forall_mem_cons.mpr ⟨?_,
        List.forall_mem_singleton.mpr (htext _)⟩⟩⟩⟩
    · apply allFinite_members
      exact List.forall_mem_cons.mpr ⟨htext _, List.forall_mem_singleton.mpr (htext _)⟩
    · apply allFinite_members
      have hsigners : AllFinite (.arr [.str signer] : Json N) :=
        (allFinite_arr _).mpr (List.forall_mem_singleton.mpr (htext _))
      exact List.forall_mem_cons.mpr ⟨htext _, List.forall_mem_cons.mpr ⟨htext _,
        List.forall_mem_cons.mpr ⟨hsigners, List.forall_mem_singleton.mpr (htext _)⟩⟩⟩
  exact ⟨_, nextEntry_eq_ok.mpr ⟨_, computeHash_eq_ok.mpr
    ⟨_, canonicalize_eq_ok.mpr ⟨hfinite, rfl⟩, rfl⟩, rfl⟩⟩

/-- Without advisories the final event is the only one. -/
theorem run_writeEvents {env : StabilizeEnv N} {decision : Decision N} {path : Path}
    {eventId : JsString} {final : Json N}
    (hconflicts : env.conflictAdvisories decision.record decision.entries
      decision.winningArtifact = .ok [])
    (htrust : env.trustAdvisory decision.record decision.entries decision.winningArtifact =
      .ok none)
    (hfinal : nextEntry env.sha256 decision.entries.getLast?
      (stabilizedPayload env decision eventId (joinPath env.root path)) = .ok final)
    (files : NegotiationFiles N) :
    (writeEvents env decision path eventId).run.run files = (.ok (decision.entries ++ [final]),
      { files with journal := appendJsonl files.journal final }) := by
  have hnone : (appendEvents env.sha256 [] decision.entries).run.run files =
      (.ok decision.entries, files) := rfl
  rw [writeEvents, stateRun_bind_of_ok (run_ofExcept hconflicts files), stateRun_bind_of_ok hnone,
    stateRun_bind_of_ok (run_ofExcept htrust files), Option.toList_none,
    stateRun_bind_of_ok hnone, appendEvents, stateRun_bind_of_ok (run_ofExcept hfinal files)]
  rfl

/-- A stabilization that is decided by one signature returns. -/
theorem stabilize_sole_returns (hconsent : isConsentId id = false)
    (hdecided : Decided (quietEnv crypto sha256) registry id (soleFiles signer journal)
      ⟨recordOf signer, [.str signer], [entry], hash, artifact⟩) (eventId : JsString) :
    ∃ result files, (stabilizeNegotiation (quietEnv crypto sha256) registry id eventId).run.run
      (soleFiles signer journal) = (.ok result, files) := by
  let env := quietEnv crypto sha256
  let decision : Decision N := ⟨recordOf signer, [.str signer], [entry], hash, artifact⟩
  let path := resolveStabilizedArtifactPath artifact hash
  have hrefuse : refuseWhen (isConsentId id || Json.isText (js "drive-consent")
      ((soleFiles (N := N) signer journal).state.bind (lookupMember (js "subject"))))
      "Cannot stabilize drive-consent" = .ok () := by
    rw [hconsent, Bool.false_or]
    rfl
  have hdecide : decideStabilization env registry id (soleFiles signer journal) = .ok decision :=
    decideStabilization_eq_ok.mpr hdecided
  obtain ⟨files₁, hartifact⟩ : ∃ files₁,
      (writeArtifact env decision path).run.run (soleFiles signer journal) = (.ok (), files₁) :=
    ⟨_, rfl⟩
  obtain ⟨final, hfinal⟩ := exists_finalEntry sha256 signer hash artifact crypto entry (some entry)
    eventId (joinPath (js "/h2a") path)
  rw [stabilizeNegotiation, stateRun_get_bind, stateRun_bind_of_ok (run_ofExcept hrefuse _),
    stateRun_bind_of_ok (run_ofExcept hdecide _), persist, stateRun_bind_of_ok hartifact,
    stateRun_bind_of_ok (@run_writeEvents _ _ env decision path _ _ rfl rfl hfinal files₁)]
  exact ⟨_, _, rfl⟩

end Soles

/-! ## The quorum is sound exactly when the keys agree -/

section Exactly

variable {crypto : NodeCrypto N} {sha256 : List UInt8 → JsString} {registry : Registry}

/-- A signature of a registered key decides alone, so it has to be one of an active key. -/
theorem registered_of_sound (h : StabilizationsSound crypto sha256 registry)
    {signer hash : JsString} {signature artifact : Json N} (hsignature : signature.Canonical)
    (hartifact : artifact.Canonical) (hby : signature.get (js "by") = some (.str signer))
    (hhash : computeHash sha256 artifact = .ok hash) (hmay : MaySign registry signer artifact)
    (hverifies : ∃ pem ∈ registry.registeredKeys signer, Verifies crypto hash signature pem) :
    ∃ pem ∈ registry.listInstanceKeys signer, Verifies crypto hash signature pem := by
  obtain ⟨journal, entry, hjournal, hbody, hsigned⟩ := exists_signingEntry sha256 hash (js "neg:1")
    hsignature hartifact hby
  have hdecided := decided_by_one hjournal hbody hsigned hhash hmay hverifies
  obtain ⟨result, files, hrun⟩ := stabilize_sole_returns (by decide) hdecided (js "evt:2")
  obtain ⟨record, required, entries, hstate, hrequired, hentries, _, -, -, hquorum⟩ :=
    h _ _ _ _ _ _ rfl rfl hrun
  obtain rfl : recordOf signer = record := Option.some.inj hstate
  obtain rfl : [.str signer] = required := Option.some.inj hrequired
  obtain rfl : [entry] = entries := Except.ok.inj (hjournal.symm.trans hentries)
  obtain ⟨signer', heq, -, entry', hentry', signature', hsigned', hverifies'⟩ :=
    hquorum _ (List.mem_singleton_self _)
  obtain rfl := Json.str.inj heq
  obtain rfl := List.mem_singleton.mp hentry'
  have hsame := Option.some.inj (hsigned.signature_eq.symm.trans hsigned'.signature_eq)
  rw [← (Prod.mk.inj hsame).1, ← (Prod.mk.inj hsame).2] at hverifies'
  exact hverifies'

theorem active_of_accepted (h : AddedKeysAccepted crypto sha256 registry)
    {signer hash : JsString} {signature : Json N} (hsignature : signature.Canonical)
    (hby : signature.get (js "by") = some (.str signer))
    (hverifies : ∃ pem ∈ registry.listInstanceKeys signer, Verifies crypto hash signature pem) :
    ∃ pem ∈ registry.registeredKeys signer, Verifies crypto hash signature pem := by
  obtain ⟨pem, hactive, hverifies⟩ := hverifies
  rcases (Registry.mem_listInstanceKeys.mp hactive).1 with hregistered | hadded
  · exact ⟨pem, hregistered, hverifies⟩
  · obtain ⟨journal, entry, hjournal, -, hsigned⟩ := exists_signingEntry sha256 hash (js "neg:1")
      hsignature (show Json.Canonical (.null : Json N) from trivial) hby
    have haccepted := h (js "neg:1") (soleFiles signer journal) _ _ _ rfl rfl hjournal signer hash
      signature entry (List.mem_singleton_self _) (List.mem_singleton_self _) hsigned
      ⟨pem, hadded, hactive, hverifies⟩
    exact (checkSignature_eq_ok.mp haccepted).2.2

/-- Every stabilization that returns is decided by signatures of active keys, over what it
persists, of signers that may sign it, and signatures of added keys are accepted, exactly
when the registered and the active keys of each signer verify the same signatures. -/
theorem quorum_sound_iff (crypto : NodeCrypto N) (sha256 : List UInt8 → JsString)
    (registry : Registry) :
    StabilizationsSound crypto sha256 registry ∧ AddedKeysAccepted crypto sha256 registry ↔
      KeysAgree crypto sha256 registry := by
  constructor
  · rintro ⟨hsound, haccepted⟩
    constructor
    · intro signer hash signature artifact hsignature hartifact hby hhash hmay hverifies
      exact registered_of_sound hsound hsignature hartifact hby hhash hmay hverifies
    · intro signer hash signature hsignature hby hverifies
      exact active_of_accepted haccepted hsignature hby hverifies
  · intro h
    exact ⟨stabilizationsSound_of_registered h, addedKeysAccepted_of_active h⟩

end Exactly

/-! ## A signer whose key is revoked -/

/-- The key of the registration is revoked; no key is active. -/
def revokedRegistry : Registry :=
  { soleSignerRegistry with keys := [⟨js "claude:a", js "K", .revoked, js "2026-01-01"⟩] }

/-- Open, offer and sign. -/
def signedFiles : NegotiationFiles Int :=
  (([.openNegotiation soleSignerRecord, .appendNegotiationEvent offerPayload,
    .appendNegotiationEvent signaturePayload] : List (NegotiationCall Int)).foldl
      (NegotiationState.call (fun _ => js "00") (js "neg:1")) (unopened none .empty)).files

theorem revoked_signature_decides :
    ¬∀ (crypto : NodeCrypto Int) (sha256 : List UInt8 → JsString) (registry : Registry),
      StabilizationsSound crypto sha256 registry ∧ AddedKeysAccepted crypto sha256 registry := by
  intro h
  have hreturns : ((stabilizeNegotiation plainEnv revokedRegistry (js "neg:1")
      (js "evt:3")).run.run signedFiles).1.isOk = true := by decide +kernel
  obtain ⟨⟨returned, files⟩, hrun⟩ : ∃ outcome, (stabilizeNegotiation plainEnv revokedRegistry
    (js "neg:1") (js "evt:3")).run.run signedFiles = outcome := ⟨_, rfl⟩
  rw [hrun] at hreturns
  cases returned with
  | error e => simp [Except.isOk, Except.toBool] at hreturns
  | ok result =>
      obtain ⟨record, required, entries, hstate, hrequired, -, artifact, -, -, hquorum⟩ :=
        (h plainEnv.crypto plainEnv.sha256 revokedRegistry).1 _ _ _ _ _ _ rfl rfl hrun
      have hsigners : (signedFiles.state.bind signersOf).map (fun required =>
          required.any fun id => Json.isText (js "claude:a") (some id)) = some true := by
        decide +kernel
      rw [hstate, Option.bind_some, hrequired, Option.map_some, Option.some.injEq,
        List.any_eq_true] at hsigners
      obtain ⟨id, hid, htext⟩ := hsigners
      obtain ⟨signer, rfl, -, -, -, -, -, pem, hpem, -⟩ := hquorum id hid
      obtain rfl := Json.str.inj (Option.some.inj (isText_iff.mp htext))
      have hnone : revokedRegistry.listInstanceKeys (js "claude:a") = [] := by decide
      rw [hnone] at hpem
      exact List.not_mem_nil hpem

end H2a.LocalFiles
