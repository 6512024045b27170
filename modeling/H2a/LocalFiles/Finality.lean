import H2a.LocalFiles.Stabilize
/-!
# Stabilization is final

Runs of calls on one negotiation.  "Negotiation sessions mutable until stabilization":
`updateNegotiationStatus` does not look at the status it replaces, so a stabilized record
stays so as long as no call gives it another status, and not longer
(`final_iff_allowed`).
-/

namespace H2a.LocalFiles

open H2a.Library H2a.Protocol

variable {N : Type} [JsonNumber N]

/-! ## Calls -/

inductive NegotiationCall (N : Type) where
  | openNegotiation (record : Members N)
  | updateNegotiationStatus (status : JsString)
  | appendNegotiationEvent (payload : Members N)
  | stabilizeNegotiation (env : StabilizeEnv N) (registry : Registry) (eventId : JsString)

/-- The files, and the hashes that stabilizations returned so far. -/
structure NegotiationState (N : Type) where
  files : NegotiationFiles N
  stabilized : List JsString

/-- What a call leaves behind. -/
def NegotiationState.call (sha256 : List UInt8 → JsString) (id : JsString)
    (s : NegotiationState N) : NegotiationCall N → NegotiationState N
  | .openNegotiation record => { s with files := (LocalFiles.openNegotiation record s.files).2 }
  | .updateNegotiationStatus status =>
      { s with files := (LocalFiles.updateNegotiationStatus id status s.files).2 }
  | .appendNegotiationEvent payload =>
      let journal := (LocalFiles.appendNegotiationEvent sha256 id payload s.files.journal).2
      { s with files := { s.files with journal } }
  | .stabilizeNegotiation env registry eventId =>
      match (LocalFiles.stabilizeNegotiation env registry id eventId).run.run s.files with
      | (.ok result, files) => ⟨files, s.stabilized ++ [result.artifactHash]⟩
      | (.error _, files) => ⟨files, s.stabilized⟩

/-- A negotiation that is not open yet, in any store. -/
def unopened (journal : FileBytes) (artifacts : JsMap Path (Json N)) : NegotiationState N :=
  ⟨⟨none, journal, artifacts⟩, []⟩

/-- At most one stabilization has returned, and the record shows what it returned. -/
def Final (s : NegotiationState N) : Prop :=
  s.stabilized.length ≤ 1 ∧ ∀ hash ∈ s.stabilized, ∃ record, s.files.state = some record ∧
    lookupMember (js "status") record = some (.str (js "stabilized")) ∧
    lookupMember (js "currentArtifactHash") record = some (.str hash)

/-- After a stabilization has returned, the call does not give another status. -/
def Allowed (s : NegotiationState N) : NegotiationCall N → Prop
  | .updateNegotiationStatus status =>
      s.stabilized ≠ [] → status ∈ negotiationStates → status = js "stabilized"
  | _ => True

/-! ## What a stabilization does to the record -/

section Stabilizations

variable {env : StabilizeEnv N} {registry : Registry} {id eventId : JsString}
  {files files' : NegotiationFiles N}

omit [JsonNumber N] in
theorem keeps_ofExcept {α γ : Type} (g : NegotiationFiles N → γ) (x : Except String α) :
    Keeps g (FileM.ofExcept x) := fun _ => rfl

/-- The events are written to the journal only. -/
theorem keeps_appendEvents {γ : Type} {g : NegotiationFiles N → γ}
    (hg : ∀ files journal, g { files with journal } = g files) (sha256 : List UInt8 → JsString)
    (payloads : List (Members N)) (entries : List (Json N)) :
    Keeps g (appendEvents sha256 payloads entries) := by
  induction payloads generalizing entries with
  | nil => exact Keeps.pure _ _
  | cons payload payloads ih =>
      rw [appendEvents]
      apply Keeps.bind (keeps_ofExcept _ _)
      intro entry
      exact Keeps.bind (Keeps.of_modify fun files => hg files _) fun _ => ih _

theorem keeps_writeEvents {γ : Type} {g : NegotiationFiles N → γ}
    (hg : ∀ files journal, g { files with journal } = g files) (decision : Decision N)
    (path : Path) : Keeps g (writeEvents env decision path eventId) := by
  apply Keeps.bind (keeps_ofExcept _ _)
  intro conflicts
  apply Keeps.bind (keeps_appendEvents hg _ _ _)
  intro entries
  apply Keeps.bind (keeps_ofExcept _ _)
  intro trust
  apply Keeps.bind (keeps_appendEvents hg _ _ _)
  exact fun entries => keeps_appendEvents hg _ _ _

/-- The artifact leaves the record as it was. -/
theorem keeps_writeArtifact (decision : Decision N) (path : Path) :
    Keeps (fun files => files.state) (writeArtifact env decision path) := by
  apply Keeps.bind (Keeps.get _)
  intro files
  apply Keeps.bind (keeps_ofExcept _ _)
  exact fun _ => Keeps.of_modify fun _ => rfl

/-- A stabilization that returns had a record that was not stabilized, and leaves it so. -/
theorem stabilize_returns {result : StabilizeResult N}
    (h : (stabilizeNegotiation env registry id eventId).run.run files = (.ok result, files')) :
    ∃ record, files.state = some record ∧
      Json.isText (js "stabilized") (lookupMember (js "status") record) = false ∧
      files'.state = some (Json.readBackMembers (stabilizedRecord record result.artifactHash)) := by
  obtain ⟨decision, hdecided, hpersist⟩ := stabilize_eq_ok h
  obtain ⟨_, files₁, -, h⟩ := stateRun_bind_eq_ok.mp hpersist
  obtain ⟨entries, files₂, -, h⟩ := stateRun_bind_eq_ok.mp h
  rw [stateRun_modify_bind] at h
  obtain ⟨hresult, rfl⟩ := Prod.mk.inj h
  obtain rfl := Except.ok.inj hresult
  exact ⟨decision.record, hdecided.state, hdecided.status, rfl⟩

/-- A stabilization that throws leaves the record as it was. -/
theorem stabilize_throws {error : String}
    (h : (stabilizeNegotiation env registry id eventId).run.run files = (.error error, files')) :
    files'.state = files.state := by
  have hkeeps : KeepsOnThrow (fun files => files.state)
      (stabilizeNegotiation env registry id eventId) := by
    apply KeepsOnThrow.bind (Keeps.get _)
    intro files
    apply KeepsOnThrow.bind (keeps_ofExcept _ _)
    intro _
    apply KeepsOnThrow.bind (keeps_ofExcept _ _)
    intro decision
    apply KeepsOnThrow.bind (keeps_writeArtifact _ _)
    intro _
    apply KeepsOnThrow.bind (keeps_writeEvents (fun _ _ => rfl) _ _)
    exact fun entries => KeepsOnThrow.modify_pure _ _ _
  exact hkeeps _ _ _ h

end Stabilizations

/-! ## Runs -/

section Runs

variable {sha256 : List UInt8 → JsString} {id : JsString} {s : NegotiationState N}

/-- The record has each key once, and shows what a stabilization returned. -/
structure RecordOk (s : NegotiationState N) : Prop where
  nodup : ∀ record, s.files.state = some record → (record.map Prod.fst).Nodup
  final : Final s

theorem nodup_readBackMembers (ms : Members N) :
    ((Json.readBackMembers ms).map Prod.fst).Nodup := (sorted_ofMembers _).nodup

/-- What the record shows after it was written with `members` over it. -/
theorem lookup_written {record : Members N} (hrecord : (record.map Prod.fst).Nodup)
    (members : Members N) (k : JsString) :
    lookupMember k (Json.readBackMembers (spread record members)) =
      ((lookupMember k members.reverse).or (lookupMember k record)).map Json.readBack := by
  rw [Json.lookupMember_readBackMembers (nodup_spread members hrecord), lookupMember_spread]

omit [JsonNumber N] in
theorem isText_of_eq {s : JsString} {v : Option (Json N)} (h : v = some (.str s)) :
    Json.isText s v = true := by
  rw [h, Json.isText, beq_self_eq_true]

omit [JsonNumber N] in
/-- Files that show the same record, with nothing returned since. -/
theorem RecordOk.of_files {files : NegotiationFiles N} (h : RecordOk s)
    (hstate : files.state = s.files.state) : RecordOk ⟨files, s.stabilized⟩ := by
  obtain ⟨hnodup, hlength, hshows⟩ := h
  constructor
  · intro record hrecord
    exact hnodup record (hstate ▸ hrecord)
  · exact ⟨hlength, fun hash hhash => hstate ▸ hshows hash hhash⟩

theorem RecordOk.openNegotiation (h : RecordOk s) (record : Members N) :
    RecordOk (s.call sha256 id (.openNegotiation record)) := by
  rw [NegotiationState.call, LocalFiles.openNegotiation]
  split
  · exact h
  · split_ifs with hopen
    · exact h
    · have hnone : s.files.state = none := by simpa using hopen
      obtain ⟨-, hlength, hshows⟩ := h
      constructor
      · rintro _ ⟨⟩
        exact nodup_readBackMembers record
      · refine ⟨hlength, fun hash hhash => ?_⟩
        obtain ⟨_, hsome, -⟩ := hshows hash hhash
        rw [hnone] at hsome
        simp at hsome

theorem assertValid_eq_ok {status : JsString} {u : Unit} :
    assertValidNegotiationState (N := N) (some (.str status)) = .ok u ↔
      status ∈ negotiationStates := by
  have hany : (negotiationStates.any fun s => Json.isText s (some (Json.str status : Json N))) =
      decide (status ∈ negotiationStates) := by
    rw [Bool.eq_iff_iff, List.any_eq_true, decide_eq_true_eq]
    simp [Json.isText]
  rw [assertValidNegotiationState, hany]
  by_cases hstatus : status ∈ negotiationStates <;> simp [hstatus]

/-- An update that is allowed leaves what a stabilization returned in place. -/
theorem RecordOk.update (h : RecordOk s) {status : JsString}
    (hallowed : Allowed s (.updateNegotiationStatus status)) :
    RecordOk (s.call sha256 id (.updateNegotiationStatus status)) := by
  rw [NegotiationState.call, LocalFiles.updateNegotiationStatus]
  split
  · exact h
  · rename_i u hvalid
    cases hstate : s.files.state with
    | none => exact h
    | some record =>
        have hrecord := h.nodup record hstate
        constructor
        · rintro _ ⟨⟩
          exact nodup_readBackMembers _
        · refine ⟨h.final.1, fun hash hhash => ⟨_, rfl, ?_, ?_⟩⟩
          · have hstabilized := hallowed (List.ne_nil_of_mem hhash) (assertValid_eq_ok.mp hvalid)
            rw [lookup_written hrecord, hstabilized]
            rfl
          · obtain ⟨record', hstate', -, hhash'⟩ := h.final.2 hash hhash
            obtain rfl : record = record' := Option.some.inj (hstate.symm.trans hstate')
            have hother : lookupMember (js "currentArtifactHash")
                [(js "status", (Json.str status : Json N))] = none := rfl
            rw [lookup_written hrecord, List.reverse_singleton, hother, Option.none_or, hhash']
            rfl

/-- A stabilization that returns is the first one, and the record shows its hash. -/
theorem RecordOk.stabilize (h : RecordOk s) (env : StabilizeEnv N) (registry : Registry)
    (eventId : JsString) :
    RecordOk (s.call sha256 id (.stabilizeNegotiation env registry eventId)) := by
  rw [NegotiationState.call]
  split
  · rename_i result files hrun
    obtain ⟨record, hstate, hstatus, hwritten⟩ := stabilize_returns hrun
    have hfirst : s.stabilized = [] := by
      by_contra hne
      obtain ⟨hash, hhash⟩ := List.exists_mem_of_ne_nil _ hne
      obtain ⟨record', hstate', hshows, -⟩ := h.final.2 hash hhash
      obtain rfl : record = record' := Option.some.inj (hstate.symm.trans hstate')
      rw [isText_of_eq hshows] at hstatus
      simp at hstatus
    rw [hfirst, List.nil_append]
    constructor
    · intro record' hrecord'
      obtain rfl := Option.some.inj (hwritten.symm.trans hrecord')
      exact nodup_readBackMembers _
    · refine ⟨Nat.le_refl 1, fun hash hhash => ⟨_, hwritten, ?_, ?_⟩⟩
      · rw [stabilizedRecord, lookup_written (h.nodup record hstate)]
        rfl
      · rw [stabilizedRecord, lookup_written (h.nodup record hstate), List.mem_singleton.mp hhash]
        rfl
  · rename_i error files hrun
    exact h.of_files (stabilize_throws hrun)

theorem RecordOk.call (h : RecordOk s) {c : NegotiationCall N} (hallowed : Allowed s c) :
    RecordOk (s.call sha256 id c) := by
  cases c with
  | openNegotiation record => exact h.openNegotiation record
  | updateNegotiationStatus status => exact h.update hallowed
  | appendNegotiationEvent payload => exact h.of_files rfl
  | stabilizeNegotiation env registry eventId => exact h.stabilize env registry eventId

/-- After a stabilization another status is shown, once it is given. -/
theorem not_final_of_not_allowed (h : RecordOk s) {c : NegotiationCall N}
    (hallowed : ¬Allowed s c) : ¬Final (s.call sha256 id c) := by
  cases c with
  | updateNegotiationStatus status =>
      simp only [Allowed, Classical.not_imp] at hallowed
      obtain ⟨hne, hvalid, hstatus⟩ := hallowed
      obtain ⟨hash, hhash⟩ := List.exists_mem_of_ne_nil _ hne
      obtain ⟨record, hstate, -⟩ := h.final.2 hash hhash
      rintro ⟨-, hfinal⟩
      obtain ⟨record', hstate', hshows, -⟩ := hfinal hash hhash
      have hok : assertValidNegotiationState (N := N) (some (.str status)) = .ok () :=
        assertValid_eq_ok.mpr hvalid
      rw [NegotiationState.call, LocalFiles.updateNegotiationStatus, hok, hstate] at hstate'
      obtain rfl := Option.some.inj hstate'
      rw [lookup_written (h.nodup record hstate)] at hshows
      exact hstatus (Json.str.inj (Option.some.inj hshows))
  | openNegotiation record => exact absurd trivial hallowed
  | appendNegotiationEvent payload => exact absurd trivial hallowed
  | stabilizeNegotiation env registry eventId => exact absurd trivial hallowed

omit [JsonNumber N] in
theorem recordOk_unopened (journal : FileBytes) (artifacts : JsMap Path (Json N)) :
    RecordOk (unopened journal artifacts) := by
  constructor
  · rintro _ ⟨⟩
  · exact ⟨Nat.zero_le 1, fun _ h => absurd h List.not_mem_nil⟩

/-- In every state of a run at most one stabilization has returned, and the record shows it,
exactly when every call is allowed in the state it is made in. -/
theorem final_iff_allowed (sha256 : List UInt8 → JsString) (id : JsString) (journal : FileBytes)
    (artifacts : JsMap Path (Json N)) (calls : List (NegotiationCall N)) :
    Throughout (NegotiationState.call sha256 id) Final (unopened journal artifacts) calls ↔
      EachMeets (NegotiationState.call sha256 id) Allowed (unopened journal artifacts) calls :=
  throughout_iff_eachMeets (I := RecordOk) (fun _ h => h.final) (fun _ _ h hallowed => h.call hallowed)
    (fun _ _ h hallowed => not_final_of_not_allowed h hallowed)
    (recordOk_unopened journal artifacts) calls

end Runs

/-! ## A record that is reopened -/

/-- A negotiation of one signer. -/
def soleSignerRecord : Members Int :=
  [(js "id", .str (js "neg:1")), (js "scope", .str (js "s")), (js "status", .str (js "draft")),
    (js "requiredSigners", .arr [.str (js "claude:a")])]

def offerPayload : Members Int :=
  [(js "id", .str (js "evt:1")),
    (js "body", .obj [(js "artifact", .obj [(js "kind", .str (js "NOTE"))])])]

/-- A signature over the hash `sha256:00`, by `plainCrypto`. -/
def signaturePayload : Members Int :=
  [(js "id", .str (js "evt:2")), (js "actor", .obj [(js "instance", .str (js "claude:a"))]),
    (js "body", .obj [(js "kind", .str (js "signature")),
      (js "artifactHash", .str (js "sha256:00")),
      (js "signature", .obj [(js "by", .str (js "claude:a")), (js "alg", .str (js "ed25519")),
        (js "value", .str (js "\x7b\"artifactHash\":\"sha256:00\"\x7d"))])])]

def plainEnv : StabilizeEnv Int where
  sha256 _ := js "00"
  crypto := plainCrypto
  root := js "/h2a"
  now := js "2026-01-01T00:00:00.000Z"
  conflictAdvisories _ _ _ := .ok []
  trustAdvisory _ _ _ := .ok none

def soleSignerRegistry : Registry :=
  ⟨[⟨js "claude:a", js "claude:a", [.conductor], [], [js "K"]⟩], []⟩

/-- Open, offer, sign and stabilize; then give the status `proposed`. -/
def reopeningCalls : List (NegotiationCall Int) :=
  [.openNegotiation soleSignerRecord, .appendNegotiationEvent offerPayload,
    .appendNegotiationEvent signaturePayload,
    .stabilizeNegotiation plainEnv soleSignerRegistry (js "evt:3"),
    .updateNegotiationStatus (js "proposed")]

theorem stabilized_record_reopened :
    ¬∀ (sha256 : List UInt8 → JsString) (id : JsString) (journal : FileBytes)
      (artifacts : JsMap Path (Json Int)) (calls : List (NegotiationCall Int)),
      Throughout (NegotiationState.call sha256 id) Final (unopened journal artifacts) calls := by
  intro h
  obtain ⟨-, -, -, -, -, -, hfinal⟩ := h (fun _ => js "00") (js "neg:1") none .empty reopeningCalls
  let last := reopeningCalls.foldl (NegotiationState.call (fun _ => js "00") (js "neg:1"))
    (unopened none .empty)
  obtain ⟨hreturned, hstatus⟩ : last.stabilized = [js "sha256:00"] ∧
      Json.isText (js "stabilized") (last.files.state.bind (lookupMember (js "status"))) =
        false := by
    decide +kernel
  obtain ⟨record, hstate, hshows, -⟩ := hfinal (js "sha256:00")
    (show js "sha256:00" ∈ last.stabilized from hreturned ▸ List.mem_singleton_self _)
  rw [show last.files.state = some record from hstate, Option.bind_some,
    isText_of_eq hshows] at hstatus
  simp at hstatus

end H2a.LocalFiles
