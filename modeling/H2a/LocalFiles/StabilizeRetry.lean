import H2a.LocalFiles.Quorum
/-!
# A stabilization that is tried again

`stabilizeNegotiation` of `packages/h2a/src/runtime/local-files/store.ts` writes the artifact, then
the events of the journal one by one, then `state.json`.  The artifact is "write-once" (flag `wx`),
and nothing but `state.json` says that a negotiation is stabilized: an attempt that stops between
its writes is repeated from the start before the artifact is there, and refused from then on.
-/

namespace H2a.LocalFiles

open H2a.Library H2a.Protocol

variable {N : Type}

/-! ## The advisory events -/

/-- `H2APostureConflitResult`, without the declaration, which no event shows. -/
structure H2APostureConflitResult where
  subject : JsString
  postureConflit : JsString
  criteres : List JsString
  disclosureMode : JsString
  masqueImpactCollectif : Bool

/-- `H2APostureConfianceResult`; the disclosed conflicts are an array of objects. -/
structure H2APostureConfianceResult (N : Type) where
  postureConfiance : JsString
  dossierHash : JsString
  attentionAttested : Bool
  noUndisclosedCollectiveConflict : Bool
  missingAttestations : List JsString
  staleAttestations : List JsString
  undisclosedConflicts : List JsString
  disclosedConflicts : { conflicts : Json N // conflicts.Distinct }
  reasons : List JsString

/-- An array of texts. -/
def textArray (texts : List JsString) : Json N := .arr (texts.map Json.str)

/-- `H2A_DECLARATION_INTERET_BODY_KIND` -/
def declarationInteretBodyKind : JsString := js "declaration-interet"

/-- The alert of a conflict that may be declared. -/
def conflictAlert (posture : H2APostureConflitResult) : Members N :=
  [(js "kind", .str (js "postureConflit")), (js "subject", .str posture.subject),
    (js "postureConflit", .str posture.postureConflit),
    (js "criteres", textArray posture.criteres),
    (js "disclosureMode", .str posture.disclosureMode),
    (js "masqueImpactCollectif", .bool posture.masqueImpactCollectif),
    (js "requiredBodyKind", .str declarationInteretBodyKind),
    (js "disposition", .str (js "route-escalate"))]

/-- The alert of a trust that is not established. -/
def trustAlert (posture : H2APostureConfianceResult N) : Members N :=
  [(js "kind", .str (js "postureConfiance")),
    (js "postureConfiance", .str posture.postureConfiance),
    (js "dossierHash", .str posture.dossierHash),
    (js "attentionAttested", .bool posture.attentionAttested),
    (js "noUndisclosedCollectiveConflict", .bool posture.noUndisclosedCollectiveConflict),
    (js "missingAttestations", textArray posture.missingAttestations),
    (js "staleAttestations", textArray posture.staleAttestations),
    (js "undisclosedConflicts", textArray posture.undisclosedConflicts),
    (js "disclosedConflicts", posture.disclosedConflicts.val),
    (js "reasons", textArray posture.reasons),
    (js "disposition", .str (js "advisory-only"))]

/-- The time of a call: `new Date().toISOString()` and `Date.now().toString(36)`. -/
structure CallTime where
  iso : JsString
  base36 : JsString

/-- The payload of an advisory event. -/
def advisoryPayload (record : Members N) (time : CallTime) (id : JsString) (alert : Members N) :
    Members N :=
  let scope := (lookupMember (js "scope") record).elim [] fun scope => [(js "scope", scope)]
  [(js "id", .str id), (js "type", .str (js "escalate")),
    (js "actor", .obj ([(js "instance", Json.str (js "h2a-cli")),
      (js "role", .str (js "MANDATAIRE"))] ++ scope)),
    (js "body", .obj [(js "kind", .str (js "escalation")), (js "channel", .str (js "alert")),
      (js "payload", .obj alert)]),
    (js "createdAt", .str time.iso)]

/-- What stabilization uses of the store, whenever it is called. -/
structure Surroundings (N : Type) where
  sha256 : List UInt8 → JsString
  crypto : NodeCrypto N
  root : JsString
  derivePosturesConflitFor :
    Members N → List (Json N) → Json N → Except String (List H2APostureConflitResult)
  derivePostureConfianceFor :
    Members N → List (Json N) → Json N → Except String (H2APostureConfianceResult N)

section Source

variable [JsonNumber N] (surroundings : Surroundings N)

/-- `postureConflit === "conflict-declarable"`, of a required signer -/
def isDeclarable (record : Members N) (posture : H2APostureConflitResult) : Bool :=
  posture.postureConflit == js "conflit-declarable" &&
    ((signersOf record).getD []).any fun signer => Json.isText posture.subject (some signer)

/-- The events for `derivePosturesConflitFor`. -/
def conflictPayloads (time : CallTime) (record : Members N) (entries : List (Json N))
    (artifact : Json N) : Except String (List (Members N)) := do
  let postures ← surroundings.derivePosturesConflitFor record entries artifact
  return (postures.filter (isDeclarable record)).mapIdx fun index posture =>
    advisoryPayload record time
      (js "evt-postureConflit-" ++ js (toString index) ++ js "-" ++ time.base36)
      (conflictAlert posture)

/-- The event for `derivePostureConfianceFor`. -/
def trustPayload (time : CallTime) (record : Members N) (entries : List (Json N))
    (artifact : Json N) : Except String (Option (Members N)) := do
  let posture ← surroundings.derivePostureConfianceFor record entries artifact
  if posture.postureConfiance = js "etablie" then return none
  else return some (advisoryPayload record time (js "evt-postureConfiance-" ++ time.base36)
    (trustAlert posture))

/-- The surroundings of a call at a time. -/
def Surroundings.at (time : CallTime) : StabilizeEnv N where
  sha256 := surroundings.sha256
  crypto := surroundings.crypto
  root := surroundings.root
  now := time.iso
  conflictAdvisories := conflictPayloads surroundings time
  trustAdvisory := trustPayload surroundings time

/-! ## The writes, in order -/

inductive StabilizeWrite (N : Type) where
  | artifact (path : Path) (value : Json N)
  | event (entry : Json N)
  | state (record : Members N)

def StabilizeWrite.perform (files : NegotiationFiles N) :
    StabilizeWrite N → NegotiationFiles N
  | .artifact path value => { files with artifacts := files.artifacts.set path value.readBack }
  | .event entry => { files with journal := appendJsonl files.journal entry }
  | .state record => { files with state := some (Json.readBackMembers record) }

/-- The writes of a stabilization that returns. -/
def stabilizeWrites (decision : Decision N) (result : StabilizeResult N) :
    List (StabilizeWrite N) :=
  .artifact result.artifactPath decision.winningArtifact ::
    (result.events.map StabilizeWrite.event ++ [StabilizeWrite.state result.record])

/-- What is left when an attempt stops after `n` of its writes. -/
def stoppedAfter (writes : List (StabilizeWrite N)) (n : Nat) (files : NegotiationFiles N) :
    NegotiationFiles N :=
  (writes.take n).foldl StabilizeWrite.perform files

end Source

/-! ## What an event is about -/

/-- `entry.body.kind` -/
def bodyKind (entry : Json N) : Option (Json N) :=
  (entry.get (js "body")).bind fun body => body.get (js "kind")

def isStabilizedEntry (entry : Json N) : Bool := Json.isText (js "stabilized") (bodyKind entry)

/-- The payload of an event about its kind, which owns no member of the frame. -/
structure About (payload : Members N) (kind : JsString) : Prop where
  distinct : (Json.obj payload).Distinct
  free : FrameFree payload
  body : ∃ members, lookupMember (js "body") payload = some (.obj members) ∧
    lookupMember (js "kind") members = some (.str kind)

section Events

variable [JsonNumber N] {sha256 : List UInt8 → JsString}

theorem signatureOf_eq_none {entry : Json N} {kind : JsString}
    (h : bodyKind entry = some (.str kind)) (hkind : kind ≠ js "signature") :
    signatureOf entry = none := by
  unfold bodyKind at h
  cases hbody : entry.get (js "body") with
  | none => simp [signatureOf, hbody]
  | some body =>
      rw [hbody, Option.bind_some] at h
      have htext : Json.isText (js "signature") (body.get (js "kind")) = false := by
        rw [h]
        simpa [Json.isText] using hkind
      simp [signatureOf, hbody, htext]

/-- The kind of an entry is that of its payload, once it is read back. -/
theorem About.bodyKind_entry {payload : Members N} {kind : JsString} (h : About payload kind)
    {prev : Option (Json N)} {entry : Json N} (hentry : nextEntry sha256 prev payload = .ok entry) :
    bodyKind entry.ordered = some (.str kind) := by
  obtain ⟨hash, -, rfl⟩ := nextEntry_eq_ok.mp hentry
  obtain ⟨members, hbody, hkind⟩ := h.body
  obtain ⟨hnodup, hmembers⟩ := (Json.distinct_obj payload).mp h.distinct
  have hinner := ((Json.distinct_obj members).mp (hmembers _ (mem_of_lookupMember hbody))).1
  have hget : (Json.obj (spread (frameAfter prev hash) payload)).ordered.get (js "body") =
      some (Json.obj members).ordered := by
    rw [Json.get_ordered (nodup_spread payload (nodup_frameAfter prev hash)),
      lookupMember_spread, lookupMember_reverse hnodup, hbody]
    rfl
  rw [bodyKind, hget, Option.bind_some, Json.get_ordered hinner, hkind]
  rfl

/-- What follows an entry depends on its frame, which is read back as it was. -/
theorem nextEntry_ordered {payload : Members N} (hfree : FrameFree payload)
    {prev : Option (Json N)} {entry : Json N} (hentry : nextEntry sha256 prev payload = .ok entry)
    (next : Members N) :
    nextEntry sha256 (some entry) next = nextEntry sha256 (some entry.ordered) next := by
  obtain ⟨hash, -, rfl⟩ := nextEntry_eq_ok.mp hentry
  have hget : ∀ k ∈ frameKeys, (Json.obj (spread (frameAfter prev hash) payload)).ordered.get k =
      (lookupMember k (frameAfter prev hash)).map Json.ordered := by
    intro k hk
    rw [Json.get_ordered (nodup_spread payload (nodup_frameAfter prev hash)),
      lookupMember_framed hfree _ hk]
  have hself : ∀ k ∈ frameKeys, (Json.obj (spread (frameAfter prev hash) payload)).get k =
      lookupMember k (frameAfter prev hash) := by
    intro k hk
    rw [Json.get, lookupMember_framed hfree _ hk]
  have hsequence : lookupMember (js "sequence") (frameAfter prev hash) =
      some (.num (JsonNumber.ofNat ((prev.elim (some 0) nextSequence).getD 0))) := rfl
  have hcontent : lookupMember (js "contentHash") (frameAfter prev hash) = some (.str hash) := by
    rw [frameAfter]
    cases prev.bind fun prev => prev.get (js "contentHash") <;> rfl
  simp only [nextEntry, appendJournalEntry, nextSequence]
  rw [hget _ (by decide), hself _ (by decide), hget _ (by decide), hself _ (by decide), hsequence,
    hcontent]
  rfl

/-- The events that are made of the payloads, one after the other. -/
inductive Made (sha256 : List UInt8 → JsString) :
    List (Json N) → List (Members N) → List (Json N) → Prop
  | nil {entries : List (Json N)} : Made sha256 entries [] []
  | cons {entries events : List (Json N)} {payloads : List (Members N)} {payload : Members N}
      {event : Json N} (hevent : nextEntry sha256 entries.getLast? payload = .ok event)
      (hrest : Made sha256 (entries ++ [event]) payloads events) :
      Made sha256 entries (payload :: payloads) (event :: events)

theorem Made.append {entries events events' : List (Json N)} {payloads payloads' : List (Members N)}
    (h : Made sha256 entries payloads events) (h' : Made sha256 (entries ++ events) payloads' events') :
    Made sha256 entries (payloads ++ payloads') (events ++ events') := by
  induction h with
  | nil => simpa using h'
  | cons hevent hrest ih => exact .cons hevent (ih (by simpa using h'))

/-- The events are about what their payloads are about. -/
theorem Made.kind {entries events : List (Json N)} {payloads : List (Members N)}
    (h : Made sha256 entries payloads events) {kind : JsString}
    (habout : ∀ payload ∈ payloads, About payload kind) :
    ∀ event ∈ events, bodyKind event.ordered = some (.str kind) := by
  induction h with
  | nil => simp
  | cons hevent hrest ih =>
      obtain ⟨hfirst, hothers⟩ := List.forall_mem_cons.mp habout
      exact List.forall_mem_cons.mpr ⟨hfirst.bodyKind_entry hevent, ih hothers⟩

/-- The last event is that of the last payload. -/
theorem Made.of_concat {payloads : List (Members N)} {payload : Members N}
    {entries events : List (Json N)} (h : Made sha256 entries (payloads ++ [payload]) events) :
    ∃ earlier last, events = earlier ++ [last] ∧ Made sha256 entries payloads earlier ∧
      nextEntry sha256 (entries ++ earlier).getLast? payload = .ok last := by
  induction payloads generalizing entries events with
  | nil =>
      cases h with
      | cons hevent hrest =>
          cases hrest
          exact ⟨[], _, rfl, .nil, by simpa using hevent⟩
  | cons first payloads ih =>
      cases h with
      | cons hevent hrest =>
          obtain ⟨earlier, last, rfl, hmade, hlast⟩ := ih hrest
          exact ⟨_ :: earlier, last, rfl, .cons hevent hmade, by simpa using hlast⟩

theorem appendEvents_eq_ok {payloads : List (Members N)} {entries out : List (Json N)}
    {files files' : NegotiationFiles N}
    (h : (appendEvents sha256 payloads entries).run.run files = (.ok out, files')) :
    ∃ events, Made sha256 entries payloads events ∧ out = entries ++ events ∧
      files' = (events.map StabilizeWrite.event).foldl StabilizeWrite.perform files := by
  induction payloads generalizing entries files with
  | nil =>
      obtain ⟨hout, rfl⟩ := Prod.mk.inj h
      exact ⟨[], .nil, by simpa using (Except.ok.inj hout).symm, rfl⟩
  | cons payload payloads ih =>
      rw [appendEvents] at h
      obtain ⟨event, _, hmade, h⟩ := stateRun_bind_eq_ok.mp h
      obtain ⟨hevent, rfl⟩ := ofExcept_eq_ok.mp hmade
      rw [stateRun_modify_bind] at h
      obtain ⟨events, hrest, rfl, rfl⟩ := ih h
      exact ⟨event :: events, .cons hevent hrest, by simp, rfl⟩

end Events

/-! ## The payloads -/

section Payloads

theorem distinct_textArray (texts : List JsString) : (textArray texts : Json N).Distinct := by
  rw [textArray, Json.distinct_arr]
  intro e he
  obtain ⟨text, -, rfl⟩ := List.mem_map.mp he
  trivial

theorem distinct_conflictAlert (posture : H2APostureConflitResult) :
    (Json.obj (conflictAlert posture : Members N)).Distinct := by
  have hkeys : [js "kind", js "subject", js "postureConflit", js "criteres", js "disclosureMode",
      js "masqueImpactCollectif", js "requiredBodyKind", js "disposition"].Nodup := by
    decide +kernel
  rw [Json.distinct_obj]
  refine ⟨hkeys, ?_⟩
  simp [conflictAlert, distinct_textArray, Json.Distinct]

theorem distinct_trustAlert (posture : H2APostureConfianceResult N) :
    (Json.obj (trustAlert posture)).Distinct := by
  have hkeys : [js "kind", js "postureConfiance", js "dossierHash", js "attentionAttested",
      js "noUndisclosedCollectiveConflict", js "missingAttestations", js "staleAttestations",
      js "undisclosedConflicts", js "disclosedConflicts", js "reasons",
      js "disposition"].Nodup := by
    decide +kernel
  rw [Json.distinct_obj]
  refine ⟨hkeys, ?_⟩
  simp [trustAlert, distinct_textArray, Json.Distinct, posture.disclosedConflicts.property]

/-- The actor of an event, with the scope of the record where it has one. -/
theorem distinct_actor {record : Members N} (hrecord : (Json.obj record).Distinct) :
    (Json.obj ([(js "instance", Json.str (js "h2a-cli")), (js "role", .str (js "MANDATAIRE"))] ++
      (lookupMember (js "scope") record).elim [] fun scope => [(js "scope", scope)])).Distinct := by
  have hkeys : [js "instance", js "role", js "scope"].Nodup := by decide
  have hfewer : [js "instance", js "role"].Nodup := by decide
  rw [Json.distinct_obj]
  cases hscope : lookupMember (js "scope") record with
  | none =>
      refine ⟨hfewer, ?_⟩
      simp [Json.Distinct]
  | some scope =>
      have hdistinct := ((Json.distinct_obj record).mp hrecord).2 _ (mem_of_lookupMember hscope)
      refine ⟨hkeys, ?_⟩
      simpa [Json.Distinct] using hdistinct

/-- A payload of the five members of an event. -/
theorem about_event {id type createdAt kind : JsString} {actor body : Members N}
    (hactor : (Json.obj actor).Distinct) (hbody : (Json.obj body).Distinct)
    (hkind : lookupMember (js "kind") body = some (.str kind)) :
    About [(js "id", .str id), (js "type", .str type), (js "actor", .obj actor),
      (js "body", .obj body), (js "createdAt", .str createdAt)] kind where
  distinct := by
    have hkeys : [js "id", js "type", js "actor", js "body", js "createdAt"].Nodup := by decide
    rw [Json.distinct_obj]
    refine ⟨hkeys, ?_⟩
    simp only [List.forall_mem_cons, List.not_mem_nil, false_implies, implies_true, and_true]
    exact ⟨trivial, trivial, hactor, hbody, trivial⟩
  free := by
    have hapart : ∀ k ∈ frameKeys, k ∉ [js "id", js "type", js "actor", js "body",
      js "createdAt"] := by decide
    exact hapart
  body := ⟨body, rfl, hkind⟩

theorem about_advisoryPayload {record alert : Members N} (hrecord : (Json.obj record).Distinct)
    (halert : (Json.obj alert).Distinct) (time : CallTime) (id : JsString) :
    About (advisoryPayload record time id alert) (js "escalation") := by
  apply about_event (distinct_actor hrecord) ?_ rfl
  have hkeys : [js "kind", js "channel", js "payload"].Nodup := by decide
  rw [Json.distinct_obj]
  refine ⟨hkeys, ?_⟩
  simp only [List.forall_mem_cons, List.not_mem_nil, false_implies, implies_true, and_true]
  exact ⟨trivial, trivial, halert⟩

variable {surroundings : Surroundings N} {time : CallTime} {record : Members N}
  {entries : List (Json N)} {artifact : Json N}

theorem about_conflictPayloads (hrecord : (Json.obj record).Distinct) {payloads : List (Members N)}
    (h : conflictPayloads surroundings time record entries artifact = .ok payloads) :
    ∀ payload ∈ payloads, About payload (js "escalation") := by
  obtain ⟨postures, -, hret⟩ := bind_eq_ok_iff.mp h
  rw [← Except.ok.inj hret]
  intro payload hpayload
  obtain ⟨index, hindex, rfl⟩ := List.mem_mapIdx.mp hpayload
  exact about_advisoryPayload hrecord (distinct_conflictAlert _) time _

theorem about_trustPayload (hrecord : (Json.obj record).Distinct) {trust : Option (Members N)}
    (h : trustPayload surroundings time record entries artifact = .ok trust) :
    ∀ payload ∈ trust.toList, About payload (js "escalation") := by
  obtain ⟨posture, -, hret⟩ := bind_eq_ok_iff.mp h
  split_ifs at hret
  · rw [← Except.ok.inj hret]
    simp
  · rw [← Except.ok.inj hret]
    intro payload hpayload
    rw [Option.toList_some, List.mem_singleton] at hpayload
    rw [hpayload]
    exact about_advisoryPayload hrecord (distinct_trustAlert posture) time _

theorem about_stabilizedPayload [JsonNumber N] {decision : Decision N} (env : StabilizeEnv N)
    (hrecord : (Json.obj decision.record).Distinct)
    (hsigners : signersOf decision.record = some decision.requiredSigners)
    (eventId artifactPath : JsString) :
    About (stabilizedPayload env decision eventId artifactPath) (js "stabilized") := by
  apply about_event (distinct_actor hrecord) ?_ rfl
  have hkeys : [js "kind", js "artifactHash", js "signers", js "artifactPath"].Nodup := by decide
  rw [Json.distinct_obj]
  refine ⟨hkeys, ?_⟩
  simp only [List.forall_mem_cons, List.not_mem_nil, false_implies, implies_true, and_true]
  refine ⟨trivial, trivial, ?_, trivial⟩
  unfold signersOf at hsigners
  split at hsigners
  · next signers hlookup =>
    split_ifs at hsigners
    rw [← Option.some.inj hsigners]
    exact ((Json.distinct_obj _).mp hrecord).2 _ (mem_of_lookupMember hlookup)
  · cases hsigners

end Payloads

/-! ## The journal after some of the events -/

section Journal

variable [JsonNumber N] {sha256 : List UInt8 → JsString}

/-- The journal is read as `read`, which the next entry follows as it follows `entries`. -/
structure Follows (sha256 : List UInt8 → JsString) (journal : FileBytes)
    (read entries : List (Json N)) : Prop where
  lines : ∃ values, HoldsLines journal values ∧ values.map Json.ordered = read
  verified : verifyJournalChain sha256 read = .ok .ok
  same : ∀ payload, nextEntry sha256 entries.getLast? payload =
    nextEntry sha256 read.getLast? payload

theorem Follows.read_eq {journal : FileBytes} {read entries : List (Json N)}
    (h : Follows sha256 journal read entries) (id : JsString) :
    readNegotiationJournal sha256 id journal = .ok read := by
  obtain ⟨values, hlines, rfl⟩ := h.lines
  exact readNegotiationJournal_eq_ok.mpr ⟨hlines.read, h.verified⟩

/-- One more event. -/
theorem Follows.event {journal : FileBytes} {read entries : List (Json N)}
    (h : Follows sha256 journal read entries) {payload : Members N} {kind : JsString}
    (habout : About payload kind) {event : Json N}
    (hevent : nextEntry sha256 entries.getLast? payload = .ok event) :
    Follows sha256 (appendJsonl journal event) (read ++ [event.ordered]) (entries ++ [event]) := by
  have hlast := canFollow_of_verified h.verified
  have hnext := hevent
  rw [h.same] at hnext
  obtain ⟨values, hlines, hread⟩ := h.lines
  constructor
  · refine ⟨values ++ [event], hlines.append (printable_entry habout.distinct hlast hnext), ?_⟩
    rw [List.map_append, hread, List.map_singleton]
  · rw [verifyJournalChain_append]
    exact ⟨h.verified, entryFault_framed hlast habout.free hnext⟩
  · intro next
    rw [List.getLast?_concat, List.getLast?_concat]
    exact nextEntry_ordered habout.free hevent next

/-- The first events, as many as there are. -/
theorem Follows.events {entries events : List (Json N)} {payloads : List (Members N)}
    (hmade : Made sha256 entries payloads events)
    (habout : ∀ payload ∈ payloads, ∃ kind, About payload kind)
    {journal : FileBytes} {read : List (Json N)} (h : Follows sha256 journal read entries)
    (n : Nat) :
    Follows sha256 ((events.take n).foldl appendJsonl journal)
      (read ++ (events.take n).map Json.ordered) (entries ++ events.take n) := by
  induction hmade generalizing journal read n with
  | nil => simpa using h
  | cons hevent hrest ih =>
      cases n with
      | zero => simpa using h
      | succ n =>
          obtain ⟨⟨kind, hkind⟩, hothers⟩ := List.forall_mem_cons.mp habout
          have hlater := ih hothers (h.event hkind hevent) n
          simpa using hlater

/-- The events are written to the journal only. -/
theorem perform_events (events : List (Json N)) (files : NegotiationFiles N) :
    (events.map StabilizeWrite.event).foldl StabilizeWrite.perform files =
      { files with journal := events.foldl appendJsonl files.journal } := by
  induction events generalizing files with
  | nil => rfl
  | cons event events ih =>
      rw [List.map_cons, List.foldl_cons, ih]
      rfl

end Journal

/-! ## An attempt that returns -/

section Attempts

variable [JsonNumber N] {surroundings : Surroundings N} {time : CallTime} {registry : Registry}
  {id eventId : JsString} {files files' : NegotiationFiles N} {decision : Decision N}

/-- An attempt that returns has made its events of advisories and the final payload, and performed
its writes. -/
theorem persist_eq_ok {result : StabilizeResult N} (hrecord : (Json.obj decision.record).Distinct)
    (hsigners : signersOf decision.record = some decision.requiredSigners)
    (h : (persist (surroundings.at time) decision eventId).run.run files = (.ok result, files')) :
    result.artifactHash = decision.winningHash ∧
      result.artifactPath =
        resolveStabilizedArtifactPath decision.winningArtifact decision.winningHash ∧
      result.record = stabilizedRecord decision.record decision.winningHash ∧
      files.artifacts.get result.artifactPath = none ∧
      (∃ advisories final, Made surroundings.sha256 decision.entries (advisories ++ [final])
          result.events ∧
        (∀ payload ∈ advisories, About payload (js "escalation")) ∧
        About final (js "stabilized")) ∧
      files' = (stabilizeWrites decision result).foldl StabilizeWrite.perform files := by
  obtain ⟨_, files₁, hartifact, h⟩ := stateRun_bind_eq_ok.mp h
  obtain ⟨entries, files₂, hevents, h⟩ := stateRun_bind_eq_ok.mp h
  rw [stateRun_modify_bind] at h
  obtain ⟨hresult, rfl⟩ := Prod.mk.inj h
  obtain rfl := Except.ok.inj hresult
  rw [writeArtifact, stateRun_get_bind] at hartifact
  obtain ⟨_, _, hrefuse, hartifact⟩ := stateRun_bind_eq_ok.mp hartifact
  obtain ⟨hfree, rfl⟩ := ofExcept_eq_ok.mp hrefuse
  obtain ⟨-, rfl⟩ := Prod.mk.inj hartifact
  obtain ⟨conflicts, _, hrun, hevents⟩ := stateRun_bind_eq_ok.mp hevents
  obtain ⟨hconflicts, rfl⟩ := ofExcept_eq_ok.mp hrun
  obtain ⟨_, _, happend, hevents⟩ := stateRun_bind_eq_ok.mp hevents
  obtain ⟨declared, hdeclared, rfl, rfl⟩ := appendEvents_eq_ok happend
  obtain ⟨trust, _, hrun', hevents⟩ := stateRun_bind_eq_ok.mp hevents
  obtain ⟨htrust, rfl⟩ := ofExcept_eq_ok.mp hrun'
  obtain ⟨_, _, happend, hevents⟩ := stateRun_bind_eq_ok.mp hevents
  obtain ⟨trusted, htrusted, rfl, rfl⟩ := appendEvents_eq_ok happend
  obtain ⟨last, hlast, rfl, rfl⟩ := appendEvents_eq_ok hevents
  have hdrop : (decision.entries ++ declared ++ trusted ++ last).drop decision.entries.length =
      declared ++ trusted ++ last := by
    rw [List.append_assoc, List.append_assoc, List.drop_left, List.append_assoc]
  have hnone := Option.isSome_eq_false_iff.mp (refuseWhen_eq_ok.mp hfree)
  let final := stabilizedPayload (surroundings.at time) decision eventId (joinPath
    surroundings.root (resolveStabilizedArtifactPath decision.winningArtifact decision.winningHash))
  have hfinal : About final (js "stabilized") :=
    about_stabilizedPayload _ hrecord hsigners eventId _
  refine ⟨rfl, rfl, rfl, Option.isNone_iff_eq_none.mp hnone,
    ⟨conflicts ++ trust.toList, final, ?_, ?_, hfinal⟩, ?_⟩
  · rw [hdrop]
    rw [List.append_assoc] at hlast
    exact (hdeclared.append htrusted).append hlast
  · intro payload hpayload
    rcases List.mem_append.mp hpayload with hpayload | hpayload
    · exact about_conflictPayloads hrecord hconflicts payload hpayload
    · exact about_trustPayload hrecord htrust payload hpayload
  · dsimp only [stabilizeWrites]
    rw [hdrop, List.foldl_cons, List.foldl_append, List.map_append, List.map_append,
      List.foldl_append, List.foldl_append]
    rfl

theorem findArtifact_append {hash : JsString} {entries : List (Json N)} {artifact : Json N}
    {sha256 : List UInt8 → JsString}
    (h : findArtifact sha256 hash entries = .ok (some artifact)) (added : List (Json N)) :
    findArtifact sha256 hash (entries ++ added) = .ok (some artifact) := by
  induction entries with
  | nil => cases h
  | cons entry entries ih =>
      rw [List.cons_append]
      unfold findArtifact at h ⊢
      split at h
      · exact ih h
      · obtain ⟨computed, hcomputed, h⟩ := bind_eq_ok_iff.mp h
        rw [hcomputed, ok_bind]
        split_ifs at h ⊢
        · exact h
        · exact ih h

theorem collect_quiet {crypto : NodeCrypto N} {byHash : SignaturesByHash N}
    {added : List (Json N)} (h : ∀ entry ∈ added, signatureOf entry = none) :
    added.foldlM (collectSignature crypto registry id) byHash = .ok byHash := by
  induction added with
  | nil => rfl
  | cons entry added ih =>
      obtain ⟨hentry, hrest⟩ := List.forall_mem_cons.mp h
      rw [List.foldlM_cons, collectSignature, hentry]
      exact ih hrest

/-- Entries that are no signatures decide nothing else. -/
theorem Decided.extended {env : StabilizeEnv N} (h : Decided env registry id files decision)
    {added : List (Json N)} (hstate : files'.state = files.state)
    (hjournal : readNegotiationJournal env.sha256 id files'.journal =
      .ok (decision.entries ++ added)) (hquiet : ∀ entry ∈ added, signatureOf entry = none) :
    Decided env registry id files' { decision with entries := decision.entries ++ added } where
  state := hstate.trans h.state
  status := h.status
  signers := h.signers
  journal := hjournal
  quorum := by
    obtain ⟨byHash, bucket, hcollected, hwinner, hkind⟩ := h.quorum
    refine ⟨byHash, bucket, ?_, hwinner, hkind⟩
    rw [List.foldlM_append, hcollected]
    exact collect_quiet hquiet
  artifact := findArtifact_append h.artifact added

/-- The guard on consents, which is about the id and the subject. -/
def refusesConsent (id : JsString) (state : Option (Members N)) : Bool :=
  isConsentId id || Json.isText (js "drive-consent") (state.bind (lookupMember (js "subject")))

/-- What an attempt does once it has passed the guard and decided. -/
theorem run_stabilize {env : StabilizeEnv N} (hconsent : refusesConsent id files.state = false)
    (hdecided : Decided env registry id files decision) :
    (stabilizeNegotiation env registry id eventId).run.run files =
      (persist env decision eventId).run.run files := by
  have hrefuse : refuseWhen (refusesConsent id files.state) "Cannot stabilize drive-consent" =
      .ok () := refuseWhen_eq_ok.mpr hconsent
  have hdecide := decideStabilization_eq_ok.mpr hdecided
  rw [stabilizeNegotiation, stateRun_get_bind]
  exact (stateRun_bind_of_ok (run_ofExcept hrefuse files) _).trans
    (stateRun_bind_of_ok (run_ofExcept hdecide files) _)

/-- The artifact is not written again. -/
theorem persist_refused {env : StabilizeEnv N} {value : Json N}
    (h : files.artifacts.get
      (resolveStabilizedArtifactPath decision.winningArtifact decision.winningHash) =
        some value) :
    (persist env decision eventId).run.run files =
      (.error ("stabilizeNegotiation: stabilized artifact already on disk at " ++
        (joinPath env.root (resolveStabilizedArtifactPath decision.winningArtifact
          decision.winningHash)).toText), files) := by
  have hwrite : (writeArtifact env decision (resolveStabilizedArtifactPath decision.winningArtifact
      decision.winningHash)).run.run files =
      (.error ("stabilizeNegotiation: stabilized artifact already on disk at " ++
        (joinPath env.root (resolveStabilizedArtifactPath decision.winningArtifact
          decision.winningHash)).toText), files) := by
    rw [writeArtifact, stateRun_get_bind, stateRun_bind, h]
    rfl
  rw [persist, stateRun_bind, hwrite]

theorem isText_readBack {text : JsString} {v : Option (Json N)}
    (h : Json.isText text v = false) : Json.isText text (v.map Json.readBack) = false := by
  cases v with
  | none => exact h
  | some v =>
      cases v with
      | num n =>
          simp only [Option.map_some, Json.readBack]
          split_ifs <;> rfl
      | _ => exact h

/-- An attempt that returns has passed the guard. -/
theorem guard_of_ok {env : StabilizeEnv N} {result : StabilizeResult N}
    (h : (stabilizeNegotiation env registry id eventId).run.run files = (.ok result, files')) :
    refusesConsent id files.state = false := by
  rw [stabilizeNegotiation, stateRun_get_bind] at h
  obtain ⟨_, _, hrefuse, -⟩ := stateRun_bind_eq_ok.mp h
  exact refuseWhen_eq_ok.mp (ofExcept_eq_ok.mp hrefuse).1

/-- What is decided does not depend on the time. -/
theorem Decided.at_time {surroundings : Surroundings N} {time : CallTime}
    (h : Decided (surroundings.at time) registry id files decision) (time' : CallTime) :
    Decided (surroundings.at time') registry id files decision :=
  ⟨h.state, h.status, h.signers, h.journal, h.quorum, h.artifact⟩

theorem Decided.follows {env : StabilizeEnv N} (h : Decided env registry id files decision)
    {values : List (Json N)} (hlines : HoldsLines files.journal values) :
    Follows env.sha256 files.journal decision.entries decision.entries where
  lines := by
    have hread := (readNegotiationJournal_eq_ok.mp h.journal).1
    rw [hlines.read] at hread
    exact ⟨values, hlines, Option.some.inj hread⟩
  verified := (readNegotiationJournal_eq_ok.mp h.journal).2
  same _ := rfl

/-- A record that is stabilized is not stabilized again. -/
theorem stabilize_refused {env : StabilizeEnv N} {record : Members N}
    (hconsent : refusesConsent id files.state = false) (hstate : files.state = some record)
    (hstatus : Json.isText (js "stabilized") (lookupMember (js "status") record) = true) :
    (stabilizeNegotiation env registry id eventId).run.run files =
      (.error s!"Negotiation already stabilized: {id}", files) := by
  have hrefuse : refuseWhen (refusesConsent id files.state) "Cannot stabilize drive-consent" =
      .ok () := refuseWhen_eq_ok.mpr hconsent
  have hdecide : decideStabilization env registry id files =
      .error s!"Negotiation already stabilized: {id}" := by
    rw [decideStabilization, hstate]
    simp only [orThrow, Option.elim_some, ok_bind, hstatus, refuseWhen, if_true, error_bind]
  rw [stabilizeNegotiation, stateRun_get_bind]
  apply (stateRun_bind_of_ok (run_ofExcept hrefuse files) _).trans
  rw [stateRun_bind, hdecide]
  rfl

end Attempts

/-! ## The files of the store -/

section Files

variable [JsonNumber N]

/-- Files as the store writes them: a journal of lines, and a record that is an object. -/
structure Written (files : NegotiationFiles N) : Prop where
  journal : ∃ values : List (Json N), HoldsLines files.journal values
  state : ∀ record, files.state = some record → (Json.obj record).Distinct

theorem written_unopened (artifacts : JsMap Path (Json N)) :
    Written ⟨none, none, artifacts⟩ where
  journal := ⟨[], holdsLines_none⟩
  state := by simp

theorem inOrder_readBack (v : Json N) : v.readBack.InOrder := by
  induction v using Json.memberwise with
  | num n =>
      rw [Json.readBack]
      split_ifs <;> rfl
  | arr es ih =>
      rw [Json.readBack_arr, Json.inOrder_arr, List.forall_mem_map]
      exact ih
  | obj ms ih =>
      rw [Json.readBack, Json.readBackEach_eq_map, Json.inOrder_obj]
      refine ⟨sorted_ofMembers _, ?_⟩
      intro m hm
      obtain ⟨m', hm', rfl⟩ := List.mem_map.mp (mem_ofMembers hm)
      exact ih m' hm'
  | _ => rfl

/-- A record that is written is read back as an object. -/
theorem distinct_readBackMembers (members : Members N) :
    (Json.obj (Json.readBackMembers members)).Distinct := by
  have hinOrder := inOrder_readBack (Json.obj members)
  rw [Json.readBack, Json.readBackEach_eq_map] at hinOrder
  exact hinOrder.distinct

theorem Written.record {files : NegotiationFiles N} (h : Written files) (members : Members N) :
    Written { files with state := some (Json.readBackMembers members) } where
  journal := h.journal
  state := by
    rintro _ ⟨⟩
    exact distinct_readBackMembers members

theorem Written.openNegotiation {files : NegotiationFiles N} (h : Written files)
    (record : Members N) : Written (LocalFiles.openNegotiation record files).2 := by
  rw [LocalFiles.openNegotiation]
  split
  · exact h
  · split_ifs
    · exact h
    · exact h.record record

theorem Written.updateNegotiationStatus {files : NegotiationFiles N} (h : Written files)
    (id status : JsString) : Written (LocalFiles.updateNegotiationStatus id status files).2 := by
  rw [LocalFiles.updateNegotiationStatus]
  split
  · exact h
  · split
    · exact h
    · exact h.record _

theorem Written.appendNegotiationEvent {files : NegotiationFiles N} (h : Written files)
    {payload : Members N} (hpayload : (Json.obj payload).Distinct)
    (sha256 : List UInt8 → JsString) (id : JsString) :
    Written { files with
      journal := (LocalFiles.appendNegotiationEvent sha256 id payload files.journal).2 } where
  journal := by
    obtain ⟨values, hlines⟩ := h.journal
    cases hcall : LocalFiles.appendNegotiationEvent sha256 id payload files.journal with
    | mk answer journal =>
        cases answer with
        | error error =>
            rw [append_throws hcall]
            exact ⟨values, hlines⟩
        | ok entry =>
            obtain ⟨-, hentry, rfl⟩ := append_returns.mp hcall
            have hread := hentry
            rw [makeEntry] at hread
            obtain ⟨entries, hentries, -⟩ := bind_eq_ok_iff.mp hread
            rw [makeEntry_eq payload hentries] at hentry
            have hlast := canFollow_of_verified (readNegotiationJournal_eq_ok.mp hentries).2
            exact ⟨values ++ [entry], hlines.append (printable_entry hpayload hlast hentry)⟩
  state := h.state

end Files

/-! ## Every attempt after one that stopped -/

section Retries

variable [JsonNumber N]

/-- Stabilization would return, whenever it is called. -/
def WouldReturn (surroundings : Surroundings N) (registry : Registry) (id : JsString)
    (files : NegotiationFiles N) : Prop :=
  ∀ time eventId, ∃ result files',
    (stabilizeNegotiation (surroundings.at time) registry id eventId).run.run files =
      (.ok result, files')

variable {surroundings : Surroundings N} {registry : Registry} {id : JsString}
  {files : NegotiationFiles N} {decision : Decision N}

theorem stoppedAfter_succ (decision : Decision N) (result : StabilizeResult N) {n : Nat}
    (h : n ≤ result.events.length) (files : NegotiationFiles N) :
    stoppedAfter (stabilizeWrites decision result) (n + 1) files =
      { files with
        artifacts := files.artifacts.set result.artifactPath decision.winningArtifact.readBack
        journal := (result.events.take n).foldl appendJsonl files.journal } := by
  have htake : (result.events.map StabilizeWrite.event ++ [StabilizeWrite.state result.record]).take n =
      (result.events.take n).map StabilizeWrite.event := by
    rw [List.take_append_of_le_length (by simpa using h), List.map_take]
  rw [stoppedAfter, stabilizeWrites, List.take_succ_cons, htake, List.foldl_cons, perform_events]
  rfl

theorem stoppedAfter_all (decision : Decision N) (result : StabilizeResult N) {n : Nat}
    (h : (stabilizeWrites decision result).length ≤ n) (files : NegotiationFiles N) :
    (stoppedAfter (stabilizeWrites decision result) n files).state =
      some (Json.readBackMembers result.record) := by
  rw [stoppedAfter, List.take_of_length_le h, stabilizeWrites, List.foldl_cons, List.foldl_append,
    perform_events]
  rfl

/-- What an attempt makes: events that are no signatures, one of them about a stabilization. -/
theorem events_of_persist {time : CallTime} {eventId : JsString} {result : StabilizeResult N}
    {files' : NegotiationFiles N} (hfiles : Written files)
    (hdecided : Decided (surroundings.at time) registry id files decision)
    (h : (persist (surroundings.at time) decision eventId).run.run files = (.ok result, files')) :
    (∀ n, Follows surroundings.sha256 ((result.events.take n).foldl appendJsonl files.journal)
        (decision.entries ++ (result.events.take n).map Json.ordered)
        (decision.entries ++ result.events.take n)) ∧
      (∀ event ∈ result.events, signatureOf event.ordered = none) ∧
      (result.events.map Json.ordered).countP isStabilizedEntry = 1 := by
  obtain ⟨values, hlines⟩ := hfiles.journal
  have hrecord := hfiles.state decision.record hdecided.state
  obtain ⟨-, -, -, -, ⟨advisories, final, hmade, hadvisories, hfinal⟩, -⟩ :=
    persist_eq_ok hrecord hdecided.signers h
  have habout : ∀ payload ∈ advisories ++ [final], ∃ kind, About payload kind := by
    intro payload hpayload
    rcases List.mem_append.mp hpayload with hpayload | hpayload
    · exact ⟨_, hadvisories payload hpayload⟩
    · rw [List.mem_singleton.mp hpayload]
      exact ⟨_, hfinal⟩
  have hfollows : Follows surroundings.sha256 files.journal decision.entries decision.entries :=
    hdecided.follows hlines
  obtain ⟨earlier, last, hevents, hearlier, hlast⟩ := hmade.of_concat
  have hquiet := hearlier.kind hadvisories
  have hstabilized := hfinal.bodyKind_entry hlast
  refine ⟨hfollows.events hmade habout, ?_, ?_⟩
  · intro event hevent
    rw [hevents] at hevent
    rcases List.mem_append.mp hevent with hevent | hevent
    · exact signatureOf_eq_none (hquiet event hevent) (by decide)
    · rw [List.mem_singleton.mp hevent]
      exact signatureOf_eq_none hstabilized (by decide)
  · have hnone : (earlier.map Json.ordered).countP isStabilizedEntry = 0 := by
      rw [List.countP_eq_zero, List.forall_mem_map]
      intro event hevent
      have hkind : js "escalation" ≠ js "stabilized" := by decide
      simp [isStabilizedEntry, hquiet event hevent, Json.isText, hkind]
    have hone : isStabilizedEntry last.ordered = true := by
      rw [isStabilizedEntry, hstabilized, Json.isText, beq_self_eq_true]
    rw [hevents, List.map_append, List.countP_append, hnone, List.map_singleton,
      List.countP_singleton, hone]
    rfl

/-- Wherever an attempt stops, it leaves files as the store writes them. -/
theorem Written.stoppedAfter {time : CallTime} {eventId : JsString} {result : StabilizeResult N}
    {files' : NegotiationFiles N} (h : Written files)
    (hdecided : Decided (surroundings.at time) registry id files decision)
    (hrun : (persist (surroundings.at time) decision eventId).run.run files = (.ok result, files'))
    (n : Nat) : Written (LocalFiles.stoppedAfter (stabilizeWrites decision result) n files) := by
  obtain ⟨hfollows, -, -⟩ := events_of_persist h hdecided hrun
  have hjournal : ∀ n, ∃ values : List (Json N),
      HoldsLines ((result.events.take n).foldl appendJsonl files.journal) values := by
    intro n
    obtain ⟨values, hlines, -⟩ := (hfollows n).lines
    exact ⟨values, hlines⟩
  cases n with
  | zero => exact h
  | succ n =>
      by_cases hn : n ≤ result.events.length
      · rw [stoppedAfter_succ decision result hn]
        exact ⟨hjournal n, h.state⟩
      · have hall : (stabilizeWrites decision result).length ≤ n + 1 := by
          simp only [stabilizeWrites, List.length_cons, List.length_append, List.length_map,
            List.length_nil]
          omega
        have hlines := hjournal result.events.length
        rw [List.take_length] at hlines
        constructor
        · rw [LocalFiles.stoppedAfter, List.take_of_length_le hall, stabilizeWrites,
            List.foldl_cons, List.foldl_append, perform_events]
          exact hlines
        · rw [stoppedAfter_all decision result hall]
          rintro _ ⟨⟩
          exact distinct_readBackMembers _

/-- An attempt returns the hash, and adds one entry about a stabilization to the journal. -/
def Repeated (surroundings : Surroundings N) (id hash : JsString) (before : NegotiationFiles N)
    (attempt : Except String (StabilizeResult N) × NegotiationFiles N) : Prop :=
  ∃ result after, ∃ entries added : List (Json N), attempt = (.ok result, after) ∧
    result.artifactHash = hash ∧
    readNegotiationJournal surroundings.sha256 id before.journal = .ok entries ∧
    readNegotiationJournal surroundings.sha256 id after.journal = .ok (entries ++ added) ∧
    added.countP isStabilizedEntry = 1

/-- Once the artifact is written, and until the record is, every attempt is refused, and writes
nothing. -/
theorem retry_refused {time : CallTime} {eventId : JsString} {result : StabilizeResult N}
    {files' : NegotiationFiles N} (hfiles : Written files)
    (hconsent : refusesConsent id files.state = false)
    (hdecided : Decided (surroundings.at time) registry id files decision)
    (h : (persist (surroundings.at time) decision eventId).run.run files = (.ok result, files'))
    {n : Nat} (hn : n ≤ result.events.length) (time' : CallTime) (eventId' : JsString) :
    (stabilizeNegotiation (surroundings.at time') registry id eventId').run.run
        (stoppedAfter (stabilizeWrites decision result) (n + 1) files) =
      (.error ("stabilizeNegotiation: stabilized artifact already on disk at " ++
        (joinPath surroundings.root result.artifactPath).toText),
        stoppedAfter (stabilizeWrites decision result) (n + 1) files) := by
  have hrecord := hfiles.state decision.record hdecided.state
  obtain ⟨hfollows, hquiet, -⟩ := events_of_persist hfiles hdecided h
  obtain ⟨-, hpath, -⟩ := persist_eq_ok hrecord hdecided.signers h
  rw [stoppedAfter_succ decision result hn]
  have hextended : Decided (surroundings.at time') registry id
      { files with
        artifacts := files.artifacts.set result.artifactPath decision.winningArtifact.readBack
        journal := (result.events.take n).foldl appendJsonl files.journal }
      { decision with
        entries := decision.entries ++ (result.events.take n).map Json.ordered } := by
    refine Decided.extended (hdecided.at_time time') rfl ((hfollows n).read_eq id) ?_
    rw [List.forall_mem_map]
    intro event hevent
    exact hquiet event (List.mem_of_mem_take hevent)
  rw [hpath] at hextended ⊢
  apply (run_stabilize ?_ hextended).trans
  · exact persist_refused (JsMap.get_set_self _ _ _)
  · exact hconsent

/-- Once the record is written, the negotiation is found stabilized. -/
theorem retry_found {time : CallTime} {eventId : JsString} {result : StabilizeResult N}
    {files' : NegotiationFiles N} (hfiles : Written files)
    (hconsent : refusesConsent id files.state = false)
    (hdecided : Decided (surroundings.at time) registry id files decision)
    (h : (persist (surroundings.at time) decision eventId).run.run files = (.ok result, files'))
    {n : Nat} (hn : (stabilizeWrites decision result).length ≤ n) (time' : CallTime)
    (eventId' : JsString) :
    (stabilizeNegotiation (surroundings.at time') registry id eventId').run.run
        (stoppedAfter (stabilizeWrites decision result) n files) =
      (.error s!"Negotiation already stabilized: {id}",
        stoppedAfter (stabilizeWrites decision result) n files) := by
  have hrecord := hfiles.state decision.record hdecided.state
  have hnodup := ((Json.distinct_obj _).mp hrecord).1
  obtain ⟨-, -, hresult, -⟩ := persist_eq_ok hrecord hdecided.signers h
  have hstate := stoppedAfter_all decision result hn files
  rw [hresult] at hstate
  apply stabilize_refused ?_ hstate ?_
  · have hsubject := lookup_written hnodup [(js "status", .str (js "stabilized")),
      (js "currentArtifactHash", .str decision.winningHash)] (js "subject")
    rw [hdecided.state, refusesConsent, Option.bind_some, Bool.or_eq_false_iff] at hconsent
    rw [hstate, refusesConsent, Option.bind_some, stabilizedRecord, hsubject, hconsent.1,
      Bool.false_or]
    exact isText_readBack hconsent.2
  · rw [stabilizedRecord, lookup_written hnodup]
    rfl

/-- What an attempt does to the files `before`, when it returns. -/
theorem attempt_repeats {time : CallTime} {eventId : JsString} {result : StabilizeResult N}
    {after : NegotiationFiles N} (hfiles : Written files)
    (hdecided : Decided (surroundings.at time) registry id files decision)
    (h : (stabilizeNegotiation (surroundings.at time) registry id eventId).run.run files =
      (.ok result, after)) :
    Repeated surroundings id decision.winningHash files (.ok result, after) := by
  obtain ⟨decision', hdecided', hpersist⟩ := stabilize_eq_ok h
  have hsame : decision' = decision :=
    Except.ok.inj ((decideStabilization_eq_ok.mpr hdecided').symm.trans
      (decideStabilization_eq_ok.mpr hdecided))
  rw [hsame] at hpersist
  have hrecord := hfiles.state decision.record hdecided.state
  obtain ⟨hhash, -, -, -, -, hafter⟩ := persist_eq_ok hrecord hdecided.signers hpersist
  obtain ⟨hfollows, -, hcount⟩ := events_of_persist hfiles hdecided hpersist
  have hjournal : after.journal = result.events.foldl appendJsonl files.journal := by
    rw [hafter, stabilizeWrites, List.foldl_cons, List.foldl_append, perform_events]
    rfl
  have hall := (hfollows result.events.length).read_eq id
  rw [List.take_length, ← hjournal] at hall
  exact ⟨result, after, decision.entries, result.events.map Json.ordered, rfl, hhash,
    hdecided.journal, hall, hcount⟩

/-- A negotiation that would be stabilized, and a first attempt that stops after any number of its
writes: a second attempt returns the same hash, with one more entry about a stabilization, where
nothing was written; it is refused, and writes nothing, where the artifact was written; it finds
the negotiation stabilized where everything was written. -/
theorem stabilization_retried (surroundings : Surroundings N) (registry : Registry)
    (id : JsString) {files : NegotiationFiles N} (hfiles : Written files)
    (hwould : WouldReturn surroundings registry id files) (time : CallTime) (eventId : JsString) :
    ∃ decision result,
      (stabilizeNegotiation (surroundings.at time) registry id eventId).run.run files =
        (.ok result, (stabilizeWrites decision result).foldl StabilizeWrite.perform files) ∧
      ∀ n time' eventId',
        let stopped := stoppedAfter (stabilizeWrites decision result) n files
        let retry := (stabilizeNegotiation (surroundings.at time') registry id eventId').run.run
          stopped
        (n = 0 → Repeated surroundings id result.artifactHash files retry) ∧
        (0 < n → n < (stabilizeWrites decision result).length →
          retry = (.error ("stabilizeNegotiation: stabilized artifact already on disk at " ++
            (joinPath surroundings.root result.artifactPath).toText), stopped)) ∧
        ((stabilizeWrites decision result).length ≤ n →
          retry = (.error s!"Negotiation already stabilized: {id}", stopped)) := by
  obtain ⟨result, files', hrun⟩ := hwould time eventId
  obtain ⟨decision, hdecided, hpersist⟩ := stabilize_eq_ok hrun
  have hrecord := hfiles.state decision.record hdecided.state
  have hconsent := guard_of_ok hrun
  obtain ⟨hhash, -, -, -, -, rfl⟩ := persist_eq_ok hrecord hdecided.signers hpersist
  refine ⟨decision, result, hrun, ?_⟩
  intro n time' eventId'
  dsimp only
  refine ⟨?_, ?_, ?_⟩
  · rintro rfl
    obtain ⟨result', after, hrun'⟩ := hwould time' eventId'
    rw [hhash, show stoppedAfter (stabilizeWrites decision result) 0 files = files from rfl, hrun']
    exact attempt_repeats hfiles (hdecided.at_time time') hrun'
  · intro hn hlt
    obtain ⟨m, rfl⟩ := Nat.exists_eq_succ_of_ne_zero (Nat.ne_of_gt hn)
    have hm : m ≤ result.events.length := by
      simp only [stabilizeWrites, List.length_cons, List.length_append, List.length_map,
        List.length_nil] at hlt
      omega
    exact retry_refused hfiles hconsent hdecided hpersist hm time' eventId'
  · intro hn
    exact retry_found hfiles hconsent hdecided hpersist hn time' eventId'

end Retries

/-! ## A negotiation of one signer -/

theorem printable_int (v : Json Int) : v.Printable := by
  induction v using Json.memberwise with
  | arr es ih => exact (Json.printable_arr es).mpr ih
  | obj ms ih => exact (Json.printable_obj ms).mpr ih
  | num => rfl
  | _ => trivial

/-- Numbers that are integers are finite, so every event can be appended. -/
theorem exists_nextEntry (sha256 : List UInt8 → JsString) (prev : Option (Json Int))
    (payload : Members Int) : ∃ entry, nextEntry sha256 prev payload = .ok entry := by
  obtain ⟨hash, hhash⟩ : ∃ hash, computeHash sha256 (.obj payload) = .ok hash :=
    ⟨_, computeHash_eq_ok.mpr ⟨_, canonicalize_eq_ok.mpr ⟨printable_int _, rfl⟩, rfl⟩⟩
  exact ⟨_, nextEntry_eq_ok.mpr ⟨hash, hhash, rfl⟩⟩

/-- No conflict may be declared, and trust is established. -/
def calmSurroundings : Surroundings Int where
  sha256 _ := js "00"
  crypto := plainCrypto
  root := js "/h2a"
  derivePosturesConflitFor _ _ _ := .ok []
  derivePostureConfianceFor _ _ _ :=
    .ok ⟨js "etablie", js "sha256:00", true, true, [], [], [], ⟨.arr [], trivial⟩, []⟩

/-- A negotiation that is decided calmly would be stabilized. -/
theorem wouldReturn_calm {registry : Registry} {id : JsString} {files : NegotiationFiles Int}
    {decision : Decision Int} {time : CallTime}
    (hconsent : refusesConsent id files.state = false)
    (hdecided : Decided (calmSurroundings.at time) registry id files decision)
    (hfree : files.artifacts = .empty) :
    WouldReturn calmSurroundings registry id files := by
  intro time' eventId
  let env := calmSurroundings.at time'
  let path := resolveStabilizedArtifactPath decision.winningArtifact decision.winningHash
  obtain ⟨files₁, hartifact⟩ : ∃ files₁,
      (writeArtifact env decision path).run.run files = (.ok (), files₁) := by
    rw [writeArtifact, stateRun_get_bind, hfree]
    exact ⟨_, rfl⟩
  obtain ⟨final, hfinal⟩ := exists_nextEntry env.sha256 decision.entries.getLast?
    (stabilizedPayload env decision eventId (joinPath env.root path))
  have hevents : (writeEvents env decision path eventId).run.run files₁ =
      (.ok (decision.entries ++ [final]),
        { files₁ with journal := appendJsonl files₁.journal final }) :=
    run_writeEvents rfl rfl hfinal files₁
  rw [run_stabilize hconsent (hdecided.at_time time'), persist, stateRun_bind_of_ok hartifact,
    stateRun_bind_of_ok hevents]
  exact ⟨_, _, rfl⟩

theorem written_signed : Written signedFiles := by
  have hoffer : (Json.obj offerPayload).Distinct :=
    ⟨by decide, trivial, ⟨by decide, ⟨by decide, trivial, trivial⟩, trivial⟩, trivial⟩
  have hsignature : (Json.obj signaturePayload).Distinct :=
    ⟨by decide, trivial, ⟨by decide, trivial, trivial⟩,
      ⟨by decide, trivial, trivial, ⟨by decide, trivial, trivial, trivial, trivial⟩, trivial⟩,
      trivial⟩
  have hopened := (written_unopened .empty).openNegotiation soleSignerRecord
  exact (hopened.appendNegotiationEvent hoffer _ _).appendNegotiationEvent hsignature _ _

/-- The negotiation that is open, offered and signed is decided. -/
theorem decided_signed : ∃ decision, Decided (calmSurroundings.at ⟨js "", js ""⟩)
    soleSignerRegistry (js "neg:1") signedFiles decision := by
  have hok : (decideStabilization (calmSurroundings.at ⟨js "", js ""⟩) soleSignerRegistry
      (js "neg:1") signedFiles).isOk = true := by decide +kernel
  cases hdecide : decideStabilization (calmSurroundings.at ⟨js "", js ""⟩) soleSignerRegistry
      (js "neg:1") signedFiles with
  | error error =>
      rw [hdecide] at hok
      cases hok
  | ok decision => exact ⟨decision, decideStabilization_eq_ok.mp hdecide⟩

theorem wouldReturn_signed :
    WouldReturn calmSurroundings soleSignerRegistry (js "neg:1") signedFiles := by
  obtain ⟨decision, hdecided⟩ := decided_signed
  exact wouldReturn_calm (by decide +kernel) hdecided rfl

/-- The second attempt returns the hash, or finds the negotiation stabilized. -/
def Retried (id hash : JsString)
    (attempt : Except String (StabilizeResult Int) × NegotiationFiles Int) : Prop :=
  (∃ result after, attempt = (.ok result, after) ∧ result.artifactHash = hash) ∨
    attempt.1 = .error s!"Negotiation already stabilized: {id}"

def firstTime : CallTime := ⟨js "2026-01-01T00:00:00.000Z", js "mjuq8g00"⟩

def secondTime : CallTime := ⟨js "2026-01-01T00:01:00.000Z", js "mjuq9qao"⟩

/-- Messages that begin with different letters are different. -/
theorem message_ne {c d : Char} (hne : c ≠ d) {cs ds : List Char} {s t : String} :
    String.ofList (c :: cs) ++ s ≠ String.ofList (d :: ds) ++ t := by
  intro heq
  have hlist := congrArg String.toList heq
  rw [String.toList_append, String.toList_append, String.toList_ofList, String.toList_ofList]
    at hlist
  exact hne (List.cons.inj hlist).1

/-- A first attempt that stops after the artifact, and a second one. -/
theorem artifact_blocks_retry :
    WouldReturn calmSurroundings soleSignerRegistry (js "neg:1") signedFiles ∧
      ∃ decision result,
        (stabilizeNegotiation (calmSurroundings.at firstTime) soleSignerRegistry (js "neg:1")
          (js "evt:3")).run.run signedFiles =
            (.ok result,
              (stabilizeWrites decision result).foldl StabilizeWrite.perform signedFiles) ∧
        ¬Retried (js "neg:1") result.artifactHash
          ((stabilizeNegotiation (calmSurroundings.at secondTime) soleSignerRegistry (js "neg:1")
            (js "evt:4")).run.run
              (stoppedAfter (stabilizeWrites decision result) 1 signedFiles)) := by
  obtain ⟨result, files', hrun⟩ := wouldReturn_signed firstTime (js "evt:3")
  obtain ⟨decision, hdecided, hpersist⟩ := stabilize_eq_ok hrun
  have hrecord := written_signed.state decision.record hdecided.state
  obtain ⟨-, -, -, -, -, rfl⟩ := persist_eq_ok hrecord hdecided.signers hpersist
  refine ⟨wouldReturn_signed, decision, result, hrun, ?_⟩
  have hrefused := retry_refused written_signed (by decide +kernel) hdecided hpersist
    (Nat.zero_le _) secondTime (js "evt:4")
  rw [Nat.zero_add] at hrefused
  rw [hrefused]
  rintro (⟨_, _, hreturned, -⟩ | hfound)
  · cases hreturned
  · exact message_ne (by decide) (Except.error.inj hfound)

theorem stabilization_retried_signed :
    ∃ hash, Repeated calmSurroundings (js "neg:1") hash signedFiles
      ((stabilizeNegotiation (calmSurroundings.at secondTime) soleSignerRegistry (js "neg:1")
        (js "evt:4")).run.run signedFiles) := by
  obtain ⟨decision, result, -, hretries⟩ := stabilization_retried calmSurroundings
    soleSignerRegistry (js "neg:1") written_signed wouldReturn_signed firstTime (js "evt:3")
  exact ⟨_, (hretries 0 secondTime (js "evt:4")).1 rfl⟩

end H2a.LocalFiles
