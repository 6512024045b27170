import H2a.Track.Facade.Items
/-!
# `Track`: acceptance and verification

The commands of `packages/track/src/track.ts` on criteria, evidence and runs.
-/

namespace H2a.Track.Facade

open H2a.Library H2a.Track.Model

variable (facade : Facade)

/-! ## Criteria and evidence -/

/-- The criterion id a persisted event carries. -/
def criterionIdOf (e : Event) : Option JsString :=
  match e.core.body with
  | .criterionAdded criterionId _ => some criterionId
  | .evidenceLinked _ criterionId _ _ => some criterionId
  | .acceptanceWaived criterionId _ _ => some criterionId
  | _ => none

/-- The evidence id a persisted event carries. -/
def evidenceIdOf (e : Event) : Option JsString :=
  match e.core.body with
  | .evidenceLinked evidenceId _ _ _ => some evidenceId
  | .acceptanceRun evidenceId _ => some evidenceId
  | _ => none

def addCriterion (itemId : ItemId) (statement : JsString) : Prog JsString := do
  let s ← Prog.state
  Prog.ensure (s.decisions.has itemId = false)
    s!"cannot add an acceptance criterion to a decision ({itemId}) [A3]"
  Prog.ensure (s.items.has itemId = true) s!"unknown item {itemId}"
  let criterionId ← Prog.newId
  let persisted ← facade.emit .item itemId (.criterionAdded criterionId statement)
  return (persisted.head?.bind criterionIdOf).getD criterionId

/-- The collision guard on a caller's evidence id: it may only meet its own delivery. -/
def assertEvidenceFree (s : State) (evidenceId : JsString) : Except String Unit :=
  match s.evidence.get evidenceId with
  | none => .ok ()
  | some existing =>
      if facade.activeClientToken ≠ none ∧
          existing.originClientToken = facade.activeClientToken then .ok ()
      else .error
        s!"acceptance.link: evidence {evidenceId} already exists (caller-supplied evidenceId must be unique)"

def linkEvidence (criterionId : JsString) (kind : EvidenceKind) (locator : JsString)
    (evidenceIdInput : Option JsString) : Prog JsString := do
  let s ← Prog.state
  let criterion ← Prog.require (s.criteria.get criterionId) s!"unknown criterion {criterionId}"
  let evidenceId ← match evidenceIdInput with
    | some evidenceId => do
        Prog.ensure (¬emptyString evidenceId)
          "linkEvidence: evidenceId must be a non-empty string when supplied"
        Prog.check (facade.assertEvidenceFree s evidenceId)
        pure evidenceId
    | none => Prog.newId
  let persisted ← facade.emit .item criterion.itemId
    (.evidenceLinked evidenceId criterionId kind locator)
  return (persisted.head?.bind evidenceIdOf).getD evidenceId

/-! ## Runs -/

def evidenceOwner (evidenceId : JsString) : Prog ItemId := do
  let s ← Prog.state
  let evidence ← Prog.require (s.evidence.get evidenceId) s!"unknown evidence {evidenceId}"
  let criterion ← Prog.require (s.criteria.get evidence.criterionId)
    s!"evidence {evidenceId} references an unknown criterion"
  return criterion.itemId

def recordRun (evidenceId : JsString) (run : RunFields) : Prog Unit := do
  let owner ← evidenceOwner evidenceId
  let _ ← facade.emit .item owner (.acceptanceRun evidenceId run)

/-- The synthetic aggregate of the runs of a workspace. -/
def verificationAggregate (workspace : JsString) : Ulid :=
  ⟨(js "verification:").units ++ workspace.units⟩

def recordVerification (input : VerificationRecordedPayload) (workspace : JsString)
    (clientToken : Option JsString) : Prog Unit := do
  let validated ← Prog.check (assertVerificationRun input)
  match validated.wpRef with
  | some wpRef => do
      let s ← Prog.state
      Prog.ensure (s.items.has wpRef = true) s!"unknown wpRef item {wpRef}"
      let _ ← (facade.stamped clientToken).emit .item wpRef (.verificationRecorded validated)
  | none => do
      let _ ← (facade.stamped clientToken).emit .verification (verificationAggregate workspace)
        (.verificationRecorded validated)

def waive (criterionId reason : JsString) : Prog Unit := do
  let s ← Prog.state
  let criterion ← Prog.require (s.criteria.get criterionId) s!"unknown criterion {criterionId}"
  let _ ← facade.emit .item criterion.itemId (.acceptanceWaived criterionId reason facade.actor)

/-! ## Consolidation -/

/-- Every evidence of the criterion has a latest run, and it passes. -/
def isCriterionAccepted (s : State) (criterion : CriterionState) : Bool :=
  let evidence := s.evidence.values.filter fun e => e.criterionId = criterion.id
  !evidence.isEmpty && evidence.all fun e => e.latestRun.any fun run => run.result = .pass

def isConsolidationEligible (s : State) (itemId : ItemId) : Bool :=
  let criteria := s.criteria.values.filter fun c => c.itemId = itemId
  (s.items.get itemId).any (fun item => item.realization = .done) &&
    !criteria.isEmpty && criteria.all (isCriterionAccepted s)

/-- The re-stamp of an evidence at the merge commit, if it has to be. -/
def restamp (itemId : ItemId) (mergeCommit : JsString) (evidence : EvidenceState) :
    List EventPart :=
  match evidence.latestRun with
  | none => []
  | some latest =>
      if latest.result = .pass ∧ latest.commit ≠ mergeCommit then
        [⟨.item, itemId,
          .acceptanceRun evidence.id ⟨mergeCommit, latest.env, latest.runner, .pass⟩⟩]
      else []

/-- The anchor and the re-stamps of one item. -/
def consolidateItem (s : State) (mergeCommit : JsString) (itemId : ItemId) : List EventPart :=
  if isConsolidationEligible s itemId then
    let anchor : EventPart :=
      ⟨.item, itemId, .realizationAnchored itemId mergeCommit (some .consolidate)⟩
    anchor :: (s.criteria.values.filter fun c => c.itemId = itemId).flatMap fun criterion =>
      (s.evidence.values.filter fun e => e.criterionId = criterion.id).flatMap
        (restamp itemId mergeCommit)
  else []

/-- Every given id is an item. -/
def assertItems (s : State) : List ItemId → Except String Unit
  | [] => .ok ()
  | itemId :: rest => do
      if ¬s.items.has itemId then throw s!"unknown item {itemId}"
      assertItems s rest

def consolidate (itemIds : List ItemId) (mergeCommit : JsString)
    (clientToken : Option JsString) : Prog Unit := do
  let s ← Prog.state
  Prog.check (assertItems s itemIds)
  let parts := itemIds.flatMap (consolidateItem s mergeCommit)
  if parts = [] then return ()
  let _ ← (facade.stamped clientToken).emitBatch parts

/-! ## Test reports -/

/-- An entry of a parsed report. -/
structure RunReportEntry where
  locator : JsString
  result : RunResult

/-- The tuple a result is asserted of: evidence, commit, env and runner. -/
abbrev RunKey := JsString × JsString × JsString × JsString

/-- The latest result of each tuple in a log. -/
def logLatest (log : List Event) : JsMap RunKey RunResult :=
  log.foldl (fun latest e =>
    match e.core.body with
    | .acceptanceRun evidenceId run =>
        latest.set (evidenceId, run.commit, run.env, run.runner) run.result
    | _ => latest) .empty

/-- What a report asserts: for each evidence its item and its last result, in the
order the evidence were first met. -/
def reportResults (s : State) (entries : List RunReportEntry) :
    JsMap JsString (ItemId × RunResult) :=
  entries.foldl (fun results entry =>
    s.evidence.values.foldl (fun results evidence =>
      if evidence.locator = entry.locator then
        match s.criteria.get evidence.criterionId with
        | none => results
        | some criterion =>
            -- the item first met stays, the result last met wins
            let itemId := ((results.get evidence.id).map Prod.fst).getD criterion.itemId
            results.set evidence.id (itemId, entry.result)
      else results) results) .empty

/-- `ingestRuns`, on the entries of the report. -/
def ingestRuns (entries : List RunReportEntry) (commit env runner : JsString) : Prog Nat := do
  let s ← Prog.state
  let log ← Prog.readAll
  let latest := logLatest log
  let changed := (reportResults s entries).entries.filter fun entry =>
    latest.get (entry.1, commit, env, runner) ≠ some entry.2.2
  let parts : List EventPart := changed.map fun entry =>
    ⟨.item, entry.2.1, .acceptanceRun entry.1 ⟨commit, env, runner, entry.2.2⟩⟩
  if parts = [] then return 0
  let _ ← facade.emitBatch parts
  return parts.length

end H2a.Track.Facade
