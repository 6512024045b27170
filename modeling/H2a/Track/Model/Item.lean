import H2a.Library.JsString
import H2a.Library.Result
/-!
# Items

`packages/track/src/model/item.ts`, with the priority and the report an item
carries (`priority.ts`, `report-status.ts`).  A check that throws returns the
message of its `DomainError`.
-/

namespace H2a.Track.Model

open H2a.Library

abbrev ActorId := JsString
abbrev Ulid := JsString
abbrev ItemId := Ulid
abbrev BlockerId := Ulid
abbrev DemandId := Ulid

/-- An IEEE double, by its bits. -/
structure JsNumber where
  bits : UInt64
  deriving DecidableEq

def JsNumber.toFloat (x : JsNumber) : Float := Float.ofBits x.bits

def JsNumber.ofFloat (x : Float) : JsNumber := ⟨x.toBits⟩

/-- `s.trim().length === 0`. -/
def blank (s : JsString) : Bool := s.trim.length == 0

/-- `length === 0`. -/
def emptyString (s : JsString) : Bool := s.length == 0

inductive ItemKind where
  | feature
  | bug
  | chore
  | decision
  | defect
  deriving DecidableEq

def ItemKind.text : ItemKind → String
  | .feature => "feature"
  | .bug => "bug"
  | .chore => "chore"
  | .decision => "decision"
  | .defect => "defect"

/-- The container marker. -/
inductive ItemRole where
  | workpackage
  | specPhase
  | stream
  deriving DecidableEq

def ItemRole.text : ItemRole → String
  | .workpackage => "workpackage"
  | .specPhase => "spec-phase"
  | .stream => "stream"

/-- Path globs; track never matches them. -/
structure ScopeDecl where
  allowed : Option (List JsString)
  forbidden : Option (List JsString)
  conditional : Option (List JsString)
  deriving DecidableEq

inductive SpecStatus where
  | toSpecify
  | specified
  deriving DecidableEq

def SpecStatus.text : SpecStatus → String
  | .toSpecify => "to-specify"
  | .specified => "specified"

inductive Realization where
  | toDo
  | inProgress
  | done
  | cancelled
  | rejected
  deriving DecidableEq

def Realization.text : Realization → String
  | .toDo => "to-do"
  | .inProgress => "in-progress"
  | .done => "done"
  | .cancelled => "cancelled"
  | .rejected => "rejected"

inductive Gate where
  | orientation
  | commitment
  deriving DecidableEq

def Gate.text : Gate → String
  | .orientation => "orientation"
  | .commitment => "commitment"

inductive Disposition where
  | required
  | skipped
  | notApplicable
  | completed
  deriving DecidableEq

/-- `Record<Gate, Disposition>`. -/
structure GateDispositions where
  orientation : Disposition
  commitment : Disposition
  deriving DecidableEq

/-- `item.disposition[gate] = disposition`. -/
def GateDispositions.set (d : GateDispositions) (gate : Gate) (disposition : Disposition) :
    GateDispositions :=
  match gate with
  | .orientation => { d with orientation := disposition }
  | .commitment => { d with commitment := disposition }

structure Link where
  kind : JsString
  locator : JsString
  reason : Option JsString
  deriving DecidableEq

/-- `assertItemLink`. -/
def assertItemLink (link : Link) : Except String Link := do
  if blank link.kind then throw "item.link: kind must be a non-empty string"
  if blank link.locator then throw "item.link: locator must be a non-empty string"
  let kind := link.kind.trim
  if kind = js "spec-exempt" ∧ link.reason.all blank then
    throw "item.link: kind \"spec-exempt\" requires a non-empty reason"
  if link.reason.any blank then throw "item.link: reason must be a non-empty string"
  return ⟨kind, link.locator.trim, link.reason.map (·.trim)⟩

inductive ReopenMotive where
  | closedWithoutOwnerUat
  | regressionObserved
  deriving DecidableEq

def ReopenMotive.text : ReopenMotive → String
  | .closedWithoutOwnerUat => "closed-without-owner-uat"
  | .regressionObserved => "regression-observed"

structure ReopenRecord where
  /-- the closure the reopening corrects: `done` or `cancelled` -/
  from_ : Realization
  motive : ReopenMotive
  reason : JsString
  at_ : JsString
  by_ : ActorId
  deriving DecidableEq

/-! ## Priority -/

structure WsjfInputs where
  userBusinessValue : JsNumber
  timeCriticality : JsNumber
  riskReductionOpportunityEnablement : JsNumber
  jobSize : JsNumber
  deriving DecidableEq

def WSJF_SCHEME_VERSION : Nat := 1

structure PriorityAssessment where
  itemId : ItemId
  schemeVersion : Nat
  inputs : WsjfInputs
  score : JsNumber
  at_ : JsString
  deriving DecidableEq

/-- (UBV + TC + RR/OE) / jobSize. -/
def wsjfScore (inputs : WsjfInputs) : Except String JsNumber :=
  if 0 < inputs.jobSize.toFloat then
    .ok (.ofFloat ((inputs.userBusinessValue.toFloat + inputs.timeCriticality.toFloat +
      inputs.riskReductionOpportunityEnablement.toFloat) / inputs.jobSize.toFloat))
  else .error "WSJF jobSize must be > 0"

/-! ## Report -/

inductive ReportStage where
  | spec
  | dev
  | pr
  | review
  | merged
  | published
  | deployed
  deriving DecidableEq

/-- The neutral code of a stage. -/
def ReportStage.code : ReportStage → JsString
  | .spec => js "spec"
  | .dev => js "dev"
  | .pr => js "pr"
  | .review => js "review"
  | .merged => js "merged"
  | .published => js "published"
  | .deployed => js "deployed"

def REPORT_STAGES : List ReportStage :=
  [.spec, .dev, .pr, .review, .merged, .published, .deployed]

def WRITABLE_REPORT_STAGES : List ReportStage := [.spec, .dev, .pr, .merged, .deployed]

/-- Legacy stored stage values and their neutral code. -/
def LEGACY_STAGE_ALIASES : List (JsString × ReportStage) :=
  [(js "PR", .pr), (js "mergé", .merged), (js "déployé", .deployed), (js "revue", .review),
    (js "en revue", .review), (js "publié", .published), (js "publication", .published)]

def normalizeReportStage (value : JsString) : Option ReportStage :=
  match REPORT_STAGES.find? fun stage => stage.code = value with
  | some stage => some stage
  | none => (LEGACY_STAGE_ALIASES.find? fun entry => entry.1 = value).map Prod.snd

/-- A stage as stored: any text. -/
structure StoredStage where
  value : JsString
  evidence : Option JsString
  deriving DecidableEq

inductive ReportStatus where
  | progressing
  | unforeseen
  | blocked
  | decisionAwaited
  | notQualified
  | withdrawn
  deriving DecidableEq

structure ExpectedOption where
  label : JsString
  consequence : JsString
  deriving DecidableEq

structure DecisionExpectations where
  question : JsString
  options : List ExpectedOption
  dossier : JsString
  readingMinutes : JsNumber
  deriving DecidableEq

structure ItemReportStatus where
  ownerRequest : Option JsString
  stage : Option StoredStage
  status : Option ReportStatus
  proposal : Option JsString
  decisionExpectations : Option DecisionExpectations
  facts : Option JsString
  nextAction : Option JsString
  waitingOn : Option JsString
  suspended : Option JsString
  deriving DecidableEq

/-- The read path: a legacy stage reads as its neutral code, an unknown one is dropped. -/
def normalizeStoredReport (report : ItemReportStatus) : ItemReportStatus :=
  match report.stage with
  | none => report
  | some stored =>
      match normalizeReportStage stored.value with
      | none => { report with stage := none }
      | some stage => { report with stage := some { stored with value := stage.code } }

/-- The message of a rejected report. -/
def failReport {α : Type} (message : String) : Except String α :=
  .error s!"item report-set: {message}"

/-- `\s` of a regular expression is what `trim` strips. -/
def wordCount : List UInt16 → Nat
  | [] => 1
  | u :: rest =>
      match rest with
      | [] => if JsString.isWhiteSpaceUnit u then 2 else 1
      | v :: _ =>
          if JsString.isWhiteSpaceUnit u ∧ ¬JsString.isWhiteSpaceUnit v then wordCount rest + 1
          else wordCount rest

def assertDecisionExpectations (value : DecisionExpectations) : Except String Unit := do
  if blank value.question ∨ blank value.dossier then failReport "question and dossier are required"
  if value.readingMinutes.toFloat ≤ 0 ∨ ¬value.readingMinutes.toFloat ≤ 2 then
    failReport "readingMinutes must be > 0 and <= 2"
  if value.options.length < 2 then failReport "at least two options with consequences are required"
  if value.options.any fun o => blank o.label || blank o.consequence then
    failReport "option label and consequence are required"
  if ¬(value.options.map (·.label)).Nodup then failReport "option labels must be distinct"
  let words := (value.question :: value.options.flatMap fun o => [o.label, o.consequence]).map
    (·.units)
  if 400 < wordCount (words.intersperse [0x20]).flatten then
    failReport "decision summary exceeds 400 words (two minutes)"

/-- `assertItemReportStatus`, in the write grammar. -/
def assertItemReportStatus (value : ItemReportStatus) : Except String Unit := do
  for field in [("ownerRequest", value.ownerRequest), ("proposal", value.proposal),
      ("facts", value.facts), ("nextAction", value.nextAction), ("waitingOn", value.waitingOn),
      ("suspended", value.suspended)] do
    if field.2.any blank then failReport s!"{field.1} must be a non-empty string"
  match value.stage with
  | none => pure ()
  | some stage =>
      let some known := WRITABLE_REPORT_STAGES.find? fun s => s.code = stage.value
        | failReport "invalid stage"
      if stage.evidence.any blank then failReport "stage evidence must be non-empty"
      if known ∈ [.pr, .merged, .deployed] ∧ stage.evidence.all blank then
        failReport "pr/merged/deployed requires evidence"
  match value.decisionExpectations with
  | none => pure ()
  | some expectations => assertDecisionExpectations expectations

/-! ## The item -/

structure ItemState where
  report : Option ItemReportStatus
  id : ItemId
  kind : ItemKind
  title : JsString
  workspace : JsString
  /-- `none` is `n/a` -/
  specStatus : Option SpecStatus
  realization : Realization
  disposition : GateDispositions
  priority : Option PriorityAssessment
  parentId : Option ItemId
  role : Option ItemRole
  code : Option JsString
  scope : Option ScopeDecl
  sourceKey : Option JsString
  body : Option JsString
  links : Option (List Link)
  accountable : Option ActorId
  responsible : Option (List ActorId)
  engagementRef : Option JsString
  realizedCommit : Option JsString
  demandId : Option DemandId
  reopenings : Option (List ReopenRecord)
  deriving DecidableEq

structure ItemCreatedPayload where
  kind : ItemKind
  title : JsString
  workspace : JsString
  parentId : Option ItemId
  role : Option ItemRole
  scope : Option ScopeDecl
  sourceKey : Option JsString
  body : Option JsString
  links : Option (List Link)
  accountable : Option ActorId
  responsible : Option (List ActorId)
  engagementRef : Option JsString
  demandId : Option DemandId
  deriving DecidableEq

/-- The RACI subset of the creation payload. -/
structure ItemRaciUpdate where
  accountable : Option ActorId
  responsible : Option (List ActorId)
  deriving DecidableEq

def isRoleContainer (role : Option ItemRole) : Bool :=
  role = some .workpackage || role = some .specPhase || role = some .stream

/-- `assertRoleNesting`; called only when there is a parent, so an absent
`parentRole` is a leaf. -/
def assertRoleNesting (childRole parentRole : Option ItemRole) (childId parentId : ItemId) :
    Except String Unit := do
  if childRole = some .workpackage ∧ parentRole ≠ some .workpackage ∧ parentRole ≠ some .stream then
    throw s!"cannot nest workpackage {childId} under {parentId}: a workpackage may only nest under a workpackage or a stream (Scope §B(a) / A2)"
  if childRole = some .specPhase ∧ parentRole ≠ some .workpackage ∧
      parentRole ≠ some .specPhase then
    throw s!"cannot nest spec-phase {childId} under {parentId}: a spec-phase may only nest under a workpackage or spec-phase (Scope §B(a))"
  if childRole = some .stream ∧ parentRole ≠ some .stream then
    let role := parentRole.elim "leaf" ItemRole.text
    throw s!"cannot nest stream {childId} under {parentId}: a stream (epic) may only nest at root or under another stream, never under a {role} (A2)"

/-- `assertScopeDecl`: the lists are kept, the absent ones stay absent. -/
def assertScopeDecl (scope : ScopeDecl) : Except String ScopeDecl := .ok scope

def SPEC_TRANSITIONS : SpecStatus → List SpecStatus
  | .toSpecify => [.specified]
  | .specified => []

def REALIZATION_TRANSITIONS : Realization → List Realization
  | .toDo => [.inProgress, .cancelled]
  | .inProgress => [.done, .cancelled]
  | .done => []
  | .cancelled => []
  | .rejected => []

def assertSpecTransition (item : ItemState) (dest : SpecStatus) : Except String Unit :=
  match item.specStatus with
  | none => .error s!"spec axis is n/a for {item.kind.text} item {item.id}"
  | some specStatus =>
      if dest ∈ SPEC_TRANSITIONS specStatus then .ok ()
      else .error s!"illegal spec transition {specStatus.text} -> {dest.text} (item {item.id})"

/-- `assertRealizationTransition`, of an item or a decision. -/
def assertRealizationTransition (id : ItemId) (realization dest : Realization) (hasCause : Bool) :
    Except String Unit :=
  if dest = .rejected then
    if ¬hasCause then .error s!"realization -> rejected requires a decision cause (item {id})"
    else if realization ≠ .toDo ∧ realization ≠ .inProgress then
      .error s!"illegal realization transition {realization.text} -> rejected (item {id})"
    else .ok ()
  else if dest ∈ REALIZATION_TRANSITIONS realization then .ok ()
  else .error s!"illegal realization transition {realization.text} -> {dest.text} (item {id})"

structure Reopening where
  motive : ReopenMotive
  reason : JsString
  deriving DecidableEq

def assertReopenPayload (reopening : Reopening) : Except String Reopening :=
  if blank reopening.reason then
    .error "item.reopen: reason must be a non-empty string (the log must say why)"
  else .ok reopening

def assertReopenTransition (id : ItemId) (realization : Realization) :
    Except String Realization :=
  match realization with
  | .done => .ok .done
  | .cancelled => .ok .cancelled
  | .rejected =>
      .error s!"item {id} is rejected — that is the consequence of a no-go decision, so revise the decision instead of reopening the item"
  | .toDo | .inProgress =>
      .error s!"item {id} is not closed (realization {realization.text}) — there is no closure to reopen"

end H2a.Track.Model
