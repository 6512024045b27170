import H2a.Track.Events.Store
import H2a.Track.Model.Acceptance
import H2a.Track.Model.Decision
import H2a.Track.Model.Demand
/-!
# The events of track

The typed core of an event: one constructor for each event type of
`packages/track/src/events/types.ts`, carrying its payload.  With it the log
layer is instantiated a second time: `EventInput` is what a command contributes,
`EventData` what is persisted of it.
-/

namespace H2a.Track.Model

open H2a.Library
open H2a.Track.Events (BlockerOpenedFields ReopenedFields ReopenAddress BatchFrame CmdPosition
  EventCore CommandEvent)

inductive Aggregate where
  | item
  | decision
  | blocker
  | verification
  | demand
  deriving DecidableEq

def Aggregate.text : Aggregate → JsString
  | .item => js "item"
  | .decision => js "decision"
  | .blocker => js "blocker"
  | .verification => js "verification"
  | .demand => js "demand"

inductive Transport where
  | cli
  | mcpStdio
  | «import»
  | internal
  | http

inductive ProvenanceAuth where
  | localUser
  | unauthenticated
  | signed
  deriving DecidableEq

def ProvenanceAuth.text : ProvenanceAuth → String
  | .localUser => "local-user"
  | .unauthenticated => "unauthenticated"
  | .signed => "signed"

structure ProvenanceSignature where
  alg : JsString
  value : JsString
  by_ : JsString

structure Provenance where
  transport : Transport
  proposed : Bool
  auth : ProvenanceAuth
  principal : Option JsString
  sig : Option ProvenanceSignature

/-- Why an item's realization is anchored at a commit. -/
inductive AnchorReason where
  | realize
  | consolidate
  deriving DecidableEq

/-- The type of an event and its payload. -/
inductive EventBody where
  | itemCreated (payload : ItemCreatedPayload)
  | itemReparented (parentId : Option ItemId) (planHash restructureRef : Option JsString)
  | itemRaciAssigned (update : ItemRaciUpdate)
  | itemReportUpdated (report : ItemReportStatus)
  | itemLinkAdded (link : Link)
  | itemRoleChanged (dest : ItemRole)
  | itemCodeAssigned (code : JsString)
  | scopeDeclared (scope : ScopeDecl)
  | specAmended (payload : SpecAmendPayload)
  | specTransition (dest : SpecStatus)
  | realizationTransition (dest : Realization) (cause : Option ItemId)
  | realizationReopened (itemId : Option ItemId) (reopening : Reopening)
  | realizationAnchored (itemId : ItemId) (commit : JsString) (reason : Option AnchorReason)
  | decisionCreated (payload : DecisionCreatedPayload)
  | decisionOutcome (dest : Outcome)
  | decisionDisposition (itemId : ItemId) (gate : Gate) (disposition : Disposition)
      (reason : Option JsString)
  | dossierRevised (dossier : Dossier)
  | decisionOptionSelected (optionId : JsString)
  | decisionArtifactAdded (artifact : DossierArtifact)
  | criterionAdded (criterionId statement : JsString)
  | evidenceLinked (evidenceId criterionId : JsString) (kind : EvidenceKind) (locator : JsString)
  | acceptanceRun (evidenceId : JsString) (run : RunFields)
  | acceptanceWaived (criterionId reason : JsString) (by_ : ActorId)
  | verificationRecorded (payload : VerificationRecordedPayload)
  | blockerOpened (payload : BlockerOpenedPayload)
  | blockerResolved (blockerId : BlockerId) (decisionId : Option ItemId)
      (engagementRef : Option JsString)
  | priorityAssessed (assessment : PriorityAssessment)
  | demandRaised (payload : DemandRaisedPayload) (workspace : JsString)
  | demandQualifyingStarted (handler : ActorId) (leaseId : Option JsString)
  | demandAgreed (handler : ActorId) (itemIds : Option (List ItemId))
      (qualification leaseId : Option JsString)
  | demandDisposition (outcome : DispositionOutcome) (handler : ActorId)
      (reason : Option JsString) (duplicateOf : Option DemandRef)
      (parkedUntil leaseId : Option JsString)
  | specStarted (itemId : ItemId) (handler : ActorId) (leaseId attemptId : Option JsString)
  | specAbandoned (itemId : ItemId) (handler : ActorId) (reason : JsString)
      (leaseId : Option JsString)
  | branchImported (locator branchSlug sourceHash structureHash : JsString)
  deriving DecidableEq

/-- A command's contribution before the store assigns the integrity frame. -/
structure EventInput where
  id : Ulid
  body : EventBody
  aggregate : Aggregate
  aggregateId : Ulid
  at_ : JsString
  by_ : ActorId
  prov : Option Provenance
  clientToken : Option JsString

/-- The persisted core. -/
structure EventData extends EventInput where
  batch : Option BatchFrame

/-! ## What is persisted of a payload -/

namespace JsNumber

/-- JSON has no `-0`. -/
def persisted (x : JsNumber) : JsNumber := if x.bits = 0x8000000000000000 then ⟨0⟩ else x

def text (x : JsNumber) : String :=
  if x.toFloat.isNaN then "NaN" else if 0 < x.toFloat then "Infinity" else "-Infinity"

/-- JSON has no `NaN` and no infinities either. -/
def materialize (x : JsNumber) : Except String JsNumber :=
  if x.toFloat.isFinite then .ok x.persisted
  else .error s!"canonicalize: non-finite numbers are not supported ({x.text})"

end JsNumber

def PriorityAssessment.materialize (p : PriorityAssessment) : Except String PriorityAssessment := do
  let jobSize ← p.inputs.jobSize.materialize
  let risk ← p.inputs.riskReductionOpportunityEnablement.materialize
  let time ← p.inputs.timeCriticality.materialize
  let value ← p.inputs.userBusinessValue.materialize
  let score ← p.score.materialize
  return { p with inputs := ⟨value, time, risk, jobSize⟩, score }

/-- Only a priority holds numbers that need not be persistable. -/
def EventBody.materialize (body : EventBody) : Except String EventBody :=
  match body with
  | .priorityAssessed assessment => do
      let assessment ← assessment.materialize
      return .priorityAssessed assessment
  | _ => .ok body

/-! ## The log layer's view of an event -/

def BlockerOpenedPayload.fields (p : BlockerOpenedPayload) : BlockerOpenedFields where
  kind := some (match p.kind with | .decision => js "decision" | .dependency => js "dependency")
  hasRef := p.ref.isSome
  scope := p.scope.map fun scope => match scope with | .intra => js "intra" | .extra => js "extra"
  engagementRef := p.engagementRef
  resolutionRule := p.resolutionRule.map fun rule => some (js rule.text)

namespace EventData

def blockerOpened (e : EventData) : Option BlockerOpenedFields :=
  match e.body with
  | .blockerOpened payload => some payload.fields
  | _ => none

def lifecycle (e : EventData) : Events.Lifecycle :=
  match e.body with
  | .itemCreated _ => .created
  | .realizationTransition dest _ => .transition (some (js dest.text))
  | .realizationReopened itemId reopening => .reopened
      { itemId := match itemId with
          | none => .absent
          | some itemId => if itemId = e.aggregateId then .itself else .foreign
        motive := some (js reopening.motive.text)
        reason := some reopening.reason }
  | _ => .other

instance : EventCore EventData JsString where
  id e := e.id
  aggregate e := some e.aggregate.text
  aggregateId e := e.aggregateId
  cmdId e := e.batch.map (·.cmdId)
  cmd e := e.batch.map BatchFrame.cmd
  clientToken e := e.clientToken
  blockerOpened := blockerOpened
  lifecycle := lifecycle

end EventData

/-- `materialize`, with the batch frame the store has added. -/
def EventInput.materialize (input : EventInput) (batch : Option BatchFrame) :
    Except String EventData := do
  let body ← input.body.materialize
  return { input with body, batch }

theorem EventInput.materialize_ok {input : EventInput} {batch : Option BatchFrame} {e : EventData}
    (h : input.materialize batch = .ok e) :
    ∃ body, input.body.materialize = .ok body ∧ e = { input with body, batch } := by
  simp only [EventInput.materialize, bind_eq_ok_iff, pure_eq_ok, Except.ok.injEq] at h
  obtain ⟨body, hbody, he⟩ := h
  exact ⟨body, hbody, he.symm⟩

instance : CommandEvent EventInput EventData JsString where
  aggregateId := EventInput.aggregateId
  clientToken := EventInput.clientToken
  cmdKey := id
  materialize := EventInput.materialize
  cmdId_materialize h := by
    obtain ⟨body, -, rfl⟩ := EventInput.materialize_ok h
    rfl
  cmd_materialize h := by
    obtain ⟨body, -, rfl⟩ := EventInput.materialize_ok h
    rfl

/-- Materializing changes nothing but the numbers of a priority. -/
theorem EventBody.materialize_eq {body body' : EventBody} (h : body.materialize = .ok body') :
    body' = body ∨ ∃ p p', body = .priorityAssessed p ∧ body' = .priorityAssessed p' := by
  cases body with
  | priorityAssessed p =>
      simp only [materialize, bind_eq_ok_iff, pure_eq_ok, Except.ok.injEq] at h
      obtain ⟨p', -, rfl⟩ := h
      exact .inr ⟨p, p', rfl, rfl⟩
  | _ => exact .inl (Except.ok.inj h).symm

end H2a.Track.Model
