import H2a.Library.JsMap
import H2a.Track.Model.Event
/-!
# The fold

`packages/track/src/state/fold.ts`: the state is the replay of the log in stream
order.  Each collection is read back key by key by one lemma, which says what an
event does there.
-/

namespace H2a.Track

open H2a.Library H2a.Track.Model
open H2a.Track.Events (TrackEvent)

/-- A persisted event of the product. -/
abbrev Event := TrackEvent EventData

/-- The materialized state. -/
structure State where
  items : JsMap ItemId ItemState
  decisions : JsMap ItemId DecisionState
  blockers : JsMap BlockerId BlockerState
  criteria : JsMap JsString CriterionState
  evidence : JsMap JsString EvidenceState
  verificationRuns : JsMap JsString VerificationRun
  specAmendments : JsMap ItemId (List SpecAmendment)
  demands : JsMap DemandId DemandState

def emptyState : State := ⟨.empty, .empty, .empty, .empty, .empty, .empty, .empty, .empty⟩

namespace State

def modifyItem (s : State) (id : ItemId) (f : ItemState → ItemState) : State :=
  { s with items := s.items.modify id f }

def modifyDecision (s : State) (id : ItemId) (f : DecisionState → DecisionState) : State :=
  { s with decisions := s.decisions.modify id f }

def modifyDemand (s : State) (id : DemandId) (f : DemandState → DemandState) : State :=
  { s with demands := s.demands.modify id f }

end State

/-! ## What an event makes of a value -/

/-- `applyItemRaci`: an omitted axis keeps its value. -/
def applyItemRaci (item : ItemState) (update : ItemRaciUpdate) : ItemState :=
  { item with
    accountable := update.accountable.or item.accountable
    responsible := update.responsible.or item.responsible }

/-- `item.link-added`: an identical link is not added twice. -/
def addLink (item : ItemState) (link : Link) : ItemState :=
  if link ∈ item.links.getD [] then item
  else { item with links := some (item.links.getD [] ++ [link]) }

/-- `realization.reopened`: applied when there is a closure to correct. -/
def reopen (item : ItemState) (reopening : Reopening) (at_ : JsString) (by_ : ActorId) :
    ItemState :=
  if item.realization = .done ∨ item.realization = .cancelled then
    { item with
      reopenings := some (item.reopenings.getD [] ++
        [⟨item.realization, reopening.motive, reopening.reason, at_, by_⟩])
      realization := .inProgress }
  else item

/-- `item.disposition[gate] = disposition`. -/
def dispose (item : ItemState) (gate : Gate) (disposition : Disposition) : ItemState :=
  { item with disposition := item.disposition.set gate disposition }

def itemOfCreated (id : ItemId) (payload : ItemCreatedPayload) : ItemState where
  report := none
  id := id
  kind := payload.kind
  title := payload.title
  workspace := payload.workspace
  specStatus := if payload.kind = .decision then none else some .toSpecify
  realization := .toDo
  disposition := ⟨.required, .required⟩
  priority := none
  parentId := payload.parentId
  role := payload.role
  code := none
  scope := payload.scope
  sourceKey := payload.sourceKey
  body := payload.body
  links := payload.links
  accountable := payload.accountable
  responsible := payload.responsible
  engagementRef := payload.engagementRef
  realizedCommit := none
  demandId := payload.demandId
  reopenings := none

def decisionOfCreated (id : ItemId) (payload : DecisionCreatedPayload) : DecisionState where
  id := id
  title := payload.title
  workspace := payload.workspace
  realization := .toDo
  decisionKind := payload.decisionKind
  targets := payload.targets
  outcome := .pending
  dossier := payload.dossier
  parentId := payload.parentId
  sourceKey := payload.sourceKey
  body := payload.body
  links := payload.links
  accountable := payload.accountable
  engagementRef := payload.engagementRef

def blockerOfOpened (id : BlockerId) (payload : BlockerOpenedPayload) (openedAt : JsString) :
    BlockerState where
  id := id
  targetId := payload.targetId
  kind := payload.kind
  ref := payload.ref
  reason := payload.reason
  resolutionRule := payload.resolutionRule.or
    (if payload.kind = .dependency then some .linkedDone else none)
  owner := payload.owner
  scope := payload.scope
  engagementRef := payload.engagementRef
  openedAt := openedAt
  resolvedAt := none
  resolvedByEvent := false
  open_ := true

def demandOfRaised (id : DemandId) (payload : DemandRaisedPayload) (workspace : JsString) :
    DemandState where
  id := id
  workspace := workspace
  type := payload.type
  raw := payload.raw
  source := payload.source
  status := .raised
  itemIds := none
  duplicateOf := none
  rejectReason := none
  parkReason := none
  concerns := payload.concerns
  sourceKey := payload.sourceKey
  links := payload.links

/-- `demand.disposition`. -/
def disposeDemand (demand : DemandState) (outcome : DispositionOutcome)
    (reason : Option JsString) (duplicateOf : Option DemandRef) : DemandState :=
  let demand := { demand with status := outcome.status }
  match outcome with
  | .rejected => { demand with rejectReason := reason.or demand.rejectReason }
  | .parked => { demand with parkReason := reason.or demand.parkReason }
  | .duplicate => { demand with duplicateOf := duplicateOf.or demand.duplicateOf }

/-- The targets of a settled decision have passed its gate. -/
def completeTargets (decision : DecisionState) (items : JsMap ItemId ItemState) :
    JsMap ItemId ItemState :=
  decision.targets.foldl
    (fun items targetId => items.modify targetId (dispose · decision.decisionKind .completed)) items

/-! ## `applyEvent` -/

def applyEvent (s : State) (e : EventData) : State :=
  match e.body with
  | .itemReportUpdated report =>
      s.modifyItem e.aggregateId fun item => { item with report := normalizeStoredReport report }
  | .itemLinkAdded link => s.modifyItem e.aggregateId (addLink · link)
  | .itemCreated payload =>
      { s with items := s.items.set e.aggregateId (itemOfCreated e.aggregateId payload) }
  | .itemReparented parentId _ _ => s.modifyItem e.aggregateId ({ · with parentId })
  | .decisionCreated payload =>
      let decision := decisionOfCreated e.aggregateId payload
      { s with decisions := s.decisions.set e.aggregateId decision }
  | .scopeDeclared scope => s.modifyItem e.aggregateId ({ · with scope })
  | .itemCodeAssigned code => s.modifyItem e.aggregateId ({ · with code })
  | .itemRaciAssigned update => s.modifyItem e.aggregateId (applyItemRaci · update)
  | .itemRoleChanged dest => s.modifyItem e.aggregateId ({ · with role := dest })
  | .specAmended payload =>
      let list := (s.specAmendments.get payload.itemId).getD []
      let amendment : SpecAmendment := { payload with at_ := e.at_ }
      { s with specAmendments := s.specAmendments.set payload.itemId (list ++ [amendment]) }
  | .specTransition dest => s.modifyItem e.aggregateId ({ · with specStatus := dest })
  | .realizationTransition dest _ =>
      if s.items.has e.aggregateId then
        s.modifyItem e.aggregateId ({ · with realization := dest })
      else s.modifyDecision e.aggregateId ({ · with realization := dest })
  | .realizationReopened itemId reopening =>
      s.modifyItem e.aggregateId fun item =>
        if itemId = some e.aggregateId then reopen item reopening e.at_ e.by_ else item
  | .realizationAnchored _ commit _ =>
      s.modifyItem e.aggregateId ({ · with realizedCommit := commit })
  | .decisionOutcome dest =>
      match s.decisions.get e.aggregateId with
      | none => s
      | some decision =>
          let s := s.modifyDecision e.aggregateId ({ · with outcome := dest })
          if isSettled dest then { s with items := completeTargets decision s.items } else s
  | .decisionDisposition itemId gate disposition _ =>
      s.modifyItem itemId (dispose · gate disposition)
  | .dossierRevised dossier => s.modifyDecision e.aggregateId ({ · with dossier })
  | .decisionOptionSelected optionId =>
      s.modifyDecision e.aggregateId fun decision =>
        { decision with dossier := { decision.dossier with selectedOptionId := optionId } }
  | .decisionArtifactAdded artifact =>
      s.modifyDecision e.aggregateId fun decision =>
        { decision with dossier := { decision.dossier with
            artifacts := some (decision.dossier.artifacts.getD [] ++ [artifact]) } }
  | .criterionAdded criterionId statement =>
      let criterion := ⟨criterionId, e.aggregateId, statement, none⟩
      { s with criteria := s.criteria.set criterionId criterion }
  | .evidenceLinked evidenceId criterionId kind locator =>
      let linked := ⟨evidenceId, criterionId, kind, locator, none, e.clientToken⟩
      { s with evidence := s.evidence.set evidenceId linked }
  | .acceptanceRun evidenceId run =>
      let latestRun := ⟨evidenceId, run.commit, run.env, run.runner, run.result, e.at_⟩
      { s with evidence := s.evidence.modify evidenceId ({ · with latestRun := some latestRun }) }
  | .verificationRecorded payload =>
      let run : VerificationRun := { payload with at_ := e.at_ }
      { s with verificationRuns := s.verificationRuns.set payload.runId run }
  | .acceptanceWaived criterionId reason by_ =>
      let waiver := ⟨criterionId, reason, by_, e.at_⟩
      { s with criteria := s.criteria.modify criterionId ({ · with waiver := some waiver }) }
  | .blockerOpened payload =>
      let blocker := blockerOfOpened e.aggregateId payload e.at_
      { s with blockers := s.blockers.set e.aggregateId blocker }
  | .blockerResolved _ _ _ =>
      let resolve := fun (blocker : BlockerState) =>
        { blocker with resolvedByEvent := true, resolvedAt := some e.at_ }
      { s with blockers := s.blockers.modify e.aggregateId resolve }
  | .priorityAssessed assessment =>
      s.modifyItem e.aggregateId ({ · with priority := assessment })
  | .demandRaised payload workspace =>
      let demand := demandOfRaised e.aggregateId payload workspace
      { s with demands := s.demands.set e.aggregateId demand }
  | .demandQualifyingStarted _ _ => s.modifyDemand e.aggregateId ({ · with status := .qualifying })
  | .demandAgreed _ itemIds _ _ =>
      s.modifyDemand e.aggregateId fun demand =>
        { demand with status := .agreed, itemIds := itemIds.or demand.itemIds }
  | .demandDisposition outcome _ reason duplicateOf _ _ =>
      s.modifyDemand e.aggregateId (disposeDemand · outcome reason duplicateOf)
  | .specStarted _ _ _ _ | .specAbandoned _ _ _ _ | .branchImported _ _ _ _ => s

def isOpen (blocker : BlockerState) (items : JsMap ItemId ItemState) : Bool :=
  if blocker.resolvedByEvent then false
  else
    match blocker.ref with
    | some ref =>
        if blocker.kind = .dependency ∧ blocker.resolutionRule.getD .linkedDone = .linkedDone then
          (items.get ref).map (·.realization) ≠ some .done
        else true
    | none => true

/-- The replay of a list of cores. -/
def replay (s : State) (cores : List EventData) : State := cores.foldl applyEvent s

/-- Every blocker's openness, recomputed. -/
def State.settle (s : State) : State :=
  { s with blockers := s.blockers.mapValues fun blocker =>
      { blocker with open_ := isOpen blocker s.items } }

def fold (events : List Event) : State := (replay emptyState (events.map (·.core))).settle

/-- `openBlockers`. -/
def openBlockers (s : State) : List BlockerState := s.blockers.values.filter (·.open_)

end H2a.Track
