import H2a.Track.Facade.Command
import H2a.Track.Ingest.Restructure
import H2a.Track.State.Tenants
/-!
# Channels

`ingest` of `packages/track/src/ingest` for every kind of `WorkEvent`: the command
each is mapped to, the workspace it is resolved to, and what a channel may do.
-/

namespace H2a.Track.Ingest.Channel

open H2a.Library H2a.Track.Model
open H2a.Track.Facade (PromotedItem RaiseDemandInput)

/-! ## The events -/

def kindText : WorkEventKind → String
  | .itemCreate => "item.create"
  | .itemSetRaci => "item.set-raci"
  | .itemAddLink => "item.add-link"
  | .itemReparent => "item.reparent"
  | .itemSpec => "item.spec"
  | .itemRealize => "item.realize"
  | .itemReopen => "item.reopen"
  | .decisionCreate => "decision.create"
  | .decisionDossier => "decision.dossier"
  | .decisionSelect => "decision.select"
  | .decisionAddArtifact => "decision.add-artifact"
  | .decisionOutcome => "decision.outcome"
  | .decisionDisposition => "decision.disposition"
  | .acceptanceCriterion => "acceptance.criterion"
  | .acceptanceLink => "acceptance.link"
  | .acceptanceRun => "acceptance.run"
  | .acceptanceWaive => "acceptance.waive"
  | .priorityAssess => "priority.assess"
  | .blockerRaise => "blocker.raise"
  | .blockerResolve => "blocker.resolve"
  | .blockerResolveExternal => "blocker.resolve-external"
  | .scopeVerification => "scope.verification"
  | .scopeDeclare => "scope.declare"
  | .itemAssignCode => "item.assign-code"
  | .itemSetRole => "item.set-role"
  | .itemSpecAmend => "item.spec-amend"
  | .itemAnchor => "item.anchor"
  | .itemConsolidate => "item.consolidate"
  | .demandRaise => "demand.raise"
  | .demandClaim => "demand.claim"
  | .demandAgree => "demand.agree"
  | .demandDisposition => "demand.disposition"
  | .specClaim => "spec.claim"
  | .specAbandon => "spec.abandon"
  | .itemRestructure => "item.restructure"

/-- The payload of a `WorkEvent` that the schema of its kind has accepted. -/
inductive WorkPayload where
  | itemCreate (input : ItemCreatedPayload)
  | itemSetRaci (itemId : ItemId) (update : ItemRaciUpdate)
  | itemAddLink (itemId : ItemId) (link : Link)
  | itemReparent (itemId : ItemId) (parentId : Option ItemId)
  | itemSpec (itemId : ItemId) (dest : SpecStatus)
  | itemRealize (itemId : ItemId) (dest : Realization)
  | itemReopen (itemId : ItemId) (reopening : Reopening)
  | decisionCreate (input : DecisionCreatedPayload)
  | decisionDossier (decisionId : ItemId) (dossier : Dossier)
  | decisionSelect (decisionId : ItemId) (optionId : JsString)
      (outcome : Option { outcome : Outcome // isSettled outcome = true })
  | decisionAddArtifact (decisionId : ItemId) (artifact : DossierArtifact)
  | decisionOutcome (decisionId : ItemId) (dest : Outcome)
  | decisionDisposition (itemId : ItemId) (gate : Gate) (disposition : Disposition)
      (reason : Option JsString)
  | acceptanceCriterion (itemId : ItemId) (statement : JsString)
  | acceptanceLink (criterionId : JsString) (kind : EvidenceKind) (locator : JsString)
      (evidenceId : Option JsString)
  | acceptanceRun (evidenceId : JsString) (run : RunFields)
  | acceptanceWaive (criterionId reason : JsString)
  | priorityAssess (itemId : ItemId) (inputs : WsjfInputs)
  | blockerRaise (targetId : ItemId) (kind : BlockerKind) (ref : Option ItemId)
      (reason : Option JsString) (resolutionRule : Option ResolutionRule) (owner : Option ActorId)
      (scope : Option BlockerScope) (engagementRef : Option JsString)
  | blockerResolve (blockerId : BlockerId)
  | blockerResolveExternal (engagementRef : JsString)
  | scopeVerification (input : VerificationRecordedPayload)
  | scopeDeclare (itemId : ItemId) (scope : ScopeDecl)
  | itemAssignCode (itemId : ItemId) (code : JsString)
  | itemSetRole (itemId : ItemId) (dest : ItemRole)
  | itemSpecAmend (itemId : ItemId) (amend : SpecAmendPayload)
  | itemAnchor (itemId : ItemId) (commit : JsString) (reason : Option AnchorReason)
  | itemConsolidate (items : List ItemId) (mergeCommit : JsString)
  | demandRaise (input : RaiseDemandInput)
  | demandClaim (demandId : DemandId) (handler : Option ActorId) (leaseId : Option JsString)
  | demandAgree (demandId : DemandId) (handler : Option ActorId) (items : List PromotedItem)
      (qualification leaseId : Option JsString)
  | demandDisposition (demandId : DemandId) (outcome : DemandStatus) (handler : Option ActorId)
      (reason : JsString) (duplicateOf : Option DemandRef) (parkedUntil leaseId : Option JsString)
  | specClaim (itemId : ItemId) (handler leaseId attemptId : Option JsString)
  | specAbandon (itemId : ItemId) (handler : Option ActorId) (reason : JsString)
      (leaseId : Option JsString)
  | itemRestructure (itemId parentId : ItemId) (planHash : JsString)
      (restructureRef : Option JsString)

structure WorkEvent where
  payload : WorkPayload
  clientToken : Option JsString

namespace WorkPayload

def kind : WorkPayload → WorkEventKind
  | .itemCreate _ => .itemCreate
  | .itemSetRaci _ _ => .itemSetRaci
  | .itemAddLink _ _ => .itemAddLink
  | .itemReparent _ _ => .itemReparent
  | .itemSpec _ _ => .itemSpec
  | .itemRealize _ _ => .itemRealize
  | .itemReopen _ _ => .itemReopen
  | .decisionCreate _ => .decisionCreate
  | .decisionDossier _ _ => .decisionDossier
  | .decisionSelect _ _ _ => .decisionSelect
  | .decisionAddArtifact _ _ => .decisionAddArtifact
  | .decisionOutcome _ _ => .decisionOutcome
  | .decisionDisposition _ _ _ _ => .decisionDisposition
  | .acceptanceCriterion _ _ => .acceptanceCriterion
  | .acceptanceLink _ _ _ _ => .acceptanceLink
  | .acceptanceRun _ _ => .acceptanceRun
  | .acceptanceWaive _ _ => .acceptanceWaive
  | .priorityAssess _ _ => .priorityAssess
  | .blockerRaise _ _ _ _ _ _ _ _ => .blockerRaise
  | .blockerResolve _ => .blockerResolve
  | .blockerResolveExternal _ => .blockerResolveExternal
  | .scopeVerification _ => .scopeVerification
  | .scopeDeclare _ _ => .scopeDeclare
  | .itemAssignCode _ _ => .itemAssignCode
  | .itemSetRole _ _ => .itemSetRole
  | .itemSpecAmend _ _ => .itemSpecAmend
  | .itemAnchor _ _ _ => .itemAnchor
  | .itemConsolidate _ _ => .itemConsolidate
  | .demandRaise _ => .demandRaise
  | .demandClaim _ _ _ => .demandClaim
  | .demandAgree _ _ _ _ _ => .demandAgree
  | .demandDisposition _ _ _ _ _ _ _ => .demandDisposition
  | .specClaim _ _ _ _ => .specClaim
  | .specAbandon _ _ _ _ => .specAbandon
  | .itemRestructure _ _ _ _ => .itemRestructure

theorem isSettled_go : isSettled .go = true := rfl

/-- The method of the facade a payload is mapped to, with its arguments; the pin of a
command that asks for a workspace is the channel's. -/
def command (ctx : IngestContext) : WorkPayload → Command
  | .itemCreate input => .createItem input
  | .itemSetRaci itemId update => .setRaci itemId update none
  | .itemAddLink itemId link => .addItemLink itemId link none
  | .itemReparent itemId parentId => .reparentItem itemId parentId
  | .itemSpec itemId dest => .setSpec itemId dest
  | .itemRealize itemId dest => .setRealization itemId dest
  | .itemReopen itemId reopening => .reopenItem itemId reopening none
  | .decisionCreate input => .createDecision input
  | .decisionDossier decisionId dossier => .reviseDossier decisionId dossier
  | .decisionSelect decisionId optionId outcome =>
      .selectDecisionOption decisionId optionId (outcome.getD ⟨.go, isSettled_go⟩)
  | .decisionAddArtifact decisionId artifact => .addDecisionArtifact decisionId artifact none
  | .decisionOutcome decisionId dest => .setOutcome decisionId dest
  | .decisionDisposition itemId gate disposition reason =>
      .setDisposition itemId gate disposition reason
  | .acceptanceCriterion itemId statement => .addCriterion itemId statement
  | .acceptanceLink criterionId kind locator evidenceId =>
      .linkEvidence criterionId kind locator evidenceId
  | .acceptanceRun evidenceId run => .recordRun evidenceId run
  | .acceptanceWaive criterionId reason => .waive criterionId reason
  | .priorityAssess itemId inputs => .assessPriority itemId inputs
  | .blockerRaise targetId kind ref reason resolutionRule owner scope engagementRef =>
      .openBlocker
        ⟨targetId, kind, ref, reason.getD (js ""), resolutionRule, owner, scope, engagementRef⟩
  | .blockerResolve blockerId => .resolveBlocker blockerId
  | .blockerResolveExternal engagementRef =>
      .resolveExternalDependency engagementRef (.workspace ctx.workspace)
  | .scopeVerification input => .recordVerification input ctx.workspace none
  | .scopeDeclare itemId scope => .declareScope itemId scope none
  | .itemAssignCode itemId code => .assignCode itemId code none
  | .itemSetRole itemId dest => .setRole itemId dest none
  | .itemSpecAmend itemId amend => .amendSpec itemId amend none
  | .itemAnchor itemId commit reason => .anchorRealization itemId commit reason none
  | .itemConsolidate items mergeCommit => .consolidate items mergeCommit none
  | .demandRaise input => .raiseDemand input
  | .demandClaim demandId handler leaseId => .claimDemand demandId handler leaseId
  | .demandAgree demandId handler items qualification leaseId =>
      .agreeDemand demandId handler items qualification leaseId
  | .demandDisposition demandId outcome handler reason duplicateOf parkedUntil leaseId =>
      .disposeDemand demandId outcome handler reason duplicateOf parkedUntil leaseId
  | .specClaim itemId handler leaseId attemptId => .startSpec itemId handler leaseId attemptId
  | .specAbandon itemId handler reason leaseId => .abandonSpec itemId handler reason leaseId
  | .itemRestructure itemId parentId planHash restructureRef =>
      .restructureReparent itemId parentId planHash restructureRef

/-- The ids a payload names that are looked up in the state. -/
def lookups : WorkPayload → List JsString
  | .itemCreate _ | .demandRaise _ | .blockerResolveExternal _ => []
  | .itemSetRaci itemId _ | .itemAddLink itemId _ | .itemReparent itemId _ | .itemSpec itemId _
  | .itemRealize itemId _ | .itemReopen itemId _ | .decisionDisposition itemId _ _ _
  | .acceptanceCriterion itemId _ | .priorityAssess itemId _ | .scopeDeclare itemId _
  | .itemAssignCode itemId _ | .itemSetRole itemId _ | .itemSpecAmend itemId _
  | .itemAnchor itemId _ _ | .specClaim itemId _ _ _ | .specAbandon itemId _ _ _
  | .itemRestructure itemId _ _ _ => [itemId]
  | .decisionCreate input => input.targets
  | .decisionDossier decisionId _ | .decisionSelect decisionId _ _
  | .decisionAddArtifact decisionId _ | .decisionOutcome decisionId _ => [decisionId]
  | .acceptanceLink criterionId _ _ _ | .acceptanceWaive criterionId _ => [criterionId]
  | .acceptanceRun evidenceId _ => [evidenceId]
  | .blockerRaise targetId _ _ _ _ _ _ _ => [targetId]
  | .blockerResolve blockerId => [blockerId]
  | .scopeVerification input => input.wpRef.toList
  | .itemConsolidate items _ => items
  | .demandClaim demandId _ _ | .demandAgree demandId _ _ _ _
  | .demandDisposition demandId _ _ _ _ _ _ => [demandId]

/-- `isBinding`, of the `settles` of the kind. -/
def isBinding : WorkPayload → Bool
  | .itemCreate _ | .itemSpec _ _ | .decisionCreate _ | .decisionDossier _ _
  | .decisionDisposition _ _ _ _ | .acceptanceCriterion _ _ | .acceptanceLink _ _ _ _
  | .priorityAssess _ _ | .blockerRaise _ _ _ _ _ _ _ _ | .demandRaise _ => false
  | .itemRealize _ dest => dest = .done ∨ dest = .cancelled
  | _ => true

end WorkPayload

/-! ## Authorization -/

/-- What `resolveWorkspace` returns. -/
inductive Resolved where
  /-- the workspace the payload gives -/
  | create (workspace : JsString)
  /-- the one of the aggregate addressed, if it is there -/
  | existing (workspace : Option JsString)

def resolveWorkspace (s : State) : WorkPayload → Resolved
  | .itemCreate input => .create input.workspace
  | .decisionCreate input => .create input.workspace
  | .demandRaise input => .create input.workspace
  | .itemRealize itemId _ =>
      .existing ((itemWorkspace s itemId).or (decisionWorkspace s itemId))
  | .itemSetRaci itemId _ | .itemAddLink itemId _ | .itemReparent itemId _
  | .itemRestructure itemId _ _ _ | .itemReopen itemId _ | .itemSpec itemId _
  | .acceptanceCriterion itemId _ | .priorityAssess itemId _ | .decisionDisposition itemId _ _ _
  | .scopeDeclare itemId _ | .itemAssignCode itemId _ | .itemSetRole itemId _
  | .itemSpecAmend itemId _ | .itemAnchor itemId _ _ | .specClaim itemId _ _ _
  | .specAbandon itemId _ _ _ => .existing (itemWorkspace s itemId)
  | .itemConsolidate items _ => .existing (items.head?.bind (itemWorkspace s))
  | .decisionOutcome decisionId _ | .decisionDossier decisionId _ | .decisionSelect decisionId _ _
  | .decisionAddArtifact decisionId _ => .existing (decisionWorkspace s decisionId)
  | .acceptanceLink criterionId _ _ _ | .acceptanceWaive criterionId _ =>
      .existing (criterionWorkspace s criterionId)
  | .acceptanceRun evidenceId _ =>
      .existing ((s.evidence.get evidenceId).bind fun ev => criterionWorkspace s ev.criterionId)
  | .blockerRaise targetId _ _ _ _ _ _ _ => .existing (itemWorkspace s targetId)
  | .blockerResolve blockerId =>
      .existing ((s.blockers.get blockerId).bind fun b => itemWorkspace s b.targetId)
  -- contained by the facade, which filters the blockers by the workspace of their target
  | .blockerResolveExternal _ => .existing none
  | .scopeVerification input => .existing (input.wpRef.bind (itemWorkspace s))
  | .demandClaim demandId _ _ | .demandAgree demandId _ _ _ _
  | .demandDisposition demandId _ _ _ _ _ _ =>
      .existing (demandWorkspace s demandId)

/-- The workspaces of what a command affects besides. -/
def affectedTargetWorkspaces (s : State) : WorkPayload → List (Option JsString)
  | .decisionCreate input => input.targets.map (itemWorkspace s)
  | .decisionOutcome decisionId _ | .decisionSelect decisionId _ _ =>
      match s.decisions.get decisionId with
      | some decision => decision.targets.map (itemWorkspace s)
      | none => []
  | .itemReparent _ (some parentId) => [itemWorkspace s parentId]
  | .itemConsolidate items _ => items.map (itemWorkspace s)
  | _ => []

/-- Every affected aggregate that is there belongs to the channel. -/
def assertAffected (kind : WorkEventKind) (ctx : IngestContext) :
    List (Option JsString) → Except String Unit
  | [] => .ok ()
  | affected :: rest => do
      match affected with
      | some workspace =>
          if workspace ≠ ctx.workspace then
            throw s!"{kindText kind}: affects an aggregate in workspace \"{workspace}\", not the channel workspace \"{ctx.workspace}\""
      | none => pure ()
      assertAffected kind ctx rest

/-- The check of the workspace a command is resolved to. -/
def assertResolved (kind : WorkEventKind) (ctx : IngestContext) : Resolved → Except String Unit
  | .create workspace =>
      if workspace ≠ ctx.workspace then
        throw s!"{kindText kind}: payload.workspace \"{workspace}\" must equal the channel workspace \"{ctx.workspace}\""
      else .ok ()
  | .existing (some workspace) =>
      if workspace ≠ ctx.workspace then
        throw s!"{kindText kind}: target belongs to workspace \"{workspace}\", not the channel workspace \"{ctx.workspace}\""
      else .ok ()
  | .existing none => .ok ()

/-- The kinds a channel may run only when it is granted them expressly. -/
def RESTRUCTURE_KINDS : List WorkEventKind := [.itemRestructure]

def authorize (ctx : IngestContext) (s : State) (payload : WorkPayload) : Except String Unit := do
  let kind := payload.kind
  if RESTRUCTURE_KINDS.contains kind ∧ (ctx.allowedKinds.getD []).contains kind = false then
    throw s!"kind \"{kindText kind}\" is a default-denied restructure capability — it requires an EXPLICIT capability grant on this channel (DESIGN R2)"
  if ctx.allowedKinds.all (·.contains kind) = false then
    throw s!"kind \"{kindText kind}\" is not permitted by this channel's capability"
  assertResolved kind ctx (resolveWorkspace s payload)
  assertAffected kind ctx (affectedTargetWorkspaces s payload)
  if payload.isBinding ∧ ¬isBindingAuth ctx.prov.auth then
    throw s!"{kindText kind} is a binding write and requires an authenticated channel (auth=\"{ctx.prov.auth.text}\")"

/-! ## The stream -/

/-- What `mapWorkEvent` checks that the type of the event does not say. -/
def mapWorkEvent (ev : WorkEvent) : Except String Unit := do
  match ev.clientToken with
  | none => pure ()
  | some token =>
      if token.length = 0 ∨ maxClientToken < token.length then
        throw s!"clientToken must be a non-empty string of at most {maxClientToken} chars"
  match ev.payload with
  | .itemAddLink _ link => do
      let _ ← assertItemLink link
  | _ => pure ()

/-- `applyCommand`: the id a creating command assigns. -/
def applyCommand (track : Facade) (ctx : IngestContext) (payload : WorkPayload) :
    Prog (Option JsString) :=
  match payload with
  | .itemCreate input => do return some (← track.createItem input)
  | .decisionCreate input => do return some (← track.createDecision input)
  | .acceptanceCriterion itemId statement => do return some (← track.addCriterion itemId statement)
  | .acceptanceLink criterionId kind locator evidenceId => do
      return some (← track.linkEvidence criterionId kind locator evidenceId)
  | .blockerRaise targetId kind ref reason resolutionRule owner scope engagementRef => do
      return some (← track.openBlocker
        ⟨targetId, kind, ref, reason.getD (js ""), resolutionRule, owner, scope, engagementRef⟩)
  | .demandRaise input => do return some (← track.raiseDemand input)
  -- the demand is what is addressed, the items are found by its link
  | .demandAgree demandId _ _ _ _ => do
      (payload.command ctx).prog track
      return some demandId
  | _ => do
      (payload.command ctx).prog track
      return none

/-- The instance an event is applied with. -/
def trackFor (ctx : IngestContext) (ev : WorkEvent) : Facade :=
  ctx.track.withClientToken ev.clientToken
    (ev.clientToken.map (workspaceDedupe · ctx.workspace))

/-- The loop of `ingest`, over what is left of the stream. -/
def ingestFrom (ctx : IngestContext) (seen : JsMap JsString (Option JsString)) :
    List WorkEvent → Prog (List (Option JsString))
  | [] => return []
  | ev :: rest => do
      let _ ← checkIngest (mapWorkEvent ev)
      match ev.clientToken.bind seen.get with
      | some id => do
          -- applied already: the id it got then
          let ids ← ingestFrom ctx seen rest
          return id :: ids
      | none => do
          let s ← Prog.state
          let _ ← checkIngest (authorize ctx s ev.payload)
          let id ← applyCommand (trackFor ctx ev) ctx ev.payload
          let seen := match ev.clientToken with
            | some token => seen.set token id
            | none => seen
          let ids ← ingestFrom ctx seen rest
          return id :: ids

def ingest (events : List WorkEvent) (ctx : IngestContext) : Prog (List (Option JsString)) := do
  let log ← Prog.readAll
  let s ← Prog.state
  ingestFrom ctx (tokenIndex log s ctx.workspace) events

end H2a.Track.Ingest.Channel
