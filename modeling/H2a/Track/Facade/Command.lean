import H2a.Library.Concurrent
import H2a.Track.Facade.Branch
import H2a.Track.Facade.Decisions
import H2a.Track.Facade.Demands
import H2a.Track.State.Ids
/-!
# The commands of the facade

Every public command of `Track` that writes, as one type; what a command may
hand to the store, and with that the invariant rule for any number of `Track`
instances in different processes.
-/

namespace H2a.Track

open H2a.Library H2a.Track.Model

inductive Command where
  | createItem (input : ItemCreatedPayload)
  | reparentItem (itemId : ItemId) (parentId : Option ItemId)
  | restructureReparent (itemId parentId : ItemId) (planHash : JsString)
      (restructureRef : Option JsString)
  | setRole (itemId : ItemId) (dest : ItemRole) (clientToken : Option JsString)
  | assignCode (itemId : ItemId) (code : JsString) (clientToken : Option JsString)
  | declareScope (itemId : ItemId) (scope : ScopeDecl) (clientToken : Option JsString)
  | setRaci (itemId : ItemId) (update : ItemRaciUpdate) (clientToken : Option JsString)
  | setReportStatus (itemId : ItemId) (report : ItemReportStatus)
  | addItemLink (itemId : ItemId) (link : Link) (clientToken : Option JsString)
  | amendSpec (itemId : ItemId) (amend : SpecAmendPayload) (clientToken : Option JsString)
  | setSpec (itemId : ItemId) (dest : SpecStatus)
  | startSpec (itemId : ItemId) (handler leaseId attemptId : Option JsString)
  | abandonSpec (itemId : ItemId) (handler : Option ActorId) (reason : JsString)
      (leaseId : Option JsString)
  | setRealization (itemId : ItemId) (dest : Realization)
  | reopenItem (itemId : ItemId) (reopening : Reopening) (clientToken : Option JsString)
  | anchorRealization (itemId : ItemId) (commit : JsString) (reason : Option AnchorReason)
      (clientToken : Option JsString)
  | assessPriority (itemId : ItemId) (inputs : WsjfInputs)
  | raiseDemand (input : Facade.RaiseDemandInput)
  | claimDemand (demandId : DemandId) (handler : Option ActorId) (leaseId : Option JsString)
  | agreeDemand (demandId : DemandId) (handler : Option ActorId)
      (items : List Facade.PromotedItem) (qualification leaseId : Option JsString)
  | disposeDemand (demandId : DemandId) (outcome : DemandStatus) (handler : Option ActorId)
      (reason : JsString) (duplicateOf : Option DemandRef) (parkedUntil leaseId : Option JsString)
  | createDecision (input : DecisionCreatedPayload)
  | setOutcome (decisionId : ItemId) (dest : Outcome)
  | reviseDossier (decisionId : ItemId) (dossier : Dossier)
  | selectDecisionOption (decisionId : ItemId) (optionId : JsString)
      (dest : { outcome : Outcome // isSettled outcome = true })
  | addDecisionArtifact (decisionId : ItemId) (artifact : DossierArtifact)
      (clientToken : Option JsString)
  | setDisposition (itemId : ItemId) (gate : Gate) (disposition : Disposition)
      (reason : Option JsString)
  | openBlocker (input : Facade.OpenBlockerInput)
  | resolveBlocker (blockerId : BlockerId)
  | resolveExternalDependency (engagementRef : JsString) (scope : Facade.ResolveScope)
  | addCriterion (itemId : ItemId) (statement : JsString)
  | linkEvidence (criterionId : JsString) (kind : EvidenceKind) (locator : JsString)
      (evidenceId : Option JsString)
  | recordRun (evidenceId : JsString) (run : RunFields)
  | recordVerification (input : VerificationRecordedPayload) (workspace : JsString)
      (clientToken : Option JsString)
  | waive (criterionId reason : JsString)
  | consolidate (itemIds : List ItemId) (mergeCommit : JsString) (clientToken : Option JsString)
  | ingestRuns (entries : List Facade.RunReportEntry) (commit env runner : JsString)
  | importBranch (branch : Facade.BranchImport)

namespace Command

/-- Run a command for what it writes. -/
def prog (facade : Facade) : Command → Prog Unit
  | .createItem input => do let _ ← facade.createItem input
  | .reparentItem itemId parentId => facade.reparentItem itemId parentId
  | .restructureReparent itemId parentId planHash restructureRef =>
      facade.restructureReparent itemId parentId planHash restructureRef
  | .setRole itemId dest clientToken => facade.setRole itemId dest clientToken
  | .assignCode itemId code clientToken => facade.assignCode itemId code clientToken
  | .declareScope itemId scope clientToken => facade.declareScope itemId scope clientToken
  | .setRaci itemId update clientToken => facade.setRaci itemId update clientToken
  | .setReportStatus itemId report => facade.setReportStatus itemId report
  | .addItemLink itemId link clientToken => facade.addItemLink itemId link clientToken
  | .amendSpec itemId amend clientToken => facade.amendSpec itemId amend clientToken
  | .setSpec itemId dest => facade.setSpec itemId dest
  | .startSpec itemId handler leaseId attemptId => facade.startSpec itemId handler leaseId attemptId
  | .abandonSpec itemId handler reason leaseId => facade.abandonSpec itemId handler reason leaseId
  | .setRealization itemId dest => facade.setRealization itemId dest
  | .reopenItem itemId reopening clientToken => facade.reopenItem itemId reopening clientToken
  | .anchorRealization itemId commit reason clientToken =>
      facade.anchorRealization itemId commit reason clientToken
  | .assessPriority itemId inputs => do let _ ← facade.assessPriority itemId inputs
  | .raiseDemand input => do let _ ← facade.raiseDemand input
  | .claimDemand demandId handler leaseId => facade.claimDemand demandId handler leaseId
  | .agreeDemand demandId handler items qualification leaseId => do
      let _ ← facade.agreeDemand demandId handler items qualification leaseId
  | .disposeDemand demandId outcome handler reason duplicateOf parkedUntil leaseId =>
      facade.disposeDemand demandId outcome handler reason duplicateOf parkedUntil leaseId
  | .createDecision input => do let _ ← facade.createDecision input
  | .setOutcome decisionId dest => facade.setOutcome decisionId dest
  | .reviseDossier decisionId dossier => facade.reviseDossier decisionId dossier
  | .selectDecisionOption decisionId optionId dest =>
      facade.selectDecisionOption decisionId optionId dest
  | .addDecisionArtifact decisionId artifact clientToken =>
      facade.addDecisionArtifact decisionId artifact clientToken
  | .setDisposition itemId gate disposition reason =>
      facade.setDisposition itemId gate disposition reason
  | .openBlocker input => do let _ ← facade.openBlocker input
  | .resolveBlocker blockerId => facade.resolveBlocker blockerId
  | .resolveExternalDependency engagementRef scope => do
      let _ ← facade.resolveExternalDependency engagementRef scope
  | .addCriterion itemId statement => do let _ ← facade.addCriterion itemId statement
  | .linkEvidence criterionId kind locator evidenceId => do
      let _ ← facade.linkEvidence criterionId kind locator evidenceId
  | .recordRun evidenceId run => facade.recordRun evidenceId run
  | .recordVerification input workspace clientToken =>
      facade.recordVerification input workspace clientToken
  | .waive criterionId reason => facade.waive criterionId reason
  | .consolidate itemIds mergeCommit clientToken =>
      facade.consolidate itemIds mergeCommit clientToken
  | .ingestRuns entries commit env runner => do
      let _ ← facade.ingestRuns entries commit env runner
  | .importBranch branch => do let _ ← facade.importBranch branch

/-- The ids a caller supplies that the command writes without having found them in
the state. -/
def names : Command → List JsString
  | .createItem input => input.parentId.toList ++ input.demandId.toList
  | .amendSpec _ amend _ => amend.decisionId.toList
  | .raiseDemand input => input.concerns.toList
  | .disposeDemand _ _ _ _ duplicateOf _ _ => (duplicateOf.map (·.id)).toList
  | .createDecision input => input.parentId.toList
  | .linkEvidence _ _ _ evidenceId => evidenceId.toList
  | .recordVerification input workspace _ =>
      [input.runId, Facade.verificationAggregate workspace]
  | _ => []

end Command

/-- A call: a command on a `Track` instance. -/
structure Call where
  facade : Facade
  command : Command

def Call.prog (c : Call) : Prog Unit := c.command.prog c.facade

def Call.names (c : Call) : List JsString := c.command.names

end H2a.Track
