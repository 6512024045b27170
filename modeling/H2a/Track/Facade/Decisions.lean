import H2a.Track.Facade.Items
/-!
# `Track`: decisions and blockers

The commands of `packages/track/src/track.ts` on decisions and on blockers.  A
decision opens one blocker for each of its targets; its settlement resolves them
in the same batch.
-/

namespace H2a.Track.Facade

open H2a.Library H2a.Track.Model

variable (facade : Facade)

/-! ## Decisions -/

/-- Every target is an item and no decision. -/
def assertTargets (s : State) : List ItemId → Except String Unit
  | [] => .ok ()
  | targetId :: rest => do
      if s.decisions.has targetId then
        throw s!"a decision cannot target another decision ({targetId}) [A3]"
      if ¬s.items.has targetId then throw s!"unknown target item {targetId}"
      assertTargets s rest

/-- The blocker a new decision opens on a target. -/
def decisionBlocker (decisionId : ItemId) (gate : Gate) (blockerId : BlockerId)
    (targetId : ItemId) : EventPart where
  aggregate := .blocker
  aggregateId := blockerId
  body := .blockerOpened
    { blockerId := blockerId
      targetId := targetId
      kind := .decision
      ref := decisionId
      reason := js s!"awaiting {gate.text} decision"
      resolutionRule := none
      owner := none
      scope := none
      engagementRef := none }

def createDecision (input : DecisionCreatedPayload) : Prog ItemId := do
  Prog.check (assertStructuredDossier input.dossier false)
  Prog.ensure (input.targets ≠ []) "a decision needs at least one target (SPEC §2.5)"
  Prog.ensure input.targets.Nodup "a decision cannot list the same target twice"
  let s ← Prog.state
  Prog.check (assertTargets s input.targets)
  let decisionId ← Prog.newId
  let blockerIds ← Prog.newIds input.targets.length
  let created : EventPart := ⟨.decision, decisionId, .decisionCreated input⟩
  let blockers := List.zipWith (decisionBlocker decisionId input.decisionKind) blockerIds
    input.targets
  let persisted ← facade.emitBatch (created :: blockers)
  return resultId persisted decisionId

/-- The blocker a settlement resolves on a target: the first open one. -/
def openDecisionBlocker (s : State) (decisionId targetId : ItemId) : Option BlockerState :=
  s.blockers.values.find? fun b =>
    b.kind = .decision && b.ref = some decisionId && b.targetId = targetId && b.open_

/-- What a settlement does to one target. -/
def settleTarget (s : State) (decisionId : ItemId) (dest : Outcome) (targetId : ItemId) :
    List EventPart :=
  let resolved : List EventPart :=
    match openDecisionBlocker s decisionId targetId with
    | some blocker => [⟨.blocker, blocker.id, .blockerResolved blocker.id (some decisionId) none⟩]
    | none => []
  let rejected : List EventPart :=
    match s.items.get targetId with
    | some target =>
        if dest = .noGo ∧ (target.realization = .toDo ∨ target.realization = .inProgress) then
          [⟨.item, targetId, .realizationTransition .rejected (some decisionId)⟩]
        else []
    | none => []
  resolved ++ rejected

def outcomeParts (s : State) (decision : DecisionState) (dest : Outcome) : List EventPart :=
  ⟨.decision, decision.id, .decisionOutcome dest⟩ ::
    if isSettled dest then decision.targets.flatMap (settleTarget s decision.id dest) else []

def setOutcome (decisionId : ItemId) (dest : Outcome) : Prog Unit := do
  let s ← Prog.state
  let decision ← Prog.require (s.decisions.get decisionId) s!"unknown decision {decisionId}"
  if dest ≠ .deferred then
    if ¬isStructuredDossier decision.dossier then
      Prog.throwDomain "an unstructured legacy decision must be revised with native options and a recommendation before decision.select can settle it"
    else
      Prog.throwDomain "a structured decision must use decision.select to record an option with its outcome"
  else do
    Prog.check (assertOutcomeTransition decision.outcome dest)
    let _ ← facade.emitBatch (outcomeParts s decision dest)

/-- What a settled decision may not change of its dossier. -/
def assertSettledDossier (recorded revised : Dossier) : Except String Unit := do
  let selectedOption := recorded.options.find? fun o => some o.id = recorded.selectedOptionId
  let revisedOption := revised.options.find? fun o => some o.id = revised.selectedOptionId
  match selectedOption, revisedOption with
  | some left, some right =>
      if ¬sameOption left right then
        throw "a settled decision cannot change its selected option"
  | _, _ => throw "a settled decision cannot change its selected option"
  match recorded.recommendation, revised.recommendation with
  | some left, some right =>
      if left.optionId ≠ right.optionId ∨ left.rationale ≠ right.rationale then
        throw "a settled decision cannot change its recorded recommendation"
  | _, _ => throw "a settled decision cannot change its recorded recommendation"

def reviseDossier (decisionId : ItemId) (dossier : Dossier) : Prog Unit := do
  let s ← Prog.state
  let decision ← Prog.require (s.decisions.get decisionId) s!"unknown decision {decisionId}"
  Prog.check (assertStructuredDossier dossier true)
  Prog.ensure (dossier.selectedOptionId = decision.dossier.selectedOptionId)
    "decision dossier selectedOptionId is set only by decision.option-selected"
  if decision.dossier.selectedOptionId ≠ none then
    Prog.check (assertSettledDossier decision.dossier dossier)
  let _ ← facade.emit .decision decisionId (.dossierRevised dossier)

/-- `dest` is a settlement, `go` or `no-go`. -/
def selectDecisionOption (decisionId : ItemId) (optionId : JsString)
    (dest : { outcome : Outcome // isSettled outcome = true }) : Prog Unit := do
  let s ← Prog.state
  let decision ← Prog.require (s.decisions.get decisionId) s!"unknown decision {decisionId}"
  Prog.check (assertStructuredDossier decision.dossier true)
  Prog.check (assertOutcomeTransition decision.outcome dest)
  match decision.dossier.selectedOptionId with
  | some selected =>
      Prog.throwDomain s!"decision {decisionId} already has selected option \"{selected}\""
  | none => pure ()
  Prog.ensure (decision.dossier.options.any (fun o => o.id = optionId) = true)
    s!"decision option \"{optionId}\" is not declared on {decisionId}"
  let selected : EventPart := ⟨.decision, decisionId, .decisionOptionSelected optionId⟩
  let _ ← facade.emitBatch (selected :: outcomeParts s decision dest)

def addDecisionArtifact (decisionId : ItemId) (artifact : DossierArtifact)
    (clientToken : Option JsString) : Prog Unit := do
  let s ← Prog.state
  Prog.ensure (s.decisions.has decisionId = true) s!"unknown decision {decisionId}"
  let validated ← Prog.check (assertDossierArtifact artifact)
  let _ ← (facade.stamped clientToken).emit .decision decisionId (.decisionArtifactAdded validated)

def setDisposition (itemId : ItemId) (gate : Gate) (disposition : Disposition)
    (reason : Option JsString) : Prog Unit := do
  Prog.ensure (disposition ≠ .completed)
    "disposition \"completed\" is set automatically when a decision settles (SPEC §2.10)"
  knownItem itemId
  let _ ← facade.emit .item itemId (.decisionDisposition itemId gate disposition reason)

/-! ## Blockers -/

structure OpenBlockerInput where
  targetId : ItemId
  kind : BlockerKind
  ref : Option ItemId
  reason : JsString
  resolutionRule : Option ResolutionRule
  owner : Option ActorId
  scope : Option BlockerScope
  engagementRef : Option JsString

namespace OpenBlockerInput

/-- The scope of a dependency, `intra` unless it is given. -/
def effectiveScope (input : OpenBlockerInput) : BlockerScope :=
  match input.kind with
  | .dependency => input.scope.getD .intra
  | .decision => .intra

/-- The checks on a blocker's reference, and the resolution rule that results. -/
def rule (input : OpenBlockerInput) (s : State) : Except String (Option ResolutionRule) :=
  let ref := input.ref.getD (js "undefined")
  match input.kind, input.effectiveScope with
  | .decision, _ =>
      if input.ref.any s.decisions.has then .ok none
      else .error s!"a decision blocker's ref must be an existing decision ({ref})"
  | .dependency, .extra => do
      if input.engagementRef.all emptyString then
        throw "an extra-scope dependency blocker requires an engagementRef (an h2a engagement id)"
      if input.ref ≠ none then
        throw "an extra-scope dependency blocker must NOT carry a local ref (it references the engagementRef)"
      match input.resolutionRule with
      | some .manual | none => return some .manual
      | some rule => throw s!"an extra-scope dependency resolves 'manual' only (got '{rule.text}') — track cannot see h2a state"
  | .dependency, .intra =>
      if input.ref.any s.items.has then .ok (some (input.resolutionRule.getD .linkedDone))
      else .error s!"unknown ref item {ref}"

/-- The payload of the blocker opened. -/
def payload (input : OpenBlockerInput) (blockerId : BlockerId)
    (resolutionRule : Option ResolutionRule) : BlockerOpenedPayload where
  blockerId := blockerId
  targetId := input.targetId
  kind := input.kind
  ref := input.ref
  reason := input.reason
  resolutionRule := resolutionRule
  owner := input.owner
  scope := if input.effectiveScope = .extra then some .extra else none
  engagementRef := input.engagementRef

end OpenBlockerInput

def openBlocker (input : OpenBlockerInput) : Prog BlockerId := do
  let s ← Prog.state
  Prog.ensure (s.items.has input.targetId = true) s!"unknown target item {input.targetId}"
  let rule ← Prog.check (input.rule s)
  let blockerId ← Prog.newId
  let persisted ← facade.emit .blocker blockerId (.blockerOpened (input.payload blockerId rule))
  return resultId persisted blockerId

def resolveBlocker (blockerId : BlockerId) : Prog Unit := do
  let s ← Prog.state
  let blocker ← Prog.require (s.blockers.get blockerId) s!"unknown blocker {blockerId}"
  Prog.check (assertManualResolve blocker)
  Prog.ensure (blocker.open_ = true) s!"blocker {blockerId} is already resolved"
  let _ ← facade.emit .blocker blockerId (.blockerResolved blockerId none blocker.engagementRef)

inductive ResolveScope where
  | workspace (workspace : JsString)
  | allWorkspaces
  deriving DecidableEq

/-- The blockers a settled engagement frees. -/
def externalBlockers (s : State) (engagementRef : JsString) (scope : ResolveScope) :
    List BlockerState :=
  s.blockers.values.filter fun b =>
    b.open_ && b.kind = .dependency && b.scope = some .extra &&
      b.engagementRef = some engagementRef &&
      match scope with
      | .allWorkspaces => true
      | .workspace workspace => (s.items.get b.targetId).map (·.workspace) = some workspace

def resolveExternalDependency (engagementRef : JsString) (scope : ResolveScope) :
    Prog (List BlockerId) := do
  Prog.ensure (scope ≠ .workspace (js ""))
    "resolveExternalDependency: scope must be \x7bworkspace:<non-empty string>\x7d or 'all-workspaces'"
  let s ← Prog.state
  let parts : List EventPart := (externalBlockers s engagementRef scope).map fun b =>
    ⟨.blocker, b.id, .blockerResolved b.id none (some engagementRef)⟩
  if parts = [] then return []
  let persisted ← facade.emitBatch parts
  return persisted.map (·.core.aggregateId)

end H2a.Track.Facade
