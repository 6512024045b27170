import H2a.Loop.Decision
import H2a.Track.Facade.Command
/-!
# Routing a decision gate

`routeLoopDecision` of `runtime/loop/engine/adapters.ts`, as a program on the ledger that owns the
target of the gate.  It reads the ledger several times without the lock, and the locked append of
`Track.createDecision` does not look at the source key again.
-/

namespace H2a.Loop

open H2a.Library H2a.Track H2a.Track.Model

def emptyText (text : JsString) : Bool := text = js ""

/-- `isStructuredDecisionGate(ref)`, for the gate of the ref. -/
def isStructuredDecisionGate (ref : H2ALoopTrackRef) (gate : H2ALoopDecisionGate) : Bool :=
  decide (ref.role = js "decision-gate") && !emptyText gate.id && !emptyText gate.title &&
    decide (gate.options.length ≥ 2) &&
    gate.options.all (fun o => !emptyText o.id && !emptyText o.title && !emptyText o.summary) &&
    !emptyText gate.rationale && gate.options.any (·.id = gate.recommendedOptionId) &&
    !emptyText gate.targetItemId && !emptyText gate.targetWorkspace

/-- `decisionGateForAction`: the ref and its gate. -/
def decisionGateForAction (loop : H2AObjectiveLoop) (action : TickAction) :
    Option (H2ALoopTrackRef × H2ALoopDecisionGate) :=
  loop.refs.findSome? fun ref =>
    match ref.decisionGate with
    | none => none
    | some gate =>
        if isStructuredDecisionGate ref gate &&
            (action.refLocator == some (loopRefLocator ref) ||
              action.decisionId == some gate.id) then
          some (ref, gate)
        else none

/-- The digest, in hex, of the JSON of the locator, the gate and the episode. -/
abbrev Revision := JsString → H2ALoopDecisionGate → Nat → JsString

/-- `decisionSourceKey`: "Stable Track identity for one open gate revision and target lifecycle
episode." -/
def decisionSourceKey (revision : Revision) (loopId : JsString) (ref : H2ALoopTrackRef)
    (gate : H2ALoopDecisionGate) (episode : Nat) : JsString :=
  js "h2a-loop-decision:" ++ loopId ++ js ":" ++ gate.id ++ js ":" ++
    revision (loopRefLocator ref) gate episode

/-- The ledger has the target of the gate. -/
def ownsTarget (s : State) (gate : H2ALoopDecisionGate) : Bool :=
  (s.items.get gate.targetItemId).any (·.workspace = gate.targetWorkspace)

inductive LedgerResolution where
  | ledger (index : Nat)
  | trackLedgerUnavailable
  | trackTargetNotFound

/-- `resolveTrackLedger`, of what is read at each of the roots: the first ledger that has the
target. -/
def resolveTrackLedger (gate : H2ALoopDecisionGate) (roots : List (Option State)) :
    LedgerResolution :=
  match roots.findIdx? (·.any fun s => ownsTarget s gate) with
  | some index => .ledger index
  | none => if roots.any (·.isSome) then .trackTargetNotFound else .trackLedgerUnavailable

/-- The episode: how often the target was reopened. -/
def episodeOf (s : State) (gate : H2ALoopDecisionGate) : Nat :=
  ((s.items.get gate.targetItemId).bind (·.reopenings)).elim 0 (·.length)

def GateDecisionKind.gate : GateDecisionKind → Gate
  | .orientation => .orientation
  | .commitment => .commitment

/-- The decision a gate is made. -/
def decisionOfGate (gate : H2ALoopDecisionGate) (sourceKey : JsString) :
    DecisionCreatedPayload where
  decisionKind := gate.decisionKind.gate
  title := gate.title
  workspace := gate.targetWorkspace
  targets := [gate.targetItemId]
  dossier :=
    { context := gate.context
      options := gate.options.map fun o => ⟨o.id, o.title, o.summary, o.pros, o.cons⟩
      qa := (gate.qa.getD []).map fun entry => ⟨entry.id, entry.question, entry.answer⟩
      selectedOptionId := none
      recommendation := some ⟨gate.recommendedOptionId, gate.rationale⟩
      artifacts := none }
  parentId := none
  sourceKey := some sourceKey
  body := none
  links := none
  accountable := none
  engagementRef := none

/-- What a route answers; a throw of the program is the answer `track-ledger-write-failed`. -/
inductive RouteEffect where
  | decisionGateNotFound
  | trackLedgerUnavailable
  | trackTargetNotFound
  /-- it goes on with the ledger of another root -/
  | elsewhere (index : Nat)
  | decisionAlreadyRaised (decisionId : ItemId)
  | decisionRaised (decisionId : ItemId)

/-- The facade of a loop executor. -/
def loopDecisionFacade : Facade := { Facade.plain with actor := js "h2a:loop-supervisor" }

/-- `routeLoopDecision` on one ledger; `before` and `after` is what it reads at the roots before
and after that of the ledger. -/
def routeLoopDecision (revision : Revision) (loop : H2AObjectiveLoop) (action : TickAction)
    (before after : List (Option State)) : Prog RouteEffect :=
  match decisionGateForAction loop action with
  | none => return .decisionGateNotFound
  | some (ref, gate) => do
      let s ← Prog.state
      match resolveTrackLedger gate (before ++ some s :: after) with
      | .trackLedgerUnavailable => return .trackLedgerUnavailable
      | .trackTargetNotFound => return .trackTargetNotFound
      | .ledger index =>
          if index ≠ before.length then return .elsewhere index
          else do
            let s ← Prog.state
            let sourceKey := decisionSourceKey revision loop.id ref gate (episodeOf s gate)
            let s ← Prog.state
            match s.decisions.values.find? (·.sourceKey = some sourceKey) with
            | some existing => return .decisionAlreadyRaised existing.id
            | none => do
                let decisionId ← loopDecisionFacade.createDecision (decisionOfGate gate sourceKey)
                return .decisionRaised decisionId

/-! ## Executors and other writers of one ledger -/

/-- A call on the ledger: of an executor, with the loop and what else it has read, or any other
command. -/
inductive LedgerCall where
  | route (loop : H2AObjectiveLoop) (action : TickAction) (before after : List (Option State))
  | command (c : Call)

def LedgerCall.prog (revision : Revision) : LedgerCall → Prog Unit
  | .route loop action before after => do
      let _ ← routeLoopDecision revision loop action before after
      return ()
  | .command c => c.prog

def LedgerCall.names : LedgerCall → List JsString
  | .route _ _ _ _ => []
  | .command c => c.names

/-- The source key of the decision an event creates. -/
def createdKey (body : EventBody) : Option JsString :=
  match body with
  | .decisionCreated payload => payload.sourceKey
  | _ => none

/-- The source keys of the decisions the events create. -/
def keysIn (events : List Event) : List JsString :=
  events.filterMap fun ev => createdKey ev.core.body

/-- The decision blockers on a target that the events open. -/
def decisionBlockersOn (target : ItemId) (events : List Event) : List Event :=
  events.filter fun ev =>
    match ev.core.body with
    | .blockerOpened blocker => blocker.kind = .decision ∧ blocker.targetId = target
    | _ => false

/-- The decision blockers on a target that came with a decision of a source key. -/
def blockersOfKey (history : List (LedgerCall × List Event)) (key : JsString) (target : ItemId) :
    List Event :=
  history.flatMap fun entry =>
    if key ∈ keysIn entry.2 then decisionBlockersOn target entry.2 else []

/-- Each episode of a gate has at most one decision, and one blocker that came with it. -/
def OneDecisionPerEpisode (revision : Revision) (log : List Event)
    (history : List (LedgerCall × List Event)) : Prop :=
  ∀ loopId ref gate episode,
    let key := decisionSourceKey revision loopId ref gate episode
    (keysIn log).count key ≤ 1 ∧
      (blockersOfKey history key gate.targetItemId).length ≤ 1

/-- No decision that is appended has the source key of one in the ledger, if it is that of an
episode of a gate. -/
def KeyIsFree (revision : Revision) (log : List Event) (_ : LedgerCall) (e : Emission) : Prop :=
  ∀ loopId ref gate episode,
    let key := decisionSourceKey revision loopId ref gate episode
    key ∈ e.parts.filterMap (fun part => createdKey part.body) → key ∉ keysIn log

end H2a.Loop
