import H2a.Library.JsMap
import H2a.Loop.Types
/-!
# The decision of a tick

`runtime/loop/engine/decision.ts`: from the loop, the agents, their presence, the statuses of the
refs and the pending decisions to a plan.  It reads nothing else.
-/

namespace H2a.Loop

open H2a.Library

/-! ## What a tick sees -/

structure ProjectedAgent where
  id : JsString
  state : JsString
  jobId : Option JsString
  h2aInstance : Option JsString

structure AgentsSnapshot where
  degraded : Bool
  agents : List ProjectedAgent

inductive WakeTransport where
  | localTmux
  | nativePty
  deriving DecidableEq

structure PresenceView where
  liveSession : Bool
  wakeTransport : Option WakeTransport
  hasTmuxLaunchContext : Bool
  workStatus : Option JsString
  lastActivityAtMs : Option Int

inductive RefStatus where
  | accepted
  | done
  | pending
  | rejected
  | blocked
  | stale
  | unknown
  deriving DecidableEq

structure RolledRef where
  locator : JsString
  status : RefStatus

structure RefsRollup where
  degraded : Bool
  refs : List RolledRef

structure PendingDecision where
  id : JsString
  forAgent : Option JsString

/-- What a tick decides on; `presence` is looked up under an instance in lower case. -/
structure TickInput where
  loop : H2AObjectiveLoop
  agents : AgentsSnapshot
  presence : JsString → Option PresenceView
  refs : RefsRollup
  pendingDecisions : List PendingDecision
  now : Int

/-! ## The plan -/

inductive TickActionType where
  | requestLaunch
  | wake
  | routeDecision
  | close
  | noop
  deriving DecidableEq

structure TickAction where
  type : TickActionType
  reason : JsString
  agentId : Option JsString
  refLocator : Option JsString
  decisionId : Option JsString
  wakeTransport : Option WakeTransport
  deriving DecidableEq

inductive TickOutcome where
  | running
  | waitingHuman
  | waitingAgent
  | stalled
  | degraded
  | eligibleForClose
  | stopped
  | failed
  deriving DecidableEq

/-- A plan, with the sources that were degraded, if any: the agents and the refs. -/
structure TickPlan where
  loopId : JsString
  degraded : Bool
  degradedSources : Option (Bool × Bool)
  outcome : TickOutcome
  close : Bool
  actions : List TickAction
  reasons : List JsString

/-- `TARGET_ROLES.has(ref.role)` -/
def isTarget (ref : H2ALoopTrackRef) : Bool := ref.role = js "primary" ∨ ref.role = js "target"

/-- `loopRefLocator`: "Stable join key for a declared loop track-ref.  Adapters MUST use the
same." -/
def loopRefLocator (ref : H2ALoopTrackRef) : JsString :=
  js "track:" ++ ref.repoKey ++ js ":" ++ ref.workspace ++ js ":" ++ ref.aggregateKind.text ++
    js ":" ++ ref.aggregateId

def findProjected (loopAgent : H2ALoopAgent) (projected : List ProjectedAgent) :
    Option ProjectedAgent :=
  projected.find? fun p =>
    (loopAgent.h2aInstance.isSome && p.h2aInstance == loopAgent.h2aInstance) ||
      (loopAgent.remoteJobId.isSome && p.jobId == loopAgent.remoteJobId) ||
      loopAgent.remoteAgentId == some p.id

/-- `DEAD_STATES.has(state)` -/
def isDeadState (state : JsString) : Bool :=
  state = js "dead" ∨ state = js "failed" ∨ state = js "done"

/-- `IDLE_STATES.has(state)` -/
def isIdleState (state : JsString) : Bool := state = js "idle" ∨ state = js "detached"

def findPresence (toLowerCase : JsString → JsString) (loopAgent : H2ALoopAgent)
    (presence : JsString → Option PresenceView) : Option PresenceView :=
  loopAgent.h2aInstance.bind fun instance_ => presence (toLowerCase instance_)

def presenceCanWake (presence : PresenceView) : Bool :=
  presence.liveSession && (presence.wakeTransport.isSome || presence.hasTmuxLaunchContext)

/-- "Unknown status + recent activity ⇒ noop (do not over-wake)." -/
def presenceIdleEnoughToWake (presence : PresenceView) (now idleMs : Int) : Bool :=
  match presence.workStatus with
  | some status =>
      if status = js "working" ∨ status = js "blocked" ∨ status = js "done" then false
      else if status = js "paused" ∨ status = js "out-of-tokens" then true
      else silent
  | none => silent
where
  silent : Bool :=
    match presence.lastActivityAtMs with
    | none => false
    | some lastActivityAtMs => now - lastActivityAtMs > idleMs

/-- `statusByLocator.get(locator) ?? "unknown"`: of the statuses of one locator the last counts. -/
def statusByLocator (refs : List RolledRef) (locator : JsString) : RefStatus :=
  ((refs.reverse.find? (·.locator = locator)).map (·.status)).getD .unknown

/-- `accepted` or `done` -/
def RefStatus.satisfied (status : RefStatus) : Bool := status = .accepted ∨ status = .done

/-- A count in a message. -/
def countText (n : Nat) : JsString := JsString.ofString (toString n)

namespace TickInput

variable (input : TickInput)

def statusOf (ref : H2ALoopTrackRef) : RefStatus :=
  statusByLocator input.refs.refs (loopRefLocator ref)

def targetRefs : List H2ALoopTrackRef := input.loop.refs.filter isTarget

def openBlockers : List H2ALoopTrackRef :=
  (input.loop.refs.filter (·.role = js "blocker")).filter fun ref =>
    !(input.statusOf ref).satisfied

def openDecisionGates : List H2ALoopTrackRef :=
  (input.loop.refs.filter (·.role = js "decision-gate")).filter fun ref =>
    !(input.statusOf ref).satisfied

/-- "Advisory gates still reach the owner stack, but do not stop the loop's work-progress
outcome." -/
def blockingDecisionGates : List H2ALoopTrackRef :=
  if input.loop.policy.decisionGatePolicy = .advisoryOnly then [] else input.openDecisionGates

def hasOpenDecision : Bool :=
  input.pendingDecisions.length > 0 ∨ input.blockingDecisionGates.length > 0

def allTargetsSatisfied : Bool :=
  input.targetRefs.length > 0 ∧ input.targetRefs.all fun ref => (input.statusOf ref).satisfied

def anyTargetRejected : Bool := input.targetRefs.any fun ref => input.statusOf ref = .rejected

def anyTargetUnresolved : Bool :=
  input.targetRefs.any fun ref =>
    let s := input.statusOf ref
    s = .pending ∨ s = .unknown ∨ s = .stale ∨ s = .blocked

/-- "OUTCOME — deterministic precedence", with its reason. -/
def rollupOutcome : TickOutcome × List JsString :=
  if input.anyTargetRejected then
    (.failed, [js "a primary/target ref is rejected/failed"])
  else if input.openBlockers.length > 0 then
    (.stalled, [countText input.openBlockers.length ++ js " open blocker ref(s)"])
  else if input.hasOpenDecision then
    (.waitingHuman, [js "open decision gate(s) / pending decision(s)"])
  else if input.allTargetsSatisfied then
    (.eligibleForClose, [js "all primary/target refs accepted/done"])
  else if input.anyTargetUnresolved then
    (.waitingAgent, [js "primary/target refs still pending"])
  else if input.targetRefs.length = 0 then
    (.running, [js "no primary/target refs declared"])
  else (.running, [])

/-- `close` -/
def closes : Bool :=
  input.rollupOutcome.1 = .eligibleForClose ∧ input.loop.policy.closeWhenRefsSatisfied

/-- The outcome of the plan: an empty loop does not make progress. -/
def outcome : TickOutcome × List JsString :=
  let (outcome, reasons) := input.rollupOutcome
  if input.loop.agents.length = 0 ∧ (outcome = .running ∨ outcome = .waitingAgent) then
    (.stalled, reasons ++ [js "no agents enrolled; call h2a_loop_join (or report with explicit autoJoin:true and instance)"])
  else (outcome, reasons)

/-- The actions and the reasons of one open gate. -/
def gateActions (ref : H2ALoopTrackRef) : List TickAction × List JsString :=
  match ref.decisionGate with
  | none =>
      ([], [js "decision gate " ++ loopRefLocator ref ++ js " has no structured payload"])
  | some gate =>
      ([⟨.routeDecision, js "open decision gate", none, some (loopRefLocator ref), some gate.id,
        none⟩], [])

def routePending (reason : JsString) : List TickAction :=
  input.pendingDecisions.map fun d =>
    ⟨.routeDecision, reason, d.forAgent, none, some d.id, none⟩

/-- The action and the reason for one agent while work is pending. -/
def agentActions (toLowerCase : JsString → JsString) (a : H2ALoopAgent) :
    List TickAction × List JsString :=
  if a.status = .done ∨ a.status = .cancelled ∨ a.status = .failed then ([], [])
  else
    let projected :=
      if input.agents.degraded then none else findProjected a input.agents.agents
    let missing := projected.all fun p => isDeadState p.state
    let idle := projected.any fun p => isIdleState p.state
    let otherwise : List TickAction × List JsString :=
      if missing then
        if input.agents.degraded then ([], [])
        else if a.launch.isNone then
          ([], [js "agent " ++ a.id ++ js " is missing/dead but has no complete launch spec"])
        else
          ([⟨.requestLaunch, js "enrolled agent missing/dead while work pending", some a.id, none,
            none, none⟩], [])
      else if idle then
        ([⟨.wake, js "agent idle while work pending", some a.id, none, none, none⟩], [])
      else ([], [])
    match findPresence toLowerCase a input.presence with
    | none => otherwise
    | some presence =>
        if presenceCanWake presence then
          if (missing || idle) &&
              presenceIdleEnoughToWake presence input.now input.loop.policy.idleMs then
            ([⟨.wake, js "agent idle/stalled in h2a presence while work pending", some a.id, none,
              none, some (presence.wakeTransport.getD .localTmux)⟩], [])
          else ([], [])
        else if presence.liveSession then ([], [])
        else otherwise

def degradedPlan : TickPlan where
  loopId := input.loop.id
  degraded := true
  degradedSources := some (input.agents.degraded, true)
  outcome := .degraded
  close := false
  actions := input.routePending (js "pending decision surfaced while degraded")
  reasons :=
    (if input.agents.degraded then
      [js "agents source unreachable (runtime absent/degraded)"] else []) ++
    [js "track refs source unreachable"]

/-- What is planned for decisions and agents, with the reasons. -/
def followUps (toLowerCase : JsString → JsString) : List TickAction × List JsString :=
  let failed := input.outcome.1 = .failed
  let gates := if failed then [] else input.openDecisionGates.map gateActions
  let pending := if failed then [] else input.routePending (js "pending decision")
  let agents :=
    if ¬input.allTargetsSatisfied ∧ ¬failed ∧ ¬input.closes then
      input.loop.agents.map (input.agentActions toLowerCase)
    else []
  (gates.flatMap (·.1) ++ pending ++ agents.flatMap (·.1),
    gates.flatMap (·.2) ++ agents.flatMap (·.2))

end TickInput

/-- `planLoopTick` -/
def planLoopTick (toLowerCase : JsString → JsString) (input : TickInput) : TickPlan :=
  if input.refs.degraded then input.degradedPlan
  else
    let followUps := input.followUps toLowerCase
    let actions :=
      (if input.closes then
        [(⟨.close, js "refs satisfied and policy.closeWhenRefsSatisfied", none, none, none,
          none⟩ : TickAction)]
      else []) ++ followUps.1
    let reasons :=
      (if input.agents.degraded then
        [js "agents source unreachable (runtime absent/degraded); evaluating presence-only wake path"]
      else []) ++ input.outcome.2 ++ followUps.2
    { loopId := input.loop.id
      degraded := input.agents.degraded
      degradedSources := if input.agents.degraded then some (true, false) else none
      outcome := input.outcome.1
      close := input.closes
      actions :=
        if actions.isEmpty then
          [⟨.noop,
            if input.loop.agents.length = 0 then js "no agents enrolled; join with h2a_loop_join"
            else reasons.getLastD (js "nothing to do this tick"), none, none, none, none⟩]
        else actions
      reasons := reasons }

end H2a.Loop
