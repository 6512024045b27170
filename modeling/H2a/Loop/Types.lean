import H2a.Library.JsString
/-!
# Objective loops

The records of `runtime/loop/index.ts`.  "h2a loops orchestrate explicit track refs rather than
creating a parallel backlog/status store."  Times are in milliseconds.
-/

namespace H2a.Loop

open H2a.Library

inductive H2ALoopStatus where
  | created
  | running
  | waitingHuman
  | waitingAgent
  | stalled
  | degraded
  | done
  | failed
  | cancelled
  | active
  | stopped
  | blocked
  deriving DecidableEq

/-- A status as the state file has it. -/
def H2ALoopStatus.text : H2ALoopStatus → JsString
  | .created => js "created"
  | .running => js "running"
  | .waitingHuman => js "waiting-human"
  | .waitingAgent => js "waiting-agent"
  | .stalled => js "stalled"
  | .degraded => js "degraded"
  | .done => js "done"
  | .failed => js "failed"
  | .cancelled => js "cancelled"
  | .active => js "active"
  | .stopped => js "stopped"
  | .blocked => js "blocked"

inductive H2ALoopAgentStatus where
  | planned
  | launching
  | running
  | idle
  | working
  | blocked
  | awaitingDecision
  | rateLimited
  | outOfTokens
  | dead
  | done
  | failed
  | cancelled
  deriving DecidableEq

inductive H2ALoopHost where
  | claude
  | codex
  | agy
  | gemini
  | mistral
  | hermes
  | opencode
  | shell
  | muse
  | vibe
  deriving DecidableEq

inductive H2ALoopPlacement where
  | local_
  | remote
  | auto
  | headlessLocal
  | headlessRemote
  | interactiveLocal
  | interactiveRemote

inductive LaunchProfile where
  | claude
  | codex
  deriving DecidableEq

/-- A profile is the host of the same name. -/
def LaunchProfile.host : LaunchProfile → H2ALoopHost
  | .claude => .claude
  | .codex => .codex

inductive LaunchEffort where
  | low
  | medium
  | high
  | xhigh
  deriving DecidableEq

inductive LaunchGateway where
  | auto
  | required
  | off
  deriving DecidableEq

structure H2ALoopLaunchSpec where
  profile : LaunchProfile
  workspace : JsString
  prompt : JsString
  model : JsString
  name : JsString
  effort : Option LaunchEffort
  gateway : Option LaunchGateway
  deriving DecidableEq

inductive AggregateKind where
  | item
  | decision
  | blocker
  | criterion
  | evidence
  | wp

def AggregateKind.text : AggregateKind → JsString
  | .item => js "item"
  | .decision => js "decision"
  | .blocker => js "blocker"
  | .criterion => js "criterion"
  | .evidence => js "evidence"
  | .wp => js "wp"

/-- An option of the decision a gate declares. -/
structure H2ALoopDecisionGateOption where
  id : JsString
  title : JsString
  summary : JsString
  pros : Option (List JsString)
  cons : Option (List JsString)

structure H2ALoopDecisionGateQuestion where
  id : JsString
  question : JsString
  answer : Option JsString

inductive GateDecisionKind where
  | orientation
  | commitment

/-- "Structured data needed to turn an open loop ref into a well-formed pending Track
decision." -/
structure H2ALoopDecisionGate where
  id : JsString
  decisionKind : GateDecisionKind
  title : JsString
  context : JsString
  options : List H2ALoopDecisionGateOption
  qa : Option (List H2ALoopDecisionGateQuestion)
  recommendedOptionId : JsString
  rationale : JsString
  targetItemId : JsString
  targetWorkspace : JsString

/-- A ref; its `system` is always `track`. -/
structure H2ALoopTrackRef where
  repoKey : JsString
  workspace : JsString
  aggregateKind : AggregateKind
  aggregateId : JsString
  role : JsString
  decisionGate : Option H2ALoopDecisionGate
  baselineCommit : Option JsString

structure H2ALoopRepoRef where
  path : JsString
  role : Option JsString
  remotePath : Option JsString

structure H2ALoopAgent where
  id : JsString
  host : H2ALoopHost
  driver : Option JsString
  role : JsString
  placement : H2ALoopPlacement
  status : H2ALoopAgentStatus
  h2aInstance : Option JsString
  required : Option Bool
  joinedAt : Option Int
  remoteAgentId : Option JsString
  remoteJobId : Option JsString
  trackRefs : Option (List H2ALoopTrackRef)
  launch : Option H2ALoopLaunchSpec

inductive SuccessCriteria where
  | explicitDone
  | allTargetsAccepted
  | allTargetsDoneOrWaived
  | policyExpression

inductive DecisionGatePolicy where
  | allGoOrWaived
  | advisoryOnly
  deriving DecidableEq

/-- The policy of a loop; its `requireHumanTypingGuard` is always `true`. -/
structure H2ALoopPolicy where
  tickMs : Int
  idleMs : Int
  maxRelaunches : Int
  autoTick : Option Bool
  closeWhenRefsSatisfied : Bool
  successCriteria : SuccessCriteria
  decisionGatePolicy : DecisionGatePolicy

structure H2AObjectiveLoop where
  id : JsString
  name : JsString
  goal : JsString
  status : H2ALoopStatus
  repos : List H2ALoopRepoRef
  refs : List H2ALoopTrackRef
  agents : List H2ALoopAgent
  policy : H2ALoopPolicy
  createdAt : Int
  updatedAt : Int

/-- `H2A_TERMINAL_LOOP_STATUSES.has(status)` -/
def isTerminalLoopStatus : H2ALoopStatus → Bool
  | .done | .failed | .cancelled | .stopped | .blocked => true
  | _ => false

/-- `H2A_AUTOTICK_LIVE_STATUSES.has(status)` -/
def isAutoTickLiveStatus : H2ALoopStatus → Bool
  | .created | .running | .active | .waitingAgent | .waitingHuman | .stalled | .degraded => true
  | _ => false

/-- The two lists part the statuses. -/
theorem isAutoTickLiveStatus_eq (status : H2ALoopStatus) :
    isAutoTickLiveStatus status = !isTerminalLoopStatus status := by
  cases status <;> rfl

/-- `autoTickGloballyDisabled(env)`, of the value of `H2A_LOOP_AUTOTICK_OFF`; the case of its
letters is folded by `toLowerCase`. -/
def autoTickGloballyDisabled (toLowerCase : JsString → JsString) : Option JsString → Bool
  | none => false
  | some v =>
      let norm := toLowerCase v.trim
      norm != js "" && norm != js "0" && norm != js "false"

/-- `isLoopAutoTickEligible(loop, env)` -/
def isLoopAutoTickEligible (toLowerCase : JsString → JsString) (loop : H2AObjectiveLoop)
    (autoTickOff : Option JsString) : Bool :=
  loop.policy.autoTick == some true && isAutoTickLiveStatus loop.status &&
    !autoTickGloballyDisabled toLowerCase autoTickOff

/-- A loop in a terminal status is never eligible. -/
theorem not_isLoopAutoTickEligible {toLowerCase : JsString → JsString} {loop : H2AObjectiveLoop}
    (h : isTerminalLoopStatus loop.status = true) (autoTickOff : Option JsString) :
    isLoopAutoTickEligible toLowerCase loop autoTickOff = false := by
  simp [isLoopAutoTickEligible, isAutoTickLiveStatus_eq, h]

end H2a.Loop
