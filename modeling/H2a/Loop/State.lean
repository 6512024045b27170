import Mathlib.Logic.Function.Basic
import H2a.Library.Result
import H2a.Library.Transition
import H2a.Loop.Types
/-!
# The state of an objective loop

The operations of `runtime/loop/index.ts` on one loop, for any number of processes.  Each reads
`state.json`, and writes the whole of it again, without a lock.
-/

namespace H2a.Loop

open H2a.Library

/-! ## The operations -/

/-- The launch spec of a join is what `validateLoopLaunchSpec` makes of it. -/
structure LoopJoinInput where
  instance_ : JsString
  agentId : Option JsString
  host : Option H2ALoopHost
  role : Option JsString
  required : Option Bool
  launch : Option (Except JsString H2ALoopLaunchSpec)

structure LoopReportInput where
  instance_ : Option JsString
  agentId : Option JsString
  host : Option H2ALoopHost
  note : JsString
  autoJoin : Option Bool

structure LoopDoneInput where
  instance_ : Option JsString
  agentId : Option JsString
  note : Option JsString
  overrideRefs : Bool
  human : Bool

structure LoopStopInput where
  reason : Option JsString

/-- What an operation appends to the journal of the loop. -/
inductive H2ALoopEvent where
  | statusChanged (status : H2ALoopStatus) (reason : Option JsString)
  | closed (reason : Option JsString)
  | autoTickEnabled
  | agentLaunchConfigured (agentId : JsString) (launch : H2ALoopLaunchSpec)
  | agentJoined (agentId instance_ role : JsString) (required : Option Bool)
      (filledPlannedSlot : Bool)
  | agentReport (agentId : JsString) (instance_ : Option JsString) (note : JsString)
  | doneDeclared (by_ agentId note : Option JsString) (overrideRefs : Bool)
  | stopped (reason : Option JsString)

/-- What an operation makes of the loop it has read. -/
inductive LoopEffect where
  /-- it returns the loop as it is -/
  | keep
  /-- it writes the loop, appends the events and returns what it has written -/
  | write (next : H2AObjectiveLoop) (events : List H2ALoopEvent)

/-- `updateObjectiveLoopStatus(status)` -/
def updateObjectiveLoopStatus (status : H2ALoopStatus) (reason : Option JsString) (now : Int)
    (loop : H2AObjectiveLoop) : LoopEffect :=
  if loop.status = status then .keep
  else
    .write { loop with status := status, updatedAt := now }
      [if status = .done then .closed reason else .statusChanged status reason]

/-- `enableObjectiveLoopAutoTick` -/
def enableObjectiveLoopAutoTick (now : Int) (loop : H2AObjectiveLoop) : LoopEffect :=
  if loop.policy.autoTick = some true then .keep
  else
    .write { loop with policy := { loop.policy with autoTick := some true }, updatedAt := now }
      [.autoTickEnabled]

/-- A string that is there and not empty. -/
def truthyText (text : Option JsString) : Option JsString := text.filter (· ≠ js "")

/-- `resolveAgent(loop, input)` -/
def resolveAgent (loop : H2AObjectiveLoop) (instance_ agentId : Option JsString) :
    Option H2ALoopAgent :=
  match truthyText agentId with
  | some id => loop.agents.find? (·.id = id)
  | none =>
      match truthyText instance_ with
      | none => none
      | some instance_ =>
          match loop.agents.filter fun a => a.h2aInstance = some instance_ ∨ a.id = instance_ with
          | [agent] => some agent
          | _ => none

def LoopJoinInput.id (input : LoopJoinInput) : JsString := input.agentId.getD input.instance_

/-- `launch !== undefined && existing.launch !== undefined` and they differ. -/
def launchDiffers (existing : H2ALoopAgent) (launch : Option H2ALoopLaunchSpec) : Bool :=
  match existing.launch, launch with
  | some old, some new => old ≠ new
  | _, _ => false

/-- `launch !== undefined && existing.host !== "shell" && existing.host !== launch.profile` -/
def hostDiffers (existing : H2ALoopAgent) (launch : Option H2ALoopLaunchSpec) : Bool :=
  match launch with
  | some launch => existing.host ≠ .shell ∧ existing.host ≠ launch.profile.host
  | none => false

/-- `loop.agents.map((a) => a.id === id ? agent : a)` -/
def replaceAgent (agents : List H2ALoopAgent) (id : JsString) (agent : H2ALoopAgent) :
    List H2ALoopAgent :=
  agents.map fun a => if a.id = id then agent else a

/-- A join of the instance that is enrolled already. -/
def joinAgain (input : LoopJoinInput) (launch : Option H2ALoopLaunchSpec) (now : Int)
    (loop : H2AObjectiveLoop) (existing : H2ALoopAgent) : Except JsString LoopEffect :=
  if ¬((input.role = none ∨ input.role = some existing.role) ∧
      (input.required = none ∨ input.required = existing.required) ∧
      (input.host = none ∨ input.host = some existing.host)) then
    .error (js "agent already joined with different payload: " ++ input.id)
  else if launchDiffers existing launch then
    .error (js "agent already joined with different launch spec: " ++ input.id)
  else
    match existing.launch, launch with
    | none, some launch =>
        if hostDiffers existing (some launch) then
          .error (js "agent host differs from launch profile: " ++ input.id)
        else
          let configured := { existing with host := launch.profile.host, launch := some launch }
          .ok (.write
            { loop with agents := replaceAgent loop.agents input.id configured, updatedAt := now }
            [.agentLaunchConfigured input.id launch])
    | _, _ => .ok .keep

/-- A join of another instance, which may fill a slot that was planned. -/
def fillPlannedSlot (input : LoopJoinInput) (launch : Option H2ALoopLaunchSpec)
    (host : H2ALoopHost) (now : Int) (loop : H2AObjectiveLoop) (existing : H2ALoopAgent) :
    Except JsString LoopEffect :=
  if ¬(existing.h2aInstance = none ∧ (input.role = none ∨ input.role = some existing.role)) then
    .error (js "agent already joined with different payload: " ++ input.id)
  else if hostDiffers existing launch then
    .error (js "planned agent host differs from launch profile: " ++ input.id)
  else if launchDiffers existing launch then
    .error (js "planned agent has a different launch spec: " ++ input.id)
  else
    let filled := { existing with
      host := if input.host.isSome ∨ launch.isSome then host else existing.host
      launch := launch.or existing.launch
      status := .running
      h2aInstance := some input.instance_
      required := some ((input.required.or existing.required).getD loop.agents.isEmpty)
      joinedAt := some now }
    .ok (.write
      { loop with agents := replaceAgent loop.agents input.id filled, updatedAt := now }
      [.agentJoined input.id input.instance_ filled.role filled.required true])

/-- A join under an id that no agent has. -/
def joinNew (input : LoopJoinInput) (launch : Option H2ALoopLaunchSpec) (host : H2ALoopHost)
    (now : Int) (loop : H2AObjectiveLoop) : LoopEffect :=
  let agent : H2ALoopAgent :=
    { id := input.id
      host := host
      driver := none
      role := input.role.getD (js "participant")
      placement := .local_
      status := .running
      h2aInstance := some input.instance_
      required := some (input.required.getD loop.agents.isEmpty)
      joinedAt := some now
      remoteAgentId := none
      remoteJobId := none
      trackRefs := none
      launch := launch }
  .write { loop with agents := loop.agents ++ [agent], updatedAt := now }
    [.agentJoined input.id input.instance_ agent.role agent.required false]

/-- What `joinObjectiveLoop` does when its launch spec is valid. -/
def joinWith (input : LoopJoinInput) (launch : Option H2ALoopLaunchSpec) (now : Int)
    (loop : H2AObjectiveLoop) : Except JsString LoopEffect :=
  let profile := launch.map (·.profile.host)
  if input.host.isSome ∧ profile.isSome ∧ input.host ≠ profile then
    .error (js "agent host differs from launch profile: " ++ input.id)
  else
    let host := (input.host.or profile).getD .shell
    match loop.agents.find? (·.id = input.id) with
    | some existing =>
        if existing.h2aInstance = some input.instance_ then
          joinAgain input launch now loop existing
        else fillPlannedSlot input launch host now loop existing
    | none => .ok (joinNew input launch host now loop)

/-- `joinObjectiveLoop` -/
def joinObjectiveLoop (input : LoopJoinInput) (now : Int) (loop : H2AObjectiveLoop) :
    Except JsString LoopEffect :=
  if input.instance_ = js "" then .error (js "loop join requires instance")
  else if loop.status = .done ∨ loop.status = .stopped then
    .error (js "loop is terminal: " ++ loop.status.text)
  else
    match input.launch with
    | none => joinWith input none now loop
    | some validated => validated.bind fun launch => joinWith input (some launch) now loop

/-- What a report makes of the loop it has read: it may have to join first. -/
inductive LoopDecision where
  | effect (effect : LoopEffect)
  | autoJoin (input : LoopJoinInput) (report : LoopReportInput)

/-- The end of `reportObjectiveLoop`. -/
def finishReport (input : LoopReportInput) (now : Int) (loop : H2AObjectiveLoop) :
    Except JsString LoopEffect :=
  match resolveAgent loop input.instance_ input.agentId with
  | none =>
      .error (js "loop report requires an unambiguous enrolled agent; call h2a_loop_join first (or use autoJoin:true with an explicit instance on an empty loop)")
  | some agent =>
      .ok (.write { loop with updatedAt := now }
        [.agentReport agent.id agent.h2aInstance input.note])

/-- `reportObjectiveLoop`, up to the join it may make. -/
def reportObjectiveLoop (input : LoopReportInput) (now : Int) (loop : H2AObjectiveLoop) :
    Except JsString LoopDecision :=
  if input.note = js "" then .error (js "loop report requires note")
  else if loop.status = .done ∨ loop.status = .stopped ∨ loop.status = .blocked then
    .error (js "loop is terminal: " ++ loop.status.text)
  else if (resolveAgent loop input.instance_ input.agentId).isNone ∧
      input.autoJoin = some true then
    match truthyText input.instance_ with
    | none => .error (js "loop report --auto-join requires an explicit instance")
    | some instance_ =>
        if loop.agents.length ≠ 0 then
          .error (js "loop report auto-join is only valid for an empty loop; call h2a_loop_join explicitly")
        else
          .ok (.autoJoin ⟨instance_, truthyText input.agentId, input.host, some (js "conductor"),
            some true, none⟩ input)
  else (finishReport input now loop).map .effect

/-- `declareObjectiveLoopDone` -/
def declareObjectiveLoopDone (input : LoopDoneInput) (now : Int) (loop : H2AObjectiveLoop) :
    Except JsString LoopEffect :=
  let agent := if input.human then none else resolveAgent loop input.instance_ input.agentId
  let canClose := loop.refs.length = 0 ∨ input.overrideRefs = true
  if loop.status = .done ∨ loop.status = .stopped then .ok .keep
  else if input.overrideRefs ∧ ¬input.human then
    .error (js "overrideRefs is CLI-only and requires human confirmation")
  else if ¬input.human ∧ agent.isNone ∧ loop.agents.length > 0 then
    .error (js "loop done requires an unambiguous enrolled agent")
  else
    .ok (.write
      { loop with status := if canClose then .done else loop.status, updatedAt := now }
      (.doneDeclared
          (if input.human then some (js "human")
           else ((agent.bind (·.h2aInstance)).or input.instance_).or (agent.map (·.id)))
          (agent.map (·.id)) input.note input.overrideRefs ::
        if canClose then
          [.closed (some (if input.overrideRefs then js "human override" else js "explicit done"))]
        else []))

/-- `stopObjectiveLoop` -/
def stopObjectiveLoop (input : LoopStopInput) (now : Int) (loop : H2AObjectiveLoop) :
    LoopEffect :=
  if loop.status = .done ∨ loop.status = .stopped then .keep
  else .write { loop with status := .stopped, updatedAt := now } [.stopped input.reason]

/-! ## Processes -/

inductive LoopCall where
  | join (input : LoopJoinInput)
  | report (input : LoopReportInput)
  | declareDone (input : LoopDoneInput)
  | stop (input : LoopStopInput)
  | enableAutoTick
  /-- `updateObjectiveLoopStatus("done")` -/
  | updateStatusDone (reason : Option JsString)

/-- What a call makes of the loop it has read. -/
def LoopCall.decide (call : LoopCall) (now : Int) (loop : H2AObjectiveLoop) :
    Except JsString LoopDecision :=
  match call with
  | .join input => (joinObjectiveLoop input now loop).map .effect
  | .report input => reportObjectiveLoop input now loop
  | .declareDone input => (declareObjectiveLoopDone input now loop).map .effect
  | .stop input => .ok (.effect (stopObjectiveLoop input now loop))
  | .enableAutoTick => .ok (.effect (enableObjectiveLoopAutoTick now loop))
  | .updateStatusDone reason => .ok (.effect (updateObjectiveLoopStatus .done reason now loop))

def LoopCall.isStop : LoopCall → Bool
  | .stop _ => true
  | _ => false

/-- The agent and the instance a call enrols. -/
def LoopCall.enrols : LoopCall → Option (JsString × JsString)
  | .join input => some (input.id, input.instance_)
  | _ => none

/-- Where a process stands; a join may be made for a report, which goes on after it. -/
inductive LoopPc where
  | idle
  /-- before `readObjectiveLoop` -/
  | reading (call : LoopCall) (now : Int) (for_ : Option LoopReportInput)
  /-- before the write of `next` over what was `base` -/
  | writing (call : LoopCall) (now : Int) (base next : H2AObjectiveLoop)
      (events : List H2ALoopEvent) (for_ : Option LoopReportInput)
  /-- before the events are appended -/
  | appending (call : LoopCall) (now : Int) (next : H2AObjectiveLoop)
      (events : List H2ALoopEvent) (for_ : Option LoopReportInput)

/-- The state file and the journal, the processes, the joins that have returned, and whether
a stop has returned a stopped loop. -/
structure LoopSystem (P : Type) where
  file : H2AObjectiveLoop
  journal : List H2ALoopEvent
  pc : P → LoopPc
  joined : List (JsString × JsString)
  stopReturned : Bool

inductive LoopAction (P : Type) where
  | call (p : P) (call : LoopCall) (now : Int)
  /-- the next step of the call of a process -/
  | step (p : P)
  | crash (p : P)

namespace LoopSystem

variable {P : Type} [DecidableEq P]

def goto (s : LoopSystem P) (p : P) (pc : LoopPc) : LoopSystem P :=
  { s with pc := Function.update s.pc p pc }

/-- The call of a process returns a loop; a report goes on after the join made for it. -/
def returns (s : LoopSystem P) (p : P) (call : LoopCall) (now : Int) (loop : H2AObjectiveLoop)
    (for_ : Option LoopReportInput) : LoopSystem P :=
  let s' : LoopSystem P :=
    { s with
      joined := s.joined ++ call.enrols.toList
      stopReturned := s.stopReturned || call.isStop && loop.status == .stopped }
  match for_ with
  | none => s'.goto p .idle
  | some report =>
      match finishReport report now loop with
      | .ok (.write next events) => s'.goto p (.writing (.report report) now loop next events none)
      | _ => s'.goto p .idle

/-- The next step of the call of a process. -/
def next (s : LoopSystem P) (p : P) : LoopSystem P :=
  match s.pc p with
  | .idle => s
  | .reading call now for_ =>
      match call.decide now s.file with
      | .error _ => s.goto p .idle
      | .ok (.effect .keep) => s.returns p call now s.file for_
      | .ok (.effect (.write next events)) => s.goto p (.writing call now s.file next events for_)
      | .ok (.autoJoin input report) => s.goto p (.reading (.join input) now (some report))
  | .writing call now _ next events for_ =>
      goto { s with file := next } p (.appending call now next events for_)
  | .appending call now next events for_ =>
      returns { s with journal := s.journal ++ events } p call now next for_

/-- What an action leads to. -/
def act (s : LoopSystem P) : LoopAction P → LoopSystem P
  | .call p call now =>
      match s.pc p with
      | .idle => s.goto p (.reading call now none)
      | _ => s
  | .step p => s.next p
  | .crash p => s.goto p .idle

/-- A loop that was created, and no call yet. -/
def start (loop : H2AObjectiveLoop) : LoopSystem P := ⟨loop, [], fun _ => .idle, [], false⟩

/-- Every agent that has joined is in the loop, and a loop that was stopped stays so. -/
structure Kept (toLowerCase : JsString → JsString) (s : LoopSystem P) : Prop where
  joined : ∀ id instance_, (id, instance_) ∈ s.joined →
    ∃ a ∈ s.file.agents, a.id = id ∧ a.h2aInstance = some instance_
  stopped : s.stopReturned = true → s.file.status = .stopped ∧
    ∀ autoTickOff, isLoopAutoTickEligible toLowerCase s.file autoTickOff = false

end LoopSystem

/-- The agent `resolveAgent` finds under an id is of the instance. -/
def Enrolled (loop : H2AObjectiveLoop) (id instance_ : JsString) : Prop :=
  ∃ a, loop.agents.find? (·.id = id) = some a ∧ a.h2aInstance = some instance_

/-- No agent was enrolled and the loop was not stopped since the call that writes has read it,
and `updateObjectiveLoopStatus("done")` does not read a stopped loop. -/
def Unraced {P : Type} (s : LoopSystem P) : LoopAction P → Prop
  | .step p =>
      match s.pc p with
      | .reading (.updateStatusDone _) _ _ => s.file.status ≠ .stopped
      | .writing call _ base _ _ _ =>
          (∀ id instance_, Enrolled s.file id instance_ → Enrolled base id instance_) ∧
            (s.file.status = .stopped → base.status = .stopped ∨ call.isStop = true)
      | _ => True
  | _ => True

end H2a.Loop
