import H2a.Library.Decimal
import H2a.Library.History
import H2a.Library.JsMap
import Mathlib.Algebra.Group.Int.Defs
/-!
# The controllers of a terminal host

The sessions and controller leases of `NativeTerminalHost`
(`packages/h2a-runtime/src/native-terminal/host.ts`), one synchronous turn of the host after the
other.  A session's pty is known by the number of ptys spawned before it.  What a pty call does,
and what the clock shows each time it is read, come with the action.
-/

namespace H2a.NativeTerminal

open H2a.Library

inductive NativeTerminalSessionStatus where
  | running
  | stopping
  | exited
  deriving DecidableEq

/-- The provenance of an exclusive controller. -/
inductive NativeTerminalControllerActivity where
  | human
  | automation
  deriving DecidableEq

structure NativeTerminalExit where
  exitCode : Int
  signal : Option Int

/-- Who holds the controller; `since` is a time, printed as an ISO string. -/
structure NativeTerminalControllerIdentity where
  pid : Option Nat
  tty : JsString
  since : Int

structure NativeTerminalControllerLease where
  id : JsString
  generation : JsString
  incarnation : JsString
  controllerId : JsString
  epoch : Nat

structure SessionRecord where
  id : JsString
  incarnation : JsString
  pty : Nat
  status : NativeTerminalSessionStatus
  exit : Option NativeTerminalExit
  stopSignal : Option JsString
  controllerId : Option JsString
  controllerActivity : Option NativeTerminalControllerActivity
  controllerIdentity : Option NativeTerminalControllerIdentity
  controllerEpoch : Nat
  lastHumanActivityAt : Option Int

structure NativeTerminalHost where
  generation : JsString
  maxSessions : Nat
  sessions : JsMap JsString SessionRecord
  keyed : ∀ id record, sessions.get id = some record → record.id = id
  /-- how many ptys were spawned -/
  spawned : Nat

/-- What an operation does that others see. -/
inductive HostEvent where
  | created (id incarnation : JsString) (pty : Nat)
  | granted (lease : NativeTerminalControllerLease) (activity : NativeTerminalControllerActivity)
      (time : Int)
  /-- the lease just granted was asked for with a window -/
  | guarded (lease : NativeTerminalControllerLease) (activityWindowMs time : Int)
  | wrote (lease : NativeTerminalControllerLease) (pty : Nat) (data : JsString) (time : Int)
  | resized (lease : NativeTerminalControllerLease) (pty : Nat) (cols rows : Int)
  | stopped (lease : NativeTerminalControllerLease) (pty : Nat) (signal : JsString)
  | released (lease : NativeTerminalControllerLease) (time : Int)
  | invalidated (id : JsString)
  /-- the owner of the host signalled the pty -/
  | killed (pty : Nat) (signal : JsString)
  /-- `forceStopAll` signalled the process group of the pty -/
  | groupSignalled (pty : Nat) (signal : JsString)
  | exited (id incarnation : JsString)

/-- What an operation answers, the host after it, and what happened, in order. -/
structure HostTurn (α : Type) where
  result : Except JsString α
  host : NativeTerminalHost
  events : List HostEvent

/-- A call of a pty: it may throw. -/
inductive PtyResult where
  | returned
  | threw (error : JsString)

/-! ## Checks -/

/-- `NATIVE_TERMINAL_MAX_IDENTIFIER_CHARS` -/
def maxIdentifierChars : Nat := 128

/-- `id.trim().length === 0 || id.length > NATIVE_TERMINAL_MAX_IDENTIFIER_CHARS` -/
def isBadIdentifier (id : JsString) : Bool :=
  id.trim.length == 0 || maxIdentifierChars < id.length

/-- `Number.isSafeInteger` of an integer. -/
def isSafeInteger (n : Int) : Bool := -(2 ^ 53 - 1) ≤ n && n ≤ 2 ^ 53 - 1

/-- The code points of a string, a lone surrogate for itself. -/
def codePoints : List UInt16 → List Nat
  | [] => []
  | [u] => [u.toNat]
  | u :: v :: rest =>
      if 0xD800 ≤ u && u ≤ 0xDBFF && 0xDC00 ≤ v && v ≤ 0xDFFF then
        (0x10000 + (u.toNat - 0xD800) * 0x400 + (v.toNat - 0xDC00)) :: codePoints rest
      else u.toNat :: codePoints (v :: rest)

/-- The code points of `[\p{Cc}\p{Cf}]`, first and last of each range. -/
def controlAndFormat : List (Nat × Nat) :=
  [(0x0, 0x1F), (0x7F, 0x9F), (0xAD, 0xAD), (0x600, 0x605), (0x61C, 0x61C), (0x6DD, 0x6DD),
    (0x70F, 0x70F), (0x890, 0x891), (0x8E2, 0x8E2), (0x180E, 0x180E), (0x200B, 0x200F),
    (0x202A, 0x202E), (0x2060, 0x2064), (0x2066, 0x206F), (0xFEFF, 0xFEFF), (0xFFF9, 0xFFFB),
    (0x110BD, 0x110BD), (0x110CD, 0x110CD), (0x13430, 0x1343F), (0x1BCA0, 0x1BCA3),
    (0x1D173, 0x1D17A), (0xE0001, 0xE0001), (0xE0020, 0xE007F)]

/-- `/[\p{Cc}\p{Cf}]/u.test(s)` -/
def hasControlOrFormat (s : JsString) : Bool :=
  (codePoints s.units).any fun c => controlAndFormat.any fun range => range.1 ≤ c && c ≤ range.2

/-- `/^[0-9a-f-]{36}$/.test(s)` -/
def isIncarnationText (s : JsString) : Bool :=
  s.units.length == 36 &&
    s.units.all fun u => (0x30 ≤ u && u ≤ 0x39) || (0x61 ≤ u && u ≤ 0x66) || u == 0x2D

/-! ## Records -/

namespace SessionRecord

/-- The lease that is current for a record. -/
def lease (record : SessionRecord) (generation : JsString) :
    Option NativeTerminalControllerLease :=
  record.controllerId.map fun controllerId =>
    ⟨record.id, generation, record.incarnation, controllerId, record.controllerEpoch⟩

/-- `#invalidateController` -/
def invalidateController (record : SessionRecord) : SessionRecord :=
  match record.controllerId with
  | none => record
  | some _ =>
      { record with
        controllerId := none
        controllerActivity := none
        controllerIdentity := none
        controllerEpoch := record.controllerEpoch + 1 }

/-- `if (record.controllerActivity === "human") record.lastHumanActivityAt = Date.now()` -/
def touch (record : SessionRecord) (now : Int) : SessionRecord :=
  if record.controllerActivity = some .human then { record with lastHumanActivityAt := some now }
  else record

/-- `record.status = "stopping"; record.stopSignal = signal` -/
def stopping (record : SessionRecord) (signal : JsString) : SessionRecord :=
  { record with status := .stopping, stopSignal := some signal }

end SessionRecord

namespace NativeTerminalHost

/-- A record of the table is mutated. -/
def put (host : NativeTerminalHost) (record : SessionRecord) : NativeTerminalHost :=
  { host with
    sessions := host.sessions.set record.id record
    keyed := by
      intro id other h
      rw [JsMap.get_set] at h
      split at h
      · next hid => rw [← Option.some.inj h, hid]
      · exact host.keyed id other h }

def refuse {α : Type} (host : NativeTerminalHost) (error : JsString) : HostTurn α :=
  ⟨.error error, host, []⟩

/-- `#requireSession` -/
def requireSession (host : NativeTerminalHost) (id : JsString) : Except JsString SessionRecord :=
  match host.sessions.get id with
  | none => .error (js "unknown terminal session: " ++ id)
  | some record => .ok record

/-- `#requireControllableSession` -/
def requireControllableSession (host : NativeTerminalHost) (id : JsString) :
    Except JsString SessionRecord := do
  let record ← host.requireSession id
  if record.status = .exited then .error (js "terminal session is already exited: " ++ id)
  else .ok record

/-- `#requireMatchingController` -/
def requireMatchingController (host : NativeTerminalHost) (lease : NativeTerminalControllerLease) :
    Except JsString SessionRecord :=
  match host.sessions.get lease.id with
  | none => .error (js "stale terminal controller lease")
  | some record =>
      if lease.generation ≠ host.generation ∨ lease.incarnation ≠ record.incarnation ∨
          record.status = .exited ∨ record.controllerId ≠ some lease.controllerId ∨
          record.controllerEpoch ≠ lease.epoch then
        .error (js "stale terminal controller lease")
      else .ok record

/-- `#requireController` -/
def requireController (host : NativeTerminalHost) (lease : NativeTerminalControllerLease) :
    Except JsString SessionRecord := do
  let record ← host.requireMatchingController lease
  if record.status ≠ .running then .error (js "stale terminal controller lease") else .ok record

/-! ## Creation -/

/-- `#forget` -/
def forget (host : NativeTerminalHost) (record : SessionRecord) : NativeTerminalHost :=
  { host with
    sessions := host.sessions.delete record.id
    keyed := by
      intro id other h
      rw [JsMap.get_delete] at h
      split at h
      · cases h
      · exact host.keyed id other h }

/-- The loop of `#reapExitedUntilBelowLimit`, over the sessions that are left. -/
def reapExited (host : NativeTerminalHost) : List JsString → NativeTerminalHost
  | [] => host
  | id :: rest =>
      match host.sessions.get id with
      | none => reapExited host rest
      | some record =>
          if record.status ≠ .exited then reapExited host rest
          else if (host.forget record).sessions.entries.length < host.maxSessions then
            host.forget record
          else reapExited (host.forget record) rest

/-- `#reapExitedUntilBelowLimit` -/
def reapExitedUntilBelowLimit (host : NativeTerminalHost) : NativeTerminalHost :=
  if host.sessions.entries.length < host.maxSessions then host
  else host.reapExited host.sessions.keys

end NativeTerminalHost

/-- `options.launchFence` -/
structure LaunchFence where
  generation : JsString
  incarnation : JsString

/-- What becomes of the spawn and of the row that makes the pty known to later hosts. -/
inductive SpawnResult where
  | threw (error : JsString)
  /-- the pty is killed again -/
  | unpersisted (error : JsString)
  | persisted

/-- The record of a session at its creation. -/
def newRecord (id incarnation : JsString) (pty : Nat) : SessionRecord where
  id
  incarnation
  pty
  status := .running
  exit := none
  stopSignal := none
  controllerId := none
  controllerActivity := none
  controllerIdentity := none
  controllerEpoch := 0
  lastHumanActivityAt := none

namespace NativeTerminalHost

/-- `create` from the spawn on -/
def spawn (host : NativeTerminalHost) (id incarnation : JsString) :
    SpawnResult → HostTurn SessionRecord
  | .threw error => host.refuse error
  | .unpersisted error =>
      { host with spawned := host.spawned + 1 }.refuse
        (js "refusing to create terminal session " ++ id ++
          js ": failed to durably persist its pgid (" ++ error ++ js ")")
  | .persisted =>
      let record := newRecord id incarnation host.spawned
      ⟨.ok record, { host with spawned := host.spawned + 1 }.put record,
        [.created id incarnation host.spawned]⟩

/-- `create` once there is no session of that id -/
def createAbsent (host : NativeTerminalHost) (id incarnation : JsString) (spawned : SpawnResult) :
    HostTurn SessionRecord :=
  let host := host.reapExitedUntilBelowLimit
  if host.maxSessions ≤ host.sessions.entries.length then
    host.refuse (js "terminal host session limit reached: " ++ ⟨decimalUnits host.maxSessions⟩)
  else host.spawn id incarnation spawned

/-- `create`; `uuid` is the answer of `randomUUID()` -/
def create (host : NativeTerminalHost) (id : JsString) (launchFence : Option LaunchFence)
    (uuid : JsString) (spawned : SpawnResult) : HostTurn SessionRecord :=
  let incarnation := (launchFence.map (·.incarnation)).getD uuid
  if launchFence.any (fun fence =>
      fence.generation != host.generation || !isIncarnationText fence.incarnation) then
    host.refuse (js "invalid native launch fence")
  else if isBadIdentifier id then
    host.refuse (js "terminal session id must contain 1-128 characters")
  else
    match host.sessions.get id with
    | none => host.createAbsent id incarnation spawned
    | some existing =>
        if existing.status = .exited then
          (host.forget existing).createAbsent id incarnation spawned
        else host.refuse (js "terminal session already exists: " ++ id)

end NativeTerminalHost

/-! ## Controllers -/

structure NativeTerminalControllerOptions where
  takeover : Bool
  pid : Option Int
  tty : Option JsString

/-- `options = {}` -/
def noControllerOptions : NativeTerminalControllerOptions := ⟨false, none, none⟩

/-- The id without a leading `h2a-`. -/
def withoutPrefix (id : JsString) : JsString :=
  if id.startsWith (js "h2a-") then id.slice 4 else id

namespace NativeTerminalHost

section Turns

variable (toISOString : Int → JsString)

/-- The refusal of `acquireController` for the holder of the controller. -/
def hasController (id : JsString) (holder : Option NativeTerminalControllerIdentity) : JsString :=
  let unknown := js "unknown"
  let pid := ((holder.bind (·.pid)).map fun pid => JsString.mk (decimalUnits pid)).getD unknown
  let tty := (holder.map (·.tty)).getD unknown
  let since := (holder.map fun holder => toISOString holder.since).getD unknown
  js "terminal session already has a controller: " ++ id ++ js "; pid=" ++ pid ++ js " tty=" ++
    tty ++ js " since=" ++ since ++ js "; use h2a attach " ++ withoutPrefix id ++
    js " --takeover to detach it"

/-- The record of `acquireController` when the controller is granted. -/
def grantedRecord (record : SessionRecord) (controllerId : JsString)
    (activity : NativeTerminalControllerActivity) (options : NativeTerminalControllerOptions)
    (since active : Int) : SessionRecord :=
  { record with
    controllerEpoch := record.controllerEpoch + 1
    controllerId := some controllerId
    controllerActivity := some activity
    controllerIdentity := some {
      pid := options.pid.map Int.toNat
      tty := options.tty.getD (js "unknown")
      since }
    lastHumanActivityAt := if activity = .human then some active else record.lastHumanActivityAt }

/-- `acquireController`; the clock shows `since` for the identity, and then `active` when a human
acquires it -/
def acquireController (host : NativeTerminalHost) (id controllerId : JsString)
    (activity : NativeTerminalControllerActivity) (options : NativeTerminalControllerOptions)
    (since active : Int) : HostTurn NativeTerminalControllerLease :=
  match host.requireControllableSession id with
  | .error error => host.refuse error
  | .ok record =>
      if isBadIdentifier controllerId then
        host.refuse (js "terminal controller id must contain 1-128 characters")
      else if options.pid.any (fun pid => !isSafeInteger pid || decide (pid ≤ 0)) then
        host.refuse (js "terminal controller pid must be a positive safe integer")
      else if options.tty.any (fun tty =>
          tty.length == 0 || decide (256 < tty.length) || hasControlOrFormat tty) then
        host.refuse (js "terminal controller tty must be a printable name of 1-256 characters")
      else if record.controllerId ≠ none ∧ options.takeover = false then
        host.refuse (hasController toISOString id record.controllerIdentity)
      else
        let lease : NativeTerminalControllerLease :=
          ⟨id, host.generation, record.incarnation, controllerId, record.controllerEpoch + 1⟩
        ⟨.ok lease, host.put (grantedRecord record controllerId activity options since active),
          [.granted lease activity (if activity = .human then active else since)]⟩

/-- A human is active now, or was so less than a window ago; the clock shows `compared`, and then
`elapsed`. -/
def hasRecentHuman (record : SessionRecord) (activityWindowMs compared elapsed : Int) : Bool :=
  record.lastHumanActivityAt.any fun activityAt =>
    !isSafeInteger activityAt || decide (activityAt < 0) || decide (compared < activityAt) ||
      (decide (0 < activityWindowMs) && decide (elapsed - activityAt < activityWindowMs))

/-- `acquireAutomationControllerIfNoRecentHuman` -/
def acquireAutomationControllerIfNoRecentHuman (host : NativeTerminalHost)
    (id controllerId : JsString) (activityWindowMs compared elapsed since : Int) :
    HostTurn NativeTerminalControllerLease :=
  if isSafeInteger activityWindowMs = false ∨ activityWindowMs < 0 then
    host.refuse (js "terminal human activity window must be a non-negative safe integer")
  else
    match host.requireControllableSession id with
    | .error error => host.refuse error
    | .ok record =>
        if isBadIdentifier controllerId then
          host.refuse (js "terminal controller id must contain 1-128 characters")
        else if record.controllerId ≠ none then
          host.refuse (js "terminal session already has a controller: " ++ id)
        else if hasRecentHuman record activityWindowMs compared elapsed then
          host.refuse (js "terminal session has recent human activity: " ++ id)
        else
          let turn :=
            host.acquireController toISOString id controllerId .automation noControllerOptions
              since since
          match turn.result with
          | .error _ => turn
          | .ok lease =>
              { turn with
                events := turn.events ++ [HostEvent.guarded lease activityWindowMs since] }

end Turns

/-- `releaseController` -/
def releaseController (host : NativeTerminalHost) (lease : NativeTerminalControllerLease)
    (now : Int) : HostTurn Nat :=
  match host.requireMatchingController lease with
  | .error error => host.refuse error
  | .ok record =>
      let released := (record.touch now).invalidateController
      ⟨.ok released.controllerEpoch, host.put released, [.released lease now]⟩

/-- `write` -/
def write (host : NativeTerminalHost) (lease : NativeTerminalControllerLease) (data : JsString)
    (now : Int) (result : PtyResult) : HostTurn Unit :=
  if data.length = 0 then host.refuse (js "terminal input must not be empty")
  else
    match host.requireController lease with
    | .error error => host.refuse error
    | .ok record =>
        -- the activity is stamped before the pty is called
        ⟨match result with
          | .returned => .ok ()
          | .threw error => .error error,
          host.put (record.touch now), [.wrote lease record.pty data now]⟩

/-- `resize` -/
def resize (host : NativeTerminalHost) (lease : NativeTerminalControllerLease) (cols rows : Int)
    (result : PtyResult) : HostTurn Unit :=
  if isSafeInteger cols = false ∨ cols ≤ 0 ∨ isSafeInteger rows = false ∨ rows ≤ 0 then
    host.refuse (js "terminal dimensions must be positive safe integers")
  else
    match host.requireController lease with
    | .error error => host.refuse error
    | .ok record =>
        ⟨match result with
          | .returned => .ok ()
          | .threw error => .error error,
          host, [.resized lease record.pty cols rows]⟩

/-! ## Stopping -/

/-- `stop` -/
def stop (host : NativeTerminalHost) (lease : NativeTerminalControllerLease) (signal : JsString)
    (result : PtyResult) : HostTurn SessionRecord :=
  match host.requireMatchingController lease with
  | .error error => host.refuse error
  | .ok record =>
      match result with
      | .returned =>
          ⟨.ok (record.stopping signal), host.put (record.stopping signal),
            [.stopped lease record.pty signal]⟩
      | .threw error => ⟨.error error, host, [.stopped lease record.pty signal]⟩

/-- `stopIfIncarnation` -/
def stopIfIncarnation (host : NativeTerminalHost)
    (id expectedGeneration expectedIncarnation signal : JsString) (result : PtyResult) :
    HostTurn SessionRecord :=
  if expectedGeneration ≠ host.generation then
    host.refuse (js "stale terminal host generation")
  else
    match host.requireControllableSession id with
    | .error error => host.refuse error
    | .ok record =>
        if record.incarnation ≠ expectedIncarnation then
          host.refuse (js "stale terminal session incarnation")
        else
          match result with
          | .threw error => ⟨.error error, host, [.killed record.pty signal]⟩
          | .returned =>
              let stopped := (record.stopping signal).invalidateController
              ⟨.ok stopped, host.put stopped, [.killed record.pty signal, .invalidated id]⟩

/-- The loop of `stopAll`, over the sessions that are left. -/
def stopEach (signal : JsString) (results : Nat → PtyResult) (host : NativeTerminalHost) :
    List JsString → HostTurn (List SessionRecord)
  | [] => ⟨.ok host.sessions.values, host, []⟩
  | id :: rest =>
      match host.sessions.get id with
      | none => stopEach signal results host rest
      | some record =>
          if record.status ≠ .running then stopEach signal results host rest
          else
            let stopped := (record.stopping signal).invalidateController
            match results record.pty with
            | .threw error =>
                ⟨.error error, host.put { stopped with status := .running, stopSignal := none },
                  [.invalidated id, .killed record.pty signal]⟩
            | .returned =>
                let turn := stopEach signal results (host.put stopped) rest
                { turn with events := .invalidated id :: .killed record.pty signal :: turn.events }

/-- `stopAll` -/
def stopAll (host : NativeTerminalHost) (signal : JsString) (results : Nat → PtyResult) :
    HostTurn (List SessionRecord) :=
  stopEach signal results host host.sessions.keys

/-- The `onExit` callback of a pty. -/
def ptyExited (host : NativeTerminalHost) (pty : Nat) (exit : NativeTerminalExit) :
    HostTurn Unit :=
  match host.sessions.values.find? fun record => record.pty = pty with
  | none => ⟨.ok (), host, []⟩
  | some record =>
      if record.exit ≠ none then ⟨.ok (), host, []⟩
      else
        let exited := { record with exit := some exit, status := .exited }.invalidateController
        ⟨.ok (), host.put exited, [.exited record.id record.incarnation]⟩

/-- A pass of `forceStopAll` that awaits the end of a group.  It goes on with the sessions whose
pty was not spawned before `cursor`: those are the ones after it in the table. -/
structure ForcePass where
  signal : JsString
  cursor : Nat

/-- `forceStopAll` until it next awaits; it answers whether it goes on. -/
def forceStopNext (host : NativeTerminalHost) (pass : ForcePass) : HostTurn (Option ForcePass) :=
  match host.sessions.values.find? fun record =>
      pass.cursor ≤ record.pty && record.status ≠ .exited with
  | none => ⟨.ok none, host, []⟩
  | some record =>
      let next : ForcePass := { pass with cursor := record.pty + 1 }
      if record.status = .running then
        ⟨.ok next, host.put (record.stopping pass.signal).invalidateController,
          [.invalidated record.id, .groupSignalled record.pty pass.signal]⟩
      else
        ⟨.ok next, host.put (record.stopping pass.signal),
          [.groupSignalled record.pty pass.signal]⟩

end NativeTerminalHost

/-! ## Runs -/

open NativeTerminalHost (ForcePass)

/-- A host with the passes of `forceStopAll` that await, and what happened so far. -/
structure HostWorld where
  host : NativeTerminalHost
  passes : List ForcePass
  history : List HostEvent

/-- The operations, with the answers of ptys and clocks they meet. -/
inductive HostAction where
  | create (id : JsString) (launchFence : Option LaunchFence) (uuid : JsString)
      (spawned : SpawnResult)
  | acquireController (id controllerId : JsString) (activity : NativeTerminalControllerActivity)
      (options : NativeTerminalControllerOptions) (since active : Int)
  | acquireAutomationControllerIfNoRecentHuman (id controllerId : JsString)
      (activityWindowMs compared elapsed since : Int)
  | releaseController (lease : NativeTerminalControllerLease) (now : Int)
  | write (lease : NativeTerminalControllerLease) (data : JsString) (now : Int)
      (result : PtyResult)
  | resize (lease : NativeTerminalControllerLease) (cols rows : Int) (result : PtyResult)
  | stop (lease : NativeTerminalControllerLease) (signal : JsString) (result : PtyResult)
  | stopIfIncarnation (id expectedGeneration expectedIncarnation signal : JsString)
      (result : PtyResult)
  | stopAll (signal : JsString) (results : Nat → PtyResult)
  | forceStopAll (signal : JsString)
  /-- the `n`th pass of those that await goes on -/
  | forceStopResumed (n : Nat)
  | ptyExited (pty : Nat) (exit : NativeTerminalExit)

/-- What the clock shows, in the order it is read. -/
def HostAction.readings : HostAction → List Int
  | .acquireController _ _ _ _ since active => [since, active]
  | .acquireAutomationControllerIfNoRecentHuman _ _ _ compared elapsed since =>
      [compared, elapsed, since]
  | .releaseController _ now | .write _ _ now _ => [now]
  | _ => []

namespace HostWorld

/-- A host that was just constructed. -/
def start (generation : JsString) (maxSessions : Nat) : HostWorld where
  host := {
    generation
    maxSessions
    sessions := .empty
    keyed := by
      intro id record h
      cases h
    spawned := 0 }
  passes := []
  history := []

/-- The world after a turn of the host. -/
def after {α : Type} (world : HostWorld) (turn : HostTurn α) : HostWorld :=
  { world with host := turn.host, history := world.history ++ turn.events }

/-- A pass of `forceStopAll` runs until it awaits or returns. -/
def force (world : HostWorld) (pass : ForcePass) : HostWorld :=
  let turn := world.host.forceStopNext pass
  let world := world.after turn
  match turn.result with
  | .ok (some next) => { world with passes := world.passes ++ [next] }
  | _ => world

variable (toISOString : Int → JsString)

def step (world : HostWorld) : HostAction → HostWorld
  | .create id launchFence uuid spawned =>
      world.after (world.host.create id launchFence uuid spawned)
  | .acquireController id controllerId activity options since active =>
      world.after
        (world.host.acquireController toISOString id controllerId activity options since active)
  | .acquireAutomationControllerIfNoRecentHuman id controllerId window compared elapsed since =>
      world.after
        (world.host.acquireAutomationControllerIfNoRecentHuman toISOString id controllerId window
          compared elapsed since)
  | .releaseController lease now => world.after (world.host.releaseController lease now)
  | .write lease data now result => world.after (world.host.write lease data now result)
  | .resize lease cols rows result => world.after (world.host.resize lease cols rows result)
  | .stop lease signal result => world.after (world.host.stop lease signal result)
  | .stopIfIncarnation id generation incarnation signal result =>
      world.after (world.host.stopIfIncarnation id generation incarnation signal result)
  | .stopAll signal results => world.after (world.host.stopAll signal results)
  | .forceStopAll signal => world.force ⟨signal, 0⟩
  | .forceStopResumed n =>
      match world.passes[n]? with
      | none => world
      | some pass => { world with passes := world.passes.eraseIdx n }.force pass
  | .ptyExited pty exit => world.after (world.host.ptyExited pty exit)

/-- The world after the actions, from a host that was just constructed. -/
def run (generation : JsString) (maxSessions : Nat) (actions : List HostAction) : HostWorld :=
  actions.foldl (step toISOString) (start generation maxSessions)

end HostWorld

end H2a.NativeTerminal
