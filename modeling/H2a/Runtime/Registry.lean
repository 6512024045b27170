import Mathlib.Data.PNat.Basic
import Mathlib.Data.Rat.Defs
import H2a.Library.JsString
/-!
# The session registry

`packages/h2a-runtime/src/registry.ts`: the rows of the registry file, and the mutations of its
job rows.  Every mutation loads the rows, changes the readable ones and saves them under one lock;
a row that does not pass validation is written back as it was.
-/

namespace H2a.Runtime

open H2a.Library

/-! ## Rows -/

inductive RegistryTool where
  | claude
  | codex
  | agy
  | muse
  | vibe
  deriving DecidableEq

/-- The text of a tool, as the command line of its process shows it. -/
def RegistryTool.name : RegistryTool → JsString
  | claude => js "claude"
  | codex => js "codex"
  | agy => js "agy"
  | muse => js "muse"
  | vibe => js "vibe"

inductive RegistryKind where
  | localTmux
  | localNative
  | local_
  | remote
  deriving DecidableEq

inductive RegistrySource where
  | run
  | hook
  | scan
  | remote
  deriving DecidableEq

inductive RegistryRole where
  | job
  deriving DecidableEq

inductive JobState where
  | pending
  | running
  | throttled
  | done
  | failed
  deriving DecidableEq

inductive RegistrySessionClass where
  | human
  | background
  deriving DecidableEq

inductive DelegationOrigin where
  | mcpRun
  | cliDelegate

inductive GatewayMode where
  | gateway
  | direct

inductive GatewayProvenance where
  | explicit

/-- Rate-limit bookkeeping of a job. -/
structure ThrottleInfo where
  attempts : Nat
  firstAt : JsString
  nextRetryAt : JsString
  lastSignature : Option JsString

/-- A row of the registry. -/
structure RegistryEntry where
  id : JsString
  tool : RegistryTool
  kind : RegistryKind
  cwd : JsString
  source : RegistrySource
  enrolledAt : JsString
  lastSeenAt : JsString
  endedAt : Option JsString := none
  label : Option JsString := none
  convId : Option JsString := none
  remoteId : Option JsString := none
  tmuxSession : Option JsString := none
  pid : Option ℕ+ := none
  sessionClass : Option RegistrySessionClass := none
  delegationOrigin : Option DelegationOrigin := none
  delegatorInstance : Option JsString := none
  delegatorTmuxSession : Option JsString := none
  role : Option RegistryRole := none
  jobState : Option JobState := none
  parent : Option JsString := none
  task : Option JsString := none
  callbackTo : Option JsString := none
  remoteTarget : Option JsString := none
  headless : Option Bool := none
  originCwd : Option JsString := none
  explicitCwd : Option JsString := none
  depthBudget : Option Int := none
  trackWp : Option JsString := none
  throttle : Option ThrottleInfo := none
  model : Option JsString := none
  effort : Option JsString := none
  gatewayMode : Option GatewayMode := none
  gatewayProvenance : Option GatewayProvenance := none
  bare : Option Bool := none
  restorePinned : Option Bool := none

/-- `EnrollInput` -/
structure EnrollInput where
  id : JsString
  tool : RegistryTool
  kind : RegistryKind
  cwd : JsString
  source : RegistrySource
  sessionClass : RegistrySessionClass
  freshConversation : Option Bool := none
  delegationOrigin : Option DelegationOrigin := none
  delegatorInstance : Option JsString := none
  delegatorTmuxSession : Option JsString := none
  label : Option JsString := none
  convId : Option JsString := none
  remoteId : Option JsString := none
  tmuxSession : Option JsString := none
  pid : Option ℕ+ := none
  role : Option RegistryRole := none
  jobState : Option JobState := none
  parent : Option JsString := none
  task : Option JsString := none
  callbackTo : Option JsString := none
  remoteTarget : Option JsString := none
  headless : Option Bool := none
  originCwd : Option JsString := none
  explicitCwd : Option JsString := none
  depthBudget : Option Int := none
  trackWp : Option JsString := none
  throttle : Option ThrottleInfo := none
  model : Option JsString := none
  effort : Option JsString := none
  gatewayMode : Option GatewayMode := none
  gatewayProvenance : Option GatewayProvenance := none
  bare : Option Bool := none
  restorePinned : Option Bool := none

/-- What is read of a row that failed validation: the three fields that name a session, where they
are strings. -/
structure RawRow where
  id : Option JsString
  label : Option JsString
  tmuxSession : Option JsString

/-- A row as the file holds it. -/
inductive RegistryRow where
  | entry (e : RegistryEntry)
  | raw (row : RawRow)

/-- `isRegistryEntry`, beyond what the types say: "a job marked human is an invalid/tampered
record". -/
def isRegistryEntry (e : RegistryEntry) : Bool :=
  !(e.role == some .job && e.sessionClass == some .human)

/-- A row that passes `isRegistryEntry`. -/
def RegistryRow.readable : RegistryRow → Option RegistryEntry
  | .entry e => if isRegistryEntry e then some e else none
  | .raw _ => none

/-- A row that does not, read defensively. -/
def RegistryRow.unreadable : RegistryRow → Option RawRow
  | .entry e => if isRegistryEntry e then none else some ⟨some e.id, e.label, e.tmuxSession⟩
  | .raw row => some row

/-! ## Session names -/

/-- `LOCAL_PREFIX` -/
def localPrefix : JsString := js "h2a-"

/-- `LEGACY_LOCAL_PREFIX` -/
def legacyLocalPrefix : JsString := js "remote-"

structure ManagedSessionName where
  namePrefix : JsString
  slug : JsString

/-- `parseManagedSessionName` -/
def parseManagedSessionName (name : JsString) : Option ManagedSessionName :=
  [localPrefix, legacyLocalPrefix].findSome? fun p =>
    if name.startsWith p && p.length < name.length then some ⟨p, name.slice p.length⟩ else none

/-- `managedSessionCandidates` -/
def managedSessionCandidates (slug : JsString) : List JsString :=
  [localPrefix ++ slug, legacyLocalPrefix ++ slug]

/-- `localSessionName` -/
def localSessionName (slug : JsString) : JsString := localPrefix ++ slug

/-! ## Liveness -/

/-- Whether an optional string is truthy. -/
def truthy : Option JsString → Bool
  | some s => s.length != 0
  | none => false

/-- `LivenessOpts`: what the machine answers.  `none` is the probe that failed. -/
structure LivenessOpts where
  tmuxHasSession : JsString → Bool
  nativeSessionLiveness : JsString → Option Bool
  pidAlive : ℕ+ → Bool
  bootTimeMs : Option Int
  processCmdline : ℕ+ → Option JsString
  /-- `Date.parse`; `none` is `NaN` -/
  parseDate : JsString → Option Int

/-- `processIsTool` -/
def processIsTool (pid : ℕ+) (tool : RegistryTool) (read : ℕ+ → Option JsString) : Bool :=
  match read pid with
  | none => true
  | some cmd => decide (tool.name.units <:+: cmd.units)

/-- The names a row's session may go by. -/
def sessionNames (e : RegistryEntry) : List JsString :=
  match e.tmuxSession with
  | some name => if name.length != 0 then [name] else managedSessionCandidates e.id
  | none => managedSessionCandidates e.id

/-- `isLive` -/
def isLive (e : RegistryEntry) (opts : LivenessOpts) : Bool :=
  if truthy e.endedAt then false
  else match e.kind with
    | .localNative =>
        (sessionNames e).any fun name => opts.nativeSessionLiveness name != some false
    | .localTmux => (sessionNames e).any opts.tmuxHasSession
    | .local_ =>
        let beforeBoot :=
          match opts.bootTimeMs, opts.parseDate e.lastSeenAt with
          | some boot, some seen => decide (0 < boot) && decide (seen < boot)
          | _, _ => false
        if beforeBoot then false
        else match e.pid with
          | none => true
          | some pid => opts.pidAlive pid && processIsTool pid e.tool opts.processCmdline
    | .remote => true

/-- A digit of `CONVERSATION_UUID_RE`. -/
def isHexUnit (u : UInt16) : Bool :=
  (0x30 ≤ u && u ≤ 0x39) || (0x61 ≤ u && u ≤ 0x66) || (0x41 ≤ u && u ≤ 0x46)

/-- Groups of so many hexadecimal digits, with hyphens between them, and nothing after. -/
def matchesGroups : List Nat → List UInt16 → Bool
  | [], units => units.isEmpty
  | [n], units => units.length == n && units.all isHexUnit
  | n :: groups, units =>
      (units.take n).length == n && (units.take n).all isHexUnit &&
        (units.drop n).head? == some 0x2D && matchesGroups groups (units.drop (n + 1))

/-- `looksLikeConversationUuid` -/
def looksLikeConversationUuid : Option JsString → Bool
  | none => false
  | some value => matchesGroups [8, 4, 4, 4, 12] value.units

/-- `isRestorePinnedCandidate` -/
def isRestorePinnedCandidate (e : RegistryEntry) : Bool :=
  e.kind == .localTmux && e.source == .run && e.sessionClass == some .human &&
    !truthy e.endedAt && looksLikeConversationUuid e.convId

/-- `shouldPreserveByRestorePin` -/
def shouldPreserveByRestorePin (e : RegistryEntry) : Bool :=
  if e.restorePinned == some false then false
  else if isRestorePinnedCandidate e then true
  else if truthy e.endedAt || e.sessionClass == some .background || e.role == some .job then false
  else
    e.kind == .localTmux && e.source == .run &&
      (e.sessionClass == some .human || e.sessionClass == none)

/-! ## The file -/

/-- The registry file.  A file that is not there holds no rows; one that cannot be read or parsed
is `unknown`. -/
inductive RegistryFile where
  | unknown (reason : JsString)
  | known (rows : List RegistryRow) (rebuiltFromCorruptAt : Option JsString)

namespace RegistryFile

/-- The rows `rawRegistryRead` hands to a mutation: none where the file cannot be read. -/
def rawRows : RegistryFile → List RegistryRow
  | unknown _ => []
  | known rows _ => rows

/-- `rows.filter(isRegistryEntry)` -/
def entries (file : RegistryFile) : List RegistryEntry := file.rawRows.filterMap (·.readable)

/-- `rows.filter((row) => !isRegistryEntry(row))` -/
def preserved (file : RegistryFile) : List RegistryRow :=
  file.rawRows.filter fun row => row.readable.isNone

/-- `saveRegistry`, after a read of `file`: a file that could not be read is moved aside and the
new one says since when. -/
def save (file : RegistryFile) (entries : List RegistryEntry) (at_ : JsString) : RegistryFile :=
  .known (entries.map .entry ++ file.preserved)
    (match file with
      | unknown _ => some at_
      | known _ _ => none)

end RegistryFile

/-- What is known of the rows: `entries` and `unreadable`, or why not. -/
inductive RegistryReadResult where
  | ok (entries : List RegistryEntry) (unreadable : List RawRow)
  | unknown (reason : JsString)

/-- `loadRegistry` -/
def loadRegistry : RegistryFile → RegistryReadResult
  | .unknown reason => .unknown reason
  | .known _ (some rebuiltFromCorruptAt) =>
      .unknown (js "registry was rebuilt from an unreadable file at " ++ rebuiltFromCorruptAt ++
        js " (see registry.corrupt-*.json next to the registry) — rows from before the " ++
        js "rebuild are not provably absent")
  | .known rows none => .ok (rows.filterMap (·.readable)) (rows.filterMap (·.unreadable))

/-- What the function of a mutation returns. -/
structure Mutated (α : Type) where
  entries : List RegistryEntry
  result : α
  save : Bool := true

/-- `runUnderRegistryLock`.  A function that throws leaves the file as it is. -/
def runUnderRegistryLock {α : Type} (file : RegistryFile) (now : JsString)
    (fn : List RegistryEntry → Except JsString (Mutated α)) :
    Except JsString (RegistryFile × α) := do
  let done ← fn file.entries
  return (if done.save then file.save done.entries now else file, done.result)

/-! ## The mutations of job rows -/

/-- The first row with an id (`entries.find((e) => e.id === id)`). -/
def findEntry (entries : List RegistryEntry) (id : JsString) : Option RegistryEntry :=
  entries.find? fun e => e.id = id

/-- `entries[idx] = entry` at the first row of its id, or `entries.push(entry)`. -/
def putEntry (entry : RegistryEntry) : List RegistryEntry → List RegistryEntry
  | [] => [entry]
  | e :: entries => if e.id = entry.id then entry :: entries else e :: putEntry entry entries

/-- `assertEnrollmentClass` -/
def assertEnrollmentClass (input : EnrollInput) : Except JsString Unit :=
  if input.role = some .job ∧ input.sessionClass ≠ .background then
    .error (js "registry job enrollment requires sessionClass: background")
  else .ok ()

/-- The row that `applyEnroll` writes over the row `prev`. -/
def mergeEnroll (input : EnrollInput) (prev : Option RegistryEntry) (now : JsString) :
    RegistryEntry :=
  let conversationChanged :=
    input.freshConversation == some true || some input.cwd != prev.map (·.cwd) ||
      some input.tool != prev.map (·.tool) ||
      (input.convId.isSome && input.convId != prev.bind (·.convId))
  let entry : RegistryEntry :=
    { id := input.id
      tool := input.tool
      kind := input.kind
      cwd := input.cwd
      source := input.source
      enrolledAt := (prev.map (·.enrolledAt)).getD now
      lastSeenAt := now
      label := input.label.or (prev.bind (·.label))
      convId :=
        input.convId.or
          (if input.freshConversation = some true then none else prev.bind (·.convId))
      remoteId := input.remoteId.or (prev.bind (·.remoteId))
      tmuxSession := input.tmuxSession.or (prev.bind (·.tmuxSession))
      pid := input.pid.or (prev.bind (·.pid))
      sessionClass := some input.sessionClass
      delegationOrigin := input.delegationOrigin.or (prev.bind (·.delegationOrigin))
      delegatorInstance := input.delegatorInstance.or (prev.bind (·.delegatorInstance))
      delegatorTmuxSession := input.delegatorTmuxSession.or (prev.bind (·.delegatorTmuxSession))
      role := input.role.or (prev.bind (·.role))
      jobState := input.jobState.or (prev.bind (·.jobState))
      parent := input.parent.or (prev.bind (·.parent))
      task := input.task.or (prev.bind (·.task))
      callbackTo := input.callbackTo.or (prev.bind (·.callbackTo))
      remoteTarget := input.remoteTarget.or (prev.bind (·.remoteTarget))
      headless := input.headless.or (prev.bind (·.headless))
      originCwd := input.originCwd.or (prev.bind (·.originCwd))
      explicitCwd := input.explicitCwd.or (prev.bind (·.explicitCwd))
      depthBudget := input.depthBudget.or (prev.bind (·.depthBudget))
      trackWp := input.trackWp.or (prev.bind (·.trackWp))
      throttle := input.throttle.or (prev.bind (·.throttle))
      model := input.model.or (prev.bind (·.model))
      effort := input.effort.or (prev.bind (·.effort))
      gatewayMode :=
        if conversationChanged then input.gatewayMode
        else input.gatewayMode.or (prev.bind (·.gatewayMode))
      gatewayProvenance :=
        if conversationChanged then input.gatewayProvenance
        else input.gatewayProvenance.or (prev.bind (·.gatewayProvenance))
      bare := input.bare.or (prev.bind (·.bare)) }
  { entry with
    restorePinned :=
      (input.restorePinned.or (prev.bind (·.restorePinned))).or
        (some (shouldPreserveByRestorePin entry)) }

/-- `applyEnroll`: the rows afterwards, and the row. -/
def applyEnroll (entries : List RegistryEntry) (input : EnrollInput) (now : JsString) :
    Except JsString (List RegistryEntry × RegistryEntry) := do
  assertEnrollmentClass input
  let entry := mergeEnroll input (findEntry entries input.id) now
  return (putEntry entry entries, entry)

/-- `enroll` -/
def enroll (input : EnrollInput) (now : JsString) (entries : List RegistryEntry) :
    Except JsString (Mutated RegistryEntry) := do
  let (entries, entry) ← applyEnroll entries input now
  return { entries, result := entry }

/-- `occupiesSlot` -/
def occupiesSlot (state : JobState) : Bool := state == .running || state == .throttled

/-- `e.jobState ?? "pending"` -/
def RegistryEntry.state (e : RegistryEntry) : JobState := e.jobState.getD .pending

/-- `e.role === "job" && occupiesSlot(e.jobState ?? "pending")` -/
def RegistryEntry.occupies (e : RegistryEntry) : Bool :=
  e.role == some .job && occupiesSlot e.state

/-- How many rows occupy a slot. -/
def running (entries : List RegistryEntry) : Nat := (entries.filter (·.occupies)).length

/-- The slot the job may hold already: "don't double-count it against itself". -/
def selfRunning (entries : List RegistryEntry) (id : JsString) : Nat :=
  match findEntry entries id with
  | some self => if self.occupies then 1 else 0
  | none => 0

/-- Whether `tryClaimSlot` goes on to enroll. -/
def slotFree (entries : List RegistryEntry) (id : JsString) (cap : Int) : Prop :=
  0 < cap ∧ (running entries : Int) - selfRunning entries id < cap

instance (entries : List RegistryEntry) (id : JsString) (cap : Int) :
    Decidable (slotFree entries id cap) :=
  inferInstanceAs (Decidable (_ ∧ _))

/-- `tryClaimSlot` -/
def tryClaimSlot (input : EnrollInput) (cap : Int) (now : JsString)
    (entries : List RegistryEntry) : Except JsString (Mutated (Option RegistryEntry)) :=
  if slotFree entries input.id cap then do
    let (entries, entry) ← applyEnroll entries { input with jobState := some .running } now
    return { entries, result := some entry }
  else .ok { entries, result := none, save := false }

/-- `JOB_TRANSITIONS` -/
def JobState.transitions : JobState → List JobState
  | pending => [running, failed]
  | running => [throttled, done, failed]
  | throttled => [running, done, failed]
  | done => []
  | failed => []

/-- `canTransitionJob` -/
def canTransitionJob (start next : JobState) : Bool := next ∈ start.transitions

/-- The row of a job that `advanceJob` moves. -/
def advanced (entry : RegistryEntry) (next : JobState) (now : JsString) : RegistryEntry :=
  { entry with
    jobState := some next
    lastSeenAt := now
    endedAt :=
      if next = .done ∨ next = .failed then some (entry.endedAt.getD now) else entry.endedAt }

/-- `advanceJob` -/
def advanceJob (id : JsString) (next : JobState) (now : JsString)
    (entries : List RegistryEntry) : Mutated (Option RegistryEntry) :=
  match findEntry entries id with
  | none => { entries, result := none, save := false }
  | some entry =>
      if entry.role ≠ some .job then { entries, result := none, save := false }
      else if entry.state ≠ next ∧ ¬canTransitionJob entry.state next then
        { entries, result := none, save := false }
      else
        { entries := putEntry (advanced entry next now) entries
          result := some (advanced entry next now) }

/-- Whether `prune` keeps a row. -/
def keptByPrune (maxAgeHours : ℚ) (opts : LivenessOpts) (nowMs : Int) (e : RegistryEntry) : Bool :=
  isLive e opts || shouldPreserveByRestorePin e ||
    match opts.parseDate (e.endedAt.getD e.lastSeenAt) with
    | none => false
    | some last => decide ((nowMs : ℚ) - maxAgeHours * 3600 * 1000 ≤ last)

/-- `prune` -/
def prune (maxAgeHours : ℚ) (opts : LivenessOpts) (nowMs : Int) (entries : List RegistryEntry) :
    Mutated Nat :=
  let kept := entries.filter (keptByPrune maxAgeHours opts nowMs)
  if kept.length = entries.length then { entries, result := 0, save := false }
  else { entries := kept, result := entries.length - kept.length }

end H2a.Runtime
