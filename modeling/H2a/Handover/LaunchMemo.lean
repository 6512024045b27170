import H2a.Handover.Ownership
import H2a.Library.Durable
import H2a.Library.JsonEq
/-!
# Launch memos

`LaunchJournal` of `packages/h2a/src/runtime/handover/launch-memo.js`.  A call holds the lock of the
registry and writes one file after the other; it may be cut short after any of them.  The answer of
an executor comes later, if at all, and launched children write their receipts at any time.  A memo
is at the leaf of its attachment and name, a location at that of its launch.
-/

namespace H2a.Handover

open H2a.Library

variable {N : Type}

/-! ## Records -/

inductive LaunchMemoState where
  | reserved
  | launching
  | completed
  | unknown
  deriving DecidableEq

structure LaunchMemo (N : Type) where
  attachmentId : JsString
  launchName : JsString
  launchId : JsString
  initialArgumentsDigest : JsString
  state : LaunchMemoState
  executionOwner : ProcessIdentity
  childProcessIdentity : Option ProcessIdentity
  launchReceiptReference : JsString
  launchTokenBinding : JsString
  briefReceipt : Option (Json N)
  terminalResult : Option (Json N)
  retrySafe : Bool
  deriving DecidableEq

structure LaunchLocation (N : Type) where
  attachmentId : JsString
  workspaceRoot : JsString
  delegation : Option (Json N)

/-- An attachment and a launch name. -/
abbrev LaunchKey := JsString × JsString

/-- The state directory of a registry, with the memos and locations of its launches. -/
structure LaunchFiles (N : Type) where
  ledger : Directory (Json N)
  memos : JsMap LaunchKey (LaunchMemo N)
  locations : JsMap JsString (LaunchLocation N)

structure LaunchJournal where
  registry : Registry
  token : OwnerToken
  root : JsString

/-- A request, with the path of its receipt relative to the root of the journal. -/
structure LaunchRequest (N : Type) where
  name : JsString
  launchReceiptReference : JsString
  delegation : Option (Json N)
  /-- the request without `launchAuthority` -/
  arguments : Json N

/-- `/^[A-Za-z0-9_-]{1,64}$/` -/
def isLaunchName (name : JsString) : Bool :=
  1 ≤ name.length && name.length ≤ 64 && name.units.all fun unit =>
    (65 ≤ unit && unit ≤ 90) || (97 ≤ unit && unit ≤ 122) || isDigit unit || unit == 95 || unit == 45

/-- `${memo.launchId}:child` and `${memo.launchId}:brief` -/
def launchOperationId (launchId : JsString) : OperationKind → JsString
  | .child => launchId ++ js ":child"
  | _ => launchId ++ js ":brief"

/-! ## Results -/

/-- `{ state: 'unknown', retrySafe: false }` -/
def unknownResult : Json N :=
  .obj [(js "retrySafe", .bool false), (js "state", .str (js "unknown"))]

/-- The result of an executor that throws. -/
def failedResult (launchId error : JsString) : Json N :=
  .obj [(js "error", .str error), (js "launchId", .str launchId), (js "retrySafe", .bool false),
    (js "state", .str (js "unknown"))]

/-- The result of a launch whose receipt says that it stopped. -/
def stoppedResult (launchId : JsString) : Json N :=
  .obj [(js "launchId", .str launchId), (js "retrySafe", .bool false),
    (js "state", .str (js "stopped"))]

/-- `result(memo)` -/
def LaunchMemo.result (memo : LaunchMemo N) : Json N :=
  memo.terminalResult.getD (.obj [(js "launchId", .str memo.launchId),
    (js "retrySafe", .bool false),
    (js "state", .str (if memo.state = .unknown ∨ memo.state = .reserved then js "unknown"
      else js "launching"))])

/-- `['started', 'stopped', 'not-started'].includes(terminal.state)` -/
def isComplete (terminal : Json N) : Bool :=
  let state := terminal.get (js "state")
  Json.isText (js "started") state || Json.isText (js "stopped") state ||
    Json.isText (js "not-started") state

/-- `value === true` -/
def isTrue : Option (Json N) → Bool
  | some (.bool b) => b
  | _ => false

/-- `terminal.prompt?.delivered === true` -/
def isDelivered (terminal : Json N) : Bool :=
  isTrue ((terminal.get (js "prompt")).bind (Json.get (js "delivered")))

/-- `terminal.state !== 'started' || terminal.prompt?.delivered === true` -/
def isBriefKnown (terminal : Json N) : Bool :=
  !Json.isText (js "started") (terminal.get (js "state")) || isDelivered terminal

/-- What an executor answers. -/
inductive ExecuteOutcome (N : Type) where
  | returned (result : Json N)
  | threw (error : JsString)

/-- The terminal result of an outcome: a value that is no object says nothing. -/
def ExecuteOutcome.terminal (launchId : JsString) : ExecuteOutcome N → Json N
  | .returned (.obj members) => .obj members
  | .returned (.arr elements) => .arr elements
  | .returned _ => unknownResult
  | .threw error => failedResult launchId error

/-! ## Writes -/

variable [DecidableEq N]

namespace LaunchFiles

/-- The writes of a mutation of the ledger. -/
def writeEach : List (FileWrite (Json N)) → Durable (LaunchFiles N) Unit
  | [] => pure ()
  | write :: writes => do
      Durable.write fun files =>
        if write.valid files.ledger && write.matchesCurrent files.ledger then
          .ok { files with ledger := write.publish files.ledger }
        else .error "state_compare_failed"
      writeEach writes

/-- A mutation of the ledger. -/
def mutate (plan : Directory (Json N) → Except String (Plan (Json N))) :
    Durable (LaunchFiles N) (Answer (Json N)) := do
  let plan ← Durable.reads fun files => plan files.ledger
  writeEach plan.writes
  return plan.answer

/-- `registry.bump()` -/
def bump : Durable (LaunchFiles N) Unit := writeEach [.bump]

def publishLocation (launchId : JsString) (location : LaunchLocation N) :
    Durable (LaunchFiles N) Unit :=
  Durable.write fun files =>
    if files.locations.has launchId then .error "EEXIST"
    else .ok { files with locations := files.locations.set launchId location }

def publishMemo (key : LaunchKey) (memo : LaunchMemo N) : Durable (LaunchFiles N) Unit :=
  Durable.write fun files =>
    if files.memos.has key then .error "EEXIST"
    else .ok { files with memos := files.memos.set key memo }

def replaceMemo (key : LaunchKey) (memo : LaunchMemo N) (expected : Option (LaunchMemo N)) :
    Durable (LaunchFiles N) Unit :=
  Durable.write fun files =>
    match expected with
    | none => .error "state_compare_required"
    | some expected =>
        if files.memos.get key = some expected then
          .ok { files with memos := files.memos.set key memo }
        else .error "state_compare_failed"

/-- `ledger.begin(token, operationId, kind)` -/
def beginOperation (registry : Registry) (parent : Option (Operation (Json N)))
    (token : OwnerToken) (operationId : JsString) (kind : OperationKind) :
    Durable (LaunchFiles N) (Operation (Json N)) := do
  match ← mutate fun ledger => begin registry ledger parent token operationId kind with
  | .operation value => return value
  | _ => Durable.fail "operation_missing"

/-- `ledger.finish(operation, result, unknown)`, for an operation that is not completed. -/
def finishOpen (operation : Option (Operation (Json N))) (result : Json N) :
    Durable (LaunchFiles N) Unit :=
  match operation with
  | none => pure ()
  | some operation =>
      if operation.state = .completed then pure ()
      else do let _ ← mutate fun ledger => finish ledger operation result false

/-- `operation(memo, kind)` -/
def operation (memo : LaunchMemo N) (kind : OperationKind) :
    Durable (LaunchFiles N) (Option (Operation (Json N))) :=
  Durable.reads fun files => .ok (files.ledger.operations.get (launchOperationId memo.launchId kind))

/-- `publishDelegation(memo, result)` -/
def publishDelegation (memo : LaunchMemo N) (result : Json N) : Durable (LaunchFiles N) Unit := do
  let location ← Durable.reads fun files =>
    match files.locations.get memo.launchId with
    | none => .error "launch_location_missing"
    | some location =>
        if location.attachmentId ≠ memo.attachmentId then .error "launch_location_missing"
        else .ok location
  match location.delegation with
  | none => return
  | some delegation =>
      match ← operation memo .child with
      | none => Durable.fail "operation_fenced"
      | some child =>
          let _ ← mutate fun ledger => publishEffect ledger child (.obj [
            (js "delegation", delegation), (js "launchId", .str memo.launchId),
            (js "terminalResult", result), (js "type", .str (js "launch-delegation"))])

/-! ## Reconciliation -/

/-- `settleCompleted(memo)` -/
def settleCompleted (memo : LaunchMemo N) : Durable (LaunchFiles N) Unit := do
  let terminal := memo.terminalResult.getD .null
  publishDelegation memo terminal
  finishOpen (← operation memo .child) terminal
  finishOpen (← operation memo .brief) (memo.briefReceipt.getD terminal)

/-- What a receipt says of a launch. -/
inductive ReceiptState where
  | started
  | stopped

section Journal

variable (digest : Json N → JsString)

/-- The checks of a receipt; `none` where the memo stays as it is. -/
def receiptState (memo : LaunchMemo N) (receipt : Json N) : Except String (Option ReceiptState) := do
  match ← receipt.member (js "token") with
  | some (.str token) =>
      if digest (.str token) ≠ memo.launchTokenBinding then return none
      else if Json.isText (js "started") (receipt.get (js "state")) then return some .started
      else if Json.isText (js "stopped") (receipt.get (js "state")) then return some .stopped
      else return none
  | _ => return none

/-- The memo of a launch whose receipt says that it stopped. -/
def stoppedMemo (old : LaunchMemo N) : LaunchMemo N :=
  { old with
    state := .completed
    terminalResult := some (stoppedResult old.launchId)
    retrySafe := false }

/-- `reconcileMemo(old)`; `receipt` is what the file of the receipt holds, if it can be read and
parsed -/
def reconcileMemo (attachmentId : JsString) (old : LaunchMemo N) (receipt : Option (Json N)) :
    Durable (LaunchFiles N) (LaunchMemo N) :=
  if old.state = .completed then do
    settleCompleted old
    return old
  else
    match receipt with
    | none => return old
    | some receipt => do
        match ← Durable.reads fun _ => receiptState digest old receipt with
        | none => return old
        | some state =>
            let child ← operation old .child
            match state with
            | .started =>
                finishOpen child (.obj [(js "receipt", .str old.launchReceiptReference),
                  (js "state", .str (js "started"))])
                -- a receipt does not say that the brief was delivered
                return old
            | .stopped =>
                let result := stoppedResult old.launchId
                replaceMemo (attachmentId, old.launchName) (stoppedMemo old) (some old)
                bump
                publishDelegation old result
                finishOpen child result
                finishOpen (← operation old .brief) result
                return stoppedMemo old

/-! ## Launching -/

/-- A launch whose executor was called. -/
structure Waiting (N : Type) where
  key : LaunchKey
  launchId : JsString
  child : Operation (Json N)
  brief : Operation (Json N)

/-- What `launch` does after its first turn under the lock. -/
inductive Reservation (N : Type) where
  | existing (memo : LaunchMemo N)
  /-- the executor is called -/
  | execute (waiting : Waiting N)

/-- The files that `reconcileMemo` may read: by root and reference. -/
abbrev Receipts (N : Type) := JsString → JsString → Option (Json N)

/-- The memo of a launch that is new. -/
def newMemo (journal : LaunchJournal) (request : LaunchRequest N) (launchId secret : JsString) :
    LaunchMemo N where
  attachmentId := journal.token.attachmentId
  launchName := request.name
  launchId
  initialArgumentsDigest := digest request.arguments
  state := .reserved
  executionOwner := journal.token.ownerProcessIdentity
  childProcessIdentity := none
  launchReceiptReference := request.launchReceiptReference
  launchTokenBinding := digest (.str secret)
  briefReceipt := none
  terminalResult := none
  retrySafe := false

/-- The launch of a name without a memo, until the executor is called. -/
def reserveNew (journal : LaunchJournal) (request : LaunchRequest N) (launchId secret : JsString)
    (parent : Option (Operation (Json N))) : Durable (LaunchFiles N) (Reservation N) := do
  let key := (journal.token.attachmentId, request.name)
  let _ ← Durable.reads fun files =>
    assertOwner journal.registry files.ledger journal.token [.active]
  let reference := request.launchReceiptReference
  if reference.startsWith (js "../") || reference.units.isEmpty then
    Durable.fail "launch_workspace_outside_root"
  else
    let memo := newMemo digest journal request launchId secret
    publishLocation launchId ⟨journal.token.attachmentId, journal.root, request.delegation⟩
    publishMemo key memo
    bump
    let child ← beginOperation journal.registry parent journal.token
      (launchOperationId launchId .child) .child
    let brief ← beginOperation journal.registry parent journal.token
      (launchOperationId launchId .brief) .brief
    let observed ← Durable.reads fun files => .ok (files.memos.get key)
    replaceMemo key { memo with state := .launching } observed
    bump
    return .execute ⟨key, launchId, child, brief⟩

/-- `withLock(fn)` -/
def withLock {α : Type} (registry : Registry) (x : Durable (LaunchFiles N) α) :
    Durable (LaunchFiles N) α :=
  if registry.indeterminate then Durable.fail "reconciliation_required" else x

/-- `launch(request, execute)`, until the executor is called; `launchId`, `secret` and `parent` are
the answers of `randomUUID()` and `currentExecution()?.operation` -/
def launch (receipts : Receipts N) (journal : LaunchJournal) (request : LaunchRequest N)
    (launchId secret : JsString) (parent : Option (Operation (Json N))) :
    Durable (LaunchFiles N) (Reservation N) :=
  withLock journal.registry <|
    if isLaunchName request.name = false then Durable.fail "launch_name_invalid"
    else do
      match ← Durable.reads fun files =>
          .ok (files.memos.get (journal.token.attachmentId, request.name)) with
      | none => reserveNew digest journal request launchId secret parent
      | some old =>
          if old.initialArgumentsDigest ≠ digest request.arguments then
            Durable.fail "launch_arguments_conflict"
          else
            return .existing (← reconcileMemo digest journal.token.attachmentId old
              (receipts journal.root old.launchReceiptReference))

/-- `onSpawn(childProcessIdentity)` -/
def onSpawn (registry : Registry) (waiting : Waiting N) (identity : ProcessIdentity) :
    Durable (LaunchFiles N) Unit :=
  withLock registry do
    match ← Durable.reads fun files => .ok (files.memos.get waiting.key) with
    | none => Durable.fail "Cannot read properties of undefined"
    | some old =>
        replaceMemo waiting.key { old with childProcessIdentity := some identity } (some old)
        bump

/-- The memo after the answer of the executor. -/
def finishedMemo (old : LaunchMemo N) (terminal : Json N) : LaunchMemo N :=
  { old with
    state := if isComplete terminal && isBriefKnown terminal then .completed else .unknown
    terminalResult := some terminal
    briefReceipt :=
      if isDelivered terminal then
        some (.obj [(js "delivered", .bool true), (js "launchId", .str old.launchId)])
      else none
    retrySafe := Json.isText (js "not-started") (terminal.get (js "state")) &&
      isTrue (terminal.get (js "retrySafe")) }

/-- `finish(result)` -/
def finishLaunch (registry : Registry) (waiting : Waiting N) (terminal : Json N) :
    Durable (LaunchFiles N) (Json N) :=
  withLock registry do
    match ← Durable.reads fun files => .ok (files.memos.get waiting.key) with
    | none => Durable.fail "Cannot read properties of undefined"
    | some old =>
        let memo := finishedMemo old terminal
        -- the reply is persisted before it can be lost
        replaceMemo waiting.key memo (some old)
        bump
        publishDelegation memo terminal
        let _ ← mutate fun ledger => finish ledger waiting.child terminal (!isComplete terminal)
        let _ ← mutate fun ledger => finish ledger waiting.brief (memo.briefReceipt.getD terminal)
          (!isComplete terminal || !isBriefKnown terminal)
        return terminal

/-- `reconcile(request)` -/
def reconcile (receipts : Receipts N) (journal : LaunchJournal) (request : LaunchRequest N) :
    Durable (LaunchFiles N) (Json N) :=
  withLock journal.registry do
    match ← Durable.reads fun files =>
        .ok (files.memos.get (journal.token.attachmentId, request.name)) with
    | none => Durable.fail "launch_arguments_conflict"
    | some old =>
        if old.initialArgumentsDigest ≠ digest request.arguments then
          Durable.fail "launch_arguments_conflict"
        else
          let memo ← reconcileMemo digest journal.token.attachmentId old
            (receipts journal.root old.launchReceiptReference)
          return memo.result

/-- The loop of `reconcileAll`, over the memos that are left. -/
def reconcileEach (receipts : Receipts N) (scope : Option DrainScope) :
    List LaunchKey → Durable (LaunchFiles N) Unit
  | [] => pure ()
  | key :: rest => do
      match ← Durable.reads fun files => .ok (files.memos.get key) with
      | none => Durable.fail "Cannot read properties of undefined"
      | some memo =>
          if scope.any fun scope => memo.executionOwner ≠ scope.processIdentity then
            reconcileEach receipts scope rest
          else
            match ← Durable.reads fun files => .ok (files.locations.get memo.launchId) with
            | none => reconcileEach receipts scope rest
            | some location =>
                if location.attachmentId ≠ memo.attachmentId then
                  reconcileEach receipts scope rest
                else
                  let _ ← reconcileMemo digest memo.attachmentId memo
                    (receipts location.workspaceRoot memo.launchReceiptReference)
                  reconcileEach receipts scope rest

/-- `reconcileAll(registry, ledger, scope)` -/
def reconcileAll (receipts : Receipts N) (registry : Registry) (scope : Option DrainScope) :
    Durable (LaunchFiles N) Unit :=
  withLock registry do
    let keys ← Durable.reads fun files => .ok files.memos.keys
    reconcileEach digest receipts scope keys

end Journal

end LaunchFiles

/-! ## Runs -/

open LaunchFiles

/-- The files, the receipts of launched children, the calls of executors that were not answered,
and all calls of executors so far. -/
structure LaunchWorld (N : Type) where
  files : LaunchFiles N
  receipts : Receipts N
  waiting : List (Waiting N)
  executed : List LaunchKey

/-- The calls of a journal by any process, each with the writes after which it is cut short, if it
is, and what others do. -/
inductive LaunchAction (N : Type) where
  | launch (journal : LaunchJournal) (request : LaunchRequest N) (launchId secret : JsString)
      (parent : Option (Operation (Json N))) (cut : Option Nat)
  | spawned (registry : Registry) (n : Nat) (identity : ProcessIdentity) (cut : Option Nat)
  | replied (registry : Registry) (n : Nat) (outcome : ExecuteOutcome N) (cut : Option Nat)
  /-- the process of an executor ends before it answers -/
  | lost (n : Nat)
  | reconcile (journal : LaunchJournal) (request : LaunchRequest N) (cut : Option Nat)
  | reconcileAll (registry : Registry) (scope : Option DrainScope) (cut : Option Nat)
  | receiptWritten (root reference : JsString) (receipt : Option (Json N))
  /-- other mutations of a registry -/
  | owned (ownerships : JsMap JsString Ownership) (gate : WriterGate)

/-- The launch that a call names, with the digest of its arguments. -/
def LaunchAction.named (digest : Json N → JsString) :
    LaunchAction N → Option (LaunchKey × JsString)
  | .launch journal request _ _ _ _ | .reconcile journal request _ =>
      some ((journal.token.attachmentId, request.name), digest request.arguments)
  | _ => none

namespace LaunchWorld

/-- There is no launch. -/
def start : LaunchWorld N where
  files := ⟨.opened, .empty, .empty⟩
  receipts := fun _ _ => none
  waiting := []
  executed := []

variable (digest : Json N → JsString)

/-- The world after a computation on its files. -/
def after {α : Type} (world : LaunchWorld N) (x : Durable (LaunchFiles N) α) (cut : Option Nat) :
    LaunchWorld N :=
  { world with files := (x world.files).left world.files cut }

def step (world : LaunchWorld N) : LaunchAction N → LaunchWorld N
  | .launch journal request launchId secret parent cut =>
      let x := launch digest world.receipts journal request launchId secret parent
      let next := world.after x cut
      match cut, (x world.files).result with
      | none, .ok (.execute waiting) =>
          { next with
            waiting := next.waiting ++ [waiting]
            executed := next.executed ++ [waiting.key] }
      | _, _ => next
  | .spawned registry n identity cut =>
      match world.waiting[n]? with
      | none => world
      | some waiting => world.after (onSpawn registry waiting identity) cut
  | .replied registry n outcome cut =>
      match world.waiting[n]? with
      | none => world
      | some waiting =>
          { world with waiting := world.waiting.eraseIdx n }.after
            (finishLaunch registry waiting (outcome.terminal waiting.launchId)) cut
  | .lost n => { world with waiting := world.waiting.eraseIdx n }
  | .reconcile journal request cut =>
      world.after (reconcile digest world.receipts journal request) cut
  | .reconcileAll registry scope cut =>
      world.after (reconcileAll digest world.receipts registry scope) cut
  | .receiptWritten root reference receipt =>
      { world with
        receipts := fun root' reference' =>
          if root' = root ∧ reference' = reference then receipt else world.receipts root' reference' }
  | .owned ownerships gate =>
      { world with
        files := { world.files with ledger := { world.files.ledger with ownerships, gate } } }

/-- What a call answers without an executor, when it returns. -/
def answer (world : LaunchWorld N) : LaunchAction N → Option (Json N)
  | .launch journal request launchId secret parent none =>
      match (launch digest world.receipts journal request launchId secret parent world.files).result
      with
      | .ok (.existing memo) => some memo.result
      | _ => none
  | .reconcile journal request none =>
      (reconcile digest world.receipts journal request world.files).result.toOption
  | _ => none

/-- `complete` of `ledger.drain()`. -/
def drained (world : LaunchWorld N) : Bool :=
  (drainCounts none world.files.ledger.operations).complete

end LaunchWorld

end H2a.Handover
