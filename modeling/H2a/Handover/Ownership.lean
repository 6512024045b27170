import H2a.Handover.StateFile
/-!
# Ownership

`OwnershipRegistry` and `OperationLedger` of `packages/h2a/src/runtime/handover/ownership.js`.
Under the mutation lock a mutation first reads and checks, and throws or decides what it writes;
then it writes one file after the other, the revision last.
-/

namespace H2a.Handover

open H2a.Library

variable {V : Type} [DecidableEq V]

/-- The fields of an `OwnershipRegistry` that its mutations read. -/
structure Registry where
  generation : JsString
  processIdentity : ProcessIdentity
  indeterminate : Bool

/-- `token(value)` -/
structure OwnerToken where
  attachmentId : JsString
  ownerGeneration : JsString
  ownershipEpoch : Nat
  ownerProcessIdentity : ProcessIdentity
  deriving DecidableEq

def Ownership.token (value : Ownership) : OwnerToken :=
  ⟨value.attachmentId, value.ownerGeneration, value.ownershipEpoch, value.ownerProcessIdentity⟩

/-- The input of `claim` and `rebaseline`. -/
structure ClaimInput where
  attachmentId : JsString
  presenceSessionId : JsString
  expectedInstance : JsString

/-- What a mutation returns. -/
inductive Answer (V : Type) where
  | done
  | token (token : OwnerToken)
  | ownership (value : Ownership)
  | operation (value : Operation V)
  /-- the receipt of `checkpoint` -/
  | checkpointed (checkpointHash : JsString) (source : OwnerToken) (handoverId : Option JsString)
  /-- `digest(event)` -/
  | published (event : OwnerEffect V)

/-- What a mutation that has checked everything writes and returns. -/
structure Plan (V : Type) where
  writes : List (FileWrite V)
  answer : Answer V

section Source

variable (registry : Registry) (directory : Directory V)

/-! ## The registry -/

/-- `assertOwner(token, states)` -/
def assertOwner (token : OwnerToken) (states : List OwnershipState) : Except String Ownership :=
  if registry.indeterminate then .error "reconciliation_required"
  else
    match directory.ownerships.get token.attachmentId with
    | none => .error "ownership_fenced"
    | some observed =>
        if token.ownerGeneration ≠ observed.ownerGeneration ∨
            token.ownershipEpoch ≠ observed.ownershipEpoch ∨
            token.ownerProcessIdentity ≠ observed.ownerProcessIdentity ∨
            observed.state ∉ states then
          .error "ownership_fenced"
        else .ok observed

/-- `claim(input)` -/
def claim (input : ClaimInput) : Except String (Plan V) :=
  if directory.ownerships.has input.attachmentId then .error "ownership_exists"
  else
    let value : Ownership := {
      attachmentId := input.attachmentId
      presenceSessionId := input.presenceSessionId
      expectedInstance := input.expectedInstance
      ownerGeneration := registry.generation
      ownershipEpoch := 1
      ownerProcessIdentity := registry.processIdentity
      state := .active
      handoverId := none
      checkpointVersion := 1
      checkpointHash := none }
    .ok ⟨[.publishOwnership value, .bump], .token value.token⟩

/-- `rebaseline(input, proveEnded)` -/
def rebaseline (input : ClaimInput) (proveEnded : Ownership → Bool) : Except String (Plan V) :=
  match directory.ownerships.get input.attachmentId with
  | none => .error "ownership_exists"
  | some old =>
      if old.ownerGeneration = registry.generation ∨ proveEnded old = false then
        .error "ownership_exists"
      else
        let value : Ownership := {
          attachmentId := input.attachmentId
          presenceSessionId := input.presenceSessionId
          expectedInstance := input.expectedInstance
          ownerGeneration := registry.generation
          ownershipEpoch := old.ownershipEpoch + 1
          ownerProcessIdentity := registry.processIdentity
          state := .active
          handoverId := none
          checkpointVersion := 1
          checkpointHash := none }
        .ok ⟨[.replaceOwnership input.attachmentId old value, .bump], .token value.token⟩

/-- `updateIdentity(token, presenceSessionId, expectedInstance)` -/
def updateIdentity (token : OwnerToken) (presenceSessionId expectedInstance : JsString) :
    Except String (Plan V) := do
  let old ← assertOwner registry directory token [.active]
  if old.presenceSessionId = presenceSessionId ∧ old.expectedInstance = expectedInstance then
    return ⟨[], .done⟩
  else
    let value := {
      old with
      presenceSessionId := presenceSessionId
      expectedInstance := expectedInstance }
    return ⟨[.replaceOwnership token.attachmentId old value, .bump], .done⟩

/-- `releasePresence(token, sessionId)` -/
def releasePresence (token : OwnerToken) (sessionId : JsString) : Except String (Plan V) := do
  let old ← assertOwner registry directory token [.active]
  if old.presenceSessionId ≠ sessionId then .error "presence_ownership_mismatch"
  else
    let value := { old with presenceSessionId := js "pending:" ++ token.attachmentId }
    return ⟨[.replaceOwnership token.attachmentId old value, .bump], .done⟩

/-- `freeze(token, handoverId)` -/
def freeze (token : OwnerToken) (handoverId : JsString) : Except String (Plan V) := do
  let old ← assertOwner registry directory token [.active, .frozen]
  if old.state = .frozen then
    if old.handoverId ≠ some handoverId then .error "handover_conflict"
    else return ⟨[], .ownership old⟩
  else
    let next := { old with state := .frozen, handoverId := some handoverId }
    return ⟨[.replaceOwnership token.attachmentId old next, .bump], .ownership next⟩

/-- `loadCheckpoint(reference, hash)`, at the reference of the hash. -/
def loadCheckpoint (digest : Checkpoint V → JsString) (hash : JsString) :
    Except String (Checkpoint V) :=
  match directory.checkpoints.get hash with
  | none => .error "checkpoint_corrupt"
  | some value => if digest value ≠ hash then .error "checkpoint_corrupt" else .ok value

/-- `checkpoint(token, snapshot)` -/
def checkpoint (digest : Checkpoint V → JsString) (token : OwnerToken) (snapshot : Checkpoint V) :
    Except String (Plan V) := do
  let old ← assertOwner registry directory token [.frozen]
  if !snapshot.valid then .error "invalid_format:checkpoint"
  else if snapshot.attachmentId ≠ token.attachmentId ∨
      snapshot.ownershipEpoch ≠ token.ownershipEpoch ∨
      snapshot.producedSequence < snapshot.deliveredSequence then
    .error "checkpoint_binding_mismatch"
  else
    let hash := digest snapshot
    if old.checkpointHash.any (· ≠ hash) then .error "checkpoint_conflict"
    else
      let existing := directory.checkpoints.get hash
      if existing.any (digest · ≠ hash) then .error "checkpoint_corrupt"
      else
        let stored := if existing.isNone then [FileWrite.publishCheckpoint hash snapshot] else []
        let recorded :=
          if old.checkpointHash.isNone then
            [FileWrite.replaceOwnership token.attachmentId old
              { old with checkpointHash := some hash }, .bump]
          else []
        return ⟨stored ++ recorded, .checkpointed hash old.token old.handoverId⟩

/-- `abort(token, handoverId)` -/
def abort (token : OwnerToken) (handoverId : JsString) : Except String (Plan V) := do
  let old ← assertOwner registry directory token [.frozen]
  if old.handoverId ≠ some handoverId then .error "handover_conflict"
  else
    let value := { old with state := .active, handoverId := none, checkpointHash := none }
    return ⟨[.replaceOwnership token.attachmentId old value, .bump], .done⟩

/-- `close(token)` -/
def close (token : OwnerToken) : Except String (Plan V) := do
  let old ← assertOwner registry directory token [.active, .frozen, .transferring]
  let value := { old with state := .closed }
  return ⟨[.replaceOwnership token.attachmentId old value, .bump], .done⟩

/-- `fence(token, handoverId, checkpointHash)` -/
def fence (digest : Checkpoint V → JsString) (token : OwnerToken)
    (handoverId checkpointHash : JsString) : Except String (Plan V) := do
  let old ← assertOwner registry directory token [.frozen, .transferring]
  if old.handoverId ≠ some handoverId ∨ checkpointHash.units = [] ∨
      old.checkpointHash ≠ some checkpointHash then
    .error "checkpoint_binding_mismatch"
  else
    let _ ← loadCheckpoint directory digest checkpointHash
    if old.state = .transferring then return ⟨[], .ownership old⟩
    else
      let next := { old with state := .transferring }
      return ⟨[.replaceOwnership token.attachmentId old next, .bump], .ownership next⟩

/-! ## The ledger -/

/-- `assertOperation(operation)` -/
def assertOperation (operation : Operation V) : Except String (Operation V) :=
  if registry.indeterminate then .error "reconciliation_required"
  else
    match directory.operations.get operation.operationId with
    | none => .error "operation_fenced"
    | some old =>
        if old.state ≠ .pending ∨ old.attachmentId ≠ operation.attachmentId ∨
            old.ownerGeneration ≠ operation.ownerGeneration ∨
            old.executionOwner ≠ operation.executionOwner ∨
            old.executionOwner ≠ registry.processIdentity then
          .error "operation_fenced"
        else .ok old

/-- `begin(token, operationId, kind)`; `parent` is `currentExecution()?.operation`. -/
def begin (parent : Option (Operation V)) (token : OwnerToken) (operationId : JsString)
    (kind : OperationKind) : Except String (Plan V) := do
  let _ ← assertOwner registry directory token [.active]
  if directory.gate ≠ .open then
    match parent with
    | none => .error "store_admission_closed"
    | some parent => let _ ← assertOperation registry directory parent
  if directory.operations.has operationId then .error "operation_exists"
  else
    let value : Operation V := {
      revision := 1
      operationId := operationId
      attachmentId := token.attachmentId
      ownerGeneration := token.ownerGeneration
      executionOwner := token.ownerProcessIdentity
      kind := kind
      state := .pending
      result := none }
    return ⟨[.publishOperation value, .bump], .operation value⟩

/-- `finish(operation, result, unknown)` -/
def finish (operation : Operation V) (result : V) (unknown : Bool) : Except String (Plan V) :=
  match directory.operations.get operation.operationId with
  | none => .error "operation_fenced"
  | some old =>
      if old.executionOwner ≠ operation.executionOwner ∨
          old.attachmentId ≠ operation.attachmentId then
        .error "operation_fenced"
      else if old.state = .completed then
        if old.result ≠ some result then .error "operation_result_conflict"
        else .ok ⟨[], .operation old⟩
      else
        let event : OwnerEffect V := ⟨operation.operationId, operation.attachmentId, result⟩
        let prior := directory.effects.get (operation.operationId, result)
        if prior.any (· ≠ event) then .error "operation_result_conflict"
        else
          let published := if prior.isNone then [.publishEffect event] else []
          let next := {
            old with
            revision := old.revision + 1
            state := if unknown then .unknown else .completed
            result := some result }
          let replaced := .replaceOperation operation.operationId old next
          .ok ⟨published ++ [replaced, .bump], .operation next⟩

/-- `publishEffect(operation, result)` -/
def publishEffect (operation : Operation V) (result : V) : Except String (Plan V) :=
  match directory.operations.get operation.operationId with
  | none => .error "operation_fenced"
  | some saved =>
      if saved.attachmentId ≠ operation.attachmentId ∨
          saved.executionOwner ≠ operation.executionOwner then
        .error "operation_fenced"
      else
        let event : OwnerEffect V := ⟨operation.operationId, operation.attachmentId, result⟩
        if (directory.effects.get (operation.operationId, result)).isNone then
          .ok ⟨[.publishEffect event, .bump], .published event⟩
        else .ok ⟨[], .published event⟩

/-! ## Mutations -/

/-- The mutations of the registry and of its ledger. -/
inductive Mutation (V : Type) where
  | claim (input : ClaimInput)
  | rebaseline (input : ClaimInput) (proveEnded : Ownership → Bool)
  | updateIdentity (token : OwnerToken) (presenceSessionId expectedInstance : JsString)
  | releasePresence (token : OwnerToken) (sessionId : JsString)
  | freeze (token : OwnerToken) (handoverId : JsString)
  | checkpoint (token : OwnerToken) (snapshot : Checkpoint V)
  | abort (token : OwnerToken) (handoverId : JsString)
  | close (token : OwnerToken)
  | fence (token : OwnerToken) (handoverId checkpointHash : JsString)
  | begin (parent : Option (Operation V)) (token : OwnerToken) (operationId : JsString)
      (kind : OperationKind)
  | finish (operation : Operation V) (result : V) (unknown : Bool)
  | publishEffect (operation : Operation V) (result : V)

/-- What a mutation decides, under `withLock`. -/
def Mutation.plan (digest : Checkpoint V → JsString) (mutation : Mutation V) :
    Except String (Plan V) :=
  if registry.indeterminate then .error "reconciliation_required"
  else
    match mutation with
    | .claim input => Handover.claim registry directory input
    | .rebaseline input proveEnded => Handover.rebaseline registry directory input proveEnded
    | .updateIdentity token presenceSessionId expectedInstance =>
        Handover.updateIdentity registry directory token presenceSessionId expectedInstance
    | .releasePresence token sessionId =>
        Handover.releasePresence registry directory token sessionId
    | .freeze token handoverId => Handover.freeze registry directory token handoverId
    | .checkpoint token snapshot => Handover.checkpoint registry directory digest token snapshot
    | .abort token handoverId => Handover.abort registry directory token handoverId
    | .close token => Handover.close registry directory token
    | .fence token handoverId checkpointHash =>
        Handover.fence registry directory digest token handoverId checkpointHash
    | .begin parent token operationId kind =>
        Handover.begin registry directory parent token operationId kind
    | .finish operation result unknown => Handover.finish directory operation result unknown
    | .publishEffect operation result => Handover.publishEffect directory operation result

/-! ## The drain -/

/-- `scope` of a drain -/
structure DrainScope where
  generation : JsString
  processIdentity : ProcessIdentity

structure DrainCounts where
  calls : Nat
  children : Nat
  briefs : Nat
  callbacks : Nat
  effects : Nat
  deriving DecidableEq

/-- `value[keys[op.kind]]++` -/
def DrainCounts.count (value : DrainCounts) : OperationKind → DrainCounts
  | .call => { value with calls := value.calls + 1 }
  | .child => { value with children := value.children + 1 }
  | .brief => { value with briefs := value.briefs + 1 }
  | .callback => { value with callbacks := value.callbacks + 1 }
  | .wake => { value with effects := value.effects + 1 }

/-- One turn of the loop of `drain`. -/
def DrainCounts.add (scope : Option DrainScope) (value : DrainCounts) (op : Operation V) :
    DrainCounts :=
  if scope.any fun scope => op.ownerGeneration ≠ scope.generation ||
      op.executionOwner ≠ scope.processIdentity then value
  else if op.state = .completed then value
  else
    let value := value.count op.kind
    if op.state = .unknown ∧ op.kind ≠ .wake then { value with effects := value.effects + 1 }
    else value

/-- The counts of `drain(scope)`. -/
def drainCounts (scope : Option DrainScope) (operations : JsMap JsString (Operation V)) :
    DrainCounts :=
  operations.values.foldl (DrainCounts.add scope) ⟨0, 0, 0, 0, 0⟩

/-- `complete` -/
def DrainCounts.complete (value : DrainCounts) : Bool := value = ⟨0, 0, 0, 0, 0⟩

end Source

/-! ## A registry -/

def plainIdentity : ProcessIdentity :=
  ⟨js "11111111111111111111111111111111", js "11111111-1111-4111-8111-111111111111", js "1",
    js "1", 1, 1⟩

def plainRegistry : Registry :=
  ⟨js "22222222-2222-4222-8222-222222222222", plainIdentity, false⟩

/-- The token of the first claim of `a`. -/
def plainToken : OwnerToken := ⟨js "a", plainRegistry.generation, 1, plainIdentity⟩

end H2a.Handover
