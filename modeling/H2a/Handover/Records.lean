import H2a.Library.JsMap
import H2a.Library.JsString
import Mathlib.Algebra.Group.Nat.Defs
/-!
# Records of a handover

The records that `packages/h2a/src/runtime/handover` keeps in a state directory, with the checks
of its `schemas.js`.  JSON values that are only kept and compared are of a type `V`, one for each
canonical text; a record is at the leaf of its id.
-/

namespace H2a.Handover

open H2a.Library

variable {V : Type} [DecidableEq V]

/-! ## Formats -/

/-- A text that `canonicalBytes` does not throw on: surrogates come in pairs. -/
def isWellFormed : List UInt16 → Bool
  | [] => true
  | unit :: units =>
      if 0xd800 ≤ unit ∧ unit ≤ 0xdbff then
        match units with
        | [] => false
        | next :: units => decide (0xdc00 ≤ next ∧ next ≤ 0xdfff) && isWellFormed units
      else if 0xdc00 ≤ unit ∧ unit ≤ 0xdfff then false
      else isWellFormed units

/-- `text` -/
def isText (s : JsString) : Bool := !s.units.isEmpty && isWellFormed s.units

def isDigit (unit : UInt16) : Bool := decide (48 ≤ unit ∧ unit ≤ 57)

/-- `[0-9a-f]` -/
def isHexDigit (unit : UInt16) : Bool := isDigit unit || decide (97 ≤ unit ∧ unit ≤ 102)

/-- `uuid` -/
def isUuid (s : JsString) : Bool :=
  s.length = 36 && s.units.zipIdx.all fun (unit, index) =>
    if index ∈ [8, 13, 18, 23] then unit = 45 else isHexDigit unit

/-- `hash` -/
def isHash (s : JsString) : Bool :=
  s.startsWith (js "sha256:") && s.length = 71 && (s.slice 7).units.all isHexDigit

/-- `Number.MAX_SAFE_INTEGER` -/
def maxSafeInteger : Nat := 2 ^ 53 - 1

/-- `integer` -/
def isInteger (n : Nat) : Bool := n ≤ maxSafeInteger

/-- `positive` -/
def isPositive (n : Nat) : Bool := 1 ≤ n && n ≤ maxSafeInteger

/-! ## The records -/

structure ProcessIdentity where
  machineId : JsString
  bootId : JsString
  pidNamespace : JsString
  nsNet : JsString
  pid : Nat
  startTime : Nat
  deriving DecidableEq

/-- `schemas.processIdentity` -/
def ProcessIdentity.valid (identity : ProcessIdentity) : Bool :=
  identity.machineId.length = 32 && identity.machineId.units.all isHexDigit &&
    !identity.machineId.units.all (· = 48) && isUuid identity.bootId &&
    (!identity.pidNamespace.units.isEmpty && identity.pidNamespace.units.all isDigit) &&
    (!identity.nsNet.units.isEmpty && identity.nsNet.units.all isDigit) &&
    isPositive identity.pid && isInteger identity.startTime

inductive OwnershipState where
  | active
  | frozen
  | transferring
  | closed
  deriving DecidableEq

structure Ownership where
  attachmentId : JsString
  ownerGeneration : JsString
  ownershipEpoch : Nat
  ownerProcessIdentity : ProcessIdentity
  state : OwnershipState
  handoverId : Option JsString
  checkpointVersion : Nat
  checkpointHash : Option JsString
  presenceSessionId : JsString
  expectedInstance : JsString
  deriving DecidableEq

/-- `schemas.ownership` -/
def Ownership.valid (value : Ownership) : Bool :=
  isText value.attachmentId && isUuid value.ownerGeneration && isPositive value.ownershipEpoch &&
    value.ownerProcessIdentity.valid && value.handoverId.all isText &&
    isPositive value.checkpointVersion && value.checkpointHash.all isHash &&
    isText value.presenceSessionId && isText value.expectedInstance

inductive OperationKind where
  | call
  | child
  | brief
  | callback
  | wake
  deriving DecidableEq

inductive OperationState where
  | pending
  | unknown
  | completed
  deriving DecidableEq

structure Operation (V : Type) where
  revision : Nat
  operationId : JsString
  attachmentId : JsString
  ownerGeneration : JsString
  executionOwner : ProcessIdentity
  kind : OperationKind
  state : OperationState
  result : Option V
  deriving DecidableEq

/-- `schemas.admittedOperation` -/
def Operation.valid (value : Operation V) : Bool :=
  isPositive value.revision && isText value.operationId && isText value.attachmentId &&
    isUuid value.ownerGeneration && value.executionOwner.valid

/-- The destination is always `current-owner`. -/
structure OwnerEffect (V : Type) where
  operationId : JsString
  attachmentId : JsString
  result : V
  deriving DecidableEq

/-- `schemas.ownerEffect` -/
def OwnerEffect.valid (event : OwnerEffect V) : Bool :=
  isText event.operationId && isText event.attachmentId

/-- `rest` are the members that are only kept. -/
structure Checkpoint (V : Type) where
  attachmentId : JsString
  ownershipEpoch : Nat
  downstreamProtocol : JsString
  producedSequence : Nat
  deliveredSequence : Nat
  rest : V

/-- `schemas.checkpoint` -/
def Checkpoint.valid (snapshot : Checkpoint V) : Bool :=
  isText snapshot.attachmentId && isPositive snapshot.ownershipEpoch &&
    isText snapshot.downstreamProtocol && isInteger snapshot.producedSequence &&
    isInteger snapshot.deliveredSequence

/-- `writerControl.gate` -/
inductive WriterGate where
  | open
  | barrier
  | closed
  deriving DecidableEq

/-- A state directory with the gate of its lock directory.  A registry has been opened, so there
is a revision; effects are at the leaf of operation and result, checkpoints at that of a hash. -/
structure Directory (V : Type) where
  revision : Nat
  ownerships : JsMap JsString Ownership
  operations : JsMap JsString (Operation V)
  effects : JsMap (JsString × V) (OwnerEffect V)
  checkpoints : JsMap JsString (Checkpoint V)
  gate : WriterGate

/-- The first registry has been opened. -/
def Directory.opened : Directory V := ⟨1, .empty, .empty, .empty, .empty, .open⟩

/-- The ownership, operation and effect records. -/
def Directory.records (directory : Directory V) :
    JsMap JsString Ownership × JsMap JsString (Operation V) ×
      JsMap (JsString × V) (OwnerEffect V) :=
  (directory.ownerships, directory.operations, directory.effects)

end H2a.Handover
