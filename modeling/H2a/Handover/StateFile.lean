import H2a.Handover.Records
/-!
# State files

`write` of `packages/h2a/src/runtime/handover/state.js`, behind `publishState` and `replaceState`,
where every step of the file system may fail.  A file is complete before one link or rename
publishes it; an error after that says that persistence is indeterminate.
-/

namespace H2a.Handover

open H2a.Library

variable {V : Type} [DecidableEq V]

/-- The steps of `write`; `publish` is the link or the rename. -/
inductive FsStep where
  | privateDirectory
  | openDirectory
  | openTemp
  | writeTemp
  | syncTemp
  | closeTemp
  | readExpected
  | publish
  | unlinkTemp
  | syncDirectory
  | readBack
  /-- the steps of `finally` -/
  | removeTemp
  | closeDirectory
  deriving DecidableEq

/-- The steps that fail in one write. -/
abbrev Faults := FsStep → Bool

/-- No step fails. -/
def Faults.none : Faults := fun _ => false

inductive WriteError where
  /-- `persistence_indeterminate:reconcile_before_mutation` -/
  | indeterminate
  | other
  deriving DecidableEq

/-! ## Writes -/

inductive FileWrite (V : Type) where
  | publishOwnership (value : Ownership)
  | replaceOwnership (attachmentId : JsString) (expected value : Ownership)
  | publishOperation (value : Operation V)
  | replaceOperation (operationId : JsString) (expected value : Operation V)
  | publishEffect (event : OwnerEffect V)
  | publishCheckpoint (hash : JsString) (snapshot : Checkpoint V)
  /-- `bump()` -/
  | bump

namespace FileWrite

/-- `if (expected)` -/
def replaces : FileWrite V → Bool
  | .replaceOwnership _ _ _ | .replaceOperation _ _ _ | .bump => true
  | _ => false

/-- `validate(schema, value)` -/
def valid (directory : Directory V) : FileWrite V → Bool
  | .publishOwnership value => value.valid
  | .replaceOwnership _ _ value => value.valid
  | .publishOperation value => value.valid
  | .replaceOperation _ _ value => value.valid
  | .publishEffect event => event.valid
  | .publishCheckpoint _ snapshot => snapshot.valid
  | .bump => isPositive (directory.revision + 1)

/-- What a replaced file is compared with, and that a published one does not exist. -/
def matchesCurrent (directory : Directory V) : FileWrite V → Bool
  | .publishOwnership value => !directory.ownerships.has value.attachmentId
  | .replaceOwnership attachmentId expected value =>
      directory.ownerships.get attachmentId = some expected &&
        expected.ownershipEpoch ≤ value.ownershipEpoch
  | .publishOperation value => !directory.operations.has value.operationId
  | .replaceOperation operationId expected value =>
      directory.operations.get operationId = some expected &&
        value.revision = expected.revision + 1
  | .publishEffect event => !directory.effects.has (event.operationId, event.result)
  | .publishCheckpoint hash _ => !directory.checkpoints.has hash
  | .bump => true

/-- The link or the rename. -/
def publish (directory : Directory V) : FileWrite V → Directory V
  | .publishOwnership value =>
      { directory with ownerships := directory.ownerships.set value.attachmentId value }
  | .replaceOwnership attachmentId _ value =>
      { directory with ownerships := directory.ownerships.set attachmentId value }
  | .publishOperation value =>
      { directory with operations := directory.operations.set value.operationId value }
  | .replaceOperation operationId _ value =>
      { directory with operations := directory.operations.set operationId value }
  | .publishEffect event =>
      { directory with effects := directory.effects.set (event.operationId, event.result) event }
  | .publishCheckpoint hash snapshot =>
      { directory with checkpoints := directory.checkpoints.set hash snapshot }
  | .bump => { directory with revision := directory.revision + 1 }

/-- Whether the file is published. -/
def publishes (faults : Faults) (directory : Directory V) (write : FileWrite V) : Bool :=
  !faults .privateDirectory && write.valid directory && !faults .openDirectory &&
    !faults .openTemp && !faults .writeTemp && !faults .syncTemp && !faults .closeTemp &&
    !(write.replaces && faults .readExpected) && write.matchesCurrent directory &&
    !faults .publish

/-- The error of `catch`. -/
def caught (faults : Faults) (directory : Directory V) (write : FileWrite V) :
    Option WriteError :=
  if !write.publishes faults directory then some .other
  else if (!write.replaces && faults .unlinkTemp) || faults .syncDirectory || faults .readBack then
    some .indeterminate
  else none

/-- The error of `write`: that of a step of `finally` takes the place of the one before. -/
def error (faults : Faults) (directory : Directory V) (write : FileWrite V) : Option WriteError :=
  if faults .removeTemp || faults .closeDirectory then some .other
  else write.caught faults directory

/-- `write(path, value, schema, expected)` -/
def write (faults : Faults) (directory : Directory V) (write : FileWrite V) :
    Directory V × Option WriteError :=
  (if write.publishes faults directory then write.publish directory else directory,
    write.error faults directory)

end FileWrite

/-- The writes of a mutation, one after the other until one throws; `faults` are those of each. -/
def performWrites (directory : Directory V) :
    (faults : List Faults) → List (FileWrite V) → Directory V × Option WriteError
  | _, [] => (directory, none)
  | faults, write :: writes =>
      match write.write (faults.headD .none) directory with
      | (directory, some error) => (directory, some error)
      | (directory, none) => performWrites directory faults.tail writes

namespace FileWrite

variable {faults : Faults} {directory : Directory V} {write : FileWrite V}

theorem error_of_not_publishes (h : ¬write.publishes faults directory = true) :
    write.error faults directory = some .other := by
  rw [Bool.not_eq_true] at h
  simp [error, caught, h]

theorem publishes_of_error (h : write.error faults directory = none) :
    write.publishes faults directory = true := by
  apply Classical.byContradiction
  intro hpublishes
  rw [error_of_not_publishes hpublishes] at h
  cases h

theorem matchesCurrent_of_publishes (h : write.publishes faults directory = true) :
    write.matchesCurrent directory = true := by
  simp only [publishes, Bool.and_eq_true] at h
  exact h.1.2

end FileWrite

theorem performWrites_of_error {faults : List Faults} {directory : Directory V}
    {write : FileWrite V} {writes : List (FileWrite V)} {error : WriteError}
    (h : write.error (faults.headD .none) directory = some error) :
    performWrites directory faults (write :: writes) =
      (if write.publishes (faults.headD .none) directory then write.publish directory
        else directory, some error) := by
  simp only [performWrites, FileWrite.write, h]

theorem performWrites_of_none {faults : List Faults} {directory : Directory V}
    {write : FileWrite V} {writes : List (FileWrite V)}
    (h : write.error (faults.headD .none) directory = none) :
    performWrites directory faults (write :: writes) =
      performWrites (write.publish directory) faults.tail writes := by
  simp only [performWrites, FileWrite.write, h, FileWrite.publishes_of_error h, if_true]

end H2a.Handover
