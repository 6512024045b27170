import H2a.Handover.Ownership
import H2a.Library.Transition
/-!
# The participant revision

A mutation writes its records and then the revision, as files of their own.  The revision tells
the records apart as long as no write stops a mutation between the two.
-/

namespace H2a.Handover

open H2a.Library

variable {R V : Type} [DecidableEq R] [DecidableEq V]

/-! ## The registries of a directory -/

/-- The ownership, operation and effect records. -/
abbrev Records (V : Type) :=
  JsMap JsString Ownership × JsMap JsString (Operation V) × JsMap (JsString × V) (OwnerEffect V)

/-- A `revision()` that returned, with the records of that moment. -/
structure RevisionRead (R V : Type) where
  registry : R
  indeterminate : Bool
  revision : Nat
  records : Records V

/-- Two reads by one registry, which was not marked at either, return the same number. -/
def RevisionRead.SameRevision (a b : RevisionRead R V) : Prop :=
  a.registry = b.registry ∧ a.indeterminate = false ∧ b.indeterminate = false ∧
    a.revision = b.revision

/-- A mutation that ended; `indeterminate` is whether it left its registry marked. -/
structure MutationEnd (V : Type) where
  threw : Bool
  indeterminate : Bool
  before : Records V
  after : Records V

structure RevisionSystem (R V : Type) where
  directory : Directory V
  registry : R → Registry
  reads : List (RevisionRead R V)
  ends : List (MutationEnd V)

inductive RevisionAction (R V : Type) where
  /-- a mutation, with the steps that fail in each of its writes -/
  | mutate (r : R) (mutation : Mutation V) (faults : List Faults)
  | revision (r : R)
  /-- a `reconcile()` that returned -/
  | reconcile (r : R)

namespace RevisionSystem

/-- What `withLock` makes of what a mutation comes to. -/
def mark (s : RevisionSystem R V) (r : R) (error : Option WriteError) : R → Registry :=
  if error = some .indeterminate then
    Function.update s.registry r { s.registry r with indeterminate := true }
  else s.registry

/-- The writes of a mutation have returned, or one of them has thrown. -/
def wrote (s : RevisionSystem R V) (r : R) (directory : Directory V) (error : Option WriteError) :
    RevisionSystem R V :=
  { s with
    directory := directory
    registry := s.mark r error
    ends := s.ends ++ [⟨error.isSome, (s.mark r error r).indeterminate, s.directory.records,
      directory.records⟩] }

def act (digest : Checkpoint V → JsString) (s : RevisionSystem R V) :
    RevisionAction R V → RevisionSystem R V
  | .mutate r mutation faults =>
      match mutation.plan (s.registry r) s.directory digest with
      | .error _ => s.wrote r s.directory (some .other)
      | .ok plan =>
          let result := performWrites s.directory faults plan.writes
          s.wrote r result.1 result.2
  | .revision r =>
      { s with reads := s.reads ++ [⟨r, (s.registry r).indeterminate, s.directory.revision,
        s.directory.records⟩] }
  | .reconcile r =>
      { s with
        registry := Function.update s.registry r { s.registry r with indeterminate := false } }

/-- The registries have been opened. -/
def start (registry : R → Registry) : RevisionSystem R V := ⟨.opened, registry, [], []⟩

/-- The revision witnesses every change. -/
structure Witnessed (s : RevisionSystem R V) : Prop where
  reads : ∀ a ∈ s.reads, ∀ b ∈ s.reads, a.SameRevision b → a.records = b.records
  drains : ∀ a ∈ s.reads, ∀ b ∈ s.reads, a.SameRevision b →
    ∀ scope, drainCounts scope a.records.2.1 = drainCounts scope b.records.2.1
  ends : ∀ e ∈ s.ends, e.threw = true → e.indeterminate = false → e.before = e.after

end RevisionSystem

/-! ## Mutations that are not cut short -/

namespace FileWrite

/-- The file is an ownership, operation or effect record. -/
def isRecord : FileWrite V → Bool
  | .publishCheckpoint _ _ | .bump => false
  | _ => true

end FileWrite

/-- All the files are published without an error, the last of them at most with one that says
that persistence is indeterminate. -/
def Settles (directory : Directory V) : List Faults → List (FileWrite V) → Prop
  | _, [] => True
  | faults, write :: writes =>
      write.publishes (faults.headD .none) directory = true ∧
        (write.error (faults.headD .none) directory = none ∨
          writes = [] ∧ write.error (faults.headD .none) directory = some .indeterminate) ∧
        Settles (write.publish directory) faults.tail writes

/-- From the first record that is published, everything settles. -/
def Uncut (directory : Directory V) : List Faults → List (FileWrite V) → Prop
  | _, [] => True
  | faults, write :: writes =>
      if write.isRecord then
        write.publishes (faults.headD .none) directory = true →
          Settles directory faults (write :: writes)
      else
        write.error (faults.headD .none) directory = none →
          Uncut (write.publish directory) faults.tail writes

/-- A mutation that publishes a record comes to the end of its writes. -/
def RevisionSystem.Unbroken (digest : Checkpoint V → JsString) (s : RevisionSystem R V) :
    RevisionAction R V → Prop
  | .mutate r mutation faults =>
      ∀ plan, mutation.plan (s.registry r) s.directory digest = .ok plan →
        Uncut s.directory faults plan.writes
  | _ => True

end H2a.Handover
