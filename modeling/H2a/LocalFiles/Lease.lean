import Mathlib.Data.Fintype.Basic
import Mathlib.Logic.Function.Basic
import Mathlib.Tactic.Common
import H2a.Library.Transition
/-!
# Leases

`packages/h2a/src/runtime/local-files/lease.ts`: `attemptAcquire` and `releaseLease`
on one path, step by step, for any number of contenders.  `withLeaseSync` makes
attempts until one succeeds, runs its section and releases; `tryAcquireLease` makes
one, and `releaseLeaseHandle` releases.  Random bytes are drawn but once.
-/

namespace H2a.LocalFiles.Lease

open H2a.Library

/-- `LeaseRecord`, without the labels nothing depends on. -/
structure LeaseRecord (Nonce : Type) where
  nonce : Nonce
  renewedAt : Nat
  leaseMs : Nat
  fencingToken : Nat
  deriving DecidableEq

/-- `isExpired(lease, at)`. -/
def isExpired {Nonce : Type} (lease : LeaseRecord Nonce) (at_ : Nat) : Prop :=
  lease.renewedAt + lease.leaseMs < at_

instance {Nonce : Type} (lease : LeaseRecord Nonce) (at_ : Nat) :
    Decidable (isExpired lease at_) :=
  inferInstanceAs (Decidable (_ < _))

/-- The clock and the random bytes `attemptAcquire` starts with. -/
structure Attempt (Nonce : Type) where
  at_ : Nat
  nonce : Nonce
  deriving DecidableEq

/-- The file a contender has created, what it writes there, and the lease it has stolen. -/
structure Held (Nonce : Type) where
  inode : Nat
  record : LeaseRecord Nonce
  stolen : Option (LeaseRecord Nonce)
  deriving DecidableEq

/-- Where a contender stands. -/
inductive Pc (Nonce : Type) where
  | idle
  /-- before `openSync(lockPath, "wx")` -/
  | creating (attempt : Attempt Nonce)
  /-- between the creation and the write of the record -/
  | writing (held : Held Nonce)
  /-- after `EEXIST` -/
  | reading (attempt : Attempt Nonce)
  /-- what it has read was expired or malformed -/
  | stealing (attempt : Attempt Nonce) (inode : Nat) (existing : Option (LeaseRecord Nonce))
  | recreating (attempt : Attempt Nonce) (existing : Option (LeaseRecord Nonce))
  | holding (held : Held Nonce)
  /-- in `releaseLease` -/
  | releasing (held : Held Nonce)
  /-- the nonce on disk was its own -/
  | unlinking (held : Held Nonce)
  deriving DecidableEq

namespace Pc

variable {Nonce : Type}

/-- The handle that is not yet released. -/
def held : Pc Nonce → Option (Held Nonce)
  | .holding h => some h
  | .releasing h => some h
  | .unlinking h => some h
  | _ => none

/-- The file created, up to its release. -/
def created : Pc Nonce → Option (Held Nonce)
  | .writing h => some h
  | pc => pc.held

/-- What is about to be stolen: the file that was read, and the lease in it. -/
def target : Pc Nonce → Option (Nat × Option (LeaseRecord Nonce))
  | .stealing _ inode existing => some (inode, existing)
  | _ => none

/-- The file created whose record is not yet written. -/
def unwritten : Pc Nonce → Option (Held Nonce)
  | .writing h => some h
  | _ => none

end Pc

/-- The lock path, the files by inode, and the contenders. -/
structure System (P Nonce : Type) where
  clock : Nat
  path : Option Nat
  /-- a file is empty until its record is written -/
  files : Nat → Option (LeaseRecord Nonce)
  nextInode : Nat
  drawn : List Nonce
  pc : P → Pc Nonce
  dead : P → Bool
  /-- the leases written, one for each handle obtained -/
  written : List (LeaseRecord Nonce)

inductive Action (P Nonce : Type) where
  | tick (ms : Nat)
  /-- `attemptAcquire` is called -/
  | begin_ (p : P) (nonce : Nonce)
  /-- its next step, or that of `releaseLease` -/
  | move (p : P)
  /-- `releaseLease` is called -/
  | release (p : P)
  | crash (p : P)

section Steps

variable {P Nonce : Type} [DecidableEq P] [DecidableEq Nonce]

def System.initial : System P Nonce :=
  ⟨0, none, fun _ => none, 0, [], fun _ => .idle, fun _ => false, []⟩

def System.become (s : System P Nonce) (p : P) (pc : Pc Nonce) : System P Nonce :=
  { s with pc := Function.update s.pc p pc }

/-- The file is created for `record`, still empty. -/
def System.create (s : System P Nonce) (p : P) (record : LeaseRecord Nonce)
    (stolen : Option (LeaseRecord Nonce)) : System P Nonce :=
  { s.become p (.writing ⟨s.nextInode, record, stolen⟩) with
    path := some s.nextInode
    files := Function.update s.files s.nextInode none
    nextInode := s.nextInode + 1 }

/-- `(existing?.fencingToken ?? 0) + 1`. -/
def nextToken (existing : Option (LeaseRecord Nonce)) : Nat :=
  (existing.map (·.fencingToken)).getD 0 + 1

variable (leaseMs : Nat)

/-- The next step of a contender. -/
def System.advance (s : System P Nonce) (p : P) : Option (System P Nonce) :=
  match s.pc p with
  | .idle => none
  | .creating a =>
      match s.path with
      | none => some (s.create p ⟨a.nonce, a.at_, leaseMs, 1⟩ none)
      | some _ => some (s.become p (.reading a))
  | .writing h =>
      some { s.become p (.holding h) with
        files := Function.update s.files h.inode (some h.record)
        written := s.written ++ [h.record] }
  | .reading a =>
      match s.path with
      | none => some (s.become p .idle)
      | some inode =>
          match s.files inode with
          | none => some (s.become p (.stealing a inode none))
          | some existing =>
              if isExpired existing a.at_ then
                some (s.become p (.stealing a inode (some existing)))
              else some (s.become p .idle)
  | .stealing a _ existing => some { s.become p (.recreating a existing) with path := none }
  | .recreating a existing =>
      match s.path with
      | none => some (s.create p ⟨a.nonce, a.at_, leaseMs, nextToken existing⟩ existing)
      | some _ => some (s.become p .idle)
  | .holding _ => none
  | .releasing h =>
      match s.path.bind s.files with
      | none => some (s.become p .idle)
      | some current =>
          if current.nonce = h.record.nonce then some (s.become p (.unlinking h))
          else some (s.become p .idle)
  | .unlinking _ => some { s.become p .idle with path := none }

/-- The step, if it can be taken. -/
def step (s : System P Nonce) : Action P Nonce → Option (System P Nonce)
  | .tick ms => some { s with clock := s.clock + ms }
  | .begin_ p nonce =>
      if s.dead p = false ∧ s.pc p = .idle ∧ nonce ∉ s.drawn then
        some { s.become p (.creating ⟨s.clock, nonce⟩) with drawn := nonce :: s.drawn }
      else none
  | .move p => if s.dead p = false then s.advance leaseMs p else none
  | .release p =>
      match s.pc p with
      | .holding h => if s.dead p = false then some (s.become p (.releasing h)) else none
      | _ => none
  | .crash p => some { s with dead := Function.update s.dead p true }

/-- Every live holder is within `leaseMs` of the clock it has read. -/
def InTime (s : System P Nonce) : Prop :=
  ∀ p, s.dead p = false → ∀ h ∈ (s.pc p).held, s.clock ≤ h.record.renewedAt + leaseMs

/-- A live contender has a handle that is not released. -/
def System.holds (s : System P Nonce) (p : P) : Prop :=
  s.dead p = false ∧ (s.pc p).held.isSome

/-- What a step that steals removes is the file the contender has read, with the lease
it has found expired, or without any and its creator has died. -/
def StealsWhatItRead (s t : System P Nonce) : Prop :=
  ∀ p, ∀ target ∈ (s.pc p).target, t.pc p ≠ s.pc p → ∀ inode ∈ s.path,
    inode = target.1 ∧ (target.2 = none → s.files inode = none ∧
      ∀ q, s.dead q = false → ∀ h ∈ (s.pc q).unwritten, h.inode ≠ inode)

/-- Everyone is in time, and steals what it has read. -/
def Orderly (s t : System P Nonce) : Prop := InTime leaseMs t ∧ StealsWhatItRead s t

instance [Fintype P] (s : System P Nonce) : Decidable (InTime leaseMs s) :=
  inferInstanceAs (Decidable (∀ p, s.dead p = false → ∀ h ∈ (s.pc p).held, _ ≤ _))

instance [Fintype P] : DecidableRel (Orderly leaseMs : System P Nonce → System P Nonce → Prop) := fun s t =>
  inferInstanceAs (Decidable (InTime leaseMs t ∧
    ∀ p, ∀ target ∈ (s.pc p).target, t.pc p ≠ s.pc p → ∀ inode ∈ s.path, _ = _ ∧ (_ = _ →
      _ = _ ∧ ∀ q, s.dead q = false → ∀ h ∈ (s.pc q).unwritten, _ ≠ _)))

end Steps

end H2a.LocalFiles.Lease
