import Mathlib.Logic.Function.Basic
import H2a.Library.JsString
import H2a.Library.Transition
/-!
# Lineage leases

`packages/h2a-runtime/src/lineage-lease.ts` on one lineage, one file-system step after the
other, for any number of processes.  "`epoch` is the fencing token: every mutation must
present the current epoch."  There is no lock, and one temporary file for all.
-/

namespace H2a.Runtime

open H2a.Library

/-! ## The source -/

inductive LeaseLocation where
  | local_
  | remote
  deriving DecidableEq

/-- The record of the lease file.  Times are in milliseconds. -/
structure LineageLease where
  lineageId : JsString
  epoch : Nat
  holder : JsString
  incarnationId : JsString
  location : LeaseLocation
  expiresAt : Int
  deriving DecidableEq

/-- The four operations, with their arguments. -/
inductive LeaseCall where
  | acquire (holder incarnationId : JsString) (location : LeaseLocation) (ttlMs : Int)
  | renew (holder : JsString) (expectedEpoch : Nat) (ttlMs : Int)
  | handoff (fromHolder : JsString) (expectedEpoch : Nat) (toHolder toIncarnationId : JsString)
      (toLocation : LeaseLocation) (ttlMs : Int)
  | release (holder : JsString) (expectedEpoch : Nat)

inductive LeaseError where
  | conflict (current : LineageLease)
  | staleEpoch
  | notHolder

/-- `isLeaseExpired(lease)` -/
def isLeaseExpired (lease : LineageLease) (now : Int) : Prop := lease.expiresAt ≤ now

instance (lease : LineageLease) (now : Int) : Decidable (isLeaseExpired lease now) :=
  inferInstanceAs (Decidable (_ ≤ _))

/-- What an operation goes on to do when it has read the lease.  The time to live is added to the
clock when the lease is written. -/
inductive LeaseEffect where
  | write (lease : LineageLease) (ttlMs : Int)
  | remove
  /-- there is nothing to release -/
  | none_

/-- `acquireLease`: a lease that is expired is taken over, and keeps its epoch. -/
def acquireLease (lineageId holder incarnationId : JsString) (location : LeaseLocation)
    (ttlMs : Int) (existing : Option LineageLease) (now : Int) : Except LeaseError LeaseEffect :=
  match existing with
  | none => .ok (.write ⟨lineageId, 0, holder, incarnationId, location, now⟩ ttlMs)
  | some existing =>
      if isLeaseExpired existing now then
        .ok (.write ⟨lineageId, existing.epoch, holder, incarnationId, location, now⟩ ttlMs)
      else .error (.conflict existing)

/-- What `renewLease`, `handoffLease` and `releaseLease` check first. -/
def checkPresented (current : LineageLease) (holder : JsString) (expectedEpoch : Nat) :
    Except LeaseError Unit :=
  if current.epoch ≠ expectedEpoch then .error .staleEpoch
  else if current.holder ≠ holder then .error .notHolder
  else .ok ()

/-- `renewLease` -/
def renewLease (holder : JsString) (expectedEpoch : Nat) (ttlMs : Int) :
    Option LineageLease → Except LeaseError LeaseEffect
  | none => .error .staleEpoch
  | some current =>
      (checkPresented current holder expectedEpoch).map fun _ => .write current ttlMs

/-- `handoffLease` -/
def handoffLease (lineageId fromHolder : JsString) (expectedEpoch : Nat)
    (toHolder toIncarnationId : JsString) (toLocation : LeaseLocation) (ttlMs : Int) :
    Option LineageLease → Except LeaseError LeaseEffect
  | none => .error .staleEpoch
  | some current =>
      (checkPresented current fromHolder expectedEpoch).map fun _ =>
        .write ⟨lineageId, current.epoch + 1, toHolder, toIncarnationId, toLocation,
          current.expiresAt⟩ ttlMs

/-- `releaseLease` -/
def releaseLease (holder : JsString) (expectedEpoch : Nat) :
    Option LineageLease → Except LeaseError LeaseEffect
  | none => .ok .none_
  | some current => (checkPresented current holder expectedEpoch).map fun _ => .remove

/-- What an operation makes of the lease it has read. -/
def LeaseCall.decide (lineageId : JsString) (call : LeaseCall) (read : Option LineageLease)
    (now : Int) : Except LeaseError LeaseEffect :=
  match call with
  | .acquire holder incarnationId location ttlMs =>
      acquireLease lineageId holder incarnationId location ttlMs read now
  | .renew holder expectedEpoch ttlMs => renewLease holder expectedEpoch ttlMs read
  | .handoff fromHolder expectedEpoch toHolder toIncarnationId toLocation ttlMs =>
      handoffLease lineageId fromHolder expectedEpoch toHolder toIncarnationId toLocation ttlMs
        read
  | .release holder expectedEpoch => releaseLease holder expectedEpoch read

/-! ## Processes -/

/-- The holder and the epoch of a lease. -/
structure Grant where
  holder : JsString
  epoch : Nat
  deriving DecidableEq

def LineageLease.grant (lease : LineageLease) : Grant := ⟨lease.holder, lease.epoch⟩

/-- What has succeeded. -/
inductive LeaseEvent where
  /-- an acquisition, of no lease or of one that was expired at `at_` -/
  | acquired (grant : Grant) (overtaken : Option LineageLease) (at_ : Int)
  | renewed (presented : Grant)
  | handedOff (presented grant : Grant)
  | released (presented : Grant)
  | nothingToRelease (presented : Grant)
  deriving DecidableEq

/-- Where a process stands. -/
inductive LeasePc where
  | idle
  /-- before `readFileSync` -/
  | reading (call : LeaseCall)
  /-- before the write of the temporary file -/
  | writing (call : LeaseCall) (read : Option LineageLease) (lease : LineageLease) (ttlMs : Int)
  /-- before `renameSync` -/
  | publishing (call : LeaseCall) (read : Option LineageLease) (lease : LineageLease)
  /-- before `rmSync` -/
  | removing (call : LeaseCall) (read : Option LineageLease)

/-- What a call that returns has done. -/
def LeaseCall.event (call : LeaseCall) (read : Option LineageLease) (lease : LineageLease)
    (now : Int) : LeaseEvent :=
  match call with
  | .acquire .. => .acquired lease.grant read now
  | .renew holder expectedEpoch _ => .renewed ⟨holder, expectedEpoch⟩
  | .handoff fromHolder expectedEpoch .. => .handedOff ⟨fromHolder, expectedEpoch⟩ lease.grant
  | .release holder expectedEpoch => .released ⟨holder, expectedEpoch⟩

/-- The holder and the epoch a call presents. -/
def LeaseCall.presented : LeaseCall → Grant
  | .acquire holder .. => ⟨holder, 0⟩
  | .renew holder expectedEpoch _ => ⟨holder, expectedEpoch⟩
  | .handoff fromHolder expectedEpoch .. => ⟨fromHolder, expectedEpoch⟩
  | .release holder expectedEpoch => ⟨holder, expectedEpoch⟩

/-- The clock, the lease file and its temporary file, the processes, and what has succeeded. -/
structure LeaseSystem (P : Type) where
  clock : Int
  file : Option LineageLease
  tmp : Option LineageLease
  pc : P → LeasePc
  log : List LeaseEvent

inductive LeaseAction (P : Type) where
  | tick (ms : Nat)
  | call (p : P) (call : LeaseCall)
  /-- the next step of the call of a process -/
  | step (p : P)
  | crash (p : P)

namespace LeaseSystem

variable {P : Type} [DecidableEq P]

def goto (s : LeaseSystem P) (p : P) (pc : LeasePc) : LeaseSystem P :=
  { s with pc := Function.update s.pc p pc }

/-- The call of a process returns. -/
def returns (s : LeaseSystem P) (p : P) (event : LeaseEvent) : LeaseSystem P :=
  goto { s with log := s.log ++ [event] } p .idle

/-- The next step of the call of a process. -/
def next (lineageId : JsString) (s : LeaseSystem P) (p : P) : LeaseSystem P :=
  match s.pc p with
  | .idle => s
  | .reading call =>
      match call.decide lineageId s.file s.clock with
      | .error _ => s.goto p .idle
      | .ok (.write lease ttlMs) => s.goto p (.writing call s.file lease ttlMs)
      | .ok .remove => s.goto p (.removing call s.file)
      | .ok .none_ => s.returns p (.nothingToRelease call.presented)
  | .writing call read lease ttlMs =>
      let stamped := { lease with expiresAt := s.clock + ttlMs }
      goto { s with tmp := some stamped } p (.publishing call read stamped)
  | .publishing call read lease =>
      match s.tmp with
      | none => s.goto p .idle
      | some written =>
          returns { s with file := some written, tmp := none } p (call.event read lease s.clock)
  | .removing call _ => returns { s with file := none } p (.released call.presented)

/-- What an action leads to. -/
def act (lineageId : JsString) (s : LeaseSystem P) : LeaseAction P → LeaseSystem P
  | .tick ms => { s with clock := s.clock + ms }
  | .call p call =>
      match s.pc p with
      | .idle => s.goto p (.reading call)
      | _ => s
  | .step p => s.next lineageId p
  | .crash p => s.goto p .idle

/-- No lease, at some time. -/
def start (clock : Int) : LeaseSystem P := ⟨clock, none, none, fun _ => .idle, []⟩

end LeaseSystem

/-! ## What is claimed -/

namespace LeaseEvent

/-- The grant an event makes. -/
def grants : LeaseEvent → Option Grant
  | .acquired grant _ _ => some grant
  | .handedOff _ grant => some grant
  | _ => none

/-- What a renewal, a handoff or a release of a lease presents. -/
def presents : LeaseEvent → Option Grant
  | .renewed presented => some presented
  | .handedOff presented _ => some presented
  | .released presented => some presented
  | _ => none

def isRelease : LeaseEvent → Bool
  | .released _ => true
  | _ => false

/-- The takeover of a lease that is expired. -/
def isTakeover : LeaseEvent → Bool
  | .acquired _ (some _) _ => true
  | _ => false

/-- The latest grant not yet released, after an event. -/
def latestAfter (latest : Option Grant) : LeaseEvent → Option Grant
  | .acquired grant _ _ => some grant
  | .handedOff _ grant => some grant
  | .released _ => none
  | _ => latest

end LeaseEvent

/-- The latest grant not yet released. -/
def latest (log : List LeaseEvent) : Option Grant := log.foldl LeaseEvent.latestAfter none

/-- The same, where a takeover keeps the epoch, a release forgets it, and nothing is released
where no grant is left. -/
structure Fenced (log : List LeaseEvent) : Prop where
  epochs : ∀ (before : List LeaseEvent) (e : LeaseEvent) (mid : List LeaseEvent)
    (e' : LeaseEvent) (after : List LeaseEvent), log = before ++ e :: (mid ++ e' :: after) →
    ∀ g g', e.grants = some g → e'.grants = some g' → (∀ x ∈ mid, x.isRelease = false) →
      g.epoch ≤ g'.epoch
  pairs : ∀ (before : List LeaseEvent) (e : LeaseEvent) (mid : List LeaseEvent)
    (e' : LeaseEvent) (after : List LeaseEvent), log = before ++ e :: (mid ++ e' :: after) →
    ∀ g g', e.grants = some g → e'.grants = some g' →
      (∀ x ∈ mid ++ [e'], x.isRelease = false ∧ x.isTakeover = false) → g ≠ g'
  expired : ∀ grant overtaken at_, LeaseEvent.acquired grant (some overtaken) at_ ∈ log →
    isLeaseExpired overtaken at_
  presented : ∀ (before : List LeaseEvent) (e : LeaseEvent) (after : List LeaseEvent),
    log = before ++ e :: after → ∀ presented, e.presents = some presented →
      latest before = some presented
  absent : ∀ before after presented,
    log = before ++ LeaseEvent.nothingToRelease presented :: after →
    latest before = none

/-- No write overtakes another: a process publishes the temporary file it has written, or removes
the lease, while the lease file is what it has read. -/
def Undisturbed {P : Type} (s : LeaseSystem P) : LeaseAction P → Prop
  | .step p =>
      match s.pc p with
      | .publishing _ read lease => s.file = read ∧ s.tmp = some lease
      | .removing _ read => s.file = read
      | _ => True
  | _ => True

end H2a.Runtime
