import H2a.Handover.Administration
import H2a.Library.Transition
/-!
# The life of a transaction

What an upgrade transaction is for, as the graph of its states: it opens, it is given up, or it is
committed; a cold stop goes through the attempts of a successor, a live transfer retires its source.
-/

namespace H2a.Handover

open H2a.Library

namespace TransactionState

/-- A transaction that can still be given up. -/
def isOpen (state : TransactionState) : Bool := !state.irrevocable && state ≠ .aborted

/-- The states of a live transfer whose publication is effective. -/
def transferred (state : TransactionState) : Bool := state = .published || state = .retired

/-- The states between a barrier and a commitment. -/
def barred (state : TransactionState) : Bool :=
  state ∈ [.barrier, .frozen, .draining, .drainBlocked]

/-- A transaction that is over. -/
def final (state : TransactionState) : Bool :=
  state ∈ [.aborted, .retired, .ready, .successorFailed]

/-- The edges of the graph. -/
def leadsTo (mode : UpgradeMode) (old : TransactionState) : TransactionState → Bool
  | .barrier => old ∈ [.prechecked, .reserved]
  | .frozen => old.barred
  | .draining => mode = .coldStop && old ∈ [.barrier, .frozen]
  | .drainBlocked => old.isOpen && old ≠ .recoveryBlocked
  | .recoveryBlocked => mode = .liveTransfer && old.isOpen
  | .aborted => old.isOpen && !(mode = .liveTransfer && old = .recoveryBlocked)
  | .published => mode = .liveTransfer && old ∈ [.frozen, .recoveryBlocked]
  | .retired => mode = .liveTransfer && old = .published
  | .stopCommitted => mode = .coldStop && old.barred
  | .stopped => old ∈ [.stopCommitted, .starting]
  | .starting => old ∈ [.stopCommitted, .stopped, .starting]
  | .ready | .successorFailed => old = .starting
  | .reserved | .prechecked | .deferredPaused => false

/-- What can become of a transaction. -/
abbrev Leads (mode : UpgradeMode) : TransactionState → TransactionState → Prop :=
  Reaches fun old new => leadsTo mode old new = true

variable {mode : UpgradeMode} {old new : TransactionState}

def states : List TransactionState :=
  [.reserved, .prechecked, .barrier, .frozen, .published, .draining, .retired, .stopCommitted,
    .stopped, .starting, .ready, .successorFailed, .aborted, .drainBlocked, .deferredPaused,
    .recoveryBlocked]

theorem mem_states (state : TransactionState) : state ∈ states := by
  cases state <;> decide

def modes : List UpgradeMode := [.coldStop, .liveTransfer, .catalogue]

theorem mem_modes (mode : UpgradeMode) : mode ∈ modes := by
  cases mode <;> decide

theorem not_transferred (h : old.irrevocable = false) : old.transferred = false := by
  cases old <;> first | rfl | cases h

theorem irrevocable_of_leadsTo (h : leadsTo mode old new = true) (hold : old.irrevocable = true) :
    new.irrevocable = true := by
  have htable : ∀ old ∈ states, ∀ new ∈ states,
      (∃ mode ∈ modes, leadsTo mode old new = true) → old.irrevocable = true →
        new.irrevocable = true := by
    decide +kernel
  exact htable old (mem_states old) new (mem_states new) ⟨mode, mem_modes mode, h⟩ hold

/-- A commitment is for good. -/
theorem Leads.irrevocable (h : Leads mode old new) (hold : old.irrevocable = true) :
    new.irrevocable = true := h.invariant hold fun _ _ hs hstep => irrevocable_of_leadsTo hstep hs

theorem not_leadsTo_of_final (h : old.final = true) : leadsTo mode old new = false := by
  have htable : ∀ old ∈ states, old.final = true → ∀ new ∈ states, ∀ mode ∈ modes,
      leadsTo mode old new = false := by
    decide +kernel
  exact htable old (mem_states old) h new (mem_states new) mode (mem_modes mode)

/-- A transaction that is over stays as it is. -/
theorem Leads.final (h : Leads mode old new) (hold : old.final = true) : new = old := by
  refine h.invariant (I := fun state => state = old) rfl fun s t hs hstep => ?_
  rw [hs, not_leadsTo_of_final hold] at hstep
  cases hstep

/-- The commitment of a live transfer is its publication. -/
theorem transferred_of_leadsTo (h : leadsTo .liveTransfer old new = true)
    (hold : old.irrevocable = true → old.transferred = true) (hnew : new.irrevocable = true) :
    new.transferred = true := by
  have htable : ∀ old ∈ states, ∀ new ∈ states, leadsTo .liveTransfer old new = true →
      (old.irrevocable = true → old.transferred = true) → new.irrevocable = true →
        new.transferred = true := by
    decide +kernel
  exact htable old (mem_states old) new (mem_states new) h hold hnew

end TransactionState

end H2a.Handover
