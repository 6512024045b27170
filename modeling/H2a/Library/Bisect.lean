import Mathlib.Tactic.Common
/-!
# Bisection

The search of a threshold by halving, with a probe that may fail.  Nothing is asked of the probe:
the number that is found was accepted, and its successor refused, even where the probe accepts and
refuses without order (`bisect_ok`).
-/

namespace H2a.Library

variable {ε : Type}

/-- `while (lo < hi)` with `mid = ⌈(lo + hi) / 2⌉`, which goes up where `mid` is accepted and below
it where it is not.  A fuel of `hi - lo` is enough. -/
def bisect (probe : Nat → Except ε Bool) : Nat → Nat → Nat → Except ε Nat
  | 0, lo, _ => .ok lo
  | fuel + 1, lo, hi =>
      if lo < hi then
        let mid := (lo + hi + 1) / 2
        (probe mid).bind fun fits =>
          if fits then bisect probe fuel mid hi else bisect probe fuel lo (mid - 1)
      else .ok lo

/-- What a search between `lo` and `hi` finds. -/
structure Threshold (probe : Nat → Except ε Bool) (lo hi n : Nat) : Prop where
  lower : lo ≤ n
  upper : n ≤ hi
  accepted : n = lo ∨ probe n = .ok true
  refused : n = hi ∨ probe (n + 1) = .ok false

theorem Threshold.self (probe : Nat → Except ε Bool) (n : Nat) : Threshold probe n n n :=
  ⟨Nat.le_refl n, Nat.le_refl n, Or.inl rfl, Or.inl rfl⟩

theorem bisect_ok {probe : Nat → Except ε Bool} (fuel : Nat) {lo hi n : Nat} (hle : lo ≤ hi)
    (hfuel : hi - lo ≤ fuel) (h : bisect probe fuel lo hi = .ok n) : Threshold probe lo hi n := by
  induction fuel generalizing lo hi with
  | zero =>
      have heq : hi = lo := by omega
      rw [bisect] at h
      rw [heq, ← Except.ok.inj h]
      exact .self probe lo
  | succ fuel ih =>
      rw [bisect] at h
      by_cases hlt : lo < hi
      · rw [if_pos hlt] at h
        dsimp only at h
        cases hprobe : probe ((lo + hi + 1) / 2) with
        | error e =>
            rw [hprobe] at h
            cases h
        | ok fits =>
            rw [hprobe] at h
            cases fits with
            | true =>
                have found := ih (by omega) (by omega) h
                have hlower := found.lower
                refine ⟨by omega, found.upper, Or.inr ?_, found.refused⟩
                rcases found.accepted with heq | haccepted
                · rw [heq, hprobe]
                · exact haccepted
            | false =>
                have found := ih (by omega) (by omega) h
                have hupper := found.upper
                refine ⟨found.lower, by omega, found.accepted, Or.inr ?_⟩
                rcases found.refused with heq | hrefused
                · rw [heq, Nat.sub_add_cancel (by omega), hprobe]
                · exact hrefused
      · have heq : hi = lo := by omega
        rw [if_neg hlt] at h
        rw [heq, ← Except.ok.inj h]
        exact .self probe lo

end H2a.Library
