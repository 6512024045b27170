import Mathlib.Data.List.Infix
import Mathlib.Tactic.Common
/-!
# Replacing a marker in a stream

`Replaced` is the text that is written for a stream when each occurrence of a marker, from the
left, is answered by a text that depends on what was written before.  A reader that sees the
stream in pieces may write all but the end that can still become a marker (`Replaced.of_held`).
-/

namespace H2a.Library

variable {α : Type}

/-- The marker stands at place `i` of the text. -/
def OccursAt (marker text : List α) (i : Nat) : Prop := marker <+: text.drop i

/-- `all` is written for `text` after `out`: each occurrence of the marker, from the left, is
replaced by the answer to what is written before it. -/
inductive Replaced (marker : List α) (answer : List α → List α) :
    (out text all : List α) → Prop where
  | rest {out text : List α} (habsent : ∀ i, ¬OccursAt marker text i) :
      Replaced marker answer out text (out ++ text)
  | occurrence {out before after all : List α}
      (hfirst : ∀ i < before.length, ¬OccursAt marker (before ++ marker ++ after) i)
      (hafter : Replaced marker answer (out ++ before ++ answer (out ++ before)) after all) :
      Replaced marker answer out (before ++ marker ++ after) all

/-- `held` is the longest end of the text that is a proper prefix of the marker. -/
structure IsHeld (marker text held : List α) : Prop where
  isSuffix : held <:+ text
  isPrefix : held <+: marker
  proper : held.length < marker.length
  longest : ∀ other, other <:+ text → other <+: marker → other.length < marker.length →
    other.length ≤ held.length

/-- Where the marker first stands. -/
def indexOf [DecidableEq α] (marker : List α) : List α → Option Nat
  | [] => if marker.isPrefixOf [] then some 0 else none
  | a :: text =>
      if marker.isPrefixOf (a :: text) then some 0 else (indexOf marker text).map (· + 1)

variable {marker : List α} {answer : List α → List α}

/-! ## Occurrences -/

theorem occursAt_of_le {text more : List α} {i : Nat} (h : i + marker.length ≤ text.length) :
    OccursAt marker (text ++ more) i ↔ OccursAt marker text i := by
  have hdrop : (text ++ more).drop i = text.drop i ++ more := by
    rw [List.drop_append_of_le_length (by omega)]
  unfold OccursAt
  rw [hdrop]
  constructor
  · intro hprefix
    apply List.prefix_of_prefix_length_le hprefix (List.prefix_append _ _)
    rw [List.length_drop]
    omega
  · exact fun hprefix => hprefix.trans (List.prefix_append _ _)

theorem occursAt_append (before text : List α) (i : Nat) :
    OccursAt marker (before ++ text) (before.length + i) ↔ OccursAt marker text i := by
  unfold OccursAt
  rw [← List.drop_drop, List.drop_left]

theorem occursAt_marker (before after : List α) :
    OccursAt marker (before ++ marker ++ after) before.length := by
  unfold OccursAt
  rw [List.append_assoc, List.drop_left]
  exact List.prefix_append marker after

theorem OccursAt.le_length {text : List α} {i : Nat} (h : OccursAt marker text i)
    (hi : i ≤ text.length) : i + marker.length ≤ text.length := by
  have hlength := h.length_le
  rw [List.length_drop] at hlength
  omega

/-- The text up to the first occurrence is one, and so is the text after it. -/
theorem first_unique {before before' after after' : List α}
    (hfirst : ∀ i < before.length, ¬OccursAt marker (before ++ marker ++ after) i)
    (hfirst' : ∀ i < before'.length, ¬OccursAt marker (before' ++ marker ++ after') i)
    (h : before ++ marker ++ after = before' ++ marker ++ after') :
    before = before' ∧ after = after' := by
  have hlength : before.length = before'.length := by
    apply Nat.le_antisymm
    · apply Nat.le_of_not_lt
      intro hlt
      exact hfirst _ hlt (h ▸ occursAt_marker before' after')
    · apply Nat.le_of_not_lt
      intro hlt
      exact hfirst' _ hlt (h ▸ occursAt_marker before after)
  obtain ⟨hleft, hafter⟩ := List.append_inj h (by simp [hlength])
  exact ⟨(List.append_inj hleft hlength).1, hafter⟩

theorem indexOf_eq_some [DecidableEq α] {text : List α} {i : Nat}
    (h : indexOf marker text = some i) :
    i ≤ text.length ∧ OccursAt marker text i ∧ ∀ j < i, ¬OccursAt marker text j := by
  induction text generalizing i with
  | nil =>
      unfold indexOf at h
      split at h
      next hprefix =>
        cases h
        exact ⟨le_rfl, List.isPrefixOf_iff_prefix.mp hprefix, fun j hj => absurd hj (by omega)⟩
      next => cases h
  | cons a text ih =>
      unfold indexOf at h
      split at h
      next hprefix =>
        cases h
        exact ⟨Nat.zero_le _, List.isPrefixOf_iff_prefix.mp hprefix,
          fun j hj => absurd hj (by omega)⟩
      next hnot =>
        obtain ⟨k, hk, rfl⟩ := Option.map_eq_some_iff.mp h
        obtain ⟨hle, hoccurs, hfirst⟩ := ih hk
        refine ⟨Nat.succ_le_succ hle, hoccurs, fun j hj => ?_⟩
        cases j with
        | zero => exact fun hzero => hnot (List.isPrefixOf_iff_prefix.mpr hzero)
        | succ j => exact hfirst j (Nat.lt_of_succ_lt_succ hj)

theorem indexOf_eq_none [DecidableEq α] (hmarker : 0 < marker.length) {text : List α}
    (h : indexOf marker text = none) (i : Nat) : ¬OccursAt marker text i := by
  induction text generalizing i with
  | nil =>
      intro hoccurs
      have hlength := hoccurs.length_le
      rw [List.length_drop, List.length_nil] at hlength
      omega
  | cons a text ih =>
      unfold indexOf at h
      split at h
      next => cases h
      next hnot =>
        cases i with
        | zero => exact fun hzero => hnot (List.isPrefixOf_iff_prefix.mpr hzero)
        | succ i => exact ih (Option.map_eq_none_iff.mp h) i

/-- A text is what stands before an occurrence, the marker, and what stands after it. -/
theorem OccursAt.split {text : List α} {i : Nat} (h : OccursAt marker text i) :
    text = text.take i ++ marker ++ text.drop (i + marker.length) := by
  obtain ⟨after, hafter⟩ := h
  rw [← List.drop_drop, ← hafter, List.drop_left, List.append_assoc, hafter, List.take_append_drop]

/-! ## What is written -/

theorem Replaced.unique {out text all all' : List α} (h : Replaced marker answer out text all)
    (h' : Replaced marker answer out text all') : all = all' := by
  induction h generalizing all' with
  | rest habsent =>
      cases h' with
      | rest _ => rfl
      | occurrence hfirst hafter => exact absurd (occursAt_marker _ _) (habsent _)
  | @occurrence out before after all hfirst hafter ih =>
      generalize htext : before ++ marker ++ after = text at h'
      cases h' with
      | rest habsent => exact absurd (htext ▸ occursAt_marker before after) (habsent _)
      | @occurrence _ before' after' _ hfirst' hafter' =>
          obtain ⟨rfl, rfl⟩ := first_unique hfirst hfirst' htext
          exact ih hafter'

/-- What cannot become a marker any more is written at once. -/
theorem Replaced.of_held {out written held more all : List α}
    (habsent : ∀ i, ¬OccursAt marker (written ++ held) i)
    (hheld : IsHeld marker (written ++ held) held)
    (h : Replaced marker answer (out ++ written) (held ++ more) all) :
    Replaced marker answer out (written ++ (held ++ more)) all := by
  -- an occurrence in what is written would end in more, and begin an end that can become a marker
  have hfrom : ∀ i < written.length, ¬OccursAt marker (written ++ (held ++ more)) i := by
    intro i hi hoccurs
    rw [← List.append_assoc] at hoccurs
    have hlengths : (written ++ held).length = written.length + held.length := List.length_append
    by_cases hinside : i + marker.length ≤ (written ++ held).length
    · exact habsent i ((occursAt_of_le hinside).mp hoccurs)
    · have hend : (written ++ held).drop i <+: marker := by
        have hlength : ((written ++ held).drop i).length < marker.length := by
          rw [List.length_drop]
          omega
        have hdrop : (written ++ held ++ more).drop i = (written ++ held).drop i ++ more := by
          rw [List.drop_append_of_le_length (by omega)]
        unfold OccursAt at hoccurs
        rw [hdrop] at hoccurs
        exact List.prefix_of_prefix_length_le (List.prefix_append _ _) hoccurs hlength.le
      have hlongest := hheld.longest _ (List.drop_suffix i _) hend (by
        rw [List.length_drop]
        omega)
      rw [List.length_drop, List.length_append] at hlongest
      omega
  generalize htext : held ++ more = text at h hfrom ⊢
  cases h with
  | rest hrest =>
      rw [List.append_assoc]
      apply Replaced.rest
      intro i hoccurs
      by_cases hi : i < written.length
      · exact hfrom i hi hoccurs
      · obtain ⟨j, rfl⟩ := Nat.exists_eq_add_of_le (Nat.le_of_not_lt hi)
        exact hrest j ((occursAt_append written text j).mp hoccurs)
  | @occurrence _ before after _ hfirst hafter =>
      have hassoc : written ++ (before ++ marker ++ after) =
          written ++ before ++ marker ++ after := by simp only [List.append_assoc]
      rw [hassoc]
      apply Replaced.occurrence
      · intro i hi hoccurs
        by_cases hlt : i < written.length
        · exact hfrom i hlt (hassoc ▸ hoccurs)
        · obtain ⟨j, rfl⟩ := Nat.exists_eq_add_of_le (Nat.le_of_not_lt hlt)
          rw [← hassoc] at hoccurs
          apply hfirst j _ ((occursAt_append written _ j).mp hoccurs)
          rw [List.length_append] at hi
          omega
      · rwa [← List.append_assoc out]

end H2a.Library
