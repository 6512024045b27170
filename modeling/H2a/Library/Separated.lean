import Mathlib.Data.List.Basic
import Mathlib.Tactic.Common
/-!
# Texts with separators

Cutting a list at the first separator, and at every separator.
-/

namespace H2a.Library

universe u

variable {α : Type u}

/-- What stands in the joined text stands in a part or in the separator. -/
theorem mem_intercalate_iff {sep : List α} {parts : List (List α)} {x : α} (hsep : x ∉ sep) :
    x ∈ sep.intercalate parts ↔ ∃ part ∈ parts, x ∈ part := by
  induction parts with
  | nil => simp
  | cons part parts ih =>
      cases parts with
      | nil => simp
      | cons next parts =>
          rw [List.intercalate_cons_cons, List.mem_append, List.mem_append, ih]
          simp only [List.exists_mem_cons_iff, hsep, or_false]

variable [DecidableEq α]

/-- What stands before the first `a` and what stands after it. -/
def cut (a : α) : List α → Option (List α × List α)
  | [] => none
  | x :: xs => if x = a then some ([], xs) else (cut a xs).map (Prod.map (x :: ·) id)

theorem cut_append {a : α} {l : List α} (h : a ∉ l) (r : List α) :
    cut a (l ++ a :: r) = some (l, r) := by
  induction l with
  | nil => rw [List.nil_append, cut, if_pos rfl]
  | cons x l ih =>
      rw [List.mem_cons, not_or] at h
      rw [List.cons_append, cut, if_neg (Ne.symm h.1), ih h.2]
      rfl

theorem cut_eq_some_iff {a : α} {xs l r : List α} :
    cut a xs = some (l, r) ↔ xs = l ++ a :: r ∧ a ∉ l := by
  constructor
  · intro h
    induction xs generalizing l with
    | nil => cases h
    | cons x xs ih =>
        rw [cut] at h
        split at h
        case isTrue hx =>
          cases h
          exact ⟨congrArg (· :: _) hx, List.not_mem_nil⟩
        case isFalse hx =>
          obtain ⟨⟨l', r'⟩, hcut, hpair⟩ := Option.map_eq_some_iff.mp h
          cases hpair
          obtain ⟨hxs, hl⟩ := ih hcut
          refine ⟨congrArg (x :: ·) hxs, ?_⟩
          rw [List.mem_cons, not_or]
          exact ⟨Ne.symm hx, hl⟩
  · rintro ⟨rfl, hl⟩
    exact cut_append hl r

/-- No part has the separator in it. -/
theorem not_mem_of_mem_splitOn {a : α} {xs part : List α} (h : part ∈ xs.splitOn a) :
    a ∉ part := by
  induction xs generalizing part with
  | nil =>
      rw [List.splitOn_nil, List.mem_singleton] at h
      exact h ▸ List.not_mem_nil
  | cons x xs ih =>
      rw [List.splitOn_cons_eq_if_modifyHead] at h
      split at h
      case isTrue hx =>
        rcases List.mem_cons.mp h with rfl | h
        · exact List.not_mem_nil
        · exact ih h
      case isFalse hx =>
        cases hparts : xs.splitOn a with
        | nil => exact absurd hparts (List.splitOn_ne_nil a xs)
        | cons first rest =>
            rw [hparts, List.modifyHead_cons] at h
            rcases List.mem_cons.mp h with rfl | h
            · rw [List.mem_cons, not_or]
              exact ⟨fun heq => hx (beq_iff_eq.mpr heq.symm),
                ih (hparts ▸ List.mem_cons_self)⟩
            · exact ih (hparts ▸ List.mem_cons_of_mem _ h)

end H2a.Library
