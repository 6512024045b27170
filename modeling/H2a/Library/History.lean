import Mathlib.Data.List.Induction
/-!
# Histories

A history is the list of the events of a run, in order.  `Always` says what holds of each event,
given the events before it; `Sometime` that it held of one; `Since` that an event happened and
nothing that ends it after.  Each is known for a longer history from the shorter one.
-/

namespace H2a.Library

universe u

variable {E : Type u} {P : List E → E → Prop} {starts ends : E → Prop} {history : List E} {x : E}

/-- `P` holds of each event, given the events before it. -/
def Always (P : List E → E → Prop) (history : List E) : Prop :=
  ∀ before e after, history = before ++ e :: after → P before e

/-- `P` holds of some event, given the events before it. -/
def Sometime (P : List E → E → Prop) (history : List E) : Prop :=
  ∃ before e after, history = before ++ e :: after ∧ P before e

/-- Something started, and has not ended. -/
def Since (starts ends : E → Prop) (history : List E) : Prop :=
  ∃ before e after, history = before ++ e :: after ∧ starts e ∧ ∀ later ∈ after, ¬ends later

/-- An event of a longer history is the last one, or one of the shorter history. -/
theorem concat_eq_split {before after : List E} {e : E} :
    history ++ [x] = before ++ e :: after ↔
      after = [] ∧ before = history ∧ e = x ∨
        ∃ rest, after = rest ++ [x] ∧ history = before ++ e :: rest := by
  constructor
  · intro h
    rcases List.eq_nil_or_concat after with rfl | ⟨rest, last, rfl⟩
    · have hlast := List.append_inj' h rfl
      exact .inl ⟨rfl, hlast.1.symm, (List.cons.inj hlast.2).1.symm⟩
    · rw [List.concat_eq_append, ← List.cons_append, ← List.append_assoc] at h
      have hlast := List.append_inj' h rfl
      have hx : x = last := (List.cons.inj hlast.2).1
      exact .inr ⟨rest, by rw [hx, List.concat_eq_append], hlast.1⟩
  · rintro (⟨rfl, rfl, rfl⟩ | ⟨rest, rfl, rfl⟩)
    · rfl
    · rw [List.append_assoc, List.cons_append]

theorem always_nil : Always P [] := by
  intro before e after h
  cases before <;> cases h

theorem always_concat : Always P (history ++ [x]) ↔ Always P history ∧ P history x := by
  constructor
  · intro h
    constructor
    · intro before e after hsplit
      exact h before e (after ++ [x]) (concat_eq_split.mpr (.inr ⟨after, rfl, hsplit⟩))
    · exact h history x [] rfl
  · rintro ⟨hold, hnew⟩ before e after hsplit
    rcases concat_eq_split.mp hsplit with ⟨-, rfl, rfl⟩ | ⟨rest, -, hrest⟩
    · exact hnew
    · exact hold before e rest hrest

/-- What holds of each event and those before it holds of every two events in order. -/
theorem pairwise_of_always {R : E → E → Prop} {history : List E}
    (h : Always (fun before e => ∀ b ∈ before, R b e) history) : history.Pairwise R := by
  induction history using List.reverseRecOn with
  | nil => exact .nil
  | append_singleton history x ih =>
      obtain ⟨hold, hnew⟩ := always_concat.mp h
      rw [List.pairwise_append]
      refine ⟨ih hold, List.pairwise_singleton _ _, ?_⟩
      intro b hb e he
      rw [List.mem_singleton.mp he]
      exact hnew b hb

theorem not_sometime_nil : ¬Sometime P [] := by
  rintro ⟨before, e, after, h, -⟩
  cases before <;> cases h

theorem sometime_concat : Sometime P (history ++ [x]) ↔ Sometime P history ∨ P history x := by
  constructor
  · rintro ⟨before, e, after, hsplit, h⟩
    rcases concat_eq_split.mp hsplit with ⟨-, rfl, rfl⟩ | ⟨rest, -, hrest⟩
    · exact .inr h
    · exact .inl ⟨before, e, rest, hrest, h⟩
  · rintro (⟨before, e, after, hsplit, h⟩ | h)
    · exact ⟨before, e, after ++ [x], concat_eq_split.mpr (.inr ⟨after, rfl, hsplit⟩), h⟩
    · exact ⟨history, x, [], rfl, h⟩

theorem since_concat : Since starts ends (history ++ [x]) ↔
    starts x ∨ Since starts ends history ∧ ¬ends x := by
  constructor
  · rintro ⟨before, e, after, hsplit, hstarts, hafter⟩
    rcases concat_eq_split.mp hsplit with ⟨-, -, rfl⟩ | ⟨rest, rfl, hrest⟩
    · exact .inl hstarts
    · refine .inr ⟨⟨before, e, rest, hrest, hstarts, fun later hlater => ?_⟩, ?_⟩
      · exact hafter later (List.mem_append_left _ hlater)
      · exact hafter x (List.mem_append_right _ List.mem_cons_self)
  · rintro (hstarts | ⟨⟨before, e, after, rfl, hstarts, hafter⟩, hx⟩)
    · exact ⟨history, x, [], rfl, hstarts, by simp⟩
    · refine ⟨before, e, after ++ [x], by simp, hstarts, fun later hlater => ?_⟩
      rcases List.mem_append.mp hlater with hlater | hlater
      · exact hafter later hlater
      · rwa [List.mem_singleton.mp hlater]

theorem not_since_nil : ¬Since starts ends [] := by
  rintro ⟨before, e, after, h, -⟩
  cases before <;> cases h

theorem since_of_starts (h : starts x) : Since starts ends (history ++ [x]) :=
  since_concat.mpr (.inl h)

theorem Since.concat (h : Since starts ends history) (hx : ¬ends x) :
    Since starts ends (history ++ [x]) :=
  since_concat.mpr (.inr ⟨h, hx⟩)

end H2a.Library
