import Mathlib.Logic.Relation
/-!
# Transition systems

Runs are the reflexive transitive closure of a step relation.  The two rules
are the invariant rule, and the same rule for the runs all of whose steps meet
a condition.
-/

namespace H2a.Library

universe u v

variable {σ : Type u} {Step : σ → σ → Prop}

/-- `t` is reached from `s` by some run. -/
abbrev Reaches (Step : σ → σ → Prop) (s t : σ) : Prop := Relation.ReflTransGen Step s t

/-- What holds at the start and is kept by every step holds in every state reached. -/
theorem Reaches.invariant {I : σ → Prop} {s t : σ} (hrun : Reaches Step s t) (hs : I s)
    (hstep : ∀ s t, I s → Step s t → I t) : I t := by
  induction hrun with
  | refl => exact hs
  | tail _ hlast ih => exact hstep _ _ ih hlast

/-- The steps of `Step` that meet `ok`. -/
def Restrict (Step : σ → σ → Prop) (ok : σ → σ → Prop) (s t : σ) : Prop := Step s t ∧ ok s t

/-- The steps of a step function. -/
def Fires {A : Type} (step : σ → A → Option σ) (s t : σ) : Prop := ∃ a, step s a = some t

/-- Take the listed actions, as long as their steps meet `ok`. -/
def runs {A : Type} (step : σ → A → Option σ) (ok : σ → σ → Prop) [DecidableRel ok] :
    List A → σ → Option σ
  | [], s => some s
  | a :: rest, s => (step s a).bind fun t => if ok s t then runs step ok rest t else none

theorem reaches_of_runs {A : Type} {step : σ → A → Option σ} {ok : σ → σ → Prop} [DecidableRel ok]
    {actions : List A} {s t : σ} (h : runs step ok actions s = some t) :
    Reaches (Restrict (Fires step) ok) s t := by
  induction actions generalizing s with
  | nil =>
      obtain rfl : s = t := by simpa [runs] using h
      exact .refl
  | cons a rest ih =>
      obtain ⟨s', hs', ht⟩ := Option.bind_eq_some_iff.mp h
      rw [Option.ite_none_right_eq_some] at ht
      exact (Relation.ReflTransGen.single ⟨⟨a, hs'⟩, ht.1⟩).trans (ih ht.2)

theorem Reaches.of_restrict {ok : σ → σ → Prop} {s t : σ}
    (hrun : Reaches (Restrict Step ok) s t) : Reaches Step s t :=
  Relation.ReflTransGen.mono (fun _ _ h => h.1) _ _ hrun

/-! ## Runs of a total step function -/

section Total

variable {A : Type v} (step : σ → A → σ)

/-- `P` holds in every state of the run of `actions`. -/
def Throughout (P : σ → Prop) (s : σ) : List A → Prop
  | [] => P s
  | a :: actions => P s ∧ Throughout P (step s a) actions

/-- Every action of the run meets `ok` in the state it is taken in. -/
def EachMeets (ok : σ → A → Prop) (s : σ) : List A → Prop
  | [] => True
  | a :: actions => ok s a ∧ EachMeets ok (step s a) actions

variable {step}

theorem eachMeets_append {ok : σ → A → Prop} {s : σ} {actions more : List A} :
    EachMeets step ok s (actions ++ more) ↔
      EachMeets step ok s actions ∧ EachMeets step ok (actions.foldl step s) more := by
  induction actions generalizing s with
  | nil => simp [EachMeets]
  | cons a actions ih => simp [EachMeets, ih, and_assoc]

theorem Throughout.start {P : σ → Prop} {s : σ} {actions : List A}
    (h : Throughout step P s actions) : P s := by
  cases actions with
  | nil => exact h
  | cons a actions => exact h.1

/-- What holds throughout a run holds where it ends. -/
theorem Throughout.last {P : σ → Prop} {s : σ} {actions : List A}
    (h : Throughout step P s actions) : P (actions.foldl step s) := by
  induction actions generalizing s with
  | nil => exact h
  | cons a actions ih => exact ih h.2

/-- What holds of every action in every state holds of each action of a run. -/
theorem eachMeets_of_forall {ok : σ → A → Prop} (h : ∀ s a, ok s a) (s : σ) (actions : List A) :
    EachMeets step ok s actions := by
  induction actions generalizing s with
  | nil => trivial
  | cons a actions ih => exact ⟨h s a, ih (step s a)⟩

theorem eachMeets_congr {ok ok' : σ → A → Prop} (h : ∀ s a, ok s a ↔ ok' s a) {s : σ}
    {actions : List A} : EachMeets step ok s actions ↔ EachMeets step ok' s actions := by
  induction actions generalizing s with
  | nil => exact Iff.rfl
  | cons a actions ih => exact and_congr (h s a) ih

/-- When the actions that meet `ok` keep the invariant, what it implies holds throughout. -/
theorem throughout_of_eachMeets {I P : σ → Prop} {ok : σ → A → Prop} (hP : ∀ s, I s → P s)
    (hkeep : ∀ s a, I s → ok s a → I (step s a)) {s : σ} (hs : I s) {actions : List A}
    (h : EachMeets step ok s actions) : Throughout step P s actions := by
  induction actions generalizing s with
  | nil => exact hP s hs
  | cons a actions ih => exact ⟨hP s hs, ih (hkeep s a hs h.1) h.2⟩

/-- When the actions that meet `ok` keep the invariant, and no other action leads to a state
where `P` holds, `P` holds throughout a run exactly when each of its actions meets `ok`. -/
theorem throughout_iff_eachMeets {I P : σ → Prop} {ok : σ → A → Prop} (hP : ∀ s, I s → P s)
    (hkeep : ∀ s a, I s → ok s a → I (step s a)) (hbreak : ∀ s a, I s → ¬ok s a → ¬P (step s a))
    {s : σ} (hs : I s) (actions : List A) :
    Throughout step P s actions ↔ EachMeets step ok s actions := by
  induction actions generalizing s with
  | nil => exact ⟨fun _ => trivial, fun _ => hP s hs⟩
  | cons a actions ih =>
      constructor
      · rintro ⟨-, hrest⟩
        have hok : ok s a := Classical.byContradiction fun hok => hbreak s a hs hok hrest.start
        exact ⟨hok, (ih (hkeep s a hs hok)).mp hrest⟩
      · exact throughout_of_eachMeets hP hkeep hs

/-- A run whose actions meet a condition ends where the invariant they keep holds. -/
theorem invariant_of_eachMeets {I : σ → Prop} {ok : σ → A → Prop}
    (hkeep : ∀ s a, I s → ok s a → I (step s a)) {s : σ} (hs : I s) {actions : List A}
    (h : EachMeets step ok s actions) : I (actions.foldl step s) :=
  (throughout_of_eachMeets (fun _ hI => hI) hkeep hs h).last

end Total

end H2a.Library
