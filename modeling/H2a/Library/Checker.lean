import H2a.Library.JsMap
import Mathlib.Data.List.Basic
import Mathlib.Tactic.Common
/-!
# One-pass checkers

A checker walks a list once with an accumulator and judges every element
against what it has accumulated so far.  Log validation is a conjunction of
such walks.  The rules are how a walk splits at a seam (`accepts_append`), when
two accumulators are interchangeable (`accepts_congr`), and that a walk whose
accumulator is a map read and written at the element's own key does not see
elements of other keys (`Keyed.accepts_append`).
-/

namespace H2a.Library

universe u v

/-- An accumulator update together with the judgement made before it. -/
structure Checker (σ : Type u) (ε : Type v) where
  next : σ → ε → σ
  ok : σ → ε → Prop

namespace Checker

variable {σ : Type u} {ε : Type v} (c : Checker σ ε)

/-- The accumulator after a list. -/
def run (s : σ) (es : List ε) : σ := es.foldl c.next s

/-- Every element is in order at the point where it stands. -/
def Accepts (s : σ) : List ε → Prop
  | [] => True
  | e :: es => c.ok s e ∧ Accepts (c.next s e) es

@[simp] theorem run_nil (s : σ) : c.run s [] = s := rfl

@[simp] theorem run_cons (s : σ) (e : ε) (es : List ε) :
    c.run s (e :: es) = c.run (c.next s e) es := rfl

@[simp] theorem run_append (s : σ) (xs ys : List ε) :
    c.run s (xs ++ ys) = c.run (c.run s xs) ys := by
  simp [run]

@[simp] theorem accepts_nil (s : σ) : c.Accepts s [] := trivial

@[simp] theorem accepts_cons (s : σ) (e : ε) (es : List ε) :
    c.Accepts s (e :: es) ↔ c.ok s e ∧ c.Accepts (c.next s e) es := Iff.rfl

theorem accepts_append (s : σ) (xs ys : List ε) :
    c.Accepts s (xs ++ ys) ↔ c.Accepts s xs ∧ c.Accepts (c.run s xs) ys := by
  induction xs generalizing s with
  | nil => simp
  | cons e es ih => simp [ih, and_assoc]

/-- An invariant of the accumulator holds at the end of the walk. -/
theorem run_induction {I : σ → Prop} {es : List ε}
    (hstep : ∀ s, ∀ e ∈ es, I s → I (c.next s e)) {s : σ} (hs : I s) : I (c.run s es) := by
  induction es generalizing s with
  | nil => exact hs
  | cons e es ih =>
      exact ih (fun s' e' he' => hstep s' e' (List.mem_cons_of_mem _ he'))
        (hstep s e (List.mem_cons_self ..) hs)

/-- Accumulators related by `R` judge `es` alike, where `R` is kept by every element of `es`. -/
theorem accepts_congr {R : σ → σ → Prop} {es : List ε}
    (hok : ∀ s t, ∀ e ∈ es, R s t → (c.ok s e ↔ c.ok t e))
    (hnext : ∀ s t, ∀ e ∈ es, R s t → R (c.next s e) (c.next t e))
    {s t : σ} (hst : R s t) : c.Accepts s es ↔ c.Accepts t es := by
  induction es generalizing s t with
  | nil => simp
  | cons e es ih =>
      have he := List.mem_cons_self (a := e) (l := es)
      rw [accepts_cons, accepts_cons, hok s t e he hst]
      have htail := ih (fun s' t' e' h' => hok s' t' e' (List.mem_cons_of_mem _ h'))
        (fun s' t' e' h' => hnext s' t' e' (List.mem_cons_of_mem _ h'))
        (hnext s t e he hst)
      rw [htail]

/-- The relation of `accepts_congr` still holds at the end of the walk. -/
theorem run_congr {R : σ → σ → Prop} {es : List ε}
    (hnext : ∀ s t, ∀ e ∈ es, R s t → R (c.next s e) (c.next t e))
    {s t : σ} (hst : R s t) : R (c.run s es) (c.run t es) := by
  induction es generalizing s t with
  | nil => exact hst
  | cons e es ih =>
      exact ih (fun s' t' e' h' => hnext s' t' e' (List.mem_cons_of_mem _ h'))
        (hnext s t e (List.mem_cons_self ..) hst)

/-- The accumulator is a map, and an element reads and writes only its own key. -/
structure Keyed {K : Type u} {V : Type v} {ε : Type v} [DecidableEq K]
    (c : Checker (JsMap K V) ε) (key : ε → K) : Prop where
  frame : ∀ s e k, k ≠ key e → (c.next s e).get k = s.get k
  next_local : ∀ s t e, s.get (key e) = t.get (key e) →
    (c.next s e).get (key e) = (c.next t e).get (key e)
  ok_local : ∀ s t e, s.get (key e) = t.get (key e) → (c.ok s e ↔ c.ok t e)

namespace Keyed

variable {K : Type u} {V : Type v} {ε : Type v} [DecidableEq K]
  {c : Checker (JsMap K V) ε} {key : ε → K}

theorem get_run (hc : c.Keyed key) {k : K} {es : List ε} (hk : ∀ e ∈ es, k ≠ key e)
    (s : JsMap K V) : (c.run s es).get k = s.get k := by
  induction es generalizing s with
  | nil => rfl
  | cons e es ih =>
      rw [run_cons, ih (fun e' he' => hk e' (List.mem_cons_of_mem _ he')),
        hc.frame s e k (hk e (List.mem_cons_self ..))]

/-- Only the entries of the keys that occur matter. -/
theorem accepts_congr (hc : c.Keyed key) {es : List ε} {s t : JsMap K V}
    (hst : ∀ e ∈ es, s.get (key e) = t.get (key e)) : c.Accepts s es ↔ c.Accepts t es := by
  refine Checker.accepts_congr c (R := fun s t => ∀ e ∈ es, s.get (key e) = t.get (key e))
    (fun s t e he h => hc.ok_local s t e (h e he)) ?_ hst
  intro s t e he h e' he'
  by_cases hkey : key e' = key e
  · rw [hkey]
    exact hc.next_local s t e (h e he)
  · rw [hc.frame s e _ hkey, hc.frame t e _ hkey, h e' he']

/-- A list does not see a list before it that has none of its keys. -/
theorem accepts_append (hc : c.Keyed key) {xs ys : List ε}
    (hdisj : ∀ x ∈ xs, ∀ y ∈ ys, key x ≠ key y) (s : JsMap K V) :
    c.Accepts s (xs ++ ys) ↔ c.Accepts s xs ∧ c.Accepts s ys := by
  rw [Checker.accepts_append]
  refine and_congr_right fun _ => hc.accepts_congr fun y hy => ?_
  exact hc.get_run (fun x hx => (hdisj x hx y hy).symm) s

end Keyed

end Checker

end H2a.Library
