import H2a.Library.Result
import Mathlib.Data.List.Nodup
import Mathlib.Data.List.Perm.Subperm
import Mathlib.Data.Nat.Find
import Mathlib.Data.Set.Finite.Basic
import Mathlib.Order.WellFounded
import Mathlib.Order.WellFoundedSet
/-!
# Following a partial function

The links of a partial function `next`, as a parent or a successor field has
them: where following them leads, and when it ends.
-/

namespace H2a.Library

namespace Chain

variable {α : Type}

/-- Following `next` leads from one element to the other. -/
def Follows (next : α → Option α) (x y : α) : Prop :=
  Relation.ReflTransGen (fun x y => next x = some y) x y

/-- Following `next` ends, wherever it starts. -/
def Grounded (next : α → Option α) : Prop := WellFounded fun y x => next x = some y

/-- Following `next` from `x` ends. -/
def Ends (next : α → Option α) (x : α) : Prop := Acc (fun y x => next x = some y) x

/-- Following `next` leads from `x` back to `x`. -/
def OnCycle (next : α → Option α) (x : α) : Prop :=
  Relation.TransGen (fun x y => next x = some y) x x

/-- Where `n` links lead. -/
def ascend (next : α → Option α) : Nat → α → Option α
  | 0, x => some x
  | n + 1, x => (next x).bind (ascend next n)

variable {next next' : α → Option α} {x y : α}

theorem Follows.of_next_none (h : Follows next x y) (hx : next x = none) : y = x := by
  rcases Relation.ReflTransGen.cases_head h with rfl | ⟨z, hz, -⟩
  · rfl
  · simp [hx] at hz

theorem Grounded.of_none (h : ∀ x, next x = none) : Grounded next :=
  ⟨fun x => .intro x fun y hy => by simp [h x] at hy⟩

/-- Nothing is led back to itself. -/
theorem Grounded.acyclic (h : Grounded next) (x : α) :
    ¬ Relation.TransGen (fun x y => next x = some y) x x := by
  intro hx
  exact h.transGen.irrefl.irrefl x (Relation.transGen_swap.mpr hx)

/-- Links may be dropped. -/
theorem Grounded.mono (h : Grounded next) (hsub : ∀ x y, next' x = some y → next x = some y) :
    Grounded next' :=
  Subrelation.wf (fun {y x} hy => hsub x y hy) h

/-- One element may be linked anew, to what does not lead to it. -/
theorem Grounded.relink (h : Grounded next) (hother : ∀ y, y ≠ x → next' y = next y)
    (hnew : ∀ y, next' x = some y → ¬ Follows next y x) : Grounded next' := by
  have happart : ∀ y, ¬ Follows next y x → Acc (fun y x => next' x = some y) y := by
    intro y
    induction y using h.induction with
    | _ y ih =>
        intro hy
        have hne : y ≠ x := by
          rintro rfl
          exact hy .refl
        refine .intro y fun z hz => ?_
        rw [hother y hne] at hz
        exact ih z hz fun hzx => hy (.head hz hzx)
  have hself : Acc (fun y x => next' x = some y) x :=
    .intro x fun y hy => happart y (hnew y hy)
  refine ⟨fun y => ?_⟩
  induction y using h.induction with
  | _ y ih =>
      by_cases hyx : y = x
      · exact hyx ▸ hself
      · refine .intro y fun z hz => ?_
        rw [hother y hyx] at hz
        exact ih z hz

/-! ## Cycles -/

theorem OnCycle.parent (h : OnCycle next x) (hxy : next x = some y) : OnCycle next y := by
  obtain ⟨z, hz, hzx⟩ := Relation.TransGen.head'_iff.mp h
  obtain rfl : y = z := Option.some.inj (hxy.symm.trans hz)
  exact Relation.TransGen.tail' hzx hxy

/-- What a cycle leads to lies on it. -/
theorem OnCycle.follows (h : OnCycle next x) (hxy : Follows next x y) :
    OnCycle next y ∧ Follows next y x := by
  induction hxy with
  | refl => exact ⟨h, .refl⟩
  | tail _ hlast ih =>
      obtain ⟨hcycle, hback⟩ := ih
      refine ⟨hcycle.parent hlast, ?_⟩
      obtain ⟨z, hz, hzy⟩ := Relation.TransGen.head'_iff.mp hcycle
      obtain rfl := Option.some.inj (hlast.symm.trans hz)
      exact hzy.trans hback

/-- A chain that runs into a cycle does not end. -/
theorem not_ends_of_cycle (hxy : Follows next x y) (hy : OnCycle next y) : ¬ Ends next x := by
  intro hends
  induction hends with
  | intro x _ ih =>
      rcases Relation.ReflTransGen.cases_head hxy with rfl | ⟨z, hz, hzy⟩
      · obtain ⟨z, hz, hzx⟩ := Relation.TransGen.head'_iff.mp hy
        exact ih z hz hzx
      · exact ih z hz hzy

section Finite

variable (hfinite : {x | (next x).isSome}.Finite)

include hfinite

/-- Off the cycles, following the links back ends too. -/
theorem acc_back_of_not_onCycle (hx : ¬ OnCycle next x) :
    Acc (fun child x => next child = some x) x := by
  let T := {x : α // (next x).isSome ∧ ¬ OnCycle next x}
  let below : T → T → Prop := fun a b => Relation.TransGen (fun x y => next x = some y) a.1 b.1
  have : Finite T := (hfinite.subset fun x hx => hx.1).to_subtype
  have : IsTrans T below := ⟨fun _ _ _ hab hbc => hab.trans hbc⟩
  have : Std.Irrefl below := ⟨fun a => a.2.2⟩
  have hwf : WellFounded below := Finite.wellFounded_of_trans_of_irrefl below
  have hmem : ∀ {x child}, ¬ OnCycle next x → next child = some x →
      (next child).isSome ∧ ¬ OnCycle next child := by
    intro x child hx hchild
    exact ⟨by simp [hchild], fun hcycle => hx (hcycle.parent hchild)⟩
  have hacc : ∀ t : T, Acc (fun child x => next child = some x) t.1 := by
    intro t
    induction t using hwf.induction with
    | _ t ih =>
        refine .intro t.1 fun child hchild => ?_
        exact ih ⟨child, hmem t.2.2 hchild⟩ (.single hchild)
  exact .intro x fun child hchild => hacc ⟨child, hmem hx hchild⟩

/-- A chain that runs into no cycle ends. -/
theorem ends_of_not_onCycle (hx : ∀ y, Follows next x y → ¬ OnCycle next y) : Ends next x := by
  let T := {y : α // (next y).isSome ∧ Follows next x y}
  let above : T → T → Prop := fun a b => Relation.TransGen (fun x y => next x = some y) b.1 a.1
  have : Finite T := (hfinite.subset fun x hx => hx.1).to_subtype
  have : IsTrans T above := ⟨fun _ _ _ hab hbc => hbc.trans hab⟩
  have : Std.Irrefl above := ⟨fun a => hx a.1 a.2.2⟩
  have hwf : WellFounded above := Finite.wellFounded_of_trans_of_irrefl above
  have hends : ∀ t : T, Ends next t.1 := by
    intro t
    induction t using hwf.induction with
    | _ t ih =>
        refine .intro t.1 fun y hy => ?_
        cases hnext : next y with
        | none => exact .intro y fun z hz => by simp [hnext] at hz
        | some z => exact ih ⟨y, by simp [hnext], t.2.2.tail hy⟩ (.single hy)
  cases hnext : next x with
  | none => exact .intro x fun y hy => by simp [hnext] at hy
  | some y => exact hends ⟨x, by simp [hnext], .refl⟩

end Finite

/-- Where a property of an element needs it one step earlier of whatever links to the
element, it holds in the long run off the cycles. -/
theorem eventually_of_acc {keys : List α} (hkeys : ∀ x, (next x).isSome → x ∈ keys)
    {P : Nat → α → Prop} (hstep : ∀ n x, (∀ child, next child = some x → P n child) → P (n + 1) x)
    (hx : Acc (fun child x => next child = some x) x) : ∃ N, ∀ n ≥ N, P n x := by
  induction hx with
  | intro x _ ih =>
      have hchildren : ∀ child ∈ keys, ∃ N, ∀ n ≥ N, next child = some x → P n child := by
        intro child _
        by_cases hlink : next child = some x
        · obtain ⟨N, hN⟩ := ih child hlink
          exact ⟨N, fun n hn _ => hN n hn⟩
        · exact ⟨0, fun n _ hlink' => absurd hlink' hlink⟩
      obtain ⟨N, hN⟩ := exists_bound hchildren
      refine ⟨N + 1, fun n hn => ?_⟩
      obtain ⟨m, rfl⟩ : ∃ m, n = m + 1 := ⟨n - 1, by omega⟩
      refine hstep m x fun child hlink => ?_
      exact hN m (by omega) child (hkeys child (by simp [hlink])) hlink

/-! ## Counting the links -/

theorem ascend_add (m n : Nat) (x : α) :
    ascend next (m + n) x = (ascend next m x).bind (ascend next n) := by
  induction m generalizing x with
  | zero => simp [ascend]
  | succ m ih =>
      rw [Nat.succ_add]
      cases hx : next x with
      | none => simp [ascend, hx]
      | some y => simp [ascend, hx, ih]

theorem Follows.exists_ascend (h : Follows next x y) : ∃ n, ascend next n x = some y := by
  induction h using Relation.ReflTransGen.head_induction_on with
  | refl => exact ⟨0, rfl⟩
  | head hlink _ ih =>
      obtain ⟨n, hn⟩ := ih
      exact ⟨n + 1, by simp [ascend, hlink, hn]⟩

theorem follows_of_ascend {n : Nat} (h : ascend next n x = some y) : Follows next x y := by
  induction n generalizing x with
  | zero => exact Option.some.inj h ▸ .refl
  | succ n ih =>
      obtain ⟨z, hz, hrest⟩ := Option.bind_eq_some_iff.mp h
      exact .head hz (ih hrest)

theorem Ends.exists_ascend (h : Ends next x) : ∃ n, ascend next n x = none := by
  induction h with
  | intro x _ ih =>
      cases hx : next x with
      | none => exact ⟨1, by simp [ascend, hx]⟩
      | some y =>
          obtain ⟨n, hn⟩ := ih y hx
          exact ⟨n + 1, by simp [ascend, hx, hn]⟩

theorem ends_of_ascend {n : Nat} (h : ascend next n x = none) : Ends next x := by
  induction n generalizing x with
  | zero => simp [ascend] at h
  | succ n ih =>
      refine .intro x fun y hy => ih ?_
      simpa [ascend, hy] using h

/-- What a chain ever comes to, it comes to before it has used every link twice. -/
theorem exists_ascend_le {keys : List α} (hkeys : ∀ x, (next x).isSome → x ∈ keys)
    {P : Option α → Prop} (h : ∃ n, P (ascend next n x)) :
    ∃ n, P (ascend next n x) ∧ n ≤ keys.length + 1 ∧
      (ascend next n x ≠ none → n ≤ keys.length) := by
  classical
  let n := Nat.find h
  have hn : P (ascend next n x) := Nat.find_spec h
  have hmin : ∀ m < n, ¬ P (ascend next m x) := fun m hm => Nat.find_min h hm
  have hdistinct : ∀ i j, i < j → j ≤ n → ascend next i x ≠ ascend next j x := by
    intro i j hij hjn heq
    apply hmin (i + (n - j)) (by omega)
    have hback : ascend next (i + (n - j)) x = ascend next n x := by
      rw [ascend_add, heq, ← ascend_add]
      congr 1
      omega
    rwa [hback]
  -- the elements whose link has been used are keys, each once
  have hused : ∀ m ≤ n, (∀ i < m, ascend next (i + 1) x ≠ none) → m ≤ keys.length := by
    intro m hm hsome
    have hnodup : ((List.range m).map fun i => ascend next i x).Nodup := by
      refine List.Nodup.map_on (fun i hi j hj heq => ?_) List.nodup_range
      rw [List.mem_range] at hi hj
      rcases Nat.lt_trichotomy i j with hij | hij | hij
      · exact absurd heq (hdistinct i j hij (by omega))
      · exact hij
      · exact absurd heq.symm (hdistinct j i hij (by omega))
    have hsub : ((List.range m).map fun i => ascend next i x) ⊆ keys.map some := by
      intro y hy
      obtain ⟨i, hi, rfl⟩ := List.mem_map.mp hy
      have hnext := hsome i (List.mem_range.mp hi)
      rw [ascend_add] at hnext
      cases hy : ascend next i x with
      | none => simp [hy] at hnext
      | some z =>
          refine List.mem_map.mpr ⟨z, hkeys z ?_, rfl⟩
          cases hz : next z with
          | none => simp [hy, ascend, hz] at hnext
          | some w => rfl
    simpa using (hnodup.subperm hsub).length_le
  have hbefore : ∀ i < n, ascend next i x ≠ none := by
    intro i hi hnone
    refine hdistinct i (i + 1) (by omega) (by omega) ?_
    rw [ascend_add, hnone]
    rfl
  refine ⟨n, hn, ?_, fun hsome => hused n le_rfl fun i hi => ?_⟩
  · have := hused (n - 1) (by omega) fun i hi => hbefore (i + 1) (by omega)
    omega
  · rcases Nat.lt_or_eq_of_le (Nat.succ_le_of_lt hi) with hlt | heq
    · exact hbefore (i + 1) hlt
    · have hlast : i + 1 = n := heq
      rwa [hlast]

end Chain

end H2a.Library
