import H2a.Library.Result
/-!
# Computations with a log

Code that throws and writes to a log it never reads: what is returned does not depend
on what was logged.  `Returns` forgets the log, and the loops over a list are known by
what they do with each element.
-/

namespace H2a.Library

variable {σ ε α β γ : Type}

/-- `x` returns the value of `r`, or throws where `r` has none, whatever was logged before. -/
def Returns (x : StateT σ (Except ε) α) (r : Option α) : Prop :=
  ∀ s, (x.run s).toOption.map Prod.fst = r

/-- `c`, where `g` has an answer for each element. -/
def whereAll (l : List α) (g : α → Option β) (c : γ) : Option γ :=
  if l.all fun a => (g a).isSome then some c else none

theorem whereAll_eq_some {l : List α} {g : α → Option β} {c d : γ} :
    whereAll l g c = some d ↔ (∀ a ∈ l, (g a).isSome) ∧ c = d := by
  unfold whereAll
  split
  next h => simpa using fun _ => List.all_eq_true.mp h
  next h => simpa using fun hall => absurd (List.all_eq_true.mpr hall) h

theorem whereAll_nil (g : α → Option β) (c : γ) : whereAll [] g c = some c := rfl

theorem whereAll_cons (a : α) (l : List α) (g : α → Option β) (c : γ) :
    whereAll (a :: l) g c = (g a).bind fun _ => whereAll l g c := by
  cases h : g a with
  | none => simp [whereAll, h]
  | some b => simp [whereAll, h]

theorem map_whereAll {δ : Type} (f : γ → δ) (l : List α) (g : α → Option β) (c : γ) :
    (whereAll l g c).map f = whereAll l g (f c) := by
  unfold whereAll
  split
  · rfl
  · rfl

theorem bind_whereAll {δ : Type} (l : List α) (g : α → Option β) (c : γ) (f : γ → Option δ) :
    (whereAll l g c).bind f = if l.all fun a => (g a).isSome then f c else none := by
  unfold whereAll
  split
  · rfl
  · rfl

/-! ## One statement after the other -/

theorem Returns.pure (a : α) :
    Returns (Pure.pure a : StateT σ (Except ε) α) (some a) := fun _ => rfl

theorem Returns.lift (x : Except ε α) :
    Returns (liftM x : StateT σ (Except ε) α) x.toOption := by
  intro s
  cases x with
  | ok a => rfl
  | error e => rfl

theorem Returns.modify (f : σ → σ) :
    Returns (modify f : StateT σ (Except ε) PUnit) (some ⟨⟩) := fun _ => rfl

theorem Returns.bind {x : StateT σ (Except ε) α} {f : α → StateT σ (Except ε) β} {r : Option α}
    {g : α → Option β} (hx : Returns x r) (hf : ∀ a, r = some a → Returns (f a) (g a)) :
    Returns (x >>= f) (r.bind g) := by
  intro s
  have hs := hx s
  rw [StateT.run_bind]
  cases h : x.run s with
  | error e =>
      rw [h] at hs
      subst hs
      rfl
  | ok p =>
      rw [h] at hs
      subst hs
      exact hf p.1 rfl p.2

theorem Returns.bindSome {x : StateT σ (Except ε) α} {f : α → StateT σ (Except ε) β} {a : α}
    {r : Option β} (hx : Returns x (some a)) (hf : Returns (f a) r) : Returns (x >>= f) r := by
  apply hx.bind (g := fun _ => r)
  intro b hb
  cases hb
  exact hf

theorem Returns.bindPure {x : StateT σ (Except ε) α} {r : Option α} (hx : Returns x r)
    (f : α → β) : Returns (x >>= fun a => Pure.pure (f a)) (r.map f) := by
  rw [Option.map_eq_bind]
  exact hx.bind fun a _ => Returns.pure (f a)

theorem Returns.ite {c : Prop} [Decidable c] {x y : StateT σ (Except ε) α} {r q : Option α}
    (hx : Returns x r) (hy : Returns y q) :
    Returns (if c then x else y) (if c then r else q) := by
  split
  · exact hx
  · exact hy

/-! ## Loops -/

theorem Returns.filterAuxM {f : α → StateT σ (Except ε) Bool} {g : α → Option Bool} {l : List α}
    (h : ∀ a ∈ l, Returns (f a) (g a)) (acc : List α) :
    Returns (l.filterAuxM f acc)
      (whereAll l g ((l.filter fun a => g a == some true).reverse ++ acc)) := by
  induction l generalizing acc with
  | nil => exact Returns.pure acc
  | cons a l ih =>
      rw [List.filterAuxM, whereAll_cons]
      apply Returns.bind (h a List.mem_cons_self)
      intro b hb
      have hrest := ih (fun x hx => h x (List.mem_cons_of_mem _ hx)) (cond b (a :: acc) acc)
      cases b with
      | true => simpa [List.filter_cons, hb] using hrest
      | false => simpa [List.filter_cons, hb] using hrest

theorem Returns.filterM {f : α → StateT σ (Except ε) Bool} {g : α → Option Bool} {l : List α}
    (h : ∀ a ∈ l, Returns (f a) (g a)) :
    Returns (l.filterM f) (whereAll l g (l.filter fun a => g a == some true)) := by
  have hall := (Returns.filterAuxM h []).bindPure List.reverse
  rw [map_whereAll, List.append_nil, List.reverse_reverse] at hall
  exact hall

theorem Returns.mapM {f : α → StateT σ (Except ε) β} {g : α → Option β} {l : List α}
    (h : ∀ a ∈ l, Returns (f a) (g a)) : Returns (l.mapM f) (whereAll l g (l.filterMap g)) := by
  induction l with
  | nil => exact Returns.pure []
  | cons a l ih =>
      have hrest := ih fun x hx => h x (List.mem_cons_of_mem _ hx)
      have hall := (h a List.mem_cons_self).bind fun b _ => hrest.bindPure (List.cons b)
      rw [List.mapM_cons, whereAll_cons]
      cases hb : g a with
      | none => simpa [hb] using hall
      | some b => simpa [hb, map_whereAll] using hall

theorem Returns.anyM {f : α → StateT σ (Except ε) Bool} {p : α → Bool} {l : List α}
    (h : ∀ a ∈ l, Returns (f a) (some (p a))) : Returns (l.anyM f) (some (l.any p)) := by
  induction l with
  | nil => exact Returns.pure false
  | cons a l ih =>
      have hrest := ih fun x hx => h x (List.mem_cons_of_mem _ hx)
      rw [List.anyM_cons, List.any_cons]
      apply (h a List.mem_cons_self).bind (g := fun b => some (b || l.any p))
      intro b hb
      cases b with
      | true => exact Returns.pure true
      | false => exact hrest

theorem Returns.filterMapM {f : α → StateT σ (Except ε) (Option β)} {g : α → Option β} {l : List α}
    (h : ∀ a ∈ l, Returns (f a) (some (g a))) :
    Returns (l.filterMapM f) (some (l.filterMap g)) := by
  induction l with
  | nil => exact Returns.pure []
  | cons a l ih =>
      have hrest := ih fun x hx => h x (List.mem_cons_of_mem _ hx)
      have hvalue : some ((a :: l).filterMap g) =
          (some (g a)).bind fun o => some (o.toList ++ l.filterMap g) := by
        cases hb : g a with
        | none => simp [hb]
        | some b => simp [hb]
      rw [List.filterMapM_cons, hvalue]
      apply (h a List.mem_cons_self).bind
      intro o _
      cases o with
      | none => exact hrest
      | some b => exact hrest.bindPure (List.cons b)

/-! ## Lists with the same elements -/

theorem all_eq_of_same {l l' : List α} (h : ∀ a, a ∈ l ↔ a ∈ l') (p : α → Bool) :
    l.all p = l'.all p := by
  rw [Bool.eq_iff_iff, List.all_eq_true, List.all_eq_true]
  exact forall_congr' fun a => imp_congr_left (h a)

theorem any_eq_of_same {l l' : List α} (h : ∀ a, a ∈ l ↔ a ∈ l') (p : α → Bool) :
    l.any p = l'.any p := by
  rw [Bool.eq_iff_iff, List.any_eq_true, List.any_eq_true]
  exact exists_congr fun a => and_congr_left' (h a)

theorem filter_same {l l' : List α} (h : ∀ a, a ∈ l ↔ a ∈ l') (p : α → Bool) (a : α) :
    a ∈ l.filter p ↔ a ∈ l'.filter p := by
  rw [List.mem_filter, List.mem_filter, h]

theorem filterMap_same {l l' : List α} (h : ∀ a, a ∈ l ↔ a ∈ l') (g : α → Option β) (b : β) :
    b ∈ l.filterMap g ↔ b ∈ l'.filterMap g := by
  rw [List.mem_filterMap, List.mem_filterMap]
  exact exists_congr fun a => and_congr_left' (h a)

end H2a.Library
