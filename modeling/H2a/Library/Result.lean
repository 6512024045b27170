import Mathlib.Tactic.Common
/-!
# Fallible computations

`Except` as the model of code that throws.  The bind rule takes a `do` block
apart one statement at a time.
-/

namespace H2a.Library

universe u v

variable {ε : Type u} {α β : Type v}

theorem bind_eq_ok_iff {x : Except ε α} {f : α → Except ε β} {b : β} :
    (x >>= f) = .ok b ↔ ∃ a, x = .ok a ∧ f a = .ok b := by
  cases x with
  | ok a => simp [Bind.bind, Except.bind]
  | error e => simp [Bind.bind, Except.bind]

theorem map_eq_ok_iff {x : Except ε α} {f : α → β} {b : β} :
    x.map f = .ok b ↔ ∃ a, x = .ok a ∧ f a = b := by
  cases x with
  | ok a => simp [Except.map]
  | error e => simp [Except.map]

theorem toOption_eq_some {x : Except ε α} {a : α} : x.toOption = some a ↔ x = .ok a := by
  cases x with
  | ok b => simp [Except.toOption]
  | error e => simp [Except.toOption]

/-- A guard that throws has let a result through. -/
theorem ok_of_guard {c : Prop} [Decidable c] {e : ε} {x : Except ε α} {a : α}
    (h : (if c then .error e else x) = .ok a) : ¬c ∧ x = .ok a := by
  split at h
  · cases h
  case isFalse hc => exact ⟨hc, h⟩

@[simp] theorem ok_bind (a : α) (f : α → Except ε β) : (Except.ok a >>= f) = f a := rfl

@[simp] theorem error_bind (e : ε) (f : α → Except ε β) :
    (Except.error e >>= f) = .error e := rfl

@[simp] theorem pure_eq_ok (a : α) : (pure a : Except ε α) = .ok a := rfl

@[simp] theorem throw_eq_error (e : ε) : (throw e : Except ε α) = .error e := rfl

/-- A test that a result passes, when there is one. -/
theorem exists_ok_of_any {x : Except ε α} {P : α → Prop} [DecidablePred P]
    (h : x.toOption.any (fun a => decide (P a)) = true) : ∃ a, x = .ok a ∧ P a := by
  cases x with
  | error e => cases h
  | ok a => exact ⟨a, rfl, of_decide_eq_true h⟩

/-- What each step keeps, and the first value has, the result has. -/
theorem foldlM_ok_keeps {γ : Type v} {P : γ → Prop} {f : γ → α → Except ε γ} {l : List α}
    (hstep : ∀ a ∈ l, ∀ c c', P c → f c a = .ok c' → P c') {c c' : γ} (hc : P c)
    (h : l.foldlM f c = .ok c') : P c' := by
  induction l generalizing c with
  | nil => exact Except.ok.inj h ▸ hc
  | cons a l ih =>
      rw [List.foldlM_cons] at h
      obtain ⟨d, hd, hrest⟩ := bind_eq_ok_iff.mp h
      exact ih (fun a' ha' => hstep a' (List.mem_cons_of_mem _ ha'))
        (hstep a List.mem_cons_self c d hc hd) hrest

/-! ## Computations that leave a state behind, also when they throw -/

section States

variable {σ ε α β : Type}

theorem stateRun_bind (x : ExceptT ε (StateM σ) α) (f : α → ExceptT ε (StateM σ) β) (s : σ) :
    (x >>= f).run.run s =
      match x.run.run s with
      | (.ok a, s') => (f a).run.run s'
      | (.error e, s') => (.error e, s') := by
  change (x.run >>= ExceptT.bindCont f).run s = _
  rw [StateT.run_bind]
  rcases x.run.run s with ⟨r, s'⟩
  cases r <;> rfl

theorem stateRun_bind_eq_ok {x : ExceptT ε (StateM σ) α} {f : α → ExceptT ε (StateM σ) β} {s t : σ}
    {b : β} : (x >>= f).run.run s = (.ok b, t) ↔
      ∃ a s', x.run.run s = (.ok a, s') ∧ (f a).run.run s' = (.ok b, t) := by
  rw [stateRun_bind]
  rcases x.run.run s with ⟨r, s'⟩
  cases r with
  | ok a =>
      constructor
      · exact fun h => ⟨a, s', rfl, h⟩
      · rintro ⟨_, _, ⟨⟩, h⟩
        exact h
  | error e =>
      constructor
      · rintro ⟨⟩
      · rintro ⟨_, _, ⟨⟩, _⟩

/-- The first part returns. -/
theorem stateRun_bind_of_ok {x : ExceptT ε (StateM σ) α} {s s' : σ} {a : α}
    (h : x.run.run s = (.ok a, s')) (f : α → ExceptT ε (StateM σ) β) :
    (x >>= f).run.run s = (f a).run.run s' := by
  rw [stateRun_bind, h]

theorem stateRun_get_bind (f : σ → ExceptT ε (StateM σ) β) (s : σ) :
    (get >>= f).run.run s = (f s).run.run s := rfl

theorem stateRun_modify_bind (g : σ → σ) (f : PUnit → ExceptT ε (StateM σ) β) (s : σ) :
    (modify g >>= f).run.run s = (f ⟨⟩).run.run (g s) := rfl

/-- `x` leaves what `g` reads of the state as it was. -/
def Keeps {γ : Type} (g : σ → γ) (x : ExceptT ε (StateM σ) α) : Prop :=
  ∀ s, g (x.run.run s).2 = g s

theorem Keeps.bind {γ : Type} {g : σ → γ} {x : ExceptT ε (StateM σ) α}
    {f : α → ExceptT ε (StateM σ) β} (hx : Keeps g x) (hf : ∀ a, Keeps g (f a)) :
    Keeps g (x >>= f) := by
  intro s
  have hs := hx s
  rw [stateRun_bind]
  rcases hrun : x.run.run s with ⟨r, s'⟩
  rw [hrun] at hs
  cases r with
  | ok a => exact (hf a s').trans hs
  | error e => exact hs

theorem Keeps.pure {γ : Type} (g : σ → γ) (a : α) :
    Keeps g (Pure.pure a : ExceptT ε (StateM σ) α) := fun _ => rfl

theorem Keeps.throw {γ : Type} (g : σ → γ) (e : ε) :
    Keeps g (MonadExcept.throw e : ExceptT ε (StateM σ) α) := fun _ => rfl

theorem Keeps.get {γ : Type} (g : σ → γ) :
    Keeps g (MonadState.get : ExceptT ε (StateM σ) σ) := fun _ => rfl

theorem Keeps.of_modify {γ : Type} {g : σ → γ} {f : σ → σ} (h : ∀ s, g (f s) = g s) :
    Keeps g (modify f : ExceptT ε (StateM σ) PUnit) := h

/-- `x` leaves what `g` reads as it was, when it throws. -/
def KeepsOnThrow {γ : Type} (g : σ → γ) (x : ExceptT ε (StateM σ) α) : Prop :=
  ∀ s t e, x.run.run s = (.error e, t) → g t = g s

theorem KeepsOnThrow.bind {γ : Type} {g : σ → γ} {x : ExceptT ε (StateM σ) α}
    {f : α → ExceptT ε (StateM σ) β} (hx : Keeps g x) (hf : ∀ a, KeepsOnThrow g (f a)) :
    KeepsOnThrow g (x >>= f) := by
  intro s t e h
  have hs := hx s
  rw [stateRun_bind] at h
  rcases hrun : x.run.run s with ⟨r, s'⟩
  rw [hrun] at hs h
  cases r with
  | ok a => exact (hf a s' t e h).trans hs
  | error e' =>
      obtain ⟨-, rfl⟩ := Prod.mk.inj h
      exact hs

/-- A last write and a result do not throw. -/
theorem KeepsOnThrow.modify_pure {γ : Type} (g : σ → γ) (f : σ → σ) (a : α) :
    KeepsOnThrow g (do modify f; return a : ExceptT ε (StateM σ) α) := by
  rintro s t e ⟨⟩

end States

/-! ## Lists of computations -/

section Lists

variable {α β γ : Type}

theorem bind_pure_isSome {x : Option α} {f : α → β} (h : x.isSome) :
    (do let a ← x; return f a : Option β).isSome := by
  obtain ⟨a, rfl⟩ := Option.isSome_iff_exists.mp h
  rfl

theorem mapM_isSome {f : α → Option β} {l : List α} (h : ∀ a ∈ l, (f a).isSome) :
    (l.mapM f).isSome := by
  induction l with
  | nil => rfl
  | cons a l ih =>
      obtain ⟨b, hb⟩ := Option.isSome_iff_exists.mp (h a List.mem_cons_self)
      obtain ⟨bs, hbs⟩ := Option.isSome_iff_exists.mp
        (ih fun a' ha' => h a' (List.mem_cons_of_mem _ ha'))
      simp [List.mapM_cons, hb, hbs]

theorem mem_of_mapM {f : α → Option β} {l : List α} {bs : List β} (h : l.mapM f = some bs) {b : β}
    (hb : b ∈ bs) : ∃ a ∈ l, f a = some b := by
  induction l generalizing bs with
  | nil =>
      obtain rfl : [] = bs := by simpa using h
      simp at hb
  | cons a l ih =>
      rw [List.mapM_cons] at h
      obtain ⟨b', hb', h⟩ := Option.bind_eq_some_iff.mp h
      obtain ⟨bs', hbs', h⟩ := Option.bind_eq_some_iff.mp h
      obtain rfl := Option.some.inj h
      rcases List.mem_cons.mp hb with rfl | hb
      · exact ⟨a, List.mem_cons_self, hb'⟩
      · obtain ⟨a', ha', hfa'⟩ := ih hbs' hb
        exact ⟨a', List.mem_cons_of_mem _ ha', hfa'⟩

theorem mapM_forall₂ {f : α → Option β} {l : List α} {bs : List β} (h : l.mapM f = some bs) :
    List.Forall₂ (fun a b => f a = some b) l bs := by
  induction l generalizing bs with
  | nil =>
      obtain rfl : [] = bs := by simpa using h
      exact .nil
  | cons a l ih =>
      rw [List.mapM_cons] at h
      obtain ⟨b, hb, h⟩ := Option.bind_eq_some_iff.mp h
      obtain ⟨bs', hbs', h⟩ := Option.bind_eq_some_iff.mp h
      obtain rfl := Option.some.inj h
      exact .cons hb (ih hbs')

theorem mapM_mono {f g : α → Option β} {l : List α} {bs : List β}
    (hfg : ∀ a ∈ l, ∀ b, f a = some b → g a = some b) (h : l.mapM f = some bs) :
    l.mapM g = some bs := by
  induction l generalizing bs with
  | nil => exact h
  | cons a l ih =>
      rw [List.mapM_cons] at h ⊢
      obtain ⟨b, hb, h⟩ := Option.bind_eq_some_iff.mp h
      obtain ⟨bs', hbs', h⟩ := Option.bind_eq_some_iff.mp h
      rw [hfg a List.mem_cons_self b hb, Option.bind_eq_bind, Option.bind_some,
        ih (fun a' ha' => hfg a' (List.mem_cons_of_mem _ ha')) hbs']
      exact h

theorem exists_of_mapM {f : α → Option β} {l : List α} {bs : List β} (h : l.mapM f = some bs)
    {a : α} (ha : a ∈ l) : ∃ b, f a = some b := by
  induction l generalizing bs with
  | nil => simp at ha
  | cons a' l ih =>
      rw [List.mapM_cons] at h
      obtain ⟨b', hb', h⟩ := Option.bind_eq_some_iff.mp h
      obtain ⟨bs', hbs', -⟩ := Option.bind_eq_some_iff.mp h
      rcases List.mem_cons.mp ha with rfl | ha
      · exact ⟨b', hb'⟩
      · exact ih hbs' ha

theorem mapM_eq_map {f : α → Option β} {l : List α} {bs : List β} (h : l.mapM f = some bs)
    {b : β} : bs = l.map fun a => (f a).getD b := by
  induction l generalizing bs with
  | nil => simpa using h.symm
  | cons a l ih =>
      rw [List.mapM_cons] at h
      obtain ⟨b', hb', h⟩ := Option.bind_eq_some_iff.mp h
      obtain ⟨bs', hbs', h⟩ := Option.bind_eq_some_iff.mp h
      obtain rfl := Option.some.inj h
      rw [List.map_cons, hb', Option.getD_some, ← ih hbs']

/-- Each element has its result where it stands. -/
theorem forall₂_mapM_filterMap {P : α → β → Prop} {f : α → Option β} {g : β → Option γ}
    {l : List α} {cs : List γ} (hf : ∀ a ∈ l, ∃ b, f a = some b ∧ P a b)
    (h : (l.filterMap f).mapM g = some cs) :
    List.Forall₂ (fun a c => ∃ b, P a b ∧ g b = some c) l cs := by
  induction l generalizing cs with
  | nil =>
      obtain rfl : [] = cs := by simpa using h
      exact .nil
  | cons a l ih =>
      obtain ⟨b, hb, hP⟩ := hf a List.mem_cons_self
      rw [List.filterMap_cons_some hb, List.mapM_cons] at h
      obtain ⟨c, hc, h⟩ := Option.bind_eq_some_iff.mp h
      obtain ⟨cs', hcs', h⟩ := Option.bind_eq_some_iff.mp h
      obtain rfl := Option.some.inj h
      exact .cons ⟨b, hP, hc⟩ (ih (fun a' ha' => hf a' (List.mem_cons_of_mem _ ha')) hcs')

theorem mapM_flatten_isSome {f : α → Option (List β)} {l : List α} (h : ∀ a ∈ l, (f a).isSome) :
    (do let out ← l.mapM f; return out.flatten : Option (List β)).isSome := by
  obtain ⟨out, hout⟩ := Option.isSome_iff_exists.mp (mapM_isSome h)
  simp [hout]

theorem mapM_eq_none {f : α → Option β} {l : List α} {a : α} (ha : a ∈ l) (h : f a = none) :
    l.mapM f = none := by
  induction l with
  | nil => simp at ha
  | cons b l ih =>
      rw [List.mapM_cons]
      rcases List.mem_cons.mp ha with rfl | ha
      · simp [h]
      · cases f b <;> simp [ih ha]

theorem foldlM_isSome {f : γ → α → Option γ} {l : List α} (h : ∀ a ∈ l, ∀ c, (f c a).isSome)
    (c : γ) : (l.foldlM f c).isSome := by
  induction l generalizing c with
  | nil => rfl
  | cons a l ih =>
      obtain ⟨c', hc'⟩ := Option.isSome_iff_exists.mp (h a List.mem_cons_self c)
      rw [List.foldlM_cons, hc']
      exact ih (fun a' ha' => h a' (List.mem_cons_of_mem _ ha')) c'

theorem foldlM_eq_none {f : γ → α → Option γ} {l : List α} {a : α} (ha : a ∈ l)
    (h : ∀ c, f c a = none) (c : γ) : l.foldlM f c = none := by
  induction l generalizing c with
  | nil => simp at ha
  | cons b l ih =>
      rw [List.foldlM_cons]
      rcases List.mem_cons.mp ha with rfl | ha
      · simp [h]
      · cases f c b <;> simp [ih ha]

theorem foldlM_keeps {P : γ → Prop} {f : γ → α → Option γ} {l : List α}
    (hstep : ∀ a ∈ l, ∀ c c', P c → f c a = some c' → P c') {c c' : γ} (hc : P c)
    (h : l.foldlM f c = some c') : P c' := by
  induction l generalizing c with
  | nil =>
      obtain rfl : c = c' := by simpa using h
      exact hc
  | cons a l ih =>
      rw [List.foldlM_cons] at h
      obtain ⟨d, hd, hrest⟩ := Option.bind_eq_some_iff.mp h
      exact ih (fun a' ha' => hstep a' (List.mem_cons_of_mem _ ha'))
        (hstep a List.mem_cons_self c d hc hd) hrest

/-- What two lists have at an index is related. -/
theorem forall₂_getElem? {R : α → β → Prop} {l : List α} {l' : List β} (h : List.Forall₂ R l l')
    (i : Nat) : (l[i]? = none ∧ l'[i]? = none) ∨ ∃ a b, l[i]? = some a ∧ l'[i]? = some b ∧ R a b := by
  induction h generalizing i with
  | nil => exact .inl ⟨rfl, rfl⟩
  | @cons a b l l' hab _ ih =>
      cases i with
      | zero => exact .inr ⟨a, b, rfl, rfl, hab⟩
      | succ i => exact ih i

theorem exists_mem_zip {l : List α} {l' : List β} (h : l'.length = l.length) {a : α} (ha : a ∈ l) :
    ∃ b, (a, b) ∈ l.zip l' := by
  induction l generalizing l' with
  | nil => simp at ha
  | cons first l ih =>
      obtain ⟨b, l', rfl⟩ := List.exists_cons_of_length_pos (l := l') (by simp [h])
      rcases List.mem_cons.mp ha with rfl | ha
      · exact ⟨b, by simp⟩
      · obtain ⟨b', hb'⟩ := ih (by simpa using h) ha
        exact ⟨b', List.mem_cons_of_mem _ hb'⟩

/-- What holds in the long run of each element of a list holds in the long run of all. -/
theorem exists_bound {P : Nat → α → Prop} {l : List α} (h : ∀ a ∈ l, ∃ N, ∀ n ≥ N, P n a) :
    ∃ N, ∀ n ≥ N, ∀ a ∈ l, P n a := by
  induction l with
  | nil => exact ⟨0, by simp⟩
  | cons a l ih =>
      obtain ⟨N, hN⟩ := ih fun a' ha' => h a' (List.mem_cons_of_mem _ ha')
      obtain ⟨N', hN'⟩ := h a List.mem_cons_self
      refine ⟨max N N', fun n hn a' ha' => ?_⟩
      rcases List.mem_cons.mp ha' with rfl | ha'
      · exact hN' n (by omega)
      · exact hN n (by omega) a' ha'

end Lists

end H2a.Library
