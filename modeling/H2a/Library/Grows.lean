import H2a.Library.JsMap
/-!
# Lists that grow in place

A store that is only ever added to, and whose entries change under a relation, keeps
each entry where it stands.  A search for what the relation does not touch finds after
every step what it found before.
-/

namespace H2a.Library

universe u v

variable {α : Type v} {R : α → α → Prop} {xs ys zs : List α}

/-- Each element stays in its place, changed as `R` allows; new ones come after. -/
def Grows (R : α → α → Prop) (xs ys : List α) : Prop :=
  ∃ kept added, ys = kept ++ added ∧ List.Forall₂ R xs kept

theorem Grows.refl (hrefl : ∀ a, R a a) (xs : List α) : Grows R xs xs :=
  ⟨xs, [], (List.append_nil xs).symm, List.forall₂_same.mpr fun a _ => hrefl a⟩

theorem Grows.append (hrefl : ∀ a, R a a) (xs added : List α) : Grows R xs (xs ++ added) :=
  ⟨xs, added, rfl, List.forall₂_same.mpr fun a _ => hrefl a⟩

theorem Grows.of_forall₂ (h : List.Forall₂ R xs ys) : Grows R xs ys :=
  ⟨ys, [], (List.append_nil ys).symm, h⟩

theorem Grows.trans (htrans : ∀ {a b c}, R a b → R b c → R a c) (h : Grows R xs ys)
    (h' : Grows R ys zs) : Grows R xs zs := by
  obtain ⟨kept, added, rfl, hkept⟩ := h
  obtain ⟨kept', added', rfl, hkept'⟩ := h'
  obtain ⟨front, back, rfl, hfront⟩ : ∃ front back, kept' = front ++ back ∧
      List.Forall₂ R kept front := by
    refine ⟨kept'.take kept.length, kept'.drop kept.length, (List.take_append_drop _ _).symm, ?_⟩
    have htake := List.forall₂_take kept.length hkept'
    rwa [List.take_left'] at htake
    rfl
  refine ⟨front, back ++ added', List.append_assoc _ _ _, ?_⟩
  have hlength := hkept.length_eq
  clear hkept'
  induction hkept generalizing front with
  | nil =>
      cases hfront
      exact .nil
  | cons hab _ ih =>
      obtain ⟨c, rest, hbc, hrest, rfl⟩ := List.forall₂_cons_left_iff.mp hfront
      exact .cons (htrans hab hbc) (ih rest hrest (by simpa using hlength))

/-- A search `R` does not touch finds the same element. -/
theorem Grows.find? {p : α → Bool} {a : α} (h : Grows R xs ys) (hp : ∀ {a b}, R a b → p b = p a)
    (hfind : xs.find? p = some a) : ∃ b, ys.find? p = some b ∧ R a b := by
  obtain ⟨kept, added, rfl, hkept⟩ := h
  induction hkept with
  | nil => simp at hfind
  | @cons x y xs kept hxy _ ih =>
      rw [List.find?_cons] at hfind
      rw [List.cons_append, List.find?_cons, hp hxy]
      cases hx : p x with
      | true =>
          rw [hx] at hfind
          exact ⟨y, rfl, Option.some.inj hfind ▸ hxy⟩
      | false =>
          rw [hx] at hfind
          exact ih hfind

/-! ## The values of a map -/

namespace JsMap

variable {K : Type u} {V : Type v} [DecidableEq K] {R : V → V → Prop} {m : JsMap K V} {k : K}

/-- A new key adds its value at the end. -/
theorem grows_set (hrefl : ∀ v, R v v) (h : m.get k = none) (v : V) :
    Grows R m.values (m.set k v).values := by
  rw [values_set_of_absent h]
  exact Grows.append hrefl _ _

theorem forall₂_setEntries (hrefl : ∀ v, R v v) {v v' : V} {es : List (K × V)}
    (h : getEntries k es = some v) (hv : R v v') :
    List.Forall₂ R (es.map Prod.snd) ((setEntries k v' es).map Prod.snd) := by
  induction es with
  | nil => simp [getEntries] at h
  | cons e rest ih =>
      obtain ⟨k', w⟩ := e
      by_cases hk : k' = k
      · simp only [getEntries, if_pos hk, Option.some.injEq] at h
        simp only [setEntries, if_pos hk, List.map_cons]
        exact .cons (h ▸ hv) (List.forall₂_same.mpr fun v _ => hrefl v)
      · simp only [getEntries, if_neg hk] at h
        simp only [setEntries, if_neg hk, List.map_cons]
        exact .cons (hrefl w) (ih h)

theorem grows_modify (hrefl : ∀ v, R v v) {f : V → V} (h : ∀ v, m.get k = some v → R v (f v)) :
    Grows R m.values (m.modify k f).values := by
  unfold modify
  cases hget : m.get k with
  | none => exact Grows.refl hrefl _
  | some v => exact Grows.of_forall₂ (forall₂_setEntries hrefl hget (h v hget))

end JsMap

end H2a.Library
