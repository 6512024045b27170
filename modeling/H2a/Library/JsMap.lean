import Mathlib.Data.List.Nodup
import Mathlib.Tactic.Common
/-!
# Insertion-ordered maps

A JavaScript `Map`: a finite association of keys to values that remembers the
order in which the keys were first set.  Setting a present key keeps its place.
The invariant that no key occurs twice is a field, so a map with a shadowed
entry cannot be built.
-/

namespace H2a.Library

universe u v w

/-- Replace the value of `k` where it stands, or add it at the end. -/
def setEntries {K : Type u} {V : Type v} [DecidableEq K] (k : K) (v : V) :
    List (K × V) → List (K × V)
  | [] => [(k, v)]
  | (k', v') :: rest =>
      if k' = k then (k, v) :: rest else (k', v') :: setEntries k v rest

/-- The value of the first entry of `k`. -/
def getEntries {K : Type u} {V : Type v} [DecidableEq K] (k : K) :
    List (K × V) → Option V
  | [] => none
  | (k', v') :: rest => if k' = k then some v' else getEntries k rest

attribute [grind =] setEntries getEntries

section Entries

variable {K : Type u} {V : Type v} [DecidableEq K]

theorem mem_keys_setEntries (k : K) (v : V) (es : List (K × V)) (x : K) :
    x ∈ (setEntries k v es).map Prod.fst ↔ x = k ∨ x ∈ es.map Prod.fst := by
  induction es with
  | nil => simp [setEntries]
  | cons e rest ih =>
      obtain ⟨k', v'⟩ := e
      by_cases hk : k' = k
      · subst hk
        simp [setEntries]
      · simp only [setEntries, if_neg hk, List.map_cons, List.mem_cons, ih]
        tauto

theorem nodup_setEntries (k : K) (v : V) {es : List (K × V)}
    (h : (es.map Prod.fst).Nodup) : ((setEntries k v es).map Prod.fst).Nodup := by
  induction es with
  | nil => simp [setEntries]
  | cons e rest ih =>
      obtain ⟨k', v'⟩ := e
      simp only [List.map_cons, List.nodup_cons] at h
      by_cases hk : k' = k
      · subst hk
        simpa [setEntries] using h
      · simp only [setEntries, if_neg hk, List.map_cons, List.nodup_cons,
          mem_keys_setEntries, not_or]
        exact ⟨⟨hk, h.1⟩, ih h.2⟩

theorem getEntries_setEntries (k : K) (v : V) (es : List (K × V)) (x : K) :
    getEntries x (setEntries k v es) = if x = k then some v else getEntries x es := by
  induction es with
  | nil => simp [setEntries, getEntries, eq_comm]
  | cons e rest ih =>
      obtain ⟨k', v'⟩ := e
      by_cases hk : k' = k
      · subst hk
        by_cases hx : x = k'
        · simp [setEntries, getEntries, hx]
        · simp [setEntries, getEntries, hx, Ne.symm hx]
      · simp only [setEntries, if_neg hk, getEntries, ih]
        by_cases hx : k' = x
        · subst hx
          simp [hk]
        · simp [hx]

theorem getEntries_eq_none_iff (k : K) (es : List (K × V)) :
    getEntries k es = none ↔ k ∉ es.map Prod.fst := by
  induction es with
  | nil => simp [getEntries]
  | cons e rest ih =>
      obtain ⟨k', v'⟩ := e
      by_cases hk : k' = k
      · simp [getEntries, hk]
      · simp only [getEntries, if_neg hk, ih, List.map_cons, List.mem_cons, not_or]
        simp [Ne.symm hk]

theorem mem_of_getEntries {k : K} {v : V} {es : List (K × V)}
    (h : getEntries k es = some v) : (k, v) ∈ es := by
  induction es with
  | nil => simp [getEntries] at h
  | cons e rest ih =>
      obtain ⟨k', v'⟩ := e
      by_cases hk : k' = k
      · subst hk
        simp only [getEntries, if_true, Option.some.injEq] at h
        simp [h]
      · simp only [getEntries, if_neg hk] at h
        exact List.mem_cons_of_mem _ (ih h)

theorem getEntries_of_mem {k : K} {v : V} {es : List (K × V)}
    (hnodup : (es.map Prod.fst).Nodup) (h : (k, v) ∈ es) :
    getEntries k es = some v := by
  induction es with
  | nil => simp at h
  | cons e rest ih =>
      obtain ⟨k', v'⟩ := e
      simp only [List.map_cons, List.nodup_cons] at hnodup
      rcases List.mem_cons.mp h with heq | hrest
      · simp only [Prod.mk.injEq] at heq
        simp [getEntries, heq.1, heq.2]
      · have hk : k' ≠ k := by
          rintro rfl
          exact hnodup.1 (List.mem_map.mpr ⟨(k', v), hrest, rfl⟩)
        simp only [getEntries, if_neg hk]
        exact ih hnodup.2 hrest

theorem setEntries_of_absent {k : K} (v : V) {es : List (K × V)}
    (h : getEntries k es = none) : setEntries k v es = es ++ [(k, v)] := by
  induction es with
  | nil => rfl
  | cons e rest ih =>
      obtain ⟨k', v'⟩ := e
      by_cases hk : k' = k
      · simp [getEntries, hk] at h
      · simp only [getEntries, if_neg hk] at h
        simp only [setEntries, if_neg hk, ih h, List.cons_append]

/-- What the new value has in common with the old one is where it was. -/
theorem map_setEntries {W : Type w} {g : V → W} {k : K} {v v' : V} {es : List (K × V)}
    (h : getEntries k es = some v) (hg : g v' = g v) :
    (setEntries k v' es).map (fun e => g e.2) = es.map fun e => g e.2 := by
  induction es with
  | nil => simp [getEntries] at h
  | cons e rest ih =>
      obtain ⟨k', w⟩ := e
      by_cases hk : k' = k
      · simp only [getEntries, if_pos hk, Option.some.injEq] at h
        simp [setEntries, hk, hg, h]
      · simp only [getEntries, if_neg hk] at h
        simp [setEntries, hk, ih h]

/-- To add to the list of a key is to add to all the lists together. -/
theorem flatMap_setEntries_perm {α : Type v} (k : K) (a : α) (es : List (K × List α)) :
    ((setEntries k ((getEntries k es).getD [] ++ [a]) es).flatMap Prod.snd).Perm
      (es.flatMap Prod.snd ++ [a]) := by
  induction es with
  | nil => simp [setEntries, getEntries]
  | cons e rest ih =>
      obtain ⟨k', as⟩ := e
      by_cases hk : k' = k
      · simp only [setEntries, getEntries, if_pos hk, Option.getD_some, List.flatMap_cons,
          List.append_assoc]
        exact List.perm_append_comm.append_left as
      · simp only [setEntries, getEntries, if_neg hk, List.flatMap_cons, List.append_assoc]
        exact ih.append_left as

end Entries

/-- A JavaScript `Map`. -/
structure JsMap (K : Type u) (V : Type v) where
  entries : List (K × V)
  nodup : (entries.map Prod.fst).Nodup
  deriving DecidableEq

namespace JsMap

variable {K : Type u} {V : Type v} {W : Type w}

/-- `new Map()`. -/
def empty : JsMap K V := ⟨[], List.nodup_nil⟩

instance : Inhabited (JsMap K V) := ⟨empty⟩

/-- `[...m.values()]`, in insertion order. -/
def values (m : JsMap K V) : List V := m.entries.map Prod.snd

/-- `[...m.keys()]`, in insertion order. -/
def keys (m : JsMap K V) : List K := m.entries.map Prod.fst

/-- Change every value in place (the keys and their order stay). -/
def mapValues (m : JsMap K V) (f : V → W) : JsMap K W where
  entries := m.entries.map fun e => (e.1, f e.2)
  nodup := by simpa [Function.comp_def] using m.nodup

variable [DecidableEq K]

/-- `m.get(k)`. -/
def get (m : JsMap K V) (k : K) : Option V := getEntries k m.entries

/-- `m.has(k)`. -/
def has (m : JsMap K V) (k : K) : Bool := (m.get k).isSome

/-- `m.set(k, v)`. -/
def set (m : JsMap K V) (k : K) (v : V) : JsMap K V :=
  ⟨setEntries k v m.entries, nodup_setEntries k v m.nodup⟩

/-- `const x = m.get(k); if (x) { x.field = … }`: mutate the stored value, if there is one. -/
def modify (m : JsMap K V) (k : K) (f : V → V) : JsMap K V :=
  match m.get k with
  | none => m
  | some v => m.set k (f v)

@[simp] theorem get_empty (k : K) : (empty : JsMap K V).get k = none := rfl

@[simp] theorem get_set (m : JsMap K V) (k : K) (v : V) (x : K) :
    (m.set k v).get x = if x = k then some v else m.get x :=
  getEntries_setEntries k v m.entries x

theorem flatMap_set_perm {α : Type v} (m : JsMap K (List α)) (k : K) (a : α) :
    ((m.set k ((m.get k).getD [] ++ [a])).entries.flatMap Prod.snd).Perm
      (m.entries.flatMap Prod.snd ++ [a]) :=
  flatMap_setEntries_perm k a m.entries

theorem get_set_self (m : JsMap K V) (k : K) (v : V) : (m.set k v).get k = some v := by
  simp

theorem get_set_of_ne (m : JsMap K V) {k x : K} (v : V) (h : x ≠ k) :
    (m.set k v).get x = m.get x := by
  simp [h]

@[simp] theorem get_modify (m : JsMap K V) (k : K) (f : V → V) (x : K) :
    (m.modify k f).get x = if x = k then (m.get k).map f else m.get x := by
  unfold modify
  cases h : m.get k with
  | none =>
      by_cases hx : x = k
      · simp [hx, h]
      · simp [hx]
  | some v => by_cases hx : x = k <;> simp [hx]

@[simp] theorem mapValues_get (m : JsMap K V) (f : V → W) (k : K) :
    (m.mapValues f).get k = (m.get k).map f := by
  obtain ⟨es, hes⟩ := m
  simp only [get, mapValues]
  clear hes
  induction es with
  | nil => rfl
  | cons e rest ih =>
      obtain ⟨k', v'⟩ := e
      by_cases hk : k' = k
      · simp [getEntries, hk]
      · simpa [getEntries, hk] using ih

theorem has_iff (m : JsMap K V) (k : K) : m.has k = true ↔ ∃ v, m.get k = some v := by
  simp [has, Option.isSome_iff_exists]

theorem has_eq_false_iff (m : JsMap K V) (k : K) : m.has k = false ↔ m.get k = none := by
  simp [has]

theorem mem_entries_iff (m : JsMap K V) (k : K) (v : V) :
    (k, v) ∈ m.entries ↔ m.get k = some v :=
  ⟨getEntries_of_mem m.nodup, mem_of_getEntries⟩

theorem mem_values_iff (m : JsMap K V) (v : V) :
    v ∈ m.values ↔ ∃ k, m.get k = some v := by
  simp only [values, List.mem_map, Prod.exists, exists_eq_right, mem_entries_iff]

/-- In a map that is keyed by its values, a value stands under its own key. -/
theorem mem_values_iff_get (m : JsMap K V) {key : V → K} (h : ∀ k v, m.get k = some v → key v = k)
    {v : V} : v ∈ m.values ↔ m.get (key v) = some v := by
  rw [mem_values_iff]
  refine ⟨fun ⟨k, hk⟩ => ?_, fun hv => ⟨key v, hv⟩⟩
  obtain rfl := h k v hk
  exact hk

/-- Where each value says its key, no key is said twice. -/
theorem values_map_nodup (m : JsMap K V) {key : V → K} (h : ∀ k v, m.get k = some v → key v = k) :
    (m.values.map key).Nodup := by
  have hkeys : m.values.map key = m.entries.map Prod.fst := by
    rw [values, List.map_map]
    refine List.map_congr_left fun entry hentry => ?_
    exact h entry.1 entry.2 ((mem_entries_iff _ _ _).mp hentry)
  rw [hkeys]
  exact m.nodup

/-- Where each value says its key, a search for the key among the values finds its own. -/
theorem find?_values (m : JsMap K V) {key : V → K} (h : ∀ k v, m.get k = some v → key v = k)
    (k : K) : (m.values.find? fun v => key v = k) = m.get k := by
  cases hget : m.get k with
  | none =>
      rw [List.find?_eq_none]
      intro v hv hkey
      obtain ⟨k', hk'⟩ := (mem_values_iff m v).mp hv
      rw [← h k' v hk', of_decide_eq_true hkey, hget] at hk'
      simp at hk'
  | some v =>
      cases hfind : m.values.find? fun v => key v = k with
      | none =>
          have hnone := List.find?_eq_none.mp hfind v ((mem_values_iff m v).mpr ⟨k, hget⟩)
          simp [h k v hget] at hnone
      | some v' =>
          obtain ⟨k', hk'⟩ := (mem_values_iff m v').mp (List.mem_of_find?_eq_some hfind)
          have hkey : key v' = k := by simpa using List.find?_some hfind
          rw [← h k' v' hk', hkey, hget] at hk'
          exact hk'.symm

omit [DecidableEq K] in
/-- A map is its entries. -/
theorem ext_entries {m m' : JsMap K V} (h : m.entries = m'.entries) : m = m' := by
  cases m
  cases m'
  congr

/-- `new Map(entries)`: a key that comes again keeps its place and takes the new value. -/
def ofEntries (entries : List (K × V)) : JsMap K V :=
  entries.foldl (fun m e => m.set e.1 e.2) empty

/-- Entries of new keys go to the end, in order. -/
theorem entries_foldl_set (m : JsMap K V) {es : List (K × V)}
    (h : ((m.entries ++ es).map Prod.fst).Nodup) :
    (es.foldl (fun m e => m.set e.1 e.2) m).entries = m.entries ++ es := by
  induction es generalizing m with
  | nil => rw [List.foldl_nil, List.append_nil]
  | cons e es ih =>
      have habsent : getEntries e.1 m.entries = none := by
        rw [getEntries_eq_none_iff]
        rw [List.map_append, List.map_cons] at h
        exact fun hmem => List.disjoint_of_nodup_append h hmem List.mem_cons_self
      have hset : (m.set e.1 e.2).entries = m.entries ++ [e] := setEntries_of_absent e.2 habsent
      have hsplit : m.entries ++ e :: es = (m.set e.1 e.2).entries ++ es := by
        rw [hset, List.append_assoc, List.singleton_append]
      rw [List.foldl_cons, ih _ (hsplit ▸ h), hsplit]

theorem ofEntries_entries (m : JsMap K V) : ofEntries m.entries = m := by
  apply ext_entries
  exact entries_foldl_set empty m.nodup

/-- Where each value says its key, the values alone are the map. -/
theorem ofEntries_values (m : JsMap K V) {key : V → K}
    (h : ∀ k v, m.get k = some v → key v = k) :
    ofEntries (m.values.map fun v => (key v, v)) = m := by
  have hentries : m.values.map (fun v => (key v, v)) = m.entries := by
    rw [values, List.map_map]
    calc m.entries.map ((fun v => (key v, v)) ∘ Prod.snd)
        = m.entries.map id := by
          apply List.map_congr_left
          intro entry hentry
          exact Prod.ext (h entry.1 entry.2 ((mem_entries_iff _ _ _).mp hentry)) rfl
      _ = m.entries := List.map_id _
  rw [hentries, ofEntries_entries]

theorem values_set_of_absent {m : JsMap K V} {k : K} (h : m.get k = none) (v : V) :
    (m.set k v).values = m.values ++ [v] := by
  simp [values, set, setEntries_of_absent v h]

theorem map_values_modify {g : V → W} (m : JsMap K V) (k : K) {f : V → V}
    (hg : ∀ v, g (f v) = g v) : (m.modify k f).values.map g = m.values.map g := by
  unfold modify
  cases h : m.get k with
  | none => rfl
  | some v => simpa [values, set, Function.comp_def] using map_setEntries h (hg v)

/-- `m.delete(k)`. -/
def delete (m : JsMap K V) (k : K) : JsMap K V where
  entries := m.entries.filter fun e => e.1 ≠ k
  nodup := (List.filter_sublist.map Prod.fst).nodup m.nodup

theorem get_delete (m : JsMap K V) (k x : K) :
    (m.delete k).get x = if x = k then none else m.get x := by
  ext v
  rw [← mem_entries_iff]
  by_cases hx : x = k
  · simp [delete, hx]
  · simp [delete, hx, mem_entries_iff]

/-- `for (const [k, v] of m) if (!keep(v)) m.delete(k)` -/
def filterValues (m : JsMap K V) (keep : V → Bool) : JsMap K V where
  entries := m.entries.filter fun e => keep e.2
  nodup := (List.filter_sublist.map Prod.fst).nodup m.nodup

@[simp] theorem get_filterValues (m : JsMap K V) (keep : V → Bool) (k : K) :
    (m.filterValues keep).get k = (m.get k).filter keep := by
  ext v
  rw [← mem_entries_iff, Option.filter_eq_some_iff, ← mem_entries_iff]
  simp [filterValues]

theorem get_eq_none_iff (m : JsMap K V) (k : K) : m.get k = none ↔ k ∉ m.keys :=
  getEntries_eq_none_iff k m.entries

theorem mem_keys_of_get {m : JsMap K V} {k : K} {v : V} (h : m.get k = some v) : k ∈ m.keys := by
  apply Classical.byContradiction
  intro habsent
  rw [(m.get_eq_none_iff k).mpr habsent] at h
  cases h

end JsMap

end H2a.Library
