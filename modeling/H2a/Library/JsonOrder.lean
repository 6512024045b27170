import H2a.Library.JsObject
import H2a.Library.Jsonl
import H2a.Library.Result
/-!
# Parsed values are in order

The members of a parsed object are in the order of their keys, at every depth
(`parse_inOrder`), and so are the parts of a value that is in order.
-/

namespace H2a.Library.Json

variable {N : Type}

/-- The members of its objects are in the order of their keys. -/
def InOrder (j : Json N) : Prop := j.ordered = j

theorem inOrder_ordered (j : Json N) : InOrder j.ordered := ordered_ordered j

theorem inOrder_arr {es : List (Json N)} : InOrder (.arr es) ↔ ∀ e ∈ es, InOrder e := by
  rw [InOrder, ordered_arr]
  constructor
  · intro h e he
    have hmap : es.map ordered = es.map id := by rw [List.map_id, arr.inj h]
    exact List.map_inj_left.mp hmap e he
  · intro h
    exact congrArg arr ((List.map_congr_left h).trans (List.map_id' es))

theorem inOrder_obj {ms : List (JsString × Json N)} :
    InOrder (.obj ms) ↔ SortedMembers ms ∧ ∀ m ∈ ms, InOrder m.2 := by
  rw [InOrder, ordered_obj]
  constructor
  · intro h
    have hms := obj.inj h
    have hsorted : SortedMembers ms := by
      rw [← hms]
      exact sortedMembers_mapValues ordered (sorted_ofMembers ms)
    rw [ofMembers_of_sorted hsorted] at hms
    refine ⟨hsorted, fun m hm => ?_⟩
    have hmap : ms.map (fun m => (m.1, ordered m.2)) = ms.map id := by rw [List.map_id, hms]
    exact congrArg Prod.snd (List.map_inj_left.mp hmap m hm)
  · rintro ⟨hsorted, hms⟩
    rw [ofMembers_of_sorted hsorted]
    have hmap : ∀ m ∈ ms, (m.1, ordered m.2) = m := fun m hm => congrArg (Prod.mk m.1) (hms m hm)
    exact congrArg obj ((List.map_congr_left hmap).trans (List.map_id' ms))

/-- A member of a value in order is in order. -/
theorem InOrder.get {j : Json N} (h : InOrder j) {k : JsString} {v : Json N}
    (hget : j.get k = some v) : InOrder v := by
  cases j with
  | obj ms => exact (inOrder_obj.mp h).2 _ (mem_of_lookupMember hget)
  | _ => simp [Json.get] at hget

section Parsing

variable [JsonNumber N]

theorem InOrder.canonical {j : Json N} (h : InOrder j) (hprintable : Printable j.ordered) :
    Canonical j := by
  rw [h] at hprintable
  have hcanonical := hprintable.canonical
  rwa [h] at hcanonical

omit [JsonNumber N] in
/-- A value in order has each key of its objects once. -/
theorem InOrder.distinct {j : Json N} (h : InOrder j) : Distinct j := by
  induction j using memberwise with
  | arr es ih =>
      rw [distinct_arr]
      exact fun e he => ih e he (inOrder_arr.mp h e he)
  | obj ms ih =>
      rw [distinct_obj]
      obtain ⟨hsorted, hms⟩ := inOrder_obj.mp h
      exact ⟨hsorted.nodup, fun m hm => ih m hm (hms m hm)⟩
  | _ => trivial

/-- A member of a value that can be printed can be printed. -/
theorem Printable.get {j : Json N} (h : Printable j) {k : JsString} {v : Json N}
    (hget : j.get k = some v) : Printable v := by
  cases j with
  | obj ms => exact (printable_obj ms).mp h _ (mem_of_lookupMember hget)
  | _ => simp [Json.get] at hget

theorem Canonical.inOrder {j : Json N} (h : Canonical j) : InOrder j := h.ordered_eq

theorem Canonical.get {j : Json N} (h : Canonical j) {k : JsString} {v : Json N}
    (hget : j.get k = some v) : Canonical v := by
  have hv := h.inOrder.get hget
  have hprintable := h.printable.get hget
  rw [← show v.ordered = v from hv] at hprintable
  exact hv.canonical hprintable

/-- What the three readers give is in order. -/
structure ReadsInOrder (N : Type) [JsonNumber N] (fuel : Nat) : Prop where
  value : ∀ {s rest : List Char} {v : Json N}, parseValue fuel s = some (v, rest) → InOrder v
  elements : ∀ {s rest : List Char} {vs : List (Json N)},
    parseElements fuel s = some (vs, rest) → ∀ v ∈ vs, InOrder v
  members : ∀ {s rest : List Char} {ms : List (JsString × Json N)},
    parseMembers fuel s = some (ms, rest) → ∀ m ∈ ms, InOrder m.2

theorem parseScalar_inOrder {s rest : List Char} {v : Json N}
    (h : parseScalar s = some (v, rest)) : InOrder v := by
  rw [parseScalar] at h
  split at h
  · obtain ⟨_, -, hret⟩ := Option.map_eq_some_iff.mp h
    exact (Prod.mk.inj hret).1 ▸ rfl
  · obtain ⟨_, -, hret⟩ := Option.map_eq_some_iff.mp h
    exact (Prod.mk.inj hret).1 ▸ rfl
  · obtain ⟨_, -, hret⟩ := Option.map_eq_some_iff.mp h
    exact (Prod.mk.inj hret).1 ▸ rfl
  · dsimp only at h
    split_ifs at h
    exact (Prod.mk.inj (Option.some.inj h)).1 ▸ rfl

theorem parseValue_inOrder {fuel : Nat} (ih : ReadsInOrder N fuel) {s rest : List Char}
    {v : Json N} (h : parseValue (fuel + 1) s = some (v, rest)) : InOrder v := by
  rw [parseValue] at h
  split at h
  · obtain ⟨_, -, hret⟩ := Option.map_eq_some_iff.mp h
    exact (Prod.mk.inj hret).1 ▸ rfl
  · split_ifs at h
    · exact (Prod.mk.inj (Option.some.inj h)).1 ▸ rfl
    · obtain ⟨⟨vs, r⟩, hvs, hret⟩ := Option.map_eq_some_iff.mp h
      rw [← (Prod.mk.inj hret).1]
      exact inOrder_arr.mpr (ih.elements hvs)
  · split_ifs at h
    · exact (Prod.mk.inj (Option.some.inj h)).1 ▸ rfl
    · obtain ⟨⟨ms, r⟩, hms, hret⟩ := Option.map_eq_some_iff.mp h
      rw [← (Prod.mk.inj hret).1]
      exact inOrder_obj.mpr ⟨sorted_ofMembers ms, fun m hm => ih.members hms m (mem_ofMembers hm)⟩
  · exact parseScalar_inOrder h

theorem parseElements_inOrder {fuel : Nat} (ih : ReadsInOrder N fuel) {s rest : List Char}
    {vs : List (Json N)} (h : parseElements (fuel + 1) s = some (vs, rest)) :
    ∀ v ∈ vs, InOrder v := by
  obtain ⟨v, r, hv, ⟨tail, vs', -, hvs, rfl⟩ | ⟨-, rfl⟩⟩ := parseElements_cases h
  · exact List.forall_mem_cons.mpr ⟨ih.value hv, ih.elements hvs⟩
  · exact List.forall_mem_singleton.mpr (ih.value hv)

theorem parseMembers_inOrder {fuel : Nat} (ih : ReadsInOrder N fuel) {s rest : List Char}
    {ms : List (JsString × Json N)} (h : parseMembers (fuel + 1) s = some (ms, rest)) :
    ∀ m ∈ ms, InOrder m.2 := by
  obtain ⟨_, us, _, _, v, r, -, -, -, hv, ⟨tail, ms', -, hms, rfl⟩ | ⟨-, rfl⟩⟩ :=
    parseMembers_cases h
  · exact List.forall_mem_cons.mpr ⟨ih.value hv, ih.members hms⟩
  · exact List.forall_mem_singleton.mpr (ih.value hv)

theorem readsInOrder (fuel : Nat) : ReadsInOrder N fuel := by
  induction fuel with
  | zero =>
      constructor
      · intro s rest v h
        rw [parseValue] at h
        simp at h
      · intro s rest vs h
        rw [parseElements] at h
        simp at h
      · intro s rest ms h
        rw [parseMembers] at h
        simp at h
  | succ fuel ih => exact ⟨parseValue_inOrder ih, parseElements_inOrder ih, parseMembers_inOrder ih⟩

theorem parse_inOrder {s : List Char} {v : Json N} (h : parse s = some v) : InOrder v := by
  obtain ⟨⟨w, rest⟩, hw, h⟩ := Option.bind_eq_some_iff.mp h
  split_ifs at h
  obtain rfl := Option.some.inj h
  exact (readsInOrder _).value hw

/-- The values on the lines of a file are in order. -/
theorem readJsonl_inOrder {file : FileBytes} {vs : List (Json N)} (h : readJsonl file = some vs)
    {v : Json N} (hv : v ∈ vs) : InOrder v := by
  cases file with
  | none =>
      obtain rfl := Option.some.inj h
      exact absurd hv List.not_mem_nil
  | some raw =>
      obtain ⟨line, -, hline⟩ := mem_of_mapM h hv
      exact parse_inOrder hline

end Parsing

end H2a.Library.Json
