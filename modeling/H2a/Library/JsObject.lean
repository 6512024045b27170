import H2a.Library.JsonRoundTrip
import Mathlib.Data.List.Nodup
import Mathlib.Algebra.Group.Nat.Defs
/-!
# Plain objects

The own members of a plain object, in the order `Object.keys` gives them: array
indices first, then the other keys as they were added.  Defining a member, as an
object literal, a spread or `JSON.parse` does, differs from assigning it:
`__proto__` is an accessor of `Object.prototype`, and an assignment to it adds no
member.
-/

namespace H2a.Library

/-! ## Keys -/

/-- The key that assignment does not add. -/
def protoKey : JsString := js "__proto__"

def isDigitUnit (u : UInt16) : Bool := 0x30 ≤ u.toNat && u.toNat ≤ 0x39

/-- The array index a key is the decimal of, an integer below `2 ^ 32 - 1`. -/
def arrayIndex (k : JsString) : Option Nat :=
  let value := k.units.foldl (fun n u => 10 * n + (u.toNat - 0x30)) 0
  if !k.units.isEmpty && k.units.all isDigitUnit &&
      (k.units.head? != some 0x30 || k.units.length == 1) && decide (value < 2 ^ 32 - 1) then
    some value
  else none

/-- Whether a key that is added comes before one that is there. -/
def comesBefore (k m : JsString) : Bool :=
  match arrayIndex k, arrayIndex m with
  | some i, some j => decide (i < j)
  | some _, none => true
  | none, _ => false

section Objects

variable {V : Type}

/-! ## Members -/

def hasMember (k : JsString) (ms : List (JsString × V)) : Bool := (lookupMember k ms).isSome

/-- Define an own member. -/
def defineMember (k : JsString) (v : V) (ms : List (JsString × V)) : List (JsString × V) :=
  if hasMember k ms then ms.map fun m => if m.1 = k then (k, v) else m
  else
    ms.takeWhile (fun m => !comesBefore k m.1) ++
      (k, v) :: ms.dropWhile (fun m => !comesBefore k m.1)

/-- `out[k] = v` on a plain object. -/
def assignMember (k : JsString) (v : V) (out : List (JsString × V)) : List (JsString × V) :=
  if k = protoKey then out else defineMember k v out

/-- `{ ...ms, ...ns }`: a later member of the same key wins. -/
def spread (ms ns : List (JsString × V)) : List (JsString × V) :=
  ns.foldl (fun out m => defineMember m.1 m.2 out) ms

/-! ## What is looked up -/

theorem lookupMember_replace (k : JsString) (v : V) (ms : List (JsString × V)) (x : JsString) :
    lookupMember x (ms.map fun m => if m.1 = k then (k, v) else m) =
      if x = k then (lookupMember k ms).map fun _ => v else lookupMember x ms := by
  induction ms with
  | nil => simp [lookupMember]
  | cons m ms ih =>
      rw [List.map_cons, lookupMember, ih, lookupMember, lookupMember]
      by_cases hm : m.1 = k
      · by_cases hx : x = k
        · simp [hm, hx]
        · simp [hm, hx, Ne.symm hx]
      · by_cases hx : x = k
        · simp [hm, hx]
        · simp [hm, hx]

@[simp] theorem lookupMember_defineMember (k : JsString) (v : V) (ms : List (JsString × V))
    (x : JsString) :
    lookupMember x (defineMember k v ms) = if x = k then some v else lookupMember x ms := by
  rw [defineMember]
  split_ifs with hhas hx hx
  · obtain ⟨u, hu⟩ := Option.isSome_iff_exists.mp hhas
    rw [lookupMember_replace, if_pos hx, hu, Option.map_some]
  · rw [lookupMember_replace, if_neg hx]
  · have hnone : lookupMember k ms = none := by simpa [hasMember] using hhas
    have hbefore : lookupMember k (ms.takeWhile fun m => !comesBefore k m.1) = none := by
      rw [lookupMember_eq_none] at hnone ⊢
      exact fun hk => hnone ((List.takeWhile_prefix _).sublist.map Prod.fst |>.subset hk)
    rw [lookupMember_append, hx, hbefore, Option.none_or, lookupMember, if_pos rfl]
  · have hparts := List.takeWhile_append_dropWhile (l := ms)
      (p := fun m => !comesBefore k m.1)
    rw [lookupMember_append, lookupMember, if_neg (Ne.symm hx), ← lookupMember_append, hparts]

theorem keys_replace (k : JsString) (v : V) (ms : List (JsString × V)) :
    (ms.map fun m => if m.1 = k then (k, v) else m).map Prod.fst = ms.map Prod.fst := by
  rw [List.map_map]
  apply List.map_congr_left
  intro m _
  rw [Function.comp_apply]
  split_ifs with hm
  · exact hm.symm
  · rfl

theorem nodup_defineMember (k : JsString) (v : V) {ms : List (JsString × V)}
    (h : (ms.map Prod.fst).Nodup) : ((defineMember k v ms).map Prod.fst).Nodup := by
  rw [defineMember]
  split_ifs with hhas
  · rwa [keys_replace]
  · have hk : k ∉ ms.map Prod.fst := by
      rw [← lookupMember_eq_none]
      simpa [hasMember] using hhas
    have hperm : ((k, v) :: ms).Perm (ms.takeWhile (fun m => !comesBefore k m.1) ++
        (k, v) :: ms.dropWhile (fun m => !comesBefore k m.1)) := by
      conv_lhs => rw [← List.takeWhile_append_dropWhile (l := ms)
        (p := fun m => !comesBefore k m.1)]
      exact List.perm_middle.symm
    rw [← (hperm.map Prod.fst).nodup_iff, List.map_cons]
    exact List.nodup_cons.mpr ⟨hk, h⟩

theorem nodup_spread (ns : List (JsString × V)) {ms : List (JsString × V)}
    (h : (ms.map Prod.fst).Nodup) : ((spread ms ns).map Prod.fst).Nodup := by
  induction ns generalizing ms with
  | nil => exact h
  | cons n ns ih => exact ih (nodup_defineMember n.1 n.2 h)

/-- What the later object has wins. -/
theorem lookupMember_spread (ms ns : List (JsString × V)) (x : JsString) :
    lookupMember x (spread ms ns) = (lookupMember x ns.reverse).or (lookupMember x ms) := by
  induction ns generalizing ms with
  | nil => rfl
  | cons n ns ih =>
      rw [spread, List.foldl_cons]
      change lookupMember x (spread (defineMember n.1 n.2 ms) ns) = _
      rw [ih, lookupMember_defineMember, List.reverse_cons, lookupMember_append, Option.or_assoc,
        lookupMember]
      congr 1
      by_cases hx : x = n.1
      · simp [hx]
      · simp [hx, Ne.symm hx, lookupMember]

theorem mem_defineMember {k : JsString} {v : V} {ms : List (JsString × V)} {m : JsString × V}
    (h : m ∈ defineMember k v ms) : m = (k, v) ∨ m ∈ ms := by
  rw [defineMember] at h
  split_ifs at h
  · obtain ⟨m', hm', heq⟩ := List.mem_map.mp h
    split_ifs at heq
    · exact Or.inl heq.symm
    · exact Or.inr (heq ▸ hm')
  · rcases List.mem_append.mp h with h | h
    · exact Or.inr ((List.takeWhile_sublist _).subset h)
    · exact (List.mem_cons.mp h).imp_right fun h => (List.dropWhile_sublist _).subset h

theorem mem_spread {ms ns : List (JsString × V)} {m : JsString × V} (h : m ∈ spread ms ns) :
    m ∈ ms ∨ m ∈ ns := by
  induction ns generalizing ms with
  | nil => exact Or.inl h
  | cons n ns ih =>
      rcases ih h with h | h
      · rcases mem_defineMember h with rfl | h
        · exact Or.inr List.mem_cons_self
        · exact Or.inl h
      · exact Or.inr (List.mem_cons_of_mem _ h)

/-! ## Objects with the same members -/

theorem SortedMembers.nodup {ms : List (JsString × V)} (h : SortedMembers ms) :
    (ms.map Prod.fst).Nodup := by
  rw [List.Nodup, List.pairwise_map]
  apply h.imp
  intro a b hlt heq
  rw [heq] at hlt
  exact JsString.not_lt_self b.1 hlt

theorem SortedMembers.ext {ms ns : List (JsString × V)} (hms : SortedMembers ms)
    (hns : SortedMembers ns) (h : ∀ k, lookupMember k ms = lookupMember k ns) : ms = ns := by
  have hsub : ∀ {as bs : List (JsString × V)}, SortedMembers as →
      (∀ k, lookupMember k as = lookupMember k bs) → ∀ m ∈ as, m ∈ bs := by
    intro as bs has hlookup m hm
    apply mem_of_lookupMember (k := m.1)
    rw [← hlookup, lookupMember_of_mem has.nodup hm]
  have hperm : ms.Perm ns := by
    rw [List.perm_ext_iff_of_nodup (List.Nodup.of_map Prod.fst hms.nodup)
      (List.Nodup.of_map Prod.fst hns.nodup)]
    exact fun m => ⟨hsub hms h m, hsub hns (fun k => (h k).symm) m⟩
  apply hperm.eq_of_pairwise _ hms hns
  intro a b _ _ hab hba
  exact absurd (JsString.lt_chain hab hba) (JsString.not_lt_self _)

/-- Objects with the same members, ordered, are one. -/
theorem ofMembers_ext {ms ns : List (JsString × V)} (hms : (ms.map Prod.fst).Nodup)
    (hns : (ns.map Prod.fst).Nodup) (h : ∀ k, lookupMember k ms = lookupMember k ns) :
    ofMembers ms = ofMembers ns := by
  apply (sorted_ofMembers ms).ext (sorted_ofMembers ns)
  intro k
  rw [lookupMember_ofMembers_of_nodup hms, lookupMember_ofMembers_of_nodup hns, h]

theorem SortedMembers.eraseMember {k : JsString} {ms : List (JsString × V)}
    (h : SortedMembers ms) : SortedMembers (eraseMember k ms) := List.Pairwise.filter _ h

/-- Erasing and ordering the members commute. -/
theorem ofMembers_eraseMember (k : JsString) (ms : List (JsString × V)) :
    ofMembers (eraseMember k ms) = eraseMember k (ofMembers ms) := by
  apply (sorted_ofMembers _).ext (sorted_ofMembers ms).eraseMember
  intro x
  have hreverse : (eraseMember k ms).reverse = eraseMember k ms.reverse := by
    rw [eraseMember, eraseMember, List.filter_reverse]
  rw [lookupMember_ofMembers, hreverse, lookupMember_eraseMember, lookupMember_eraseMember,
    lookupMember_ofMembers]

theorem lookupMember_mapValues {W : Type} (g : V → W) (ms : List (JsString × V)) (k : JsString) :
    lookupMember k (ms.map fun m => (m.1, g m.2)) = (lookupMember k ms).map g := by
  induction ms with
  | nil => rfl
  | cons m ms ih =>
      rw [List.map_cons, lookupMember, lookupMember, ih]
      split_ifs <;> rfl

theorem lookupMember_filter (p : JsString → Bool) (ms : List (JsString × V)) (k : JsString) :
    lookupMember k (ms.filter fun m => p m.1) = if p k then lookupMember k ms else none := by
  induction ms with
  | nil => simp [lookupMember]
  | cons m ms ih =>
      by_cases hm : p m.1
      · rw [List.filter_cons_of_pos (p := fun m : JsString × V => p m.1) hm, lookupMember, lookupMember, ih]
        by_cases hk : m.1 = k
        · simp [hk, hk ▸ hm]
        · simp [hk]
      · rw [List.filter_cons_of_neg (p := fun m : JsString × V => p m.1) hm, ih, lookupMember]
        by_cases hk : m.1 = k
        · have hpk : ¬p k := hk ▸ hm
          simp [hpk]
        · simp [hk]

theorem nodup_filter (p : JsString × V → Bool) {ms : List (JsString × V)}
    (h : (ms.map Prod.fst).Nodup) : ((ms.filter p).map Prod.fst).Nodup :=
  (List.filter_sublist.map Prod.fst).nodup h

end Objects

/-! ## Values, member by member -/

namespace Json

variable {N : Type}

/-- What holds of a value when it holds of its elements and members holds of all values. -/
@[elab_as_elim]
theorem memberwise {P : Json N → Prop} (null : P .null) (bool : ∀ b, P (.bool b))
    (num : ∀ n, P (.num n)) (str : ∀ s, P (.str s))
    (arr : ∀ es : List (Json N), (∀ e ∈ es, P e) → P (.arr es))
    (obj : ∀ ms : List (JsString × Json N), (∀ m ∈ ms, P m.2) → P (.obj ms)) (j : Json N) : P j :=
  Json.rec (motive_1 := P) (motive_2 := fun es => ∀ e ∈ es, P e)
    (motive_3 := fun ms => ∀ m ∈ ms, P m.2) (motive_4 := fun m => P m.2)
    null bool num str arr obj (by simp) (fun e es he hes => List.forall_mem_cons.mpr ⟨he, hes⟩)
    (by simp) (fun m ms hm hms => List.forall_mem_cons.mpr ⟨hm, hms⟩) (fun _ _ hv => hv) j

/-- Equal up to the order of members. -/
def SameMembers (v w : Json N) : Prop := v.ordered = w.ordered

/-- `value.k`, where it is an own member; `none` is `undefined`. -/
def get (k : JsString) : Json N → Option (Json N)
  | .obj members => lookupMember k members
  | _ => none

/-- `value === s` -/
def isText (s : JsString) : Option (Json N) → Bool
  | some (.str t) => t == s
  | _ => false

/-- A read of `value.k` that may throw: `null` has no members. -/
def member (k : JsString) : Json N → Except String (Option (Json N))
  | .null => .error "Cannot read properties of null"
  | v => .ok (v.get k)

/-- Each object has each of its keys once, as objects of the language have. -/
def Distinct : Json N → Prop
  | .arr elements => DistinctElements elements
  | .obj members => (members.map Prod.fst).Nodup ∧ DistinctMembers members
  | _ => True
where
  DistinctElements : List (Json N) → Prop
    | [] => True
    | e :: es => Distinct e ∧ DistinctElements es
  DistinctMembers : List (JsString × Json N) → Prop
    | [] => True
    | (_, v) :: ms => Distinct v ∧ DistinctMembers ms

theorem distinct_arr (es : List (Json N)) : Distinct (.arr es) ↔ ∀ e ∈ es, Distinct e := by
  rw [Distinct]
  induction es with
  | nil => simp [Distinct.DistinctElements]
  | cons e es ih => rw [Distinct.DistinctElements, ih, List.forall_mem_cons]

theorem distinct_obj (ms : List (JsString × Json N)) :
    Distinct (.obj ms) ↔ (ms.map Prod.fst).Nodup ∧ ∀ m ∈ ms, Distinct m.2 := by
  have hmembers : Distinct.DistinctMembers ms ↔ ∀ m ∈ ms, Distinct m.2 := by
    induction ms with
    | nil => simp [Distinct.DistinctMembers]
    | cons m ms ih => rw [Distinct.DistinctMembers, ih, List.forall_mem_cons]
  rw [Distinct, hmembers]

theorem orderedElements_eq_map (es : List (Json N)) :
    ordered.orderedElements es = es.map ordered := by
  induction es with
  | nil => rfl
  | cons e es ih => rw [ordered.orderedElements, ih, List.map_cons]

theorem orderedMembers_eq_map (ms : List (JsString × Json N)) :
    ordered.orderedMembers ms = ms.map fun m => (m.1, ordered m.2) := by
  induction ms with
  | nil => rfl
  | cons m ms ih => rw [ordered.orderedMembers, ih, List.map_cons]

theorem ordered_arr (es : List (Json N)) : ordered (.arr es) = .arr (es.map ordered) := by
  rw [ordered, orderedElements_eq_map]

theorem ordered_obj (ms : List (JsString × Json N)) :
    ordered (.obj ms) = .obj ((ofMembers ms).map fun m => (m.1, ordered m.2)) := by
  rw [ordered, orderedMembers_eq_map, ofMembers_mapValues]

theorem sortedMembers_mapValues {V W : Type} (g : V → W) {ms : List (JsString × V)}
    (h : SortedMembers ms) : SortedMembers (ms.map fun m => (m.1, g m.2)) := by
  rw [SortedMembers, List.pairwise_map]
  exact h

@[simp] theorem ordered_ordered (j : Json N) : j.ordered.ordered = j.ordered := by
  induction j using memberwise with
  | null => rfl
  | bool => rfl
  | num => rfl
  | str => rfl
  | arr es ih =>
      rw [ordered_arr, ordered_arr, List.map_map]
      exact congrArg arr (List.map_congr_left ih)
  | obj ms ih =>
      rw [ordered_obj, ordered_obj,
        ofMembers_of_sorted (sortedMembers_mapValues ordered (sorted_ofMembers ms)), List.map_map]
      apply congrArg obj
      apply List.map_congr_left
      intro m hm
      exact congrArg (Prod.mk m.1) (ih m (mem_ofMembers hm))

/-- Objects are equal, up to the order of members, when their members are. -/
theorem sameMembers_obj {ms ns : List (JsString × Json N)}
    (h : ∀ k, (lookupMember k ms.reverse).map ordered = (lookupMember k ns.reverse).map ordered) :
    (Json.obj ms).SameMembers (.obj ns) := by
  rw [SameMembers, ordered_obj, ordered_obj]
  apply congrArg obj
  apply (sortedMembers_mapValues ordered (sorted_ofMembers ms)).ext
    (sortedMembers_mapValues ordered (sorted_ofMembers ns))
  intro k
  rw [lookupMember_mapValues, lookupMember_mapValues, lookupMember_ofMembers,
    lookupMember_ofMembers, h]

theorem get_ordered {ms : List (JsString × Json N)} (hms : (ms.map Prod.fst).Nodup)
    (k : JsString) : (ordered (.obj ms)).get k = (lookupMember k ms).map ordered := by
  rw [ordered_obj, get, lookupMember_mapValues, lookupMember_ofMembers_of_nodup hms]

section Printing

variable [JsonNumber N]

theorem printable_arr (es : List (Json N)) : Printable (.arr es) ↔ ∀ e ∈ es, Printable e := by
  rw [Printable]
  induction es with
  | nil => simp [Printable.PrintableElements]
  | cons e es ih => rw [Printable.PrintableElements, ih, List.forall_mem_cons]

theorem printable_obj (ms : List (JsString × Json N)) :
    Printable (.obj ms) ↔ ∀ m ∈ ms, Printable m.2 := by
  rw [Printable, printableMembers_iff]

/-- With each key once, nothing is lost on ordering the members. -/
theorem Printable.of_ordered {j : Json N} (hj : Distinct j) (h : Printable j.ordered) :
    Printable j := by
  induction j using memberwise with
  | null => trivial
  | bool => trivial
  | num => exact h
  | str => trivial
  | arr es ih =>
      rw [ordered_arr, printable_arr, List.forall_mem_map] at h
      rw [printable_arr]
      exact fun e he => ih e he ((distinct_arr es).mp hj e he) (h e he)
  | obj ms ih =>
      obtain ⟨hnodup, hmembers⟩ := (distinct_obj ms).mp hj
      rw [ordered_obj, printable_obj, List.forall_mem_map] at h
      rw [printable_obj]
      exact fun m hm => ih m hm (hmembers m hm) (h m (mem_ofMembers_of_nodup hnodup hm))

/-- `JSON.parse(JSON.stringify(v))`: numbers that are not finite are printed as `null`. -/
def readBack : Json N → Json N
  | .num n => if JsonNumber.isFinite n then .num n else .null
  | .arr elements => .arr (readBackElements elements)
  | .obj members => .obj (ofMembers (readBackEach members))
  | j => j
where
  readBackElements : List (Json N) → List (Json N)
    | [] => []
    | e :: es => readBack e :: readBackElements es
  readBackEach : List (JsString × Json N) → List (JsString × Json N)
    | [] => []
    | (k, v) :: ms => (k, readBack v) :: readBackEach ms

theorem readBackEach_eq_map (ms : List (JsString × Json N)) :
    readBack.readBackEach ms = ms.map fun m => (m.1, readBack m.2) := by
  induction ms with
  | nil => rfl
  | cons m ms ih => rw [readBack.readBackEach, ih, List.map_cons]

theorem readBack_arr (es : List (Json N)) : readBack (.arr es) = .arr (es.map readBack) := by
  rw [readBack]
  induction es with
  | nil => rfl
  | cons e es ih => rw [readBack.readBackElements, List.map_cons, arr.inj ih]

/-- What can be printed is read back. -/
theorem Printable.readBack_eq {j : Json N} (h : Printable j) : j.readBack = j.ordered := by
  induction j using memberwise with
  | null => rfl
  | bool => rfl
  | num n => exact if_pos h
  | str => rfl
  | arr es ih =>
      rw [printable_arr] at h
      rw [readBack_arr, ordered_arr]
      exact congrArg arr (List.map_congr_left fun e he => ih e he (h e he))
  | obj ms ih =>
      rw [printable_obj] at h
      rw [readBack, readBackEach_eq_map, ordered, orderedMembers_eq_map]
      have hmap : (ms.map fun m => (m.1, readBack m.2)) = ms.map fun m => (m.1, ordered m.2) :=
        List.map_congr_left fun m hm => congrArg (Prod.mk m.1) (ih m hm (h m hm))
      rw [hmap]

/-- The members of an object that is written and read back. -/
def readBackMembers (ms : List (JsString × Json N)) : List (JsString × Json N) :=
  ofMembers (ms.map fun m => (m.1, readBack m.2))

theorem lookupMember_readBackMembers {ms : List (JsString × Json N)}
    (hms : (ms.map Prod.fst).Nodup) (k : JsString) :
    lookupMember k (readBackMembers ms) = (lookupMember k ms).map readBack := by
  rw [readBackMembers, ofMembers_mapValues, lookupMember_mapValues,
    lookupMember_ofMembers_of_nodup hms]

/-- Whether a value counts as true. -/
def truthy : Json N → Bool
  | .null => false
  | .bool b => b
  | .num n => JsonNumber.toInt? n != some 0
  | .str s => !s.units.isEmpty
  | .arr _ => true
  | .obj _ => true

/-- `a === b` on values that are read from different objects. -/
def strictEq : Option (Json N) → Option (Json N) → Bool
  | none, none => true
  | some .null, some .null => true
  | some (.bool a), some (.bool b) => a == b
  | some (.num m), some (.num n) => JsonNumber.print m == JsonNumber.print n
  | some (.str s), some (.str t) => s == t
  | _, _ => false

/-- The number a counter holds. -/
def counter? : Option (Json N) → Option Nat
  | some (.num n) =>
      match JsonNumber.toInt? n with
      | some (.ofNat k) => some k
      | _ => none
  | _ => none

/-- The text of a value in a template literal. -/
def display : Json N → String
  | .null => "null"
  | .bool b => if b then "true" else "false"
  | .num n => String.ofList (JsonNumber.print n)
  | .str s => s.toText
  | .arr es => String.intercalate "," (displayElements es)
  | .obj _ => "[object Object]"
where
  displayElements : List (Json N) → List String
    | [] => []
    | .null :: es => "" :: displayElements es
    | e :: es => display e :: displayElements es

/-- The same of a member that may be `undefined`. -/
def displayMember (v : Option (Json N)) : String := v.elim "undefined" display

theorem counter?_ofNat (k : Nat) : counter? (some (.num (JsonNumber.ofNat k : N))) = some k := by
  simp [counter?, JsonNumber.toInt?_ofNat]

end Printing

end Json

end H2a.Library
