import H2a.Mirror.Sanitize
/-!
# What narrowing dropped

`droppedKeyPaths` of `packages/h2a/src/runtime/mirror/ingest.ts`: "Key paths present in `before` and
absent from `after`", and the key paths themselves.  The report asks `key in after`, which is also
true of what every object inherits.
-/

namespace H2a.Mirror

open H2a.Library

variable {N : Type}

/-! ## The source -/

/-- What is found under a key of an object: a value, `Object.prototype` or one of its functions. -/
inductive Found (N : Type) where
  | value (j : Json N)
  | prototype
  | builtin

/-- The names of the properties of `Object.prototype`. -/
def prototypeNames : List JsString :=
  [js "constructor", js "__defineGetter__", js "__defineSetter__", js "hasOwnProperty",
    js "__lookupGetter__", js "__lookupSetter__", js "isPrototypeOf", js "propertyIsEnumerable",
    js "toString", js "valueOf", js "__proto__", js "toLocaleString"]

/-- `isPlainObject(value)` -/
def isPlainObject : Found N → Bool
  | .value (.obj _) => true
  | .prototype => true
  | _ => false

/-- `key in after`, of a plain object. -/
def keyIn (key : JsString) : Found N → Bool
  | .value (.obj members) => hasMember key members || prototypeNames.contains key
  | _ => prototypeNames.contains key

/-- `after[key]`, where `key in after`. -/
def foundUnder (key : JsString) : Found N → Found N
  | .value (.obj members) =>
      match lookupMember key members with
      | some v => .value v
      | none => if key = protoKey then .prototype else .builtin
  | _ => if key = protoKey then .value .null else .builtin

def isNull : Json N → Bool
  | .null => true
  | _ => false

/-- `prefix ? [prefix] : []` -/
def wholePath (path : JsString) : List JsString := if path.units.isEmpty then [] else [path]

/-- `droppedKeyPaths(before, after, prefix)` -/
def droppedKeyPaths : Json N → Found N → JsString → List JsString
  | .arr before, after, path =>
      match after with
      | .value (.arr kept) =>
          (if kept.length < before.length then [path ++ js "[]"] else []) ++
            droppedElements before kept 0 path
      | _ => wholePath path
  | .obj before, after, path =>
      if isPlainObject after then droppedMembers before after path else wholePath path
  | _, _, _ => []
where
  /-- the loop over the indices both arrays have -/
  droppedElements : List (Json N) → List (Json N) → Nat → JsString → List JsString
    | v :: before, w :: after, i, path =>
        droppedKeyPaths v (.value w) (path ++ js "[" ++ js (toString i) ++ js "]") ++
          droppedElements before after (i + 1) path
    | _, _, _, _ => []
  /-- the loop over `Object.entries(before)` -/
  droppedMembers : List (JsString × Json N) → Found N → JsString → List JsString
    | [], _, _ => []
    | (key, v) :: before, after, path =>
        let keyPath := if path.units.isEmpty then key else path ++ js "." ++ key
        (if isNull v then []
          else if keyIn key after then droppedKeyPaths v (foundUnder key after) keyPath
          else [keyPath]) ++ droppedMembers before after path

/-! ## Key paths -/

inductive PathStep where
  | key (k : JsString)
  | index (i : Nat)

/-- The value of an own key. -/
def child : PathStep → Json N → Option (Json N)
  | .key k, .obj members => lookupMember k members
  | .index i, .arr elements => elements[i]?
  | _, _ => none

/-- The value at a path of own keys. -/
def valueAt : List PathStep → Json N → Option (Json N)
  | [], v => some v
  | step :: path, v => (child step v).bind (valueAt path)

/-- Every own key path of `before` with a value that is not null is one of `after`. -/
def PathsKept (before after : Json N) : Prop :=
  ∀ path v, valueAt path before = some v → v ≠ .null → (valueAt path after).isSome

theorem isNull_iff {v : Json N} : isNull v = true ↔ v = .null := by
  cases v with
  | null => simp [isNull]
  | _ => simp [isNull]

theorem valueAt_null {path : List PathStep} {v : Json N} (h : valueAt path .null = some v) :
    v = .null := by
  cases path with
  | nil => exact (Option.some.inj h).symm
  | cons step path => cases step <;> cases h

theorem PathsKept.refl (v : Json N) : PathsKept v v := by
  intro path w hw _
  rw [hw]
  rfl

/-- A value keeps the paths of another when each of its children does. -/
theorem pathsKept_iff {before after : Json N} :
    PathsKept before after ↔ ∀ step v, child step before = some v → v ≠ .null →
      ∃ w, child step after = some w ∧ PathsKept v w := by
  constructor
  · intro h step v hv hne
    have hone : (valueAt [step] after).isSome := by
      refine h [step] v ?_ hne
      rw [valueAt, hv]
      rfl
    cases hw : child step after with
    | none =>
        rw [valueAt, hw] at hone
        cases hone
    | some w =>
        refine ⟨w, rfl, fun path u hu hnull => ?_⟩
        have hall := h (step :: path) u
        rw [valueAt, valueAt, hv, hw] at hall
        exact hall hu hnull
  · intro h path v hv hne
    cases path with
    | nil => rfl
    | cons step path =>
        rw [valueAt] at hv
        obtain ⟨u, hu, hrest⟩ := Option.bind_eq_some_iff.mp hv
        have hnull : u ≠ .null := by
          rintro rfl
          exact hne (valueAt_null hrest)
        obtain ⟨w, hw, hkept⟩ := h step u hu hnull
        rw [valueAt, hw]
        exact hkept path v hrest hne

/-- A value without children. -/
theorem pathsKept_of_childless {before after : Json N} (h : ∀ step, child step before = none) :
    PathsKept before after := by
  refine pathsKept_iff.mpr fun step v hv => ?_
  rw [h step] at hv
  cases hv

theorem pathsKept_obj {members : List (JsString × Json N)}
    (hnodup : (members.map Prod.fst).Nodup) {after : Json N} :
    PathsKept (.obj members) after ↔ ∀ m ∈ members, m.2 ≠ .null →
      ∃ w, after.get m.1 = some w ∧ PathsKept m.2 w := by
  have hget : ∀ k, child (.key k) after = after.get k := by
    intro k
    cases after <;> rfl
  rw [pathsKept_iff]
  constructor
  · intro h m hm hne
    obtain ⟨w, hw, hkept⟩ := h (.key m.1) m.2 (lookupMember_of_mem hnodup hm) hne
    exact ⟨w, hget m.1 ▸ hw, hkept⟩
  · intro h step v hv hne
    cases step with
    | index i => cases hv
    | key k =>
        obtain ⟨w, hw, hkept⟩ := h (k, v) (mem_of_lookupMember hv) hne
        exact ⟨w, (hget k).trans hw, hkept⟩

theorem pathsKept_arr {elements : List (Json N)} {after : Json N} :
    PathsKept (.arr elements) after ↔ ∀ i v, elements[i]? = some v → v ≠ .null →
      ∃ w, child (.index i) after = some w ∧ PathsKept v w := by
  rw [pathsKept_iff]
  constructor
  · exact fun h i v hv hne => h (.index i) v hv hne
  · intro h step v hv hne
    cases step with
    | key k => cases hv
    | index i => exact h i v hv hne

/-- An array whose elements are all null has no key path. -/
theorem pathsKept_of_no_array {elements : List (Json N)} {after : Json N}
    (h : ∀ i, child (.index i) after = none) :
    PathsKept (.arr elements) after ↔ ∀ e ∈ elements, e = .null := by
  rw [pathsKept_arr]
  constructor
  · intro hkept e he
    by_contra hne
    obtain ⟨i, hi⟩ := List.getElem?_of_mem he
    obtain ⟨w, hw, -⟩ := hkept i e hi hne
    rw [h i] at hw
    cases hw
  · intro hnull i v hv hne
    exact absurd (hnull v (List.mem_of_getElem? hv)) hne

/-! ## When nothing is reported -/

theorem wholePath_ne_nil {path : JsString} (h : path.units ≠ []) : wholePath path ≠ [] := by
  rw [wholePath, if_neg (by rw [List.isEmpty_iff]; exact h)]
  exact List.cons_ne_nil _ _

theorem droppedMembers_eq_nil_iff {members : List (JsString × Json N)} {after : Found N}
    {path : JsString} :
    droppedKeyPaths.droppedMembers members after path = [] ↔ ∀ m ∈ members, m.2 ≠ .null →
      keyIn m.1 after = true ∧ droppedKeyPaths m.2 (foundUnder m.1 after)
        (if path.units.isEmpty then m.1 else path ++ js "." ++ m.1) = [] := by
  induction members with
  | nil => simp [droppedKeyPaths.droppedMembers]
  | cons m members ih =>
      rw [droppedKeyPaths.droppedMembers, List.append_eq_nil_iff, ih, List.forall_mem_cons]
      apply and_congr_left
      intro _
      by_cases hnull : m.2 = .null
      · rw [if_pos (isNull_iff.mpr hnull)]
        exact iff_of_true rfl fun hne => absurd hnull hne
      · rw [if_neg (mt isNull_iff.mp hnull)]
        by_cases hin : keyIn m.1 after = true
        · rw [if_pos hin]
          exact ⟨fun h _ => ⟨hin, h⟩, fun h => (h hnull).2⟩
        · rw [if_neg hin]
          exact iff_of_false (List.cons_ne_nil _ _) fun h => hin (h hnull).1

/-- The report on elements that lose nothing when they keep their paths. -/
theorem droppedElements_eq_nil_iff {before after : List (Json N)} {i : Nat} {path : JsString}
    (h : ∀ (j : Nat) v w, before[j]? = some v → after[j]? = some w → ∀ path : JsString,
      path.units ≠ [] → (droppedKeyPaths v (.value w) path = [] ↔ PathsKept v w)) :
    droppedKeyPaths.droppedElements before after i path = [] ↔
      ∀ (j : Nat) v w, before[j]? = some v → after[j]? = some w → PathsKept v w := by
  induction before generalizing after i with
  | nil => simp [droppedKeyPaths.droppedElements]
  | cons v before ih =>
      cases after with
      | nil => simp [droppedKeyPaths.droppedElements]
      | cons w after =>
          have hpath : (path ++ js "[" ++ js (toString i) ++ js "]").units ≠ [] := by
            intro hnil
            have hlength := congrArg List.length hnil
            simp only [JsString.append_units, List.length_append, List.length_nil] at hlength
            have hbracket : (js "]").units.length = 1 := by decide
            omega
          rw [droppedKeyPaths.droppedElements, List.append_eq_nil_iff, h 0 v w rfl rfl _ hpath,
            ih fun j v' w' hv hw => h (j + 1) v' w' hv hw]
          constructor
          · rintro ⟨hfirst, hrest⟩ j v' w' hv hw
            cases j with
            | zero =>
                cases hv
                cases hw
                exact hfirst
            | succ j => exact hrest j v' w' hv hw
          · exact fun hall => ⟨hall 0 v w rfl rfl, fun j v' w' hv hw => hall (j + 1) v' w' hv hw⟩

/-- Nothing is dropped from a value to itself. -/
theorem droppedKeyPaths_self {v : Json N} (h : v.Distinct) (path : JsString) :
    droppedKeyPaths v (.value v) path = [] := by
  induction v using Json.memberwise generalizing path with
  | null => rfl
  | bool => rfl
  | num => rfl
  | str => rfl
  | arr es ih =>
      have helements : ∀ (es : List (Json N)) i, (∀ e ∈ es, ∀ path,
          droppedKeyPaths e (.value e) path = []) →
          droppedKeyPaths.droppedElements es es i path = [] := by
        intro es
        induction es with
        | nil => exact fun _ _ => rfl
        | cons e es ihes =>
            intro i hall
            rw [droppedKeyPaths.droppedElements, hall e List.mem_cons_self,
              ihes _ fun e' he' => hall e' (List.mem_cons_of_mem _ he')]
            rfl
      rw [droppedKeyPaths, if_neg (Nat.lt_irrefl _), List.nil_append]
      exact helements es 0 fun e he => ih e he ((Json.distinct_arr es).mp h e he)
  | obj ms ih =>
      obtain ⟨hnodup, hdistinct⟩ := (Json.distinct_obj ms).mp h
      have hplain : isPlainObject (.value (.obj ms) : Found N) = true := rfl
      rw [droppedKeyPaths, if_pos hplain, droppedMembers_eq_nil_iff]
      intro m hm _
      have hlookup := lookupMember_of_mem hnodup hm
      constructor
      · rw [keyIn, hasMember, hlookup]
        rfl
      · rw [foundUnder, hlookup]
        exact ih m hm (hdistinct m hm) _

end H2a.Mirror
