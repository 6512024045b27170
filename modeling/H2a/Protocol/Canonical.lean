import H2a.Library.JsObject
import H2a.Library.Result
import H2a.Library.Utf8
/-!
# Canonical text

`canonicalize` and `computeHash` of `packages/h2a/src/canonical.ts`.  An object is
copied key by key into a plain object, so a member named `__proto__` is traversed but
does not reach the text.  The text is that of the value without such members, and of
no other value (`canonicalize_eq_iff`).
-/

namespace H2a.Protocol

open H2a.Library

variable {N : Type}

/-! ## The source -/

section Source

variable [JsonNumber N]

/-- `toCanonical(value)`; an error is what it throws. -/
def toCanonical : Json N → Except String (Json N)
  | .null => .ok .null
  | .bool b => .ok (.bool b)
  | .num n =>
      if JsonNumber.isFinite n then .ok (.num n)
      else .error ("canonicalize: non-finite numbers are not supported (" ++
        String.ofList (JsonNumber.print n) ++ ")")
  | .str s => .ok (.str s)
  | .arr elements => do
      let elements ← toCanonicalElements elements
      return .arr elements
  | .obj members => do
      let out ← assignSorted (ofMembers (toCanonicalMembers members)) []
      return .obj out
where
  toCanonicalElements : List (Json N) → Except String (List (Json N))
    | [] => .ok []
    | e :: es => do
        let e ← toCanonical e
        let es ← toCanonicalElements es
        return e :: es
  /-- each member with what becomes of it -/
  toCanonicalMembers : List (JsString × Json N) → List (JsString × Except String (Json N))
    | [] => []
    | (k, v) :: ms => (k, toCanonical v) :: toCanonicalMembers ms
  /-- the loop over `sortedKeys` -/
  assignSorted : List (JsString × Except String (Json N)) → List (JsString × Json N) →
      Except String (List (JsString × Json N))
    | [], out => .ok out
    | (k, v) :: ms, out => do
        let v ← v
        assignSorted ms (assignMember k v out)

/-- `canonicalize(value)` -/
def canonicalize (v : Json N) : Except String (List Char) := do
  let canonical ← toCanonical v
  return canonical.render

/-- `computeHash(value)`, over any digest of bytes. -/
def computeHash (sha256 : List UInt8 → JsString) (v : Json N) : Except String JsString := do
  let canonical ← canonicalize v
  return js "sha256:" ++ sha256 (Utf8.encode canonical)

end Source

/-! ## What the copy keeps -/

/-- The value without its members named `__proto__`, at any depth. -/
def dropProto : Json N → Json N
  | .arr elements => .arr (dropProtoElements elements)
  | .obj members => .obj (eraseMember protoKey (dropProtoMembers members))
  | j => j
where
  dropProtoElements : List (Json N) → List (Json N)
    | [] => []
    | e :: es => dropProto e :: dropProtoElements es
  dropProtoMembers : List (JsString × Json N) → List (JsString × Json N)
    | [] => []
    | (k, v) :: ms => (k, dropProto v) :: dropProtoMembers ms

/-- What `toCanonical` returns when it does not throw. -/
def canonicalForm : Json N → Json N
  | .arr elements => .arr (formElements elements)
  | .obj members => .obj (assignAll (ofMembers (formMembers members)) [])
  | j => j
where
  formElements : List (Json N) → List (Json N)
    | [] => []
    | e :: es => canonicalForm e :: formElements es
  formMembers : List (JsString × Json N) → List (JsString × Json N)
    | [] => []
    | (k, v) :: ms => (k, canonicalForm v) :: formMembers ms
  assignAll (ms out : List (JsString × Json N)) : List (JsString × Json N) :=
    ms.foldl (fun out m => assignMember m.1 m.2 out) out

theorem dropProto_arr (es : List (Json N)) :
    dropProto (.arr es) = .arr (es.map dropProto) := by
  rw [dropProto]
  induction es with
  | nil => rfl
  | cons e es ih =>
      rw [dropProto.dropProtoElements, List.map_cons, Json.arr.inj ih]

theorem dropProtoMembers_eq_map (ms : List (JsString × Json N)) :
    dropProto.dropProtoMembers ms = ms.map fun m => (m.1, dropProto m.2) := by
  induction ms with
  | nil => rfl
  | cons m ms ih => rw [dropProto.dropProtoMembers, ih, List.map_cons]

theorem dropProto_obj (ms : List (JsString × Json N)) :
    dropProto (.obj ms) =
      .obj (eraseMember protoKey (ms.map fun m => (m.1, dropProto m.2))) := by
  rw [dropProto, dropProtoMembers_eq_map]

theorem canonicalForm_arr (es : List (Json N)) :
    canonicalForm (.arr es) = .arr (es.map canonicalForm) := by
  rw [canonicalForm]
  induction es with
  | nil => rfl
  | cons e es ih =>
      rw [canonicalForm.formElements, List.map_cons, Json.arr.inj ih]

theorem formMembers_eq_map (ms : List (JsString × Json N)) :
    canonicalForm.formMembers ms = ms.map fun m => (m.1, canonicalForm m.2) := by
  induction ms with
  | nil => rfl
  | cons m ms ih => rw [canonicalForm.formMembers, ih, List.map_cons]

/-- Assigning members in turn defines all but `__proto__`. -/
theorem assignAll_eq_spread (ms out : List (JsString × Json N)) :
    canonicalForm.assignAll ms out = spread out (eraseMember protoKey ms) := by
  induction ms generalizing out with
  | nil => rfl
  | cons m ms ih =>
      by_cases hm : m.1 = protoKey
      · have herase : eraseMember protoKey (m :: ms) = eraseMember protoKey ms := by
          simp [eraseMember, hm]
        rw [herase, ← ih, canonicalForm.assignAll, List.foldl_cons, assignMember, if_pos hm]
        rfl
      · have herase : eraseMember protoKey (m :: ms) = m :: eraseMember protoKey ms := by
          simp [eraseMember, hm]
        rw [herase, spread, List.foldl_cons, canonicalForm.assignAll, List.foldl_cons,
          assignMember, if_neg hm]
        exact ih _

theorem eraseMember_mapValues (k : JsString) (g : Json N → Json N)
    (ms : List (JsString × Json N)) :
    eraseMember k (ms.map fun m => (m.1, g m.2)) =
      (eraseMember k ms).map fun m => (m.1, g m.2) := by
  rw [eraseMember, eraseMember, List.filter_map]
  rfl

theorem canonicalForm_obj (ms : List (JsString × Json N)) :
    canonicalForm (.obj ms) =
      .obj (spread [] ((eraseMember protoKey (ofMembers ms)).map fun m =>
        (m.1, canonicalForm m.2))) := by
  rw [canonicalForm, formMembers_eq_map, assignAll_eq_spread, ofMembers_mapValues,
    eraseMember_mapValues]

/-- Ordering the members undoes the order of enumeration. -/
theorem ofMembers_spread_nil {ms : List (JsString × Json N)} (h : SortedMembers ms) :
    ofMembers (spread [] ms) = ms := by
  have hnodup : ((spread [] ms).map Prod.fst).Nodup := nodup_spread ms List.nodup_nil
  have hlookup : ∀ k, lookupMember k (spread [] ms) = lookupMember k ms := by
    intro k
    rw [lookupMember_spread, lookupMember, Option.or_none, lookupMember_reverse h.nodup]
  rw [ofMembers_ext hnodup h.nodup hlookup, ofMembers_of_sorted h]

theorem sorted_eraseMember_ofMembers (k : JsString) (ms : List (JsString × Json N)) :
    SortedMembers (eraseMember k (ofMembers ms)) := (sorted_ofMembers ms).eraseMember

theorem ordered_dropProto_obj (ms : List (JsString × Json N)) :
    (dropProto (.obj ms)).ordered =
      .obj ((eraseMember protoKey (ofMembers ms)).map fun m => (m.1, (dropProto m.2).ordered)) := by
  rw [dropProto_obj, Json.ordered_obj, ofMembers_eraseMember, ofMembers_mapValues,
    eraseMember_mapValues, List.map_map]
  rfl

/-- The copy is the value without `__proto__`, up to the order of members. -/
theorem ordered_canonicalForm (j : Json N) :
    (canonicalForm j).ordered = (dropProto j).ordered := by
  induction j using Json.memberwise with
  | null => rfl
  | bool => rfl
  | num => rfl
  | str => rfl
  | arr es ih =>
      rw [canonicalForm_arr, dropProto_arr, Json.ordered_arr, Json.ordered_arr, List.map_map,
        List.map_map]
      exact congrArg Json.arr (List.map_congr_left ih)
  | obj ms ih =>
      have hsorted := sorted_eraseMember_ofMembers protoKey ms
      rw [canonicalForm_obj, ordered_dropProto_obj, Json.ordered_obj,
        ofMembers_spread_nil (Json.sortedMembers_mapValues _ hsorted), List.map_map]
      apply congrArg Json.obj
      apply List.map_congr_left
      intro m hm
      exact congrArg (Prod.mk m.1) (ih m (mem_ofMembers (List.mem_of_mem_filter hm)))

/-- The copy forgets the order of members and `__proto__`, and nothing else. -/
theorem canonicalForm_dropProto (j : Json N) :
    canonicalForm (dropProto j).ordered = canonicalForm j := by
  induction j using Json.memberwise with
  | null => rfl
  | bool => rfl
  | num => rfl
  | str => rfl
  | arr es ih =>
      rw [dropProto_arr, Json.ordered_arr, canonicalForm_arr, canonicalForm_arr, List.map_map,
        List.map_map]
      exact congrArg Json.arr (List.map_congr_left ih)
  | obj ms ih =>
      have hsorted := sorted_eraseMember_ofMembers protoKey ms
      have herased : eraseMember protoKey (eraseMember protoKey (ofMembers ms)) =
          eraseMember protoKey (ofMembers ms) := by
        simp [eraseMember]
      rw [ordered_dropProto_obj, canonicalForm_obj, canonicalForm_obj,
        ofMembers_of_sorted (Json.sortedMembers_mapValues (fun v => (dropProto v).ordered) hsorted),
        eraseMember_mapValues protoKey (fun v => (dropProto v).ordered), herased, List.map_map]
      apply congrArg fun ms => Json.obj (spread [] ms)
      apply List.map_congr_left
      intro m hm
      exact congrArg (Prod.mk m.1) (ih m (mem_ofMembers (List.mem_of_mem_filter hm)))

theorem canonicalForm_ordered (j : Json N) : canonicalForm j.ordered = canonicalForm j := by
  have hdrop : (dropProto j.ordered).SameMembers (dropProto j) := by
    induction j using Json.memberwise with
    | null => rfl
    | bool => rfl
    | num => rfl
    | str => rfl
    | arr es ih =>
        rw [Json.SameMembers, Json.ordered_arr, dropProto_arr, dropProto_arr, Json.ordered_arr,
          Json.ordered_arr, List.map_map, List.map_map, List.map_map]
        exact congrArg Json.arr (List.map_congr_left ih)
    | obj ms ih =>
        rw [Json.SameMembers, Json.ordered_obj, ordered_dropProto_obj, ordered_dropProto_obj,
          ofMembers_of_sorted (Json.sortedMembers_mapValues Json.ordered (sorted_ofMembers ms)),
          eraseMember_mapValues, List.map_map]
        apply congrArg Json.obj
        apply List.map_congr_left
        intro m hm
        exact congrArg (Prod.mk m.1) (ih m (mem_ofMembers (List.mem_of_mem_filter hm)))
  rw [← canonicalForm_dropProto, hdrop, canonicalForm_dropProto]

/-! ## When it throws -/

section Texts

variable [JsonNumber N]

/-- All its numbers are finite. -/
def AllFinite (j : Json N) : Prop := j.ordered.Printable

theorem allFinite_of_canonical {j : Json N} (h : j.Canonical) : AllFinite j := by
  rw [AllFinite, h.ordered_eq]
  exact h.printable

theorem allFinite_arr (es : List (Json N)) : AllFinite (.arr es) ↔ ∀ e ∈ es, AllFinite e := by
  rw [AllFinite, Json.ordered_arr, Json.printable_arr, List.forall_mem_map]
  rfl

theorem allFinite_obj (ms : List (JsString × Json N)) :
    AllFinite (.obj ms) ↔ ∀ m ∈ ofMembers ms, AllFinite m.2 := by
  rw [AllFinite, Json.ordered_obj, Json.printable_obj, List.forall_mem_map]
  rfl

theorem toCanonicalMembers_eq_map (ms : List (JsString × Json N)) :
    toCanonical.toCanonicalMembers ms = ms.map fun m => (m.1, toCanonical m.2) := by
  induction ms with
  | nil => rfl
  | cons m ms ih => rw [toCanonical.toCanonicalMembers, ih, List.map_cons]

theorem toCanonicalElements_eq_ok {es cs : List (Json N)}
    (h : ∀ e ∈ es, ∀ c, toCanonical e = .ok c ↔ AllFinite e ∧ c = canonicalForm e) :
    toCanonical.toCanonicalElements es = .ok cs ↔
      (∀ e ∈ es, AllFinite e) ∧ cs = es.map canonicalForm := by
  induction es generalizing cs with
  | nil => simp [toCanonical.toCanonicalElements, eq_comm]
  | cons e es ih =>
      have htail := fun cs => @ih cs fun e he => h e (List.mem_cons_of_mem _ he)
      rw [toCanonical.toCanonicalElements, bind_eq_ok_iff]
      simp only [bind_eq_ok_iff, h e List.mem_cons_self, htail, List.forall_mem_cons,
        List.map_cons]
      constructor
      · rintro ⟨_, ⟨he, rfl⟩, _, ⟨hes, rfl⟩, hcs⟩
        exact ⟨⟨he, hes⟩, (Except.ok.inj hcs).symm⟩
      · rintro ⟨⟨he, hes⟩, rfl⟩
        exact ⟨_, ⟨he, rfl⟩, _, ⟨hes, rfl⟩, rfl⟩

theorem assignSorted_eq_ok {ms out out' : List (JsString × Json N)}
    (h : ∀ m ∈ ms, ∀ c, toCanonical m.2 = .ok c ↔ AllFinite m.2 ∧ c = canonicalForm m.2) :
    toCanonical.assignSorted (ms.map fun m => (m.1, toCanonical m.2)) out = .ok out' ↔
      (∀ m ∈ ms, AllFinite m.2) ∧
        out' = canonicalForm.assignAll (ms.map fun m => (m.1, canonicalForm m.2)) out := by
  induction ms generalizing out with
  | nil => simp [toCanonical.assignSorted, canonicalForm.assignAll, eq_comm]
  | cons m ms ih =>
      have htail := fun out => @ih out fun m hm => h m (List.mem_cons_of_mem _ hm)
      rw [List.map_cons, toCanonical.assignSorted, bind_eq_ok_iff]
      simp only [h m List.mem_cons_self, htail, List.forall_mem_cons, List.map_cons]
      constructor
      · rintro ⟨_, ⟨hm, rfl⟩, hms, hout⟩
        exact ⟨⟨hm, hms⟩, hout⟩
      · rintro ⟨⟨hm, hms⟩, hout⟩
        exact ⟨_, ⟨hm, rfl⟩, hms, hout⟩

/-- It throws on numbers that are not finite, and on nothing else. -/
theorem toCanonical_eq_ok (j c : Json N) :
    toCanonical j = .ok c ↔ AllFinite j ∧ c = canonicalForm j := by
  induction j using Json.memberwise generalizing c with
  | null => simp [toCanonical, AllFinite, Json.ordered, Json.Printable, canonicalForm, eq_comm]
  | bool b => simp [toCanonical, AllFinite, Json.ordered, Json.Printable, canonicalForm, eq_comm]
  | str s => simp [toCanonical, AllFinite, Json.ordered, Json.Printable, canonicalForm, eq_comm]
  | num n =>
      rw [toCanonical]
      split_ifs with hn
      · simp [AllFinite, Json.ordered, Json.Printable, canonicalForm, hn, eq_comm]
      · simp [AllFinite, Json.ordered, Json.Printable, hn]
  | arr es ih =>
      rw [toCanonical, bind_eq_ok_iff, allFinite_arr, canonicalForm_arr]
      simp only [toCanonicalElements_eq_ok ih]
      constructor
      · rintro ⟨_, ⟨hes, rfl⟩, hc⟩
        exact ⟨hes, (Except.ok.inj hc).symm⟩
      · rintro ⟨hes, rfl⟩
        exact ⟨_, ⟨hes, rfl⟩, rfl⟩
  | obj ms ih =>
      have hmem : ∀ m ∈ ofMembers ms, ∀ c, toCanonical m.2 = .ok c ↔
          AllFinite m.2 ∧ c = canonicalForm m.2 := fun m hm => ih m (mem_ofMembers hm)
      rw [toCanonical, bind_eq_ok_iff, allFinite_obj, canonicalForm, formMembers_eq_map,
        toCanonicalMembers_eq_map, ofMembers_mapValues, ofMembers_mapValues]
      simp only [assignSorted_eq_ok hmem]
      constructor
      · rintro ⟨_, ⟨hms, rfl⟩, hc⟩
        exact ⟨hms, (Except.ok.inj hc).symm⟩
      · rintro ⟨hms, rfl⟩
        exact ⟨_, ⟨hms, rfl⟩, rfl⟩

/-! ## The text -/

theorem AllFinite.printable {j : Json N} (h : AllFinite j) : (canonicalForm j).Printable := by
  induction j using Json.memberwise with
  | null => trivial
  | bool => trivial
  | num n => exact h
  | str => trivial
  | arr es ih =>
      rw [canonicalForm_arr, Json.printable_arr, List.forall_mem_map]
      exact fun e he => ih e he ((allFinite_arr es).mp h e he)
  | obj ms ih =>
      rw [canonicalForm_obj, Json.printable_obj]
      intro m hm
      obtain ⟨m', hm', rfl⟩ := List.mem_map.mp ((mem_spread hm).resolve_left List.not_mem_nil)
      have hordered : m' ∈ ofMembers ms := List.mem_of_mem_filter hm'
      exact ih m' (mem_ofMembers hordered) ((allFinite_obj ms).mp h m' hordered)

theorem canonicalize_eq_ok {j : Json N} {t : List Char} :
    canonicalize j = .ok t ↔ AllFinite j ∧ t = (canonicalForm j).render := by
  rw [canonicalize, bind_eq_ok_iff]
  simp only [toCanonical_eq_ok]
  constructor
  · rintro ⟨_, ⟨hj, rfl⟩, ht⟩
    exact ⟨hj, (Except.ok.inj ht).symm⟩
  · rintro ⟨hj, rfl⟩
    exact ⟨_, ⟨hj, rfl⟩, rfl⟩

theorem computeHash_eq_ok {sha256 : List UInt8 → JsString} {j : Json N} {hash : JsString} :
    computeHash sha256 j = .ok hash ↔
      ∃ t, canonicalize j = .ok t ∧ hash = js "sha256:" ++ sha256 (Utf8.encode t) := by
  rw [computeHash, bind_eq_ok_iff]
  simp [eq_comm]

/-- The text is read back as the value without `__proto__`. -/
theorem parse_canonicalize {j : Json N} {t : List Char} (h : canonicalize j = .ok t) :
    Json.parse t = some (dropProto j).ordered := by
  obtain ⟨hj, rfl⟩ := canonicalize_eq_ok.mp h
  rw [Json.parse_stringify hj.printable, ordered_canonicalForm]

/-- The order of members does not show in the text. -/
theorem canonicalize_ordered {j : Json N} {t : List Char} :
    canonicalize j.ordered = .ok t ↔ canonicalize j = .ok t := by
  rw [canonicalize_eq_ok, canonicalize_eq_ok, canonicalForm_ordered, AllFinite, AllFinite,
    Json.ordered_ordered]

/-- Two values have one text when they differ in `__proto__` alone. -/
theorem canonicalize_eq_iff {v w : Json N} (hv : AllFinite v) (hw : AllFinite w) :
    canonicalize v = canonicalize w ↔ (dropProto v).SameMembers (dropProto w) := by
  have htext : ∀ {j : Json N}, AllFinite j → canonicalize j = .ok (canonicalForm j).render :=
    fun hj => canonicalize_eq_ok.mpr ⟨hj, rfl⟩
  constructor
  · intro h
    have hparse := parse_canonicalize (htext hv)
    rw [parse_canonicalize (h ▸ htext hv)] at hparse
    exact (Option.some.inj hparse).symm
  · intro h
    rw [htext hv, htext hw, ← canonicalForm_dropProto v, ← canonicalForm_dropProto w, h]

end Texts

end H2a.Protocol
