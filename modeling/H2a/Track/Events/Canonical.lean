import H2a.Track.Events.LogFile
/-!
# One text for one value

`canonicalString` and `computeHash` of `packages/track/src/events/canonical.ts`, on
live values.  They agree with `materialize` followed by the rendering of inert JSON,
which is read back: so the text is that of one value only, and the hash of a line is
the hash that was persisted in it.
-/

namespace H2a.Track.Events

open H2a.Library

variable {N : Type}

/-! ## `canonicalize` -/

namespace JsValue

section Canonical

variable [JsonNumber N]

/-- `canonicalString(value)`: the members of an object in the order of their keys. -/
def canonicalString : JsValue N → Except String (List Char)
  | .undefined => .error "canonicalize: unsupported value type (undefined)"
  | .null => .ok ['n', 'u', 'l', 'l']
  | .bool true => .ok ['t', 'r', 'u', 'e']
  | .bool false => .ok ['f', 'a', 'l', 's', 'e']
  | .num n =>
      if JsonNumber.isFinite n then .ok (JsonNumber.print n)
      else .error ("canonicalize: non-finite numbers are not supported (" ++
        String.ofList (JsonNumber.print n) ++ ")")
  | .str s => .ok (quote s)
  | .arr elements => do
      let members ← canonicalElements elements
      return '[' :: joinComma members ++ [']']
  | .obj members => do
      let members ← joinTexts (ofMembers (canonicalMembers members))
      return '\x7b' :: joinComma members ++ ['\x7d']
  | .exotic message => .error message
where
  canonicalElements : List (JsValue N) → Except String (List (List Char))
    | [] => .ok []
    | e :: es => do
        let e ← canonicalString e
        let es ← canonicalElements es
        return e :: es
  /-- each defined member with what becomes of it -/
  canonicalMembers : List (JsString × JsValue N) → List (JsString × Except String (List Char))
    | [] => []
    | (_, .undefined) :: ms => canonicalMembers ms
    | (k, v) :: ms => (k, canonicalString v) :: canonicalMembers ms
  joinTexts : List (JsString × Except String (List Char)) → Except String (List (List Char))
    | [] => .ok []
    | (k, text) :: ms => do
        let text ← text
        let ms ← joinTexts ms
        return (quote k ++ ':' :: text) :: ms

/-- `computeHash(value)`, over any digest of bytes. -/
def computeHash (sha256 : List UInt8 → JsString) (v : JsValue N) : Except String Sha256 := do
  let canonical ← v.canonicalString
  return js "sha256:" ++ sha256 (Utf8.encode canonical)

end Canonical

/-- An object has each of its keys once. -/
def Distinct : JsValue N → Prop
  | .arr elements => DistinctElements elements
  | .obj members => (members.map Prod.fst).Nodup ∧ DistinctMembers members
  | _ => True
where
  DistinctElements : List (JsValue N) → Prop
    | [] => True
    | e :: es => Distinct e ∧ DistinctElements es
  DistinctMembers : List (JsString × JsValue N) → Prop
    | [] => True
    | (_, v) :: ms => Distinct v ∧ DistinctMembers ms

/-- The same value, up to the order of keys and members that are `undefined`. -/
def Same : JsValue N → JsValue N → Prop
  | .undefined, .undefined => True
  | .null, .null => True
  | .bool b, .bool c => b = c
  | .num m, .num n => m = n
  | .str s, .str t => s = t
  | .arr es, .arr fs => SameElements es fs
  | .obj ms, .obj ns =>
      SameMembers ms ns ∧ ∀ k v, lookupMember k ns = some v → v ≠ .undefined →
        ∃ u, lookupMember k ms = some u ∧ u ≠ .undefined
  | _, _ => False
where
  SameElements : List (JsValue N) → List (JsValue N) → Prop
    | [], [] => True
    | e :: es, f :: fs => Same e f ∧ SameElements es fs
    | _, _ => False
  /-- every defined member is one of the other object -/
  SameMembers : List (JsString × JsValue N) → List (JsString × JsValue N) → Prop
    | [], _ => True
    | (k, u) :: ms, ns =>
        (u = .undefined ∨ ∃ v, lookupMember k ns = some v ∧ v ≠ .undefined ∧ Same u v) ∧
          SameMembers ms ns

/-! ## What it is the text of -/

section Text

variable [JsonNumber N]

theorem keys_canonicalMembers (ms : List (JsString × JsValue N)) :
    ((canonicalString.canonicalMembers ms).map Prod.fst).Sublist (ms.map Prod.fst) := by
  induction ms with
  | nil => exact List.Sublist.slnil
  | cons m ms ih =>
      obtain ⟨k, v⟩ := m
      cases hv : v with
      | undefined => exact ih.cons k
      | _ => exact ih.cons_cons k

theorem joinTexts_ok {ms : List (JsString × Except String (List Char))}
    {texts : List (List Char)} (h : canonicalString.joinTexts ms = .ok texts) :
    ∀ m ∈ ms, ∃ text, m.2 = .ok text := by
  induction ms generalizing texts with
  | nil => simp
  | cons m ms ih =>
      simp only [canonicalString.joinTexts, bind_eq_ok_iff] at h
      obtain ⟨text, htext, rest, hrest, -⟩ := h
      intro m' hm'
      rcases List.mem_cons.mp hm' with rfl | hm'
      · exact ⟨text, htext⟩
      · exact ih hrest m' hm'

theorem joinTexts_render (out : List (JsString × Json N)) :
    canonicalString.joinTexts (out.map fun m => (m.1, .ok m.2.render)) =
      .ok (Json.render.renderMembers out) := by
  induction out with
  | nil => rfl
  | cons m out ih =>
      rw [List.map_cons, canonicalString.joinTexts, ih]
      rfl

mutual

theorem canonicalString_materialize : (v : JsValue N) → v.Distinct → ∀ {s : List Char},
    v.canonicalString = .ok s → ∃ j, v.materialize = .ok j ∧ s = j.render
  | .undefined, _, _, h => by simp [canonicalString] at h
  | .null, _, _, h => ⟨.null, rfl, (Except.ok.inj h).symm⟩
  | .bool true, _, _, h => ⟨.bool true, rfl, (Except.ok.inj h).symm⟩
  | .bool false, _, _, h => ⟨.bool false, rfl, (Except.ok.inj h).symm⟩
  | .num n, _, _, h => by
      rw [canonicalString] at h
      split at h
      · rename_i hfinite
        exact ⟨.num n, by rw [materialize, if_pos hfinite], (Except.ok.inj h).symm⟩
      · simp at h
  | .str s, _, _, h => ⟨.str s, rfl, (Except.ok.inj h).symm⟩
  | .arr elements, hdistinct, _, h => by
      rw [canonicalString, bind_eq_ok_iff] at h
      obtain ⟨texts, htexts, hret⟩ := h
      obtain ⟨out, hout, rfl⟩ := canonicalElements_materialize elements hdistinct htexts
      refine ⟨.arr out, ?_, (Except.ok.inj hret).symm⟩
      rw [materialize, hout]
      rfl
  | .obj members, hdistinct, _, h => by
      rw [canonicalString, bind_eq_ok_iff] at h
      obtain ⟨texts, htexts, hret⟩ := h
      have hnodup := (keys_canonicalMembers members).nodup hdistinct.1
      obtain ⟨out, hout, htext⟩ := canonicalMembers_materialize members hdistinct.2 fun m hm =>
        joinTexts_ok htexts m (mem_ofMembers_of_nodup hnodup hm)
      rw [htext, ofMembers_mapValues (fun j : Json N => (.ok j.render : Except String (List Char))),
        joinTexts_render] at htexts
      obtain rfl := Except.ok.inj htexts
      refine ⟨.obj (ofMembers out), ?_, (Except.ok.inj hret).symm⟩
      rw [materialize, hout]
      rfl
  | .exotic _, _, _, h => by simp [canonicalString] at h

theorem canonicalElements_materialize : (vs : List (JsValue N)) →
    Distinct.DistinctElements vs → ∀ {texts : List (List Char)},
      canonicalString.canonicalElements vs = .ok texts →
        ∃ js, materialize.materializeElements vs = .ok js ∧
          texts = Json.render.renderElements js
  | [], _, _, h => ⟨[], rfl, (Except.ok.inj h).symm⟩
  | v :: vs, hdistinct, _, h => by
      simp only [canonicalString.canonicalElements, bind_eq_ok_iff] at h
      obtain ⟨text, htext, texts, htexts, hret⟩ := h
      obtain ⟨j, hj, rfl⟩ := canonicalString_materialize v hdistinct.1 htext
      obtain ⟨js, hjs, rfl⟩ := canonicalElements_materialize vs hdistinct.2 htexts
      refine ⟨j :: js, ?_, (Except.ok.inj hret).symm⟩
      rw [materialize.materializeElements, hj, hjs]
      rfl

theorem canonicalMembers_materialize : (ms : List (JsString × JsValue N)) →
    Distinct.DistinctMembers ms →
      (∀ m ∈ canonicalString.canonicalMembers ms, ∃ text, m.2 = .ok text) →
        ∃ out, materialize.materializeMembers ms = .ok out ∧
          canonicalString.canonicalMembers ms = out.map fun m => (m.1, .ok m.2.render)
  | [], _, _ => ⟨[], rfl, rfl⟩
  | (k, v) :: ms, hdistinct, h => by
      cases hv : v with
      | undefined =>
          rw [hv] at h
          exact canonicalMembers_materialize ms hdistinct.2 h
      | _ =>
          rw [← hv]
          have hcons : canonicalString.canonicalMembers ((k, v) :: ms) =
              (k, v.canonicalString) :: canonicalString.canonicalMembers ms := by
            rw [canonicalString.canonicalMembers]
            simp [hv]
          rw [hcons] at h ⊢
          obtain ⟨text, htext⟩ := h _ List.mem_cons_self
          obtain ⟨j, hj, rfl⟩ := canonicalString_materialize v hdistinct.1 htext
          obtain ⟨out, hout, htexts⟩ := canonicalMembers_materialize ms hdistinct.2 fun m hm =>
            h m (List.mem_cons_of_mem _ hm)
          refine ⟨(k, j) :: out, ?_, ?_⟩
          · rw [materialize.materializeMembers, hj, hout]
            · rfl
            · simp [hv]
          · rw [List.map_cons, htexts]
            exact congrArg (· :: _) (Prod.ext rfl htext)

end

mutual

/-- Inert data, as a live value. -/
def ofJson : Json N → JsValue N
  | .null => .null
  | .bool b => .bool b
  | .num n => .num n
  | .str s => .str s
  | .arr elements => .arr (ofElements elements)
  | .obj members => .obj (ofObject members)

def ofElements : List (Json N) → List (JsValue N)
  | [] => []
  | e :: es => ofJson e :: ofElements es

def ofObject : List (JsString × Json N) → List (JsString × JsValue N)
  | [] => []
  | (k, v) :: ms => (k, ofJson v) :: ofObject ms

end

mutual

/-- Inert data is canonicalized by rendering it. -/
theorem canonicalString_ofJson : (j : Json N) → j.Canonical → (ofJson j).canonicalString = .ok j.render
  | .null, _ => rfl
  | .bool true, _ => rfl
  | .bool false, _ => rfl
  | .num n, h => by
      have hfinite : JsonNumber.isFinite n = true := h
      rw [ofJson, canonicalString, if_pos hfinite]
      rfl
  | .str _, _ => rfl
  | .arr elements, h => by
      rw [ofJson, canonicalString, canonicalElements_ofElements elements h]
      rfl
  | .obj members, h => by
      rw [ofJson, canonicalString, canonicalMembers_ofObject members h.2,
        ofMembers_mapValues (fun j : Json N => (.ok j.render : Except String (List Char))),
        ofMembers_of_sorted h.1, joinTexts_render]
      rfl

theorem canonicalElements_ofElements : (es : List (Json N)) → Json.Canonical.CanonicalElements es →
    canonicalString.canonicalElements (ofElements es) = .ok (Json.render.renderElements es)
  | [], _ => rfl
  | e :: es, h => by
      rw [ofElements, canonicalString.canonicalElements, canonicalString_ofJson e h.1,
        canonicalElements_ofElements es h.2]
      rfl

theorem canonicalMembers_ofObject : (ms : List (JsString × Json N)) →
    Json.Canonical.CanonicalMembers ms →
      canonicalString.canonicalMembers (ofObject ms) = ms.map fun m => (m.1, .ok m.2.render)
  | [], _ => rfl
  | (k, v) :: ms, h => by
      have hdefined : ofJson v ≠ .undefined := by cases v <;> simp [ofJson]
      rw [ofObject, canonicalString.canonicalMembers, canonicalString_ofJson v h.1,
        canonicalMembers_ofObject ms h.2]
      · rfl
      · exact hdefined

end

/-! ## Whose text it is -/

theorem materialize_eq_undefined {v : JsValue N} {j : Json N} (h : v.materialize = .ok j) :
    v ≠ .undefined := by
  rintro rfl
  simp [materialize] at h

/-- A member that is there after materializing was there before. -/
theorem exists_of_lookup {ms : List (JsString × JsValue N)} {out : List (JsString × Json N)}
    (hout : materialize.materializeMembers ms = .ok out) (hnodup : (ms.map Prod.fst).Nodup)
    {k : JsString} {j : Json N} (hj : lookupMember k (ofMembers out) = some j) :
    ∃ v, lookupMember k ms = some v ∧ v ≠ .undefined ∧ v.materialize = .ok j := by
  have hkeys := (keys_materializeMembers hout).nodup hnodup
  have hlookup := lookup_materializeMembers hout hnodup k
  rw [lookupMember_ofMembers_of_nodup hkeys] at hj
  cases hv : lookupMember k ms with
  | none => simp [hv, hj] at hlookup
  | some v =>
      cases v with
      | undefined => simp [hv, hj] at hlookup
      | _ =>
          simp only [hv, hj] at hlookup
          obtain ⟨j', hj', heq⟩ := hlookup
          obtain rfl := Option.some.inj heq
          exact ⟨_, rfl, by simp, hj'⟩

/-- A defined member is there after materializing. -/
theorem lookup_of_exists {ms : List (JsString × JsValue N)} {out : List (JsString × Json N)}
    (hout : materialize.materializeMembers ms = .ok out) (hnodup : (ms.map Prod.fst).Nodup)
    {k : JsString} {v : JsValue N} (hv : lookupMember k ms = some v) (hdefined : v ≠ .undefined) :
    ∃ j, v.materialize = .ok j ∧ lookupMember k (ofMembers out) = some j := by
  have hkeys := (keys_materializeMembers hout).nodup hnodup
  have hlookup := lookup_materializeMembers hout hnodup k
  rw [lookupMember_ofMembers_of_nodup hkeys]
  rw [hv] at hlookup
  cases v with
  | undefined => exact (hdefined rfl).elim
  | _ => exact hlookup

omit [JsonNumber N] in
theorem distinct_of_lookup {ms : List (JsString × JsValue N)} (h : Distinct.DistinctMembers ms)
    {k : JsString} {v : JsValue N} (hv : lookupMember k ms = some v) : v.Distinct := by
  induction ms with
  | nil => simp [lookupMember] at hv
  | cons m ms ih =>
      rw [lookupMember] at hv
      split at hv
      · exact Option.some.inj hv ▸ h.1
      · exact ih h.2 hv

theorem materialize_eq_arr {v : JsValue N} {js : List (Json N)}
    (h : v.materialize = .ok (.arr js)) :
    ∃ elements, v = .arr elements ∧ materialize.materializeElements elements = .ok js := by
  cases v <;> simp only [materialize, bind_eq_ok_iff, reduceCtorEq, Except.ok.injEq] at h
  case num => split at h <;> simp at h
  case arr elements =>
      obtain ⟨out, hout, hret⟩ := h
      obtain rfl := Json.arr.inj (Except.ok.inj hret)
      exact ⟨elements, rfl, hout⟩
  case obj =>
      obtain ⟨out, -, hret⟩ := h
      simp at hret

theorem materialize_eq_obj {v : JsValue N} {js : List (JsString × Json N)}
    (h : v.materialize = .ok (.obj js)) : ∃ members out, v = .obj members ∧
      materialize.materializeMembers members = .ok out ∧ js = ofMembers out := by
  cases v <;> simp only [materialize, bind_eq_ok_iff, reduceCtorEq, Except.ok.injEq] at h
  case num => split at h <;> simp at h
  case arr =>
      obtain ⟨out, -, hret⟩ := h
      simp at hret
  case obj members =>
      obtain ⟨out, hout, hret⟩ := h
      exact ⟨members, out, rfl, hout, (Json.obj.inj (Except.ok.inj hret)).symm⟩

mutual

/-- Two values that materialize to the same are the same. -/
theorem same_of_materialize : (v : JsValue N) → v.Distinct → ∀ {w : JsValue N}, w.Distinct →
    ∀ {j : Json N}, v.materialize = .ok j → w.materialize = .ok j → Same v w
  | .undefined, _, _, _, _, h, _ => by simp [materialize] at h
  | .null, _, w, _, _, h, hw => by
      obtain rfl := Except.ok.inj h
      cases w <;> simp only [materialize, bind_eq_ok_iff, reduceCtorEq, Except.ok.injEq] at hw
      case null => trivial
      case num => split at hw <;> simp at hw
      case arr => simp at hw
      case obj => simp at hw
  | .bool b, _, w, _, _, h, hw => by
      obtain rfl := Except.ok.inj h
      cases w <;> simp only [materialize, bind_eq_ok_iff, reduceCtorEq, Except.ok.injEq] at hw
      case bool => exact (Json.bool.inj hw).symm
      case num => split at hw <;> simp at hw
      case arr => simp at hw
      case obj => simp at hw
  | .num n, _, w, _, _, h, hw => by
      rw [materialize] at h
      split at h
      · obtain rfl := Except.ok.inj h
        cases w <;> simp only [materialize, bind_eq_ok_iff, reduceCtorEq, Except.ok.injEq] at hw
        case num =>
            split at hw
            · exact (Json.num.inj (Except.ok.inj hw)).symm
            · simp at hw
        case arr => simp at hw
        case obj => simp at hw
      · simp at h
  | .str s, _, w, _, _, h, hw => by
      obtain rfl := Except.ok.inj h
      cases w <;> simp only [materialize, bind_eq_ok_iff, reduceCtorEq, Except.ok.injEq] at hw
      case str => exact (Json.str.inj hw).symm
      case num => split at hw <;> simp at hw
      case arr => simp at hw
      case obj => simp at hw
  | .arr elements, hv, _, hw, _, h, hwj => by
      rw [materialize, bind_eq_ok_iff] at h
      obtain ⟨js, hjs, hret⟩ := h
      obtain rfl := Except.ok.inj hret
      obtain ⟨elements', rfl, hjs'⟩ := materialize_eq_arr hwj
      exact sameElements_of_materialize elements hv hw hjs hjs'
  | .obj members, hv, _, hw, _, h, hwj => by
      rw [materialize, bind_eq_ok_iff] at h
      obtain ⟨out, hout, hret⟩ := h
      obtain rfl := Except.ok.inj hret
      obtain ⟨members', out', rfl, hout', hsame⟩ := materialize_eq_obj hwj
      refine ⟨sameMembers_of_materialize members hv.2 fun k u hu hdefined => ?_,
        fun k v hk hdefined => ?_⟩
      · obtain ⟨j, hj, hlookup⟩ := lookup_of_exists hout hv.1
          (lookupMember_of_mem hv.1 hu) hdefined
        rw [hsame] at hlookup
        obtain ⟨w, hkw, hdefined', hwj⟩ := exists_of_lookup hout' hw.1 hlookup
        exact ⟨j, w, hj, hkw, hdefined', distinct_of_lookup hw.2 hkw, hwj⟩
      · obtain ⟨j, -, hlookup⟩ := lookup_of_exists hout' hw.1 hk hdefined
        rw [← hsame] at hlookup
        obtain ⟨u, hu, hdefined', -⟩ := exists_of_lookup hout hv.1 hlookup
        exact ⟨u, hu, hdefined'⟩
  | .exotic _, _, _, _, _, h, _ => by simp [materialize] at h

theorem sameElements_of_materialize : (vs : List (JsValue N)) → Distinct.DistinctElements vs →
    ∀ {ws : List (JsValue N)}, Distinct.DistinctElements ws → ∀ {js : List (Json N)},
      materialize.materializeElements vs = .ok js → materialize.materializeElements ws = .ok js →
        Same.SameElements vs ws
  | [], _, ws, _, _, h, hws => by
      obtain rfl := Except.ok.inj h
      cases ws with
      | nil => trivial
      | cons w ws => simp [materialize.materializeElements, bind_eq_ok_iff] at hws
  | v :: vs, hv, ws, hw, _, h, hws => by
      simp only [materialize.materializeElements, bind_eq_ok_iff] at h
      obtain ⟨j, hj, js, hjs, hret⟩ := h
      obtain rfl := Except.ok.inj hret
      cases ws with
      | nil => simp [materialize.materializeElements] at hws
      | cons w ws =>
          simp only [materialize.materializeElements, bind_eq_ok_iff] at hws
          obtain ⟨j', hj', js', hjs', hret'⟩ := hws
          obtain ⟨rfl, rfl⟩ := List.cons.inj (Except.ok.inj hret')
          exact ⟨same_of_materialize v hv.1 hw.1 hj hj',
            sameElements_of_materialize vs hv.2 hw.2 hjs hjs'⟩

theorem sameMembers_of_materialize : (ms : List (JsString × JsValue N)) →
    Distinct.DistinctMembers ms → ∀ {ns : List (JsString × JsValue N)},
      (∀ k u, (k, u) ∈ ms → u ≠ .undefined → ∃ j w, u.materialize = .ok j ∧
        lookupMember k ns = some w ∧ w ≠ .undefined ∧ w.Distinct ∧ w.materialize = .ok j) →
          Same.SameMembers ms ns
  | [], _, _, _ => trivial
  | (k, u) :: ms, hms, _, h => by
      refine ⟨?_, sameMembers_of_materialize ms hms.2 fun k u hu =>
        h k u (List.mem_cons_of_mem _ hu)⟩
      by_cases hu : u = .undefined
      · exact .inl hu
      · obtain ⟨j, w, hj, hkw, hdefined, hdistinct, hwj⟩ := h k u List.mem_cons_self hu
        exact .inr ⟨w, hkw, hdefined, same_of_materialize u hms.1 hdistinct hj hwj⟩

end

end Text

end JsValue

/-! ## The hash domain -/

section Domain

variable [JsonNumber N]

/-- The line of an event parses back to an event whose core, hashed again, has the
hash that stands in it. -/
def HashedAsPersisted (sha256 : List UInt8 → JsString) (e : TrackEvent (LineCore N)) : Prop :=
  ∃ members : List (JsString × Json N),
    Json.parse (Utf8.decode (Utf8.encode (lineText e))) = some (.obj members) ∧
    lookupMember (js "contentHash") members = some (.str e.contentHash) ∧
    (JsValue.ofJson (.obj (stripMembers members))).computeHash sha256 = .ok e.contentHash

theorem hashedAsPersisted {sha256 : List UInt8 → JsString} {e : TrackEvent (LineCore N)}
    (h : e.contentHash = contentHashOf sha256 e.core) : HashedAsPersisted sha256 e := by
  have hparse : Json.parse (Utf8.decode (Utf8.encode (lineText e))) = some e.toJson := by
    rw [Utf8.decode_encode]
    exact Json.parse_render_self (toJson_canonical e)
  refine ⟨_, hparse, ?_, ?_⟩
  · have hne : js "contentHash" ≠ js "seq" ∧ js "contentHash" ≠ js "prevHash" := by decide
    rw [lookupMember_insertMember, if_neg hne.1, lookupMember_insertMember, if_neg hne.2,
      lookupMember_insertMember, if_pos rfl]
  · rw [e.core.stripMembers_framed, JsValue.computeHash,
      JsValue.canonicalString_ofJson _ e.core.canonical, h]
    rfl

variable [DecidableEq N]

/-- The hash of a framed event is that of its materialized core. -/
theorem contentHash_frameInputs {sha256 : List UInt8 → JsString} {batch : Option (JsString × Nat)}
    {i : Nat} {prevHash : Option Sha256} {seqs : JsMap (JsKey N) Nat}
    {inputs : List (CommandInput N)} {events : List (TrackEvent (LineCore N))}
    (h : frameInputs (contentHashOf sha256) batch i prevHash seqs inputs = .ok events) :
    ∀ e ∈ events, e.contentHash = contentHashOf sha256 e.core := by
  induction inputs generalizing i prevHash seqs events with
  | nil =>
      obtain rfl : [] = events := by simpa [frameInputs] using h
      simp
  | cons input rest ih =>
      simp only [frameInputs, bind_eq_ok_iff] at h
      obtain ⟨core, -, tail, htail, hret⟩ := h
      obtain rfl := Except.ok.inj hret
      intro e he
      rcases List.mem_cons.mp he with rfl | he
      · rfl
      · exact ih htail e he

/-- What is hashed is what is persisted, and no two values have one canonical text. -/
theorem hash_domain (sha256 : List UInt8 → JsString) :
    (∀ (batch : Option (JsString × Nat)) (i : Nat) (prevHash : Option Sha256)
        (seqs : JsMap (JsKey N) Nat) (inputs : List (CommandInput N)) events,
      frameInputs (contentHashOf sha256) batch i prevHash seqs inputs = .ok events →
        ∀ e ∈ events, HashedAsPersisted sha256 e) ∧
      ∀ (v w : { v : JsValue N // v.Distinct }) (s : List Char), v.1.canonicalString = .ok s →
        w.1.canonicalString = .ok s → v.1.Same w.1 := by
  constructor
  · intro batch i prevHash seqs inputs events h e he
    exact hashedAsPersisted (contentHash_frameInputs h e he)
  · intro v w s hv hw
    obtain ⟨j, hj, rfl⟩ := JsValue.canonicalString_materialize v.1 v.2 hv
    obtain ⟨j', hj', htext⟩ := JsValue.canonicalString_materialize w.1 w.2 hw
    -- the text is read back as either of the two
    have hread := Json.parse_render_self (JsValue.materialize_canonical _ hj)
    rw [htext, Json.parse_render_self (JsValue.materialize_canonical _ hj')] at hread
    obtain rfl := Option.some.inj hread
    exact JsValue.same_of_materialize v.1 v.2 w.2 hj hj'

end Domain

/-- An object whose second member is `undefined`, and one without it. -/
def withUndefined : { v : JsValue Int // v.Distinct } :=
  ⟨.obj [(js "n", .num 1), (js "m", .undefined)], by simp [JsValue.Distinct,
    JsValue.Distinct.DistinctMembers, show js "n" ≠ js "m" by decide]⟩

def withoutIt : { v : JsValue Int // v.Distinct } :=
  ⟨.obj [(js "n", .num 1)], by simp [JsValue.Distinct, JsValue.Distinct.DistinctMembers]⟩

theorem hash_domain_delivered :
    HashedAsPersisted constantDigest deliveredEvent ∧ withUndefined.1.Same withoutIt.1 :=
  ⟨(hash_domain constantDigest).1 none 0 none .empty [delivered] [deliveredEvent] rfl
      deliveredEvent List.mem_cons_self,
    (hash_domain constantDigest).2 withUndefined withoutIt _ rfl rfl⟩

end H2a.Track.Events
