import H2a.Library.JsonRoundTrip
import H2a.Library.Utf8
import H2a.Track.Events.Store
/-!
# The line of an event

`packages/track/src/events/canonical.ts` and `frame.ts`: a live value is
materialized to inert JSON, and the same canonical text of it is hashed and
persisted.  A line read back is any JSON at all; `decodeEvent` says how the log
layer sees it.
-/

namespace H2a.Track.Events

open H2a.Library

variable {N : Type}

/-! ## `materialize` -/

/-- A live JavaScript value, as one traversal of it finds it.  An object is its
own enumerable string keys. -/
inductive JsValue (N : Type) where
  | undefined
  | null
  | bool (b : Bool)
  | num (n : N)
  | str (s : JsString)
  | arr (elements : List (JsValue N))
  | obj (members : List (JsString × JsValue N))
  /-- a class instance, an own `toJSON`, an accessor, a hole, a symbol, a
  function or a bigint, with the message `canonicalize` rejects it with -/
  | exotic (message : String)

section Materialize

variable [JsonNumber N]

namespace JsValue

/-- One-pass deep clone to inert plain data. -/
def materialize : JsValue N → Except String (Json N)
  | .undefined => .error "canonicalize: unsupported value type (undefined)"
  | .null => .ok .null
  | .bool b => .ok (.bool b)
  | .num n =>
      if JsonNumber.isFinite n then .ok (.num n)
      else .error ("canonicalize: non-finite numbers are not supported (" ++
        String.ofList (JsonNumber.print n) ++ ")")
  | .str s => .ok (.str s)
  | .arr elements => do
      let out ← materializeElements elements
      return .arr out
  | .obj members => do
      let out ← materializeMembers members
      return .obj (ofMembers out)
  | .exotic message => .error message
where
  materializeElements : List (JsValue N) → Except String (List (Json N))
    | [] => .ok []
    | e :: es => do
        let e ← materialize e
        let es ← materializeElements es
        return e :: es
  materializeMembers : List (JsString × JsValue N) → Except String (List (JsString × Json N))
    | [] => .ok []
    | (_, .undefined) :: ms => materializeMembers ms
    | (k, v) :: ms => do
        let v ← materialize v
        let ms ← materializeMembers ms
        return (k, v) :: ms

end JsValue

namespace JsValue

mutual

theorem materialize_canonical : (v : JsValue N) → ∀ {j : Json N},
    v.materialize = .ok j → j.Canonical
  | .undefined, _, h => by simp [materialize] at h
  | .null, _, h => by
      obtain rfl := Except.ok.inj h
      trivial
  | .bool _, _, h => by
      obtain rfl := Except.ok.inj h
      trivial
  | .num n, _, h => by
      rw [materialize] at h
      split at h
      · rename_i hfinite
        obtain rfl := Except.ok.inj h
        exact hfinite
      · simp at h
  | .str _, _, h => by
      obtain rfl := Except.ok.inj h
      trivial
  | .arr elements, _, h => by
      rw [materialize, bind_eq_ok_iff] at h
      obtain ⟨out, hout, hret⟩ := h
      obtain rfl := Except.ok.inj hret
      exact materializeElements_canonical elements hout
  | .obj members, _, h => by
      rw [materialize, bind_eq_ok_iff] at h
      obtain ⟨out, hout, hret⟩ := h
      obtain rfl := Except.ok.inj hret
      exact Json.canonical_ofMembers (materializeMembers_canonical members hout)
  | .exotic _, _, h => by simp [materialize] at h

theorem materializeElements_canonical : (vs : List (JsValue N)) → ∀ {js : List (Json N)},
    materialize.materializeElements vs = .ok js → Json.Canonical.CanonicalElements js
  | [], _, h => by
      obtain rfl := Except.ok.inj h
      trivial
  | v :: vs, _, h => by
      simp only [materialize.materializeElements, bind_eq_ok_iff] at h
      obtain ⟨j, hj, js, hjs, hret⟩ := h
      obtain rfl := Except.ok.inj hret
      exact ⟨materialize_canonical v hj, materializeElements_canonical vs hjs⟩

theorem materializeMembers_canonical : (ms : List (JsString × JsValue N)) →
    ∀ {js : List (JsString × Json N)},
      materialize.materializeMembers ms = .ok js → ∀ m ∈ js, m.2.Canonical
  | [], _, h => by
      obtain rfl := Except.ok.inj h
      simp
  | (k, v) :: ms, js, h => by
      cases hv : v with
      | undefined =>
          rw [hv, materialize.materializeMembers] at h
          exact materializeMembers_canonical ms h
      | _ =>
          rw [materialize.materializeMembers] at h
          · simp only [bind_eq_ok_iff] at h
            obtain ⟨j, hj, tail, htail, hret⟩ := h
            obtain rfl := Except.ok.inj hret
            intro m hm
            rcases List.mem_cons.mp hm with rfl | hm
            · exact materialize_canonical v hj
            · exact materializeMembers_canonical ms htail m hm
          · simp [hv]

end

/-- Materializing an object invents no key. -/
theorem keys_materializeMembers {ms : List (JsString × JsValue N)}
    {js : List (JsString × Json N)} (h : materialize.materializeMembers ms = .ok js) :
    (js.map Prod.fst).Sublist (ms.map Prod.fst) := by
  induction ms generalizing js with
  | nil =>
      obtain rfl := Except.ok.inj h
      exact List.Sublist.slnil
  | cons m ms ih =>
      obtain ⟨k, v⟩ := m
      cases hv : v with
      | undefined =>
          rw [hv, materialize.materializeMembers] at h
          exact (ih h).cons k
      | _ =>
          rw [materialize.materializeMembers] at h
          · simp only [bind_eq_ok_iff] at h
            obtain ⟨j, -, tail, htail, hret⟩ := h
            obtain rfl := Except.ok.inj hret
            exact (ih htail).cons_cons k
          · simp [hv]

/-- What stands under a key after materializing. -/
theorem lookup_materializeMembers {ms : List (JsString × JsValue N)}
    {js : List (JsString × Json N)} (h : materialize.materializeMembers ms = .ok js)
    (hms : (ms.map Prod.fst).Nodup) (k : JsString) :
    match lookupMember k ms with
    | none => lookupMember k js = none
    | some .undefined => lookupMember k js = none
    | some v => ∃ j, v.materialize = .ok j ∧ lookupMember k js = some j := by
  induction ms generalizing js with
  | nil =>
      obtain rfl := Except.ok.inj h
      rfl
  | cons m ms ih =>
      obtain ⟨k', v⟩ := m
      rw [List.map_cons, List.nodup_cons] at hms
      cases hv : v with
      | undefined =>
          rw [hv, materialize.materializeMembers] at h
          rw [lookupMember]
          by_cases hk : k' = k
          · rw [if_pos hk]
            exact lookupMember_eq_none.mpr fun hmem =>
              hms.1 (hk ▸ (keys_materializeMembers h).subset hmem)
          · rw [if_neg hk]
            exact ih h hms.2
      | _ =>
          rw [materialize.materializeMembers] at h
          · simp only [bind_eq_ok_iff] at h
            obtain ⟨j, hj, tail, htail, hret⟩ := h
            obtain rfl := Except.ok.inj hret
            rw [lookupMember, lookupMember]
            by_cases hk : k' = k
            · rw [if_pos hk, if_pos hk]
              exact ⟨j, hv ▸ hj, rfl⟩
            · rw [if_neg hk, if_neg hk]
              exact ih htail hms.2
          · simp [hv]

end JsValue

end Materialize

/-! ## The hash domain of a line -/

/-- The members of the integrity frame. -/
def frameKeys : List JsString := [js "seq", js "prevHash", js "contentHash"]

/-- The members whose values are compared by identity. -/
def idKeys : List JsString :=
  [js "id", js "aggregate", js "aggregateId", js "cmdId", js "clientToken"]

/-- A value in an id member, up to `===`.  An object or an array equals none but
itself; it is known by its line. -/
inductive JsKey (N : Type) where
  | undefined
  | null
  | bool (b : Bool)
  | num (n : N)
  | str (s : JsString)
  | ref (line : Nat)
  deriving DecidableEq

def JsKey.ofJson (line : Nat) : Json N → JsKey N
  | .null => .null
  | .bool b => .bool b
  | .num n => .num n
  | .str s => .str s
  | .arr _ => .ref line
  | .obj _ => .ref line

def isContainer : Json N → Bool
  | .arr _ => true
  | .obj _ => true
  | _ => false

/-- The line, for members that have an object or an array as an id. -/
def lineOf (index : Nat) (members : List (JsString × Json N)) : Option Nat :=
  if idKeys.any fun k => (lookupMember k members).any isContainer then some index else none

/-- A member that is a string. -/
def stringMember (k : JsString) (members : List (JsString × Json N)) : Option JsString :=
  match lookupMember k members with
  | some (.str s) => some s
  | _ => none

/-- An event minus its integrity frame: inert, its members in order. -/
structure LineCore (N : Type) [JsonNumber N] where
  members : List (JsString × Json N)
  line : Option Nat
  canonical : Json.Canonical (.obj members)
  unframed : ∀ k ∈ frameKeys, lookupMember k members = none

section Core

variable [JsonNumber N]

namespace LineCore

theorem ext_members {c d : LineCore N} (hmembers : c.members = d.members)
    (hline : c.line = d.line) : c = d := by
  cases c
  cases d
  simp_all

def key? (c : LineCore N) (k : JsString) : Option (JsKey N) :=
  (lookupMember k c.members).map (JsKey.ofJson (c.line.getD 0))

def key (c : LineCore N) (k : JsString) : JsKey N := (c.key? k).getD .undefined

/-- `e.cmd`, with `e.cmd?.i` and `e.cmd?.n`. -/
def cmd (c : LineCore N) : Option CmdPosition :=
  (lookupMember (js "cmd") c.members).map fun
    | .obj cmd => ⟨(lookupMember (js "i") cmd).map number, (lookupMember (js "n") cmd).map number⟩
    | _ => ⟨none, none⟩
where
  number : Json N → CmdNumber
    | .num n =>
        match JsonNumber.toInt? n with
        | some k => .int k
        | none => .other
    | _ => .other

/-- The members `validateBlockerScope` reads.  Without a payload it throws: that
is put as a payload it refuses. -/
def blockerOpened (c : LineCore N) : Option BlockerOpenedFields :=
  if stringMember (js "type") c.members = some (js "blocker.opened") then
    match lookupMember (js "payload") c.members with
    | some (.obj p) =>
        some
          { kind := stringMember (js "kind") p
            hasRef := (lookupMember (js "ref") p).isSome
            scope := stringMember (js "scope") p
            engagementRef := stringMember (js "engagementRef") p
            resolutionRule := (lookupMember (js "resolutionRule") p).map fun
              | .str s => some s
              | _ => none }
    | none => some ⟨some (js "decision"), false, none, none, none⟩
    | some .null => some ⟨some (js "decision"), false, none, none, none⟩
    | some _ => some ⟨none, false, none, none, none⟩
  else none

variable [DecidableEq N]

/-- `payload.itemId` of a reopening, against `e.aggregateId`. -/
def reopenAddress (c : LineCore N) (p : List (JsString × Json N)) : ReopenAddress :=
  match lookupMember (js "itemId") p with
  | none => .absent
  | some (.str s) => if c.key (js "aggregateId") = .str s then .itself else .foreign
  | some _ => .foreign

/-- What `validateReopen` reads.  Without a payload it throws: that is put as a
reopening it refuses. -/
def lifecycle (c : LineCore N) : Lifecycle :=
  let payload := lookupMember (js "payload") c.members
  let type := stringMember (js "type") c.members
  if type = some (js "item.created") then .created
  else if type = some (js "realization.transition") then
    match payload with
    | some (.obj p) => .transition (stringMember (js "to") p)
    | none => .reopened ⟨.absent, none, none⟩
    | some .null => .reopened ⟨.absent, none, none⟩
    | some _ => .transition none
  else if type = some (js "realization.reopened") then
    match payload with
    | some (.obj p) =>
        .reopened ⟨c.reopenAddress p, stringMember (js "motive") p, stringMember (js "reason") p⟩
    | _ => .reopened ⟨.absent, none, none⟩
  else .other

instance : EventCore (LineCore N) (JsKey N) where
  id c := c.key (js "id")
  aggregate c := c.key? (js "aggregate")
  aggregateId c := c.key (js "aggregateId")
  cmdId c := c.key? (js "cmdId")
  cmd := cmd
  clientToken c := c.key? (js "clientToken")
  blockerOpened := blockerOpened
  lifecycle := lifecycle

end LineCore

end Core

section Lines

variable [JsonNumber N]

/-- `contentHashOf`, over any digest of bytes. -/
def contentHashOf (sha256 : List UInt8 → JsString) (c : LineCore N) : Sha256 :=
  js "sha256:" ++ sha256 (Utf8.encode (Json.render (.obj c.members)))

/-! ## Lines -/

/-- The event as it is persisted: its core and its frame, in one object. -/
def TrackEvent.toJson (e : TrackEvent (LineCore N)) : Json N :=
  .obj (insertMember (js "seq") (.num (JsonNumber.ofNat e.seq))
    (insertMember (js "prevHash") (e.prevHash.elim .null .str)
      (insertMember (js "contentHash") (.str e.contentHash) e.core.members)))

/-- `stripFrame`, on the members of a line. -/
def stripMembers (members : List (JsString × Json N)) : List (JsString × Json N) :=
  eraseMember (js "contentHash") (eraseMember (js "prevHash") (eraseMember (js "seq") members))

/-- The frame of a line, where it has the types of a frame. -/
def frameOf (members : List (JsString × Json N)) : Option (Nat × Option Sha256 × Sha256) :=
  match lookupMember (js "seq") members, lookupMember (js "prevHash") members,
      lookupMember (js "contentHash") members with
  | some (.num n), some prevHash, some (.str contentHash) =>
      match JsonNumber.toInt? n, prevHash with
      | some (.ofNat seq), .null => some (seq, none, contentHash)
      | some (.ofNat seq), .str hash => some (seq, some hash, contentHash)
      | _, _ => none
  | _, _, _ => none

/-- A line on which `validate` throws, or whose frame equals nothing `validate`
expects: no hash is empty. -/
def unreadable : TrackEvent (LineCore N) where
  core := ⟨[], none, ⟨List.Pairwise.nil, trivial⟩, fun _ _ => rfl⟩
  seq := 0
  prevHash := none
  contentHash := ⟨[]⟩

omit [JsonNumber N] in
theorem unframed_stripMembers (members : List (JsString × Json N)) :
    ∀ k ∈ frameKeys, lookupMember k (stripMembers members) = none := by
  intro k hk
  simp only [stripMembers, lookupMember_eraseMember]
  simp only [frameKeys, List.mem_cons, List.not_mem_nil, or_false] at hk
  rcases hk with rfl | rfl | rfl <;> simp

/-- A parsed line, as the log layer sees it.  `canonicalize` throws on a number
that is not finite. -/
def decodeEvent (index : Nat) : Json N → TrackEvent (LineCore N)
  | .obj members =>
      match frameOf members with
      | some (seq, prevHash, contentHash) =>
          if h : Json.Canonical (.obj (stripMembers members)) then
            { core :=
                { members := stripMembers members
                  line := lineOf index (stripMembers members)
                  canonical := h
                  unframed := unframed_stripMembers members }
              seq := seq
              prevHash := prevHash
              contentHash := contentHash }
          else unreadable
      | none => unreadable
  | _ => unreadable

/-- The lines of a log, from a line number on. -/
def decodeEvents (index : Nat) : List (Json N) → List (TrackEvent (LineCore N))
  | [] => []
  | j :: js => decodeEvent index j :: decodeEvents (index + 1) js

theorem decodeEvents_append (index : Nat) (js ks : List (Json N)) :
    decodeEvents index (js ++ ks) =
      decodeEvents index js ++ decodeEvents (index + js.length) ks := by
  induction js generalizing index with
  | nil => rfl
  | cons j js ih =>
      have hindex : index + (j :: js).length = index + 1 + js.length := by
        rw [List.length_cons]
        omega
      rw [List.cons_append, decodeEvents, decodeEvents, ih, hindex, List.cons_append]

@[simp] theorem length_decodeEvents (index : Nat) (js : List (Json N)) :
    (decodeEvents index js).length = js.length := by
  induction js generalizing index with
  | nil => rfl
  | cons j js ih => rw [decodeEvents, List.length_cons, ih, List.length_cons]

/-- `validate` refuses every log with such a line. -/
theorem unreadable_not_sound [DecidableEq N] (sha256 : List UInt8 → JsString)
    {events : List (TrackEvent (LineCore N))} (h : Sound (contentHashOf sha256) events) :
    unreadable ∉ events := by
  intro hmem
  have hhash : (unreadable (N := N)).contentHash = contentHashOf sha256 _ := h.contentHash hmem
  have hempty := congrArg JsString.units hhash
  exact List.cons_ne_nil _ _ hempty.symm

theorem toJson_canonical (e : TrackEvent (LineCore N)) : e.toJson.Canonical := by
  refine Json.canonical_insertMember (JsonNumber.isFinite_ofNat e.seq)
    (Json.canonical_insertMember ?_ (Json.canonical_insertMember trivial e.core.canonical))
  cases e.prevHash <;> trivial

theorem LineCore.not_mem_keys (c : LineCore N) {k : JsString} (hk : k ∈ frameKeys) :
    k ∉ c.members.map Prod.fst :=
  lookupMember_eq_none.mp (c.unframed k hk)

/-- Without its frame, a line is the core. -/
theorem LineCore.stripMembers_framed (c : LineCore N) (seq prevHash contentHash : Json N) :
    stripMembers (insertMember (js "seq") seq (insertMember (js "prevHash") prevHash
      (insertMember (js "contentHash") contentHash c.members))) = c.members := by
  have hseq := c.not_mem_keys (k := js "seq") (by decide)
  have hprev := c.not_mem_keys (k := js "prevHash") (by decide)
  have hhash := c.not_mem_keys (k := js "contentHash") (by decide)
  rw [stripMembers, eraseMember_insertMember, eraseMember_insertMember, eraseMember_insertMember]
  · exact hhash
  · rw [mem_keys_insertMember, not_or]
    exact ⟨by decide, hprev⟩
  · rw [mem_keys_insertMember, mem_keys_insertMember, not_or, not_or]
    exact ⟨by decide, by decide, hseq⟩

/-- What is persisted is read back. -/
theorem decodeEvent_toJson (index : Nat) (e : TrackEvent (LineCore N))
    (hline : lineOf index e.core.members = e.core.line) :
    decodeEvent index e.toJson = e := by
  obtain ⟨core, seq, prevHash, contentHash⟩ := e
  have hframe : frameOf (insertMember (js "seq") (.num (JsonNumber.ofNat seq))
      (insertMember (js "prevHash") (prevHash.elim .null .str)
        (insertMember (js "contentHash") (.str contentHash) core.members))) =
      some (seq, prevHash, contentHash) := by
    have hne : js "contentHash" ≠ js "seq" ∧ js "contentHash" ≠ js "prevHash" ∧
        js "prevHash" ≠ js "seq" := by decide
    simp only [frameOf, lookupMember_insertMember, if_pos, if_neg hne.1, if_neg hne.2.1,
      if_neg hne.2.2, JsonNumber.toInt?_ofNat]
    cases prevHash <;> rfl
  simp only [TrackEvent.toJson, decodeEvent, hframe, core.stripMembers_framed]
  rw [dif_pos core.canonical]
  congr 1
  exact LineCore.ext_members rfl hline

end Lines

/-! ## Commands -/

/-- `CommandEvent`: what a command brings for one event.  `prov` is `undefined`
when there is none. -/
structure CommandInput (N : Type) where
  id : JsString
  type : JsString
  aggregate : JsString
  aggregateId : JsString
  «at» : JsString
  «by» : JsString
  payload : List (JsString × JsValue N)
  prov : JsValue N
  clientToken : Option JsString

section Input

variable [JsonNumber N]

namespace CommandInput

/-- The `cmdId` and `cmd` members of an event of a batch. -/
def batchMember (tag : Option BatchFrame) : JsValue N × JsValue N :=
  match tag with
  | none => (.undefined, .undefined)
  | some b =>
      (.str b.cmdId,
        .obj [(js "i", .num (JsonNumber.ofNat b.i)), (js "n", .num (JsonNumber.ofNat b.n))])

/-- `{ ...input, cmdId, cmd: { i, n } }` -/
def members (input : CommandInput N) (tag : Option BatchFrame) : List (JsString × JsValue N) :=
  [(js "id", .str input.id), (js "type", .str input.type),
    (js "aggregate", .str input.aggregate), (js "aggregateId", .str input.aggregateId),
    (js "at", .str input.at), (js "by", .str input.by), (js "payload", .obj input.payload),
    (js "prov", input.prov), (js "clientToken", input.clientToken.elim .undefined .str),
    (js "cmdId", (batchMember tag).1), (js "cmd", (batchMember tag).2)]

theorem nodup_keys (input : CommandInput N) (tag : Option BatchFrame) :
    ((input.members tag).map Prod.fst).Nodup := by
  simp only [members, List.map_cons, List.map_nil]
  decide

theorem unframed_members {input : CommandInput N} {tag : Option BatchFrame}
    {out : List (JsString × Json N)}
    (h : JsValue.materialize.materializeMembers (input.members tag) = .ok out) :
    ∀ k ∈ frameKeys, lookupMember k (ofMembers out) = none := by
  intro k hk
  have hkeys := JsValue.keys_materializeMembers h
  have hfresh : ∀ k ∈ frameKeys, k ∉ (input.members tag).map Prod.fst := by
    simp only [members, List.map_cons, List.map_nil]
    decide
  rw [lookupMember_ofMembers, lookupMember_reverse (hkeys.nodup (nodup_keys input tag)),
    lookupMember_eq_none]
  exact fun hmem => hfresh k hk (hkeys.subset hmem)

/-- What stands under a key of a materialized core. -/
theorem lookup_materialize {input : CommandInput N} {tag : Option BatchFrame}
    {out : List (JsString × Json N)}
    (h : JsValue.materialize.materializeMembers (input.members tag) = .ok out) {k : JsString}
    {v : JsValue N} (hk : lookupMember k (input.members tag) = some v) (hv : v ≠ .undefined) :
    ∃ j, v.materialize = .ok j ∧ lookupMember k (ofMembers out) = some j := by
  have hkeys := JsValue.keys_materializeMembers h
  have hlookup := JsValue.lookup_materializeMembers h (nodup_keys input tag) k
  rw [lookupMember_ofMembers, lookupMember_reverse (hkeys.nodup (nodup_keys input tag))]
  rw [hk] at hlookup
  cases v with
  | undefined => exact absurd rfl hv
  | _ => exact hlookup

theorem lookup_materialize_undefined {input : CommandInput N} {tag : Option BatchFrame}
    {out : List (JsString × Json N)}
    (h : JsValue.materialize.materializeMembers (input.members tag) = .ok out) {k : JsString}
    (hk : lookupMember k (input.members tag) = some .undefined) :
    lookupMember k (ofMembers out) = none := by
  have hkeys := JsValue.keys_materializeMembers h
  have hlookup := JsValue.lookup_materializeMembers h (nodup_keys input tag) k
  rw [lookupMember_ofMembers, lookupMember_reverse (hkeys.nodup (nodup_keys input tag))]
  rw [hk] at hlookup
  exact hlookup

/-- `materialize(core)`. -/
def materialize (input : CommandInput N) (tag : Option BatchFrame) :
    Except String (LineCore N) :=
  match h : JsValue.materialize.materializeMembers (input.members tag) with
  | .error message => .error message
  | .ok out =>
      .ok
        { members := ofMembers out
          line := none
          canonical := Json.canonical_ofMembers (JsValue.materializeMembers_canonical _ h)
          unframed := unframed_members h }

theorem materialize_eq_ok {input : CommandInput N} {tag : Option BatchFrame} {c : LineCore N}
    (h : input.materialize tag = .ok c) :
    ∃ out, JsValue.materialize.materializeMembers (input.members tag) = .ok out ∧
      c.members = ofMembers out ∧ c.line = none := by
  unfold materialize at h
  split at h
  · simp at h
  · rename_i out hout
    obtain rfl := Except.ok.inj h
    exact ⟨out, hout, rfl, rfl⟩

theorem cmdId_materialize {input : CommandInput N} {tag : Option BatchFrame} {c : LineCore N}
    (h : input.materialize tag = .ok c) :
    c.key? (js "cmdId") = tag.map fun b => .str b.cmdId := by
  obtain ⟨out, hout, hmembers, -⟩ := materialize_eq_ok h
  unfold LineCore.key?
  rw [hmembers]
  cases tag with
  | none =>
      rw [lookup_materialize_undefined hout (k := js "cmdId") rfl]
      rfl
  | some b =>
      obtain ⟨j, hj, hlookup⟩ := lookup_materialize hout (k := js "cmdId")
        (v := .str b.cmdId) rfl (by simp)
      obtain rfl := Except.ok.inj hj
      rw [hlookup]
      rfl

theorem cmd_materialize {input : CommandInput N} {tag : Option BatchFrame} {c : LineCore N}
    (h : input.materialize tag = .ok c) : c.cmd = tag.map BatchFrame.cmd := by
  obtain ⟨out, hout, hmembers, -⟩ := materialize_eq_ok h
  unfold LineCore.cmd
  rw [hmembers]
  cases tag with
  | none =>
      rw [lookup_materialize_undefined hout (k := js "cmd") rfl]
      rfl
  | some b =>
      obtain ⟨j, hj, hlookup⟩ := lookup_materialize hout (k := js "cmd")
        (v := .obj [(js "i", .num (JsonNumber.ofNat b.i)), (js "n", .num (JsonNumber.ofNat b.n))])
        rfl (by simp)
      rw [hlookup]
      simp only [JsValue.materialize, JsValue.materialize.materializeMembers,
        JsonNumber.isFinite_ofNat, if_true, ok_bind, pure_eq_ok, Except.ok.injEq] at hj
      subst hj
      have hi : LineCore.cmd.number (N := N) (.num (JsonNumber.ofNat b.i)) = .int b.i := by
        simp [LineCore.cmd.number, JsonNumber.toInt?_ofNat]
      have hn : LineCore.cmd.number (N := N) (.num (JsonNumber.ofNat b.n)) = .int b.n := by
        simp [LineCore.cmd.number, JsonNumber.toInt?_ofNat]
      have hlookupI : ∀ x y : Json N,
          lookupMember (js "i") (ofMembers [(js "i", x), (js "n", y)]) = some x :=
        fun x y => lookupMember_ofMembers _ _
      have hlookupN : ∀ x y : Json N,
          lookupMember (js "n") (ofMembers [(js "i", x), (js "n", y)]) = some y :=
        fun x y => lookupMember_ofMembers _ _
      simp only [Option.map_some, hlookupI, hlookupN, hi, hn]
      rfl

/-- The ids of a new event are strings. -/
theorem line_materialize {input : CommandInput N} {tag : Option BatchFrame} {c : LineCore N}
    (h : input.materialize tag = .ok c) (index : Nat) : lineOf index c.members = c.line := by
  obtain ⟨out, hout, hmembers, hline⟩ := materialize_eq_ok h
  have hplain : ∀ k ∈ idKeys, (lookupMember k (ofMembers out)).any isContainer = false := by
    have hstr : ∀ {k : JsString} {s : JsString},
        lookupMember k (input.members tag) = some (.str s) →
          (lookupMember k (ofMembers out)).any isContainer = false := by
      intro k s hk
      obtain ⟨j, hj, hlookup⟩ := lookup_materialize hout hk (by simp)
      obtain rfl := Except.ok.inj hj
      rw [hlookup]
      rfl
    have hundefined : ∀ {k : JsString}, lookupMember k (input.members tag) = some .undefined →
        (lookupMember k (ofMembers out)).any isContainer = false := by
      intro k hk
      rw [lookup_materialize_undefined hout hk]
      rfl
    intro k hk
    simp only [idKeys, List.mem_cons, List.not_mem_nil, or_false] at hk
    rcases hk with rfl | rfl | rfl | rfl | rfl
    · exact hstr (s := input.id) rfl
    · exact hstr (s := input.aggregate) rfl
    · exact hstr (s := input.aggregateId) rfl
    · cases htag : tag with
      | none => exact hundefined (htag ▸ rfl)
      | some b => exact hstr (s := b.cmdId) (htag ▸ rfl)
    · cases htoken : input.clientToken with
      | none =>
          refine hundefined ?_
          rw [show lookupMember (js "clientToken") (input.members tag) =
            some (input.clientToken.elim .undefined .str) from rfl, htoken]
          rfl
      | some token =>
          refine hstr (s := token) ?_
          rw [show lookupMember (js "clientToken") (input.members tag) =
            some (input.clientToken.elim .undefined .str) from rfl, htoken]
          rfl
  have hnone : (idKeys.any fun k => (lookupMember k (ofMembers out)).any isContainer) = false :=
    List.any_eq_false.mpr fun k hk => by simp [hplain k hk]
  rw [hline, hmembers, lineOf, hnone]
  rfl

end CommandInput

instance [DecidableEq N] : CommandEvent (CommandInput N) (LineCore N) (JsKey N) where
  aggregateId input := .str input.aggregateId
  clientToken input := input.clientToken.map .str
  cmdKey := .str
  materialize := CommandInput.materialize
  cmdId_materialize := CommandInput.cmdId_materialize
  cmd_materialize := CommandInput.cmd_materialize

end Input

end H2a.Track.Events
