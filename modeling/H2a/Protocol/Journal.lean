import H2a.Protocol.Canonical
/-!
# The journal chain

`packages/h2a/src/journal.ts`: an entry is a frame (protocol, version, sequence, hashes)
and the members of a payload, spread after it.  A chain grows by one entry exactly when
that entry has no fault after the last one (`verifyFrom_append`), and the entry made of a
payload that owns no member of the frame has none (`entryFault_framed`).
-/

namespace H2a.Protocol

open H2a.Library

variable {N : Type}

/-! ## The source -/

/-- The members of an object. -/
abbrev Members (N : Type) := List (JsString × Json N)

/-- `H2A_PROTOCOL` -/
def protocolName : JsString := js "sentropic.h2a"

/-- `H2A_VERSION` -/
def versionName : JsString := js "0.1"

def frameKeys : List JsString :=
  [js "protocol", js "version", js "sequence", js "prevHash", js "contentHash"]

/-- `stripFrame(entry)` -/
def stripFrame : Json N → Json N
  | .obj members => .obj (members.filter fun m => !frameKeys.contains m.1)
  | v => v

section Source

variable [JsonNumber N] (sha256 : List UInt8 → JsString)

/-- `createJournalEntry(payload)` -/
def createJournalEntry (payload : Members N) : Except String (Json N) := do
  let contentHash ← computeHash sha256 (.obj payload)
  let frame := [(js "protocol", .str protocolName), (js "version", .str versionName),
    (js "sequence", .num (JsonNumber.ofNat 0)), (js "contentHash", .str contentHash)]
  return .obj (spread frame payload)

/-- `previous.sequence + 1`; the entries that are read are verified, so it is a counter. -/
def nextSequence (previous : Json N) : Option Nat :=
  (Json.counter? (previous.get (js "sequence"))).map (· + 1)

/-- `appendJournalEntry(previous, payload)` -/
def appendJournalEntry (previous : Json N) (payload : Members N) : Except String (Json N) := do
  let contentHash ← computeHash sha256 (.obj payload)
  let prevHash := (previous.get (js "contentHash")).elim [] fun hash => [(js "prevHash", hash)]
  let frame := [(js "protocol", Json.str protocolName), (js "version", .str versionName),
    (js "sequence", .num (JsonNumber.ofNat ((nextSequence previous).getD 0)))] ++ prevHash ++
    [(js "contentHash", Json.str contentHash)]
  return .obj (spread frame payload)

inductive H2AJournalVerification where
  | ok
  | bad (index : Nat) (reason : String)

/-- `entry.prevHash === expectedPrev`, where that is a verified hash or `undefined` -/
def sameHash : Option (Json N) → Option (Json N) → Bool
  | none, none => true
  | some (.str hash), some (.str expected) => hash == expected
  | _, _ => false

/-- `value ?? "<none>"`, as a text. -/
def displayHash : Option (Json N) → String
  | none => "<none>"
  | some .null => "<none>"
  | some hash => hash.display

/-- One turn of the loop of `verifyJournalChain`: the reason an entry is refused after `prev`. -/
def entryFault (prev : Option (Json N)) (entry : Json N) : Except String (Option String) := do
  let protocol ← entry.member (js "protocol")
  let version := entry.get (js "version")
  let sequence := entry.get (js "sequence")
  let prevHash := entry.get (js "prevHash")
  let contentHash := entry.get (js "contentHash")
  let expectedSequence := prev.elim (some 0) nextSequence
  let expectedPrev := prev.bind fun prev => prev.get (js "contentHash")
  if !Json.isText protocolName protocol then
    return some ("bad protocol: " ++ Json.displayMember protocol)
  else if !Json.isText versionName version then
    return some ("bad version: " ++ Json.displayMember version)
  else if !(expectedSequence.isSome && Json.counter? sequence == expectedSequence) then
    return some ("bad sequence: expected " ++ expectedSequence.elim "NaN" toString ++ ", got " ++
      Json.displayMember sequence)
  else if !sameHash prevHash expectedPrev then
    return some ("bad prevHash: expected " ++ displayHash expectedPrev ++ ", got " ++
      displayHash prevHash)
  else
    let expectedHash ← computeHash sha256 (stripFrame entry)
    if !Json.isText expectedHash contentHash then
      return some ("bad contentHash: expected " ++ toString expectedHash ++ ", got " ++
        Json.displayMember contentHash)
    else return none

/-- The loop, from an entry and its index on. -/
def verifyFrom (prev : Option (Json N)) (i : Nat) :
    List (Json N) → Except String H2AJournalVerification
  | [] => .ok .ok
  | entry :: entries => do
      match ← entryFault sha256 prev entry with
      | some reason => return .bad i reason
      | none => verifyFrom (some entry) (i + 1) entries

/-- `verifyJournalChain(entries)` -/
def verifyJournalChain (entries : List (Json N)) : Except String H2AJournalVerification :=
  verifyFrom sha256 none 0 entries

end Source

/-! ## An entry after the last one -/

section Frames

variable [JsonNumber N] {sha256 : List UInt8 → JsString}

/-- The entry that is made after `prev`, or as the first one. -/
def nextEntry (sha256 : List UInt8 → JsString) (prev : Option (Json N)) (payload : Members N) :
    Except String (Json N) :=
  match prev with
  | some previous => appendJournalEntry sha256 previous payload
  | none => createJournalEntry sha256 payload

/-- The frame of that entry. -/
def frameAfter (prev : Option (Json N)) (contentHash : JsString) : Members N :=
  [(js "protocol", Json.str protocolName), (js "version", .str versionName),
    (js "sequence", .num (JsonNumber.ofNat ((prev.elim (some 0) nextSequence).getD 0)))] ++
    (prev.bind fun prev => prev.get (js "contentHash")).elim []
      (fun hash => [(js "prevHash", hash)]) ++
    [(js "contentHash", Json.str contentHash)]

theorem nextEntry_eq_ok {prev : Option (Json N)} {payload : Members N} {entry : Json N} :
    nextEntry sha256 prev payload = .ok entry ↔
      ∃ hash, computeHash sha256 (.obj payload) = .ok hash ∧
        entry = .obj (spread (frameAfter prev hash) payload) := by
  cases prev with
  | none =>
      rw [nextEntry, createJournalEntry, bind_eq_ok_iff]
      simp [frameAfter, eq_comm]
  | some previous =>
      rw [nextEntry, appendJournalEntry, bind_eq_ok_iff]
      simp [frameAfter, eq_comm]

/-- An entry can be followed: its sequence is a counter and its hash a text. -/
def CanFollow (prev : Option (Json N)) : Prop :=
  ∀ entry, prev = some entry → (∃ k, Json.counter? (entry.get (js "sequence")) = some k) ∧
    ∃ hash, entry.get (js "contentHash") = some (.str hash)

omit [JsonNumber N] in
theorem isText_iff {s : JsString} {v : Option (Json N)} :
    Json.isText s v = true ↔ v = some (.str s) := by
  cases v with
  | none => simp [Json.isText]
  | some v => cases v <;> simp [Json.isText]

/-- What an entry has when nothing is wrong with it after `prev`. -/
theorem entryFault_eq_none {prev : Option (Json N)} {entry : Json N} :
    entryFault sha256 prev entry = .ok none ↔
      entry.get (js "protocol") = some (.str protocolName) ∧
      entry.get (js "version") = some (.str versionName) ∧
      (∃ k, prev.elim (some 0) nextSequence = some k ∧
        Json.counter? (entry.get (js "sequence")) = some k) ∧
      sameHash (entry.get (js "prevHash")) (prev.bind fun prev => prev.get (js "contentHash")) ∧
      ∃ hash, computeHash sha256 (stripFrame entry) = .ok hash ∧
        entry.get (js "contentHash") = some (.str hash) := by
  have hmember : entry.member (js "protocol") = .ok (entry.get (js "protocol")) ∨
      entry.get (js "protocol") = none ∧ ∃ e, entry.member (js "protocol") = .error e := by
    cases entry with
    | null => exact Or.inr ⟨rfl, _, rfl⟩
    | _ => exact Or.inl rfl
  rcases hmember with hmember | ⟨hnone, e, hmember⟩
  · rw [entryFault, hmember, ok_bind, ← isText_iff, ← isText_iff]
    dsimp only
    cases Json.isText protocolName (entry.get (js "protocol")) with
    | false => simp
    | true =>
        cases Json.isText versionName (entry.get (js "version")) with
        | false => simp
        | true =>
            cases hseq : prev.elim (some 0) nextSequence with
            | none => simp
            | some k =>
                by_cases hcounter : Json.counter? (entry.get (js "sequence")) = some k
                · cases sameHash (entry.get (js "prevHash"))
                    (prev.bind fun prev => prev.get (js "contentHash")) with
                  | false => simp [hcounter]
                  | true =>
                      cases computeHash sha256 (stripFrame entry) with
                      | error e => simp [hcounter]
                      | ok hash =>
                          simp only [← isText_iff]
                          cases Json.isText hash (entry.get (js "contentHash")) <;>
                            simp [hcounter]
                · simp [hcounter]
  · rw [entryFault, hmember, hnone, error_bind]
    simp

theorem canFollow_of_entryFault {prev : Option (Json N)} {entry : Json N}
    (h : entryFault sha256 prev entry = .ok none) : CanFollow (some entry) := by
  obtain ⟨-, -, ⟨k, -, hcounter⟩, -, hash, -, hhash⟩ := entryFault_eq_none.mp h
  rintro _ ⟨⟩
  exact ⟨⟨k, hcounter⟩, hash, hhash⟩

/-- A payload that owns no member of the frame. -/
def FrameFree (payload : Members N) : Prop := ∀ k ∈ frameKeys, k ∉ payload.map Prod.fst

theorem nodup_frameAfter (prev : Option (Json N)) (hash : JsString) :
    ((frameAfter prev hash).map Prod.fst).Nodup := by
  rw [frameAfter]
  cases prev.bind fun prev => prev.get (js "contentHash") with
  | none =>
      exact (by decide :
        [js "protocol", js "version", js "sequence", js "contentHash"].Nodup)
  | some v => exact (by decide : frameKeys.Nodup)

omit [JsonNumber N] in
theorem lookupMember_framed {payload : Members N} (hfree : FrameFree payload)
    (frame : Members N) {k : JsString} (hk : k ∈ frameKeys) :
    lookupMember k (spread frame payload) = lookupMember k frame := by
  have hnone : lookupMember k payload.reverse = none := by
    rw [lookupMember_eq_none, List.map_reverse, List.mem_reverse]
    exact hfree k hk
  rw [lookupMember_spread, hnone, Option.none_or]

theorem lookupMember_frameAfter (prev : Option (Json N)) (hash : JsString) {k : JsString}
    (hk : k ∉ frameKeys) : lookupMember k (frameAfter prev hash) = none := by
  rw [lookupMember_eq_none]
  intro hmem
  apply hk
  rw [frameAfter] at hmem
  cases hprev : prev.bind fun prev => prev.get (js "contentHash") with
  | none =>
      rw [hprev] at hmem
      simp only [Option.elim_none, List.append_nil, List.map_append, List.map_cons, List.map_nil]
        at hmem
      exact (by decide : [js "protocol", js "version", js "sequence", js "contentHash"] ⊆ frameKeys)
        hmem
  | some v =>
      rw [hprev] at hmem
      exact hmem

/-- The payload part of an entry is the payload. -/
theorem stripFrame_framed {payload : Members N} (hfree : FrameFree payload)
    (prev : Option (Json N)) (hash : JsString) :
    (stripFrame (Json.obj (spread (frameAfter prev hash) payload)).ordered).SameMembers
      (.obj payload) := by
  have hnodup := nodup_spread payload (nodup_frameAfter prev hash)
  have hkeys : (((ofMembers (spread (frameAfter prev hash) payload)).map
      fun m => (m.1, Json.ordered m.2)).map Prod.fst).Nodup :=
    (Json.sortedMembers_mapValues _ (sorted_ofMembers _)).nodup
  rw [Json.ordered_obj, stripFrame]
  apply Json.sameMembers_obj
  intro k
  rw [lookupMember_reverse (nodup_filter _ hkeys),
    lookupMember_filter (fun k => !frameKeys.contains k), lookupMember_mapValues,
    lookupMember_ofMembers_of_nodup hnodup, lookupMember_spread]
  by_cases hk : k ∈ frameKeys
  · have hnone : lookupMember k payload.reverse = none := by
      rw [lookupMember_eq_none, List.map_reverse, List.mem_reverse]
      exact hfree k hk
    simp [hk, hnone]
  · rw [lookupMember_frameAfter prev hash hk, Option.or_none]
    simp [hk, Function.comp_def]

theorem computeHash_congr {v w : Json N} (h : v.SameMembers w) {hash : JsString} :
    computeHash sha256 v = .ok hash ↔ computeHash sha256 w = .ok hash := by
  have htext : ∀ t, canonicalize v = .ok t ↔ canonicalize w = .ok t := by
    intro t
    rw [← canonicalize_ordered, h, canonicalize_ordered]
  simp only [computeHash, bind_eq_ok_iff, htext]

/-- Nothing is wrong with the entry that is made after `prev`, once it is read back. -/
theorem entryFault_framed {prev : Option (Json N)} (hprev : CanFollow prev) {payload : Members N}
    (hfree : FrameFree payload) {entry : Json N}
    (h : nextEntry sha256 prev payload = .ok entry) :
    entryFault sha256 prev entry.ordered = .ok none := by
  obtain ⟨hash, hhash, rfl⟩ := nextEntry_eq_ok.mp h
  have hget : ∀ k ∈ frameKeys, (Json.obj (spread (frameAfter prev hash) payload)).ordered.get k =
      (lookupMember k (frameAfter prev hash)).map Json.ordered := by
    intro k hk
    rw [Json.get_ordered (nodup_spread payload (nodup_frameAfter prev hash)),
      lookupMember_framed hfree _ hk]
  have hsequence : ∃ k, prev.elim (some 0) nextSequence = some k := by
    cases prev with
    | none => exact ⟨0, rfl⟩
    | some previous =>
        obtain ⟨⟨k, hk⟩, -⟩ := hprev previous rfl
        exact ⟨k + 1, by rw [Option.elim_some, nextSequence, hk, Option.map_some]⟩
  have hprevHash : sameHash ((lookupMember (js "prevHash") (frameAfter prev hash)).map Json.ordered)
      (prev.bind fun prev => prev.get (js "contentHash")) = true := by
    cases prev with
    | none => rfl
    | some previous =>
        obtain ⟨-, last, hlast⟩ := hprev previous rfl
        rw [frameAfter, Option.bind_some, hlast]
        exact beq_self_eq_true last
  obtain ⟨k, hk⟩ := hsequence
  rw [entryFault_eq_none, hget _ (by decide), hget _ (by decide), hget _ (by decide),
    hget _ (by decide), hget _ (by decide)]
  refine ⟨rfl, rfl, ⟨k, hk, ?_⟩, hprevHash, hash, ?_, ?_⟩
  · change Json.counter? (some (.num (JsonNumber.ofNat _))) = _
    rw [Json.counter?_ofNat, hk, Option.getD_some]
  · exact (computeHash_congr (stripFrame_framed hfree prev hash)).mpr hhash
  · rw [frameAfter]
    cases prev.bind fun prev => prev.get (js "contentHash") <;> rfl

/-! ## The chain -/

/-- A chain grows by one entry exactly when nothing is wrong with it after the last one. -/
theorem verifyFrom_append (prev : Option (Json N)) (i : Nat) (entries : List (Json N))
    (entry : Json N) :
    verifyFrom sha256 prev i (entries ++ [entry]) = .ok .ok ↔
      verifyFrom sha256 prev i entries = .ok .ok ∧
        entryFault sha256 (entries.getLast?.or prev) entry = .ok none := by
  induction entries generalizing prev i with
  | nil =>
      rw [List.nil_append, verifyFrom, verifyFrom, List.getLast?_nil, Option.none_or]
      cases hfault : entryFault sha256 prev entry with
      | error e => simp
      | ok fault => cases fault <;> simp [verifyFrom]
  | cons e entries ih =>
      have hlast : (e :: entries).getLast?.or prev = entries.getLast?.or (some e) := by
        rw [List.getLast?_cons, Option.some_or]
        cases entries.getLast? <;> rfl
      rw [List.cons_append, verifyFrom, verifyFrom, hlast]
      cases entryFault sha256 prev e with
      | error e => simp
      | ok fault =>
          cases fault with
          | some reason => simp
          | none => exact ih (some e) (i + 1)

theorem verifyJournalChain_append (entries : List (Json N)) (entry : Json N) :
    verifyJournalChain sha256 (entries ++ [entry]) = .ok .ok ↔
      verifyJournalChain sha256 entries = .ok .ok ∧
        entryFault sha256 entries.getLast? entry = .ok none := by
  rw [verifyJournalChain, verifyFrom_append, Option.or_none]
  rfl

/-- The last entry of a verified chain can be followed. -/
theorem canFollow_of_verified {entries : List (Json N)}
    (h : verifyJournalChain sha256 entries = .ok .ok) : CanFollow entries.getLast? := by
  induction entries using List.reverseRecOn with
  | nil => simp [CanFollow]
  | append_singleton entries entry ih =>
      rw [List.getLast?_concat]
      exact canFollow_of_entryFault ((verifyJournalChain_append entries entry).mp h).2

end Frames

end H2a.Protocol
