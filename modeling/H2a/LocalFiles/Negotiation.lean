import H2a.Library.Jsonl
import H2a.Library.JsonInteger
import H2a.Library.Transition
import H2a.Protocol.Journal
/-!
# The journal of a negotiation

`readNegotiationJournalUnlocked` and `appendNegotiationEvent` of
`packages/h2a/src/runtime/local-files/store.ts`, on the bytes of `journal.jsonl`.  The
lock of the negotiation makes each call one step.  As long as no payload owns a member
of the frame, the journal is read back as the entries that were returned
(`journal_extends`).
-/

namespace H2a.LocalFiles

open H2a.Library H2a.Protocol

variable {N : Type} [JsonNumber N]

/-! ## The source -/

/-- `isConsentId(id)` -/
def isConsentId (id : JsString) : Bool :=
  id.startsWith (js "drive-consent:") || id.startsWith (js "drive-consent-")

/-- `readNegotiationJournalUnlocked(negotiationId)` -/
def readNegotiationJournal (sha256 : List UInt8 → JsString) (negotiationId : JsString)
    (journal : FileBytes) : Except String (List (Json N)) :=
  match readJsonl journal with
  | none => .error "SyntaxError"
  | some entries => do
      match ← verifyJournalChain sha256 entries with
      | .ok => return entries
      | .bad index reason =>
          throw (s!"Negotiation {negotiationId}: corrupt journal chain at index {index}: " ++ reason)

/-- The critical section of `appendNegotiationEvent`: the entry, not yet appended. -/
def makeEntry (sha256 : List UInt8 → JsString) (negotiationId : JsString) (payload : Members N)
    (journal : FileBytes) : Except String (Json N) := do
  let existing ← readNegotiationJournal sha256 negotiationId journal
  match existing.getLast? with
  | some previous => appendJournalEntry sha256 previous payload
  | none => createJournalEntry sha256 payload

/-- `appendNegotiationEvent(negotiationId, payload)`: what it gives, and the journal it leaves. -/
def appendNegotiationEvent (sha256 : List UInt8 → JsString) (negotiationId : JsString)
    (payload : Members N) (journal : FileBytes) : Except String (Json N) × FileBytes :=
  if isConsentId negotiationId then (.error "Reserved drive-consent namespace", journal)
  else
    match makeEntry sha256 negotiationId payload journal with
    | .error error => (.error error, journal)
    | .ok entry => (.ok entry, appendJsonl journal entry)

/-! ## Runs of calls -/

/-- The journal, and the calls that returned so far: each payload with its entry. -/
structure JournalState (N : Type) where
  journal : FileBytes
  returned : List (Members N × Json N)

/-- A negotiation without a journal. -/
def noJournal : JournalState N := ⟨none, []⟩

/-- One call, by any writer, with a payload that meets `ok`. -/
inductive AppendStep (sha256 : List UInt8 → JsString) (negotiationId : JsString)
    (ok : Members N → Prop) : JournalState N → JournalState N → Prop
  | returns {s : JournalState N} {payload : Members N} {entry : Json N} {journal : FileBytes}
      (hpayload : (Json.obj payload).Distinct) (hok : ok payload)
      (hcall : appendNegotiationEvent sha256 negotiationId payload s.journal =
        (.ok entry, journal)) :
      AppendStep sha256 negotiationId ok s ⟨journal, s.returned ++ [(payload, entry)]⟩
  | throws {s : JournalState N} {payload : Members N} {error : String} {journal : FileBytes}
      (hpayload : (Json.obj payload).Distinct) (hok : ok payload)
      (hcall : appendNegotiationEvent sha256 negotiationId payload s.journal =
        (.error error, journal)) :
      AppendStep sha256 negotiationId ok s ⟨journal, s.returned⟩

/-- The journal is read back as what was returned, and the payload part of each entry is its
payload. -/
def ReadsBack (sha256 : List UInt8 → JsString) (negotiationId : JsString)
    (s : JournalState N) : Prop :=
  readNegotiationJournal sha256 negotiationId s.journal =
      .ok (s.returned.map fun call => call.2.ordered) ∧
    ∀ call ∈ s.returned, (stripFrame call.2.ordered).SameMembers (.obj call.1)

/-! ## One call -/

section Calls

variable {sha256 : List UInt8 → JsString} {negotiationId : JsString}

/-- A call that throws leaves the journal as it was. -/
theorem append_throws {payload : Members N} {journal journal' : FileBytes} {error : String}
    (h : appendNegotiationEvent sha256 negotiationId payload journal = (.error error, journal')) :
    journal' = journal := by
  rw [appendNegotiationEvent] at h
  split_ifs at h
  · exact (congrArg Prod.snd h).symm
  · cases hentry : makeEntry sha256 negotiationId payload journal with
    | error e =>
        rw [hentry] at h
        exact (congrArg Prod.snd h).symm
    | ok entry =>
        rw [hentry] at h
        exact absurd (congrArg Prod.fst h) (by simp)

theorem append_returns {payload : Members N} {journal journal' : FileBytes} {entry : Json N} :
    appendNegotiationEvent sha256 negotiationId payload journal = (.ok entry, journal') ↔
      isConsentId negotiationId = false ∧
        makeEntry sha256 negotiationId payload journal = .ok entry ∧
        journal' = appendJsonl journal entry := by
  rw [appendNegotiationEvent]
  cases isConsentId negotiationId with
  | true => simp
  | false =>
      cases makeEntry sha256 negotiationId payload journal with
      | error e => simp
      | ok e =>
          simp only [Bool.false_eq_true, if_false, Prod.mk.injEq, Except.ok.injEq, true_and]
          constructor
          · rintro ⟨rfl, rfl⟩
            exact ⟨rfl, rfl⟩
          · rintro ⟨rfl, rfl⟩
            exact ⟨rfl, rfl⟩

theorem readNegotiationJournal_eq_ok {journal : FileBytes} {entries : List (Json N)} :
    readNegotiationJournal sha256 negotiationId journal = .ok entries ↔
      readJsonl journal = some entries ∧ verifyJournalChain sha256 entries = .ok .ok := by
  rw [readNegotiationJournal]
  cases readJsonl (N := N) journal with
  | none => simp
  | some es =>
      simp only [bind_eq_ok_iff, Option.some.injEq]
      constructor
      · rintro ⟨verification, hverify, hread⟩
        cases verification with
        | ok =>
            obtain rfl := Except.ok.inj hread
            exact ⟨rfl, hverify⟩
        | bad index reason => simp at hread
      · rintro ⟨rfl, hverify⟩
        exact ⟨.ok, hverify, rfl⟩

theorem makeEntry_eq (payload : Members N) {journal : FileBytes} {entries : List (Json N)}
    (hread : readNegotiationJournal sha256 negotiationId journal = .ok entries) :
    makeEntry sha256 negotiationId payload journal =
      nextEntry sha256 entries.getLast? payload := by
  rw [makeEntry, hread, ok_bind]
  cases entries.getLast? <;> rfl

/-- An entry can be printed. -/
theorem printable_entry {payload : Members N} (hpayload : (Json.obj payload).Distinct)
    {prev : Option (Json N)} (hprev : CanFollow prev) {entry : Json N}
    (h : nextEntry sha256 prev payload = .ok entry) : entry.Printable := by
  obtain ⟨hash, hhash, rfl⟩ := nextEntry_eq_ok.mp h
  have hfinite : AllFinite (.obj payload) := by
    obtain ⟨t, ht, -⟩ := bind_eq_ok_iff.mp hhash
    exact (canonicalize_eq_ok.mp ht).1
  have hprintable := (Json.printable_obj payload).mp (Json.Printable.of_ordered hpayload hfinite)
  rw [Json.printable_obj]
  intro m hm
  rcases mem_spread hm with hm | hm
  · rw [frameAfter, List.mem_append, List.mem_append] at hm
    rcases hm with (hm | hm) | hm
    · simp only [List.mem_cons, List.not_mem_nil, or_false] at hm
      rcases hm with rfl | rfl | rfl
      · trivial
      · trivial
      · exact JsonNumber.isFinite_ofNat _
    · cases prev with
      | none => simp at hm
      | some previous =>
          obtain ⟨-, last, hlast⟩ := hprev previous rfl
          rw [Option.bind_some, hlast, Option.elim_some, List.mem_singleton] at hm
          rw [hm]
          trivial
    · rw [List.mem_singleton.mp hm]
      trivial
  · exact hprintable m hm

/-! ## All runs -/

/-- The file holds the entries that were returned, a verified chain, with the payloads they
were made of. -/
structure JournalOk (sha256 : List UInt8 → JsString) (s : JournalState N) : Prop where
  holds : HoldsLines s.journal (s.returned.map Prod.snd)
  verified : verifyJournalChain sha256 (s.returned.map fun call => call.2.ordered) = .ok .ok
  payloads : ∀ call ∈ s.returned, (stripFrame call.2.ordered).SameMembers (.obj call.1)

theorem journalOk_noJournal : JournalOk sha256 (noJournal : JournalState N) where
  holds := holdsLines_none
  verified := rfl
  payloads := by simp [noJournal]

theorem JournalOk.read {s : JournalState N} (h : JournalOk sha256 s) :
    readNegotiationJournal sha256 negotiationId s.journal =
      .ok (s.returned.map fun call => call.2.ordered) := by
  rw [readNegotiationJournal_eq_ok, h.holds.read, List.map_map]
  exact ⟨rfl, h.verified⟩

/-- One more entry, of a payload that owns no member of the frame. -/
theorem JournalOk.extend {s : JournalState N} (h : JournalOk sha256 s) {payload : Members N}
    (hpayload : (Json.obj payload).Distinct) (hfree : FrameFree payload) {entry : Json N}
    (hentry : makeEntry sha256 negotiationId payload s.journal = .ok entry) :
    JournalOk sha256 ⟨appendJsonl s.journal entry, s.returned ++ [(payload, entry)]⟩ := by
  have hlast := canFollow_of_verified h.verified
  rw [makeEntry_eq payload h.read] at hentry
  constructor
  · rw [List.map_append, List.map_singleton]
    exact h.holds.append (printable_entry hpayload hlast hentry)
  · rw [List.map_append, List.map_singleton, verifyJournalChain_append]
    exact ⟨h.verified, entryFault_framed hlast hfree hentry⟩
  · intro call hcall
    rcases List.mem_append.mp hcall with hcall | hcall
    · exact h.payloads call hcall
    · obtain ⟨hash, -, rfl⟩ := nextEntry_eq_ok.mp hentry
      rw [List.mem_singleton.mp hcall]
      exact stripFrame_framed hfree _ hash

theorem JournalOk.step {s t : JournalState N} (h : JournalOk sha256 s)
    (hstep : AppendStep sha256 negotiationId FrameFree s t) : JournalOk sha256 t := by
  cases hstep with
  | returns hpayload hfree hcall =>
      obtain ⟨-, hentry, rfl⟩ := append_returns.mp hcall
      exact h.extend hpayload hfree hentry
  | throws _ _ hcall => exact append_throws hcall ▸ h

/-- After any run of calls whose payloads own no member of the frame the journal is read back
as what was returned; a call that throws leaves it so, and it can be extended. -/
theorem journal_extends {s : JournalState N}
    (hrun : Reaches (AppendStep sha256 negotiationId FrameFree) noJournal s) :
    ReadsBack sha256 negotiationId s ∧
      (∀ (payload : Members N) error journal,
        appendNegotiationEvent sha256 negotiationId payload s.journal = (.error error, journal) →
          journal = s.journal) ∧
      (∀ payload : Members N, AllFinite (.obj payload) → isConsentId negotiationId = false →
        ∃ entry journal, appendNegotiationEvent sha256 negotiationId payload s.journal =
          (.ok entry, journal)) := by
  have hok : JournalOk sha256 s := hrun.invariant journalOk_noJournal fun _ _ h hstep => JournalOk.step h hstep
  refine ⟨⟨hok.read, hok.payloads⟩, fun _ _ _ hcall => append_throws hcall, ?_⟩
  intro payload hfinite hconsent
  obtain ⟨hash, hhash⟩ : ∃ hash, computeHash sha256 (.obj payload) = .ok hash :=
    ⟨_, computeHash_eq_ok.mpr ⟨_, canonicalize_eq_ok.mpr ⟨hfinite, rfl⟩, rfl⟩⟩
  obtain ⟨entry, hentry⟩ : ∃ entry,
      makeEntry sha256 negotiationId payload s.journal = .ok entry := by
    rw [makeEntry_eq payload hok.read]
    exact ⟨_, nextEntry_eq_ok.mpr ⟨hash, hhash, rfl⟩⟩
  exact ⟨_, _, append_returns.mpr ⟨hconsent, hentry, rfl⟩⟩

end Calls

/-! ## One call -/

/-- `{"id":"evt:1","version":"0.2"}` -/
def versionedPayload : Members Int :=
  [(js "id", .str (js "evt:1")), (js "version", .str (js "0.2"))]

/-- Once an entry of this payload is appended the journal cannot be read. -/
theorem versioned_payload_unreadable :
    ¬∀ (sha256 : List UInt8 → JsString) (negotiationId : JsString) (s : JournalState Int),
      Reaches (AppendStep sha256 negotiationId fun _ => True) noJournal s →
        ReadsBack sha256 negotiationId s := by
  intro h
  let sha256 : List UInt8 → JsString := fun _ => js "00"
  have hdistinct : (Json.obj versionedPayload).Distinct := ⟨by decide, trivial, trivial, trivial⟩
  obtain ⟨entry, hentry⟩ : ∃ entry, makeEntry sha256 (js "neg:1") versionedPayload none =
      .ok entry := ⟨_, rfl⟩
  have hstep : AppendStep sha256 (js "neg:1") (fun _ => True) noJournal
      ⟨appendJsonl none entry, [(versionedPayload, entry)]⟩ :=
    .returns hdistinct trivial (append_returns.mpr ⟨by decide, hentry, rfl⟩)
  have hread := (readNegotiationJournal_eq_ok.mp (h _ _ _ (.single hstep)).1).2
  obtain ⟨reason, hbad⟩ : ∃ reason, (makeEntry sha256 (js "neg:1") versionedPayload none).map
      (fun entry => verifyJournalChain sha256 [entry.ordered]) = .ok (.ok (.bad 0 reason)) :=
    ⟨_, rfl⟩
  rw [hentry] at hbad
  have hverified : verifyJournalChain sha256 [entry.ordered] = .ok .ok := hread
  simp [Except.map, hverified] at hbad

/-- The first event of a negotiation. -/
theorem journal_extends_once :
    ∃ s : JournalState Int, s.returned.length = 1 ∧
      ReadsBack (fun _ => js "00") (js "neg:1") s := by
  obtain ⟨entry, hentry⟩ : ∃ entry, makeEntry (fun _ => js "00") (js "neg:1")
      ([(js "id", .str (js "evt:1"))] : Members Int) none = .ok entry := ⟨_, rfl⟩
  have hfree : FrameFree ([(js "id", .str (js "evt:1"))] : Members Int) := by
    rw [FrameFree]
    decide
  have hstep : AppendStep (fun _ => js "00") (js "neg:1") FrameFree noJournal
      ⟨appendJsonl none entry, [([(js "id", .str (js "evt:1"))], entry)]⟩ :=
    .returns ⟨by decide, trivial, trivial⟩ hfree (append_returns.mpr ⟨by decide, hentry, rfl⟩)
  exact ⟨_, rfl, (journal_extends (.single hstep)).1⟩

end H2a.LocalFiles
