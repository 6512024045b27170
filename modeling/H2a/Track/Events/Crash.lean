import H2a.Library.Transition
import H2a.Track.Events.LogFile
/-!
# A crash during a write

The process dies while `appendCommand` is writing: some first bytes of the new
lines are on disk, and `head.json` is the old one or the new one
(`packages/track/src/events/store.ts`, `appendAtomic`, and `head.ts`).
`crash_consistent` says what the next reader makes of it.
-/

namespace H2a.Track.Events

open H2a.Library

section Crash

variable {N : Type} [JsonNumber N]

/-! ## A text cut short -/

/-- The lines of some events, each with its newline. -/
def flatLines (events : List (TrackEvent (LineCore N))) : List Char :=
  events.flatMap fun e => lineText e ++ ['\n']

theorem linesText_eq_flatLines {events : List (TrackEvent (LineCore N))} (hne : events ≠ []) :
    linesText events = flatLines events := by
  induction events with
  | nil => exact absurd rfl hne
  | cons e events ih =>
      rw [linesText_cons]
      by_cases hevents : events = []
      · simp [hevents, flatLines]
      · simp [hevents, ih hevents, flatLines]

theorem lineText_eq_cons (e : TrackEvent (LineCore N)) : ∃ rest, lineText e = '\x7b' :: rest :=
  ⟨_, rfl⟩

/-- A text that starts as an object and ends in U+FFFD is malformed. -/
theorem parse_replacement (s : List Char) :
    (Json.parse ('\x7b' :: (s ++ [Utf8.replacement])) : Option (Json N)) = none := by
  cases h : (Json.parse ('\x7b' :: (s ++ [Utf8.replacement])) : Option (Json N)) with
  | none => rfl
  | some v =>
      obtain ⟨body, spaces, htext, hspaces⟩ := Json.parse_brace_ends h
      have hends : ∃ c init, body ++ '\x7d' :: spaces = init ++ [c] ∧ c ≠ Utf8.replacement := by
        rcases List.eq_nil_or_concat spaces with rfl | ⟨init, c, rfl⟩
        · exact ⟨'\x7d', body, rfl, by decide⟩
        · have hc := List.all_eq_true.mp hspaces c (by simp)
          refine ⟨c, body ++ '\x7d' :: init, by simp, ?_⟩
          rintro rfl
          exact absurd hc (by decide)
      obtain ⟨c, init, hinit, hc⟩ := hends
      rw [hinit, ← List.cons_append] at htext
      exact absurd (List.append_inj' htext rfl).2 (by simpa using Ne.symm hc)

theorem readLine_replacement (number : Nat) :
    (readLine number [Utf8.replacement] : Except Nat (List (Json N))) = .error number := by
  have hblack : isBlank [Utf8.replacement] = false := by decide
  have hparse : (Json.parse [Utf8.replacement] : Option (Json N)) = none := by
    simp [Json.parse, Json.parseValue, skipSpace, isJsonSpace, Json.parseScalar, isNumberChar,
      isNumberToken, Utf8.replacement]
  rw [readLine, hblack, if_neg Bool.false_ne_true, hparse]

theorem readLines_singleton (number : Nat) (line : List Char) :
    (readLines number [line] : Except Nat (List (Json N))) = readLine number line := by
  rw [readLines, readLines]
  cases readLine (N := N) number line with
  | error number => rfl
  | ok vs => simp

/-- What is left of a line, with what the decoder puts for a character cut in
two, is the whole line, nothing or malformed. -/
theorem readLine_cut {number : Nat} {e : TrackEvent (LineCore N)} {s t tail : List Char}
    (hcut : lineText e = s ++ t) (htail : tail = [] ∨ tail = [Utf8.replacement])
    {vs : List (Json N)} (h : readLine number (s ++ tail) = .ok vs) :
    vs = [] ∨ vs = [e.toJson] := by
  cases s with
  | nil =>
      rcases htail with rfl | rfl
      · exact Or.inl (Except.ok.inj h).symm
      · rw [List.nil_append, readLine_replacement] at h
        exact absurd h (by simp)
  | cons c s =>
      obtain ⟨rest, hrest⟩ := lineText_eq_cons e
      obtain ⟨rfl, -⟩ := List.cons.inj (hrest.symm.trans hcut)
      have hblack : isBlank ('\x7b' :: s ++ tail) = false :=
        isBlank_of_mem (List.mem_cons_self ..) (by decide)
      rw [readLine, hblack, if_neg Bool.false_ne_true] at h
      rcases htail with rfl | rfl
      · rw [List.append_nil] at h
        by_cases ht : t = []
        · rw [ht, List.append_nil] at hcut
          rw [← hcut, lineText, Json.parse_render_self (toJson_canonical e)] at h
          exact Or.inr (Except.ok.inj h).symm
        · rw [Json.parse_proper_prefix (toJson_canonical e) hcut ht] at h
          exact absurd h (by simp)
      · rw [List.cons_append, parse_replacement s] at h
        exact absurd h (by simp)

/-- What is left of some lines is the first of them, or malformed. -/
theorem readLines_cut {events : List (TrackEvent (LineCore N))} {s t tail : List Char}
    (hcut : flatLines events = s ++ t) (htail : tail = [] ∨ tail = [Utf8.replacement])
    {number : Nat} {vs : List (Json N)}
    (h : readLines number ((s ++ tail).splitOn '\n') = .ok vs) :
    ∃ m, vs = (events.take m).map TrackEvent.toJson := by
  have hnewline : '\n' ∉ tail := by
    rcases htail with rfl | rfl <;> decide
  induction events generalizing s number vs with
  | nil =>
      obtain ⟨rfl, rfl⟩ := List.append_eq_nil_iff.mp hcut.symm
      refine ⟨0, ?_⟩
      rw [List.nil_append, List.splitOn_eq_singleton hnewline, readLines_singleton] at h
      rcases htail with rfl | rfl
      · exact (Except.ok.inj h).symm
      · rw [readLine_replacement] at h
        exact absurd h (by simp)
  | cons e events ih =>
      have hflat : flatLines (e :: events) = lineText e ++ '\n' :: flatLines events := by
        simp [flatLines]
      have hinside : ∀ {s t : List Char}, lineText e = s ++ t →
          readLines number ((s ++ tail).splitOn '\n') = .ok vs →
            ∃ m, vs = ((e :: events).take m).map TrackEvent.toJson := by
        intro s t hline h
        have hs : '\n' ∉ s ++ tail := by
          have hmem := newline_not_mem_lineText e
          rw [hline, List.mem_append, not_or] at hmem
          rw [List.mem_append, not_or]
          exact ⟨hmem.1, hnewline⟩
        rw [List.splitOn_eq_singleton hs, readLines_singleton] at h
        rcases readLine_cut hline htail h with rfl | rfl
        · exact ⟨0, rfl⟩
        · exact ⟨1, rfl⟩
      rw [hflat] at hcut
      rcases List.append_eq_append_iff.mp hcut with ⟨s', rfl, hs'⟩ | ⟨t', hline, -⟩
      · cases s' with
        | nil =>
            rw [List.append_nil] at h
            exact hinside (List.append_nil _).symm h
        | cons c s' =>
            obtain ⟨rfl, hrest⟩ := List.cons.inj hs'
            have hfirst := readLine_lineText number e [] rfl
            rw [List.nil_append] at hfirst
            rw [List.append_assoc, List.cons_append,
              List.splitOn_append_cons_self_of_not_mem (newline_not_mem_lineText e), readLines,
              hfirst, ok_bind, bind_eq_ok_iff] at h
            obtain ⟨ws, hws, hret⟩ := h
            obtain ⟨m, rfl⟩ := ih hrest hws
            obtain rfl := Except.ok.inj hret
            exact ⟨m + 1, rfl⟩
      · exact hinside hline h

/-! ## The log that appends have written -/

variable [DecidableEq N]

/-- One call of `appendCommand` on the files. -/
def CallStep (sha256 : List UInt8 → JsString) (fs fs' : FileSystem) : Prop :=
  ∃ (inputs : List (CommandInput N)) (opts : AppendOpts (CommandInput N) (LineCore N)),
    fs' = (appendCommand sha256 fs inputs opts).2

/-- Whole lines of text. -/
def Terminated (fs : FileSystem) : Prop :=
  ∃ text, fs.raw = Utf8.encode text ∧ lastLine text = []

variable {sha256 : List UInt8 → JsString} {fs fs' : FileSystem} {values : List (Json N)}
variable {inputs : List (CommandInput N)} {opts : AppendOpts (CommandInput N) (LineCore N)}
variable {events : List (TrackEvent (LineCore N))}

omit [JsonNumber N] [DecidableEq N] in
theorem lastLine_append_newline (text : List Char) : lastLine (text ++ ['\n']) = [] := by
  rw [lastLine, List.splitOn_append_cons_self]
  simp [List.getLastD_eq_getLast?]

/-- A call writes whole lines, or nothing. -/
theorem appendCommand_files (sha256 : List UInt8 → JsString) (fs : FileSystem) (inputs : List (CommandInput N))
    (opts : AppendOpts (CommandInput N) (LineCore N)) :
    (appendCommand sha256 fs inputs opts).2 = fs ∨
      ∃ (events : List (TrackEvent (LineCore N))) (head : Head),
        (appendCommand sha256 fs inputs opts).2 = writeHead N (appendAtomic fs events) head := by
  unfold appendCommand
  split
  · exact Or.inl rfl
  · split
    · exact Or.inl rfl
    · dsimp only
      split
      · exact Or.inl rfl
      · exact Or.inl rfl
      · rename_i values _ _ events _
        refine Or.inr ⟨events, expectedHead (decodeEvents 0 values) events, ?_⟩
        split
        · rfl
        · split <;> rfl

theorem terminated_step (h : Terminated fs) (hstep : CallStep (N := N) sha256 fs fs') :
    Terminated fs' := by
  obtain ⟨inputs, opts, rfl⟩ := hstep
  obtain ⟨text, hraw, hlast⟩ := h
  rcases appendCommand_files sha256 fs inputs opts with hsame | ⟨events, head, hfs⟩
  · rw [hsame]
    exact ⟨text, hraw, hlast⟩
  · rw [hfs]
    refine ⟨text ++ linesText events, ?_, ?_⟩
    · rw [Utf8.encode_append, ← hraw]
      rfl
    · rw [linesText, ← List.append_assoc, lastLine_append_newline]

theorem terminated_of_reaches (h : Reaches (CallStep (N := N) sha256) .empty fs) :
    Terminated fs :=
  h.invariant ⟨[], rfl, rfl⟩ fun _ _ hfs hstep => terminated_step hfs hstep

/-! ## Crash consistency -/

variable (N) in
/-- The files after a crash while `events` were being written: the first bytes
of the new lines, and one of the two heads. -/
structure CrashedInto (fs fs' : FileSystem) (events : List (TrackEvent (LineCore N)))
    (head : Head) : Prop where
  log : ∃ k, fs'.raw = fs.raw ++ (Utf8.encode (linesText events)).take k
  head : fs'.head = fs.head ∨ fs'.head = (writeHead N fs head).head

/-- The next reader fails, or reads the old log, or the old log and the whole command. -/
theorem crash_consistent (hrun : Reaches (CallStep (N := N) sha256) .empty fs)
    (hread : readAll fs = .ok values) (hcheck : checkCommand inputs opts = .ok ())
    (hplan : planAppend (contentHashOf sha256) (decodeEvents 0 values) (readHead N fs) inputs
      opts = .ok (.append events))
    (hcrash : CrashedInto N fs fs' events (expectedHead (decodeEvents 0 values) events)) :
    ∀ vs : List (Json N), readAll fs' = .ok vs →
      (validate (contentHashOf sha256) (decodeEvents 0 vs) (readHead N fs')).ok = true →
        vs = values ∨ vs = values ++ events.map TrackEvent.toJson := by
  intro vs hvs hvalid
  obtain ⟨hsound, hframes⟩ := planAppend_append hcheck hplan
  obtain ⟨text, hraw, hlast⟩ := terminated_of_reaches hrun
  obtain ⟨k, hk⟩ := hcrash.log
  obtain ⟨lines, -, hwhole, hsplit⟩ := splitOn_eq_lastLine text
  rw [hlast] at hwhole hsplit
  have hne := hframes.nonempty
  -- what is decoded is whole characters of the new lines, and one U+FFFD at most
  obtain ⟨s, t, tail, hcut, htail, hdecode⟩ : ∃ s t tail, flatLines events = s ++ t ∧
      (tail = [] ∨ tail = [Utf8.replacement]) ∧ Utf8.decode fs'.raw = text ++ (s ++ tail) := by
    rw [hk, hraw, Utf8.decode_encode_append, linesText_eq_flatLines hne]
    obtain ⟨s, t, hcut, ⟨hdecode, -⟩ | ⟨-, hdecode⟩⟩ :=
      Utf8.decode_take_encode (flatLines events) k
    · exact ⟨s, t, [], hcut, Or.inl rfl, by rw [hdecode, List.append_nil]⟩
    · exact ⟨s, t, [Utf8.replacement], hcut, Or.inr rfl, by rw [hdecode]⟩
  obtain ⟨m, rfl⟩ : ∃ m, vs = values ++ (events.take m).map TrackEvent.toJson := by
    rw [readAll_eq, hraw, Utf8.decode_encode, hwhole, readLines_append] at hread
    rw [readAll_eq, hdecode, hsplit, List.nil_append, readLines_append] at hvs
    simp only [bind_eq_ok_iff] at hread hvs
    obtain ⟨old, hold, blank, hblank, hvalues⟩ := hread
    obtain ⟨old', hold', new, hnew, hret⟩ := hvs
    obtain rfl : old = old' := Except.ok.inj (hold.symm.trans hold')
    obtain rfl : [] = blank := Except.ok.inj hblank
    rw [List.append_nil] at hvalues
    obtain rfl := Except.ok.inj hvalues
    obtain ⟨m, rfl⟩ := readLines_cut hcut htail hnew
    exact ⟨m, (Except.ok.inj hret).symm⟩
  -- a proper part of a batch is not well-formed
  rcases Nat.eq_zero_or_pos m with rfl | hpos
  · exact Or.inl (by simp)
  · have htake := decodeEvents_toJson (List.forall₂_take m hframes.inOrder)
      (0 + values.length)
    rw [decodeEvents_append, htake, validate_ok_iff] at hvalid
    have hpart := hvalid.1.wellFormed
    have hall := hsound.wellFormed
    rw [List.map_append] at hpart hall
    rw [List.map_take] at hpart
    have hwholeCommand := hframes.command.whole hall hpos hpart
    have hlen := congrArg List.length hwholeCommand
    rw [List.length_take, List.length_map] at hlen
    rw [List.take_of_length_le (by omega)]
    exact Or.inr rfl

end Crash

/-- The number of events a plan appends. -/
def AppendPlan.written {C E : Type} : Except E (AppendPlan C) → Nat
  | .ok (.append events) => events.length
  | _ => 0

/-- Two events of one command, cut after a hundred bytes. -/
theorem crash_consistent_twoEvents :
    ∃ events : List (TrackEvent (LineCore Int)), events.length = 2 ∧
      ∀ vs : List (Json Int),
        readAll ⟨some ((Utf8.encode (linesText events)).take 100), none⟩ = .ok vs →
        (validate (contentHashOf constantDigest) (decodeEvents 0 vs) none).ok = true →
          vs = [] ∨ vs = events.map TrackEvent.toJson := by
  let second : CommandInput Int := { delivered with id := js "2", aggregateId := js "b" }
  let opts : AppendOpts (CommandInput Int) (LineCore Int) := ⟨some (js "c"), none, none⟩
  have hwritten : AppendPlan.written (planAppend (contentHashOf constantDigest)
      (decodeEvents 0 []) (readHead Int .empty) [delivered, second] opts) = 2 := by
    decide +kernel
  cases hplan : planAppend (contentHashOf constantDigest) (decodeEvents 0 [])
      (readHead Int .empty) [delivered, second] opts with
  | error error => simp [hplan, AppendPlan.written] at hwritten
  | ok plan =>
      cases plan with
      | deduped originals => simp [hplan, AppendPlan.written] at hwritten
      | append events =>
          rw [hplan] at hwritten
          have hcrash : CrashedInto Int .empty
              ⟨some ((Utf8.encode (linesText events)).take 100), none⟩ events
              (expectedHead (decodeEvents 0 []) events) := ⟨⟨100, rfl⟩, Or.inl rfl⟩
          exact ⟨events, hwritten, crash_consistent .refl rfl rfl hplan hcrash⟩

end H2a.Track.Events
