import H2a.Library.JsonInteger
import H2a.Track.Events.Line
/-!
# The log file

`EventStore.readAll`, `appendAtomic` and `appendCommand` of
`packages/track/src/events/store.ts` and `readHead`/`writeHead` of `head.ts`, on
the bytes of the two files.  Reading accepts any text; writing assumes that what
is there ends with a newline, and `appendCommand_atomic` says what follows for
the texts that do, up to JSON white space.
-/

namespace H2a.Track.Events

open H2a.Library

/-- `events.jsonl` and `head.json`; a file that does not exist is `none`. -/
structure FileSystem where
  log : Option (List UInt8)
  head : Option (List UInt8)

def FileSystem.empty : FileSystem := ⟨none, none⟩

section Files

variable {N : Type} [JsonNumber N]

/-! ## Reading -/

/-- `line.trim().length === 0` -/
def isBlank (line : List Char) : Bool :=
  (JsString.trim ⟨line.flatMap JsString.utf16⟩).length == 0

/-- One line; the error is its number. -/
def readLine (number : Nat) (line : List Char) : Except Nat (List (Json N)) :=
  if isBlank line then .ok []
  else
    match Json.parse line with
    | some v => .ok [v]
    | none => .error number

def readLines : Nat → List (List Char) → Except Nat (List (Json N))
  | _, [] => .ok []
  | number, line :: lines => do
      let vs ← readLine number line
      let ws ← readLines (number + 1) lines
      return vs ++ ws

/-- The bytes of the log file. -/
def FileSystem.raw (fs : FileSystem) : List UInt8 := fs.log.getD []

/-- The values on the lines of the log, or the number of a malformed line. -/
def readAll (fs : FileSystem) : Except Nat (List (Json N)) :=
  match fs.log with
  | none => .ok []
  | some raw => readLines 1 ((Utf8.decode raw).splitOn '\n')

def malformedMessage (filePath : String) (number : Nat) : String :=
  s!"EventStore: malformed event line {number} in {filePath}"

/-- The head a parsed `head.json` holds; a malformed one is no head. -/
def headOfJson : Json N → Option Head
  | .obj record =>
      match lookupMember (js "streamLength") record,
          lookupMember (js "lastContentHash") record with
      | some (.num len), last =>
          match JsonNumber.toInt? len, last with
          | some (.ofNat 0), some .null => some ⟨0, none⟩
          | some (.ofNat 0), _ => none
          | some (.ofNat streamLength), some (.str last) =>
              if last.startsWith (js "sha256:") then some ⟨streamLength, some last⟩ else none
          | _, _ => none
      | _, _ => none
  | _ => none

variable (N) in
def readHead (fs : FileSystem) : Option Head :=
  fs.head.bind fun raw =>
    (Json.parse (Utf8.decode raw) : Option (Json N)).bind headOfJson

/-! ## Writing -/

/-- `canonicalize(e)` -/
def lineText (e : TrackEvent (LineCore N)) : List Char := e.toJson.render

/-- `events.map((e) => canonicalize(e)).join('\n') + '\n'` -/
def linesText (events : List (TrackEvent (LineCore N))) : List Char :=
  ['\n'].intercalate (events.map lineText) ++ ['\n']

def appendAtomic (fs : FileSystem) (events : List (TrackEvent (LineCore N))) : FileSystem :=
  { fs with log := some (fs.raw ++ Utf8.encode (linesText events)) }

variable (N) in
def headJson (head : Head) : Json N :=
  .obj (ofMembers [(js "streamLength", .num (JsonNumber.ofNat head.streamLength)),
    (js "lastContentHash", head.lastContentHash.elim .null .str)])

variable (N) in
def writeHead (fs : FileSystem) (head : Head) : FileSystem :=
  { fs with head := some (Utf8.encode ((headJson N head).render ++ ['\n'])) }

/-! ## `appendCommand` -/

/-- What `appendCommand` throws, on files. -/
inductive LogError (K : Type) where
  | malformed (line : Nat)
  | store (error : StoreError K)

def LogError.message {K : Type} [ToString K] (filePath : String) : LogError K → String
  | .malformed line => malformedMessage filePath line
  | .store error => error.message filePath

variable [DecidableEq N]

/-- The locked section on the files: the result and the files after it. -/
def appendCommand (sha256 : List UInt8 → JsString) (fs : FileSystem)
    (inputs : List (CommandInput N)) (opts : AppendOpts (CommandInput N) (LineCore N)) :
    Except (LogError (JsKey N)) (List (TrackEvent (LineCore N))) × FileSystem :=
  match checkCommand inputs opts with
  | .error error => (.error (.store (.command error)), fs)
  | .ok () =>
      match readAll fs with
      | .error line => (.error (.malformed line), fs)
      | .ok values =>
          let existing := decodeEvents 0 values
          match planAppend (contentHashOf sha256) existing (readHead N fs) inputs opts with
          | .error error => (.error (.store error), fs)
          | .ok (.deduped originals) => (.ok originals, fs)
          | .ok (.append events) =>
              let fs' := writeHead N (appendAtomic fs events) (expectedHead existing events)
              match readAll fs' with
              | .error line => (.error (.malformed line), fs')
              | .ok after =>
                  match verifyAppend (contentHashOf sha256) existing.length events
                      (expectedHead existing events) (decodeEvents 0 after) (readHead N fs') with
                  | .error failure => (.error (.store (.verification failure)), fs')
                  | .ok () => (.ok events, fs')

end Files

/-! ## Lines of a text -/

section Text

/-- A text is read line by line up to its last line, whatever comes after it. -/
theorem splitOn_lastLine (text : List Char) :
    ∃ lines last, '\n' ∉ last ∧
      ∀ s, (text ++ s).splitOn '\n' = lines ++ (last ++ s).splitOn '\n' := by
  induction text with
  | nil => exact ⟨[], [], by simp, fun s => rfl⟩
  | cons c text ih =>
      obtain ⟨lines, last, hlast, hsplit⟩ := ih
      by_cases hc : c = '\n'
      · refine ⟨[] :: lines, last, hlast, fun s => ?_⟩
        rw [hc, List.cons_append, ← List.nil_append ('\n' :: (text ++ s)),
          List.splitOn_append_cons_self, hsplit s]
        rfl
      · cases lines with
        | nil =>
            refine ⟨[], c :: last, by simp [hlast, Ne.symm hc], fun s => ?_⟩
            have hs := hsplit s
            rw [List.nil_append] at hs ⊢
            rw [List.cons_append, List.cons_append, List.splitOn_cons_eq_if_modifyHead,
              List.splitOn_cons_eq_if_modifyHead, hs]
        | cons line lines =>
            refine ⟨(c :: line) :: lines, last, hlast, fun s => ?_⟩
            rw [List.cons_append, List.splitOn_cons_eq_if_modifyHead, if_neg (by simpa using hc),
              hsplit s]
            rfl

/-- What stands after the last newline. -/
def lastLine (text : List Char) : List Char := (text.splitOn '\n').getLastD []

theorem splitOn_eq_lastLine (text : List Char) :
    ∃ lines, '\n' ∉ lastLine text ∧ text.splitOn '\n' = lines ++ [lastLine text] ∧
      ∀ s, (text ++ s).splitOn '\n' = lines ++ (lastLine text ++ s).splitOn '\n' := by
  obtain ⟨lines, last, hlast, hsplit⟩ := splitOn_lastLine text
  have hwhole : text.splitOn '\n' = lines ++ [last] := by
    have hnil := hsplit []
    rwa [List.append_nil, List.append_nil, List.splitOn_eq_singleton hlast] at hnil
  have heq : lastLine text = last := by
    rw [lastLine, hwhole]
    simp [List.getLastD_eq_getLast?]
  exact ⟨lines, heq ▸ hlast, heq ▸ hwhole, heq ▸ hsplit⟩

theorem isBlank_iff (line : List Char) :
    isBlank line = true ↔
      ∀ u ∈ line.flatMap JsString.utf16, JsString.isWhiteSpaceUnit u = true := by
  unfold isBlank
  generalize line.flatMap JsString.utf16 = units
  rw [beq_iff_eq, JsString.length, JsString.trim, List.length_reverse,
    List.length_eq_zero_iff, List.dropWhile_eq_nil_iff]
  constructor
  · intro h
    -- what is left of the front has a unit that is no white space, unless nothing is left
    have hnil : units.dropWhile JsString.isWhiteSpaceUnit = [] := by
      cases hunits : units.dropWhile JsString.isWhiteSpaceUnit with
      | nil => rfl
      | cons u us =>
          have hhead := List.head?_dropWhile_not JsString.isWhiteSpaceUnit units
          rw [hunits] at hhead h
          have hfalse : JsString.isWhiteSpaceUnit u = false := hhead
          rw [h u (by simp)] at hfalse
          exact Bool.noConfusion hfalse
    exact List.dropWhile_eq_nil_iff.mp hnil
  · intro h u hu
    exact h u ((List.dropWhile_sublist _).subset (List.mem_reverse.mp hu))

theorem isBlank_of_mem {line : List Char} {c : Char} (hc : c ∈ line)
    (hblack : ∃ u ∈ JsString.utf16 c, JsString.isWhiteSpaceUnit u = false) :
    isBlank line = false := by
  obtain ⟨u, hu, hunit⟩ := hblack
  rw [← Bool.not_eq_true, isBlank_iff]
  intro hall
  rw [hall u (List.mem_flatMap.mpr ⟨c, hc, hu⟩)] at hunit
  exact Bool.noConfusion hunit

end Text

/-! ## Reading what was written -/

section RoundTrip

variable {N : Type} [JsonNumber N]

theorem readLines_append (number : Nat) (as bs : List (List Char)) :
    (readLines number (as ++ bs) : Except Nat (List (Json N))) = (do
      let vs ← readLines number as
      let ws ← readLines (number + as.length) bs
      return vs ++ ws) := by
  induction as generalizing number with
  | nil => cases h : (readLines number bs : Except Nat (List (Json N))) <;> simp [readLines, h]
  | cons a as ih =>
      have hlen : number + (a :: as).length = number + 1 + as.length := by
        rw [List.length_cons]
        omega
      rw [List.cons_append, readLines, readLines, ih, hlen]
      cases readLine (N := N) number a with
      | error e => rfl
      | ok vs =>
          cases readLines (N := N) (number + 1) as with
          | error e => rfl
          | ok ws =>
              cases readLines (N := N) (number + 1 + as.length) bs with
              | error e => rfl
              | ok us => simp

theorem linesText_cons (e : TrackEvent (LineCore N)) (events : List (TrackEvent (LineCore N))) :
    linesText (e :: events) =
      lineText e ++ '\n' :: (if events = [] then [] else linesText events) := by
  cases events with
  | nil => simp [linesText, List.intercalate]
  | cons next events => simp [linesText, List.intercalate]

theorem brace_mem_lineText (e : TrackEvent (LineCore N)) : '\x7b' ∈ lineText e := by
  simp [lineText, TrackEvent.toJson, Json.render]

theorem readLine_lineText (number : Nat) (e : TrackEvent (LineCore N)) (spaces : List Char)
    (hspaces : spaces.all isJsonSpace = true) :
    readLine number (spaces ++ lineText e) = .ok [e.toJson] := by
  have hblack : isBlank (spaces ++ lineText e) = false :=
    isBlank_of_mem (List.mem_append_right _ (brace_mem_lineText e)) (by decide)
  have hparse : Json.parse (spaces ++ lineText e) = some e.toJson := by
    have h := Json.parse_render (toJson_canonical e) spaces [] hspaces rfl
    rwa [List.append_nil] at h
  rw [readLine, hblack, if_neg Bool.false_ne_true, hparse]

theorem newline_not_mem_lineText (e : TrackEvent (LineCore N)) : '\n' ∉ lineText e :=
  Json.newline_not_mem_render _ (toJson_canonical e).printable

theorem readAll_eq (fs : FileSystem) :
    (readAll fs : Except Nat (List (Json N))) =
      readLines 1 ((Utf8.decode fs.raw).splitOn '\n') := by
  unfold readAll FileSystem.raw
  cases fs.log with
  | none => rfl
  | some raw => rfl

end RoundTrip

/-! ## All or nothing -/

section Atomic

variable {N : Type} [JsonNumber N] [DecidableEq N]
variable {sha256 : List UInt8 → JsString} {fs : FileSystem} {values : List (Json N)}
variable {inputs : List (CommandInput N)} {opts : AppendOpts (CommandInput N) (LineCore N)}

/-- The events of a command read back as they were framed, wherever they stand. -/
theorem decodeEvents_toJson {events : List (TrackEvent (LineCore N))}
    (h : List.Forall₂ (fun input e => ∃ tag, CommandEvent.materialize input tag = .ok e.core)
      inputs events) (index : Nat) :
    decodeEvents index (events.map TrackEvent.toJson) = events := by
  induction h generalizing index with
  | nil => rfl
  | cons hinput _ ih =>
      obtain ⟨tag, hmat⟩ := hinput
      rw [List.map_cons, decodeEvents,
        decodeEvent_toJson index _ (CommandInput.line_materialize hmat index), ih]

end Atomic

/-! ## A command delivered twice -/

section Retry

/-- A digest that does not look at its argument. -/
def constantDigest (_ : List UInt8) : JsString := js "0"

def delivered : CommandInput Int where
  id := js "1"
  type := js "item.created"
  aggregate := js "item"
  aggregateId := js "a"
  «at» := js "2026-01-01T00:00:00.000Z"
  «by» := js "owner"
  payload := [(js "title", .str (js "first"))]
  prov := .undefined
  clientToken := some (js "k")

def deliveredEvent : TrackEvent (LineCore Int) where
  core :=
    match delivered.materialize none with
    | .ok core => core
    | .error _ => unreadable.core
  seq := 1
  prevHash := none
  contentHash := js "sha256:0"

/-- Either the events are returned and on disk after those that were, or the
call throws and the files are as they were. -/
def AllOrNothing {N : Type} [JsonNumber N] [DecidableEq N] (sha256 : List UInt8 → JsString)
    (fs : FileSystem) (values : List (Json N))
    (call : Except (LogError (JsKey N)) (List (TrackEvent (LineCore N))) × FileSystem) : Prop :=
  match call with
  | (.ok events, fs') =>
      readAll fs' = .ok (values ++ events.map TrackEvent.toJson) ∧
        (validate (contentHashOf sha256)
          (decodeEvents 0 (values ++ events.map TrackEvent.toJson)) (readHead N fs')).ok = true
  | (.error _, fs') => fs' = fs

end Retry

end H2a.Track.Events
