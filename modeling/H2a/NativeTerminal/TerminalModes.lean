import H2a.Library.Decimal
import Mathlib.Data.Finset.Basic
import Mathlib.Data.Finset.Dedup
/-!
# Terminal modes

`TerminalModeTracker` of `packages/h2a-runtime/src/native-terminal/terminal-modes.ts`: the state
that relayed output leaves a terminal in, "relative to a normal shell terminal".  It reads one
character after another, and prints the sequences that undo the state or make it again.
-/

namespace H2a.NativeTerminal

open H2a.Library

/-- The code unit of a character of a literal. -/
def unit (c : Char) : UInt16 := UInt16.ofNat c.toNat

/-- `ESC` -/
def esc : UInt16 := 0x1b

/-- `DEC_MODES` -/
def decModes : List Nat := [2026, 1, 1000, 1002, 1003, 1004, 1006, 1015, 2004, 47, 1047, 1049]

/-- `ALTERNATE_MODES` -/
def alternateModes : List Nat := [47, 1047, 1049]

/-! ## What a control sequence sets -/

/-- The modes of a terminal; a keyboard is a stack of flags, its last entry on top. -/
structure TerminalModes where
  enabled : Finset Nat
  cursorHidden : Bool
  keypad : Bool
  modifyOtherKeys : Nat
  mainKeyboard : List Int
  alternateKeyboard : List Int

/-- A normal shell terminal. -/
def TerminalModes.normal : TerminalModes where
  enabled := ∅
  cursorHidden := false
  keypad := false
  modifyOtherKeys := 0
  mainKeyboard := [0]
  alternateKeyboard := [0]

/-- `text.split(";")` -/
def splitSemicolons : List UInt16 → List (List UInt16)
  | [] => [[]]
  | u :: rest =>
      if u = unit ';' then [] :: splitSemicolons rest
      else
        match splitSemicolons rest with
        | [] => [[u]]
        | first :: others => (u :: first) :: others

/-- A number of at least one digit. -/
def isNumber (text : List UInt16) : Bool := !text.isEmpty && text.all isDigitUnit

/-- `/^\?\d+(;\d+)*$/`: the modes that are named. -/
def namedModes : List UInt16 → Option (List Nat)
  | [] => none
  | u :: rest =>
      if u = unit '?' ∧ (splitSemicolons rest).all isNumber = true then
        some ((splitSemicolons rest).map decimalValue)
      else none

/-- `/^>4;(0|1|2)$/`: the value that is named. -/
def namedKeys (params : List UInt16) : Option Nat :=
  [0, 1, 2].find? fun value => params = [unit '>', unit '4', unit ';'] ++ decimalUnits value

/-- `/^[><=]\d*(;[123])?$/`: the kind, the digits and the operation. -/
def namedFlags : List UInt16 → Option (UInt16 × List UInt16 × Option UInt16)
  | [] => none
  | kind :: rest =>
      if kind ∈ [unit '>', unit '<', unit '='] then
        match rest.dropWhile isDigitUnit with
        | [] => some (kind, rest.takeWhile isDigitUnit, none)
        | [separator, operation] =>
            if separator = unit ';' ∧ operation ∈ [unit '1', unit '2', unit '3'] then
              some (kind, rest.takeWhile isDigitUnit, some operation)
            else none
        | _ => none
      else none

/-- `previous | n`, on integers of 32 bits. -/
def bitOr (previous n : Int) : Int := (BitVec.ofInt 32 previous ||| BitVec.ofInt 32 n).toInt

/-- `previous & ~n`, on integers of 32 bits. -/
def bitClear (previous n : Int) : Int := (BitVec.ofInt 32 previous &&& ~~~BitVec.ofInt 32 n).toInt

/-- The flags of a keyboard after `CSI kind n ; operation u`. -/
def keyboardAfter (kind : UInt16) (operation : Option UInt16) (n : Nat) (stack : List Int) :
    List Int :=
  if kind = unit '<' then stack.take (max 1 (stack.length - n))
  else if kind = unit '>' then
    -- at most 16 saved entries: the oldest is dropped
    (if 17 ≤ stack.length then stack.eraseIdx 1 else stack) ++ [(n : Int)]
  else
    let previous := stack.getLastD 0
    stack.dropLast ++ [
      if operation = some (unit '2') then bitOr previous n
      else if operation = some (unit '3') then bitClear previous n
      else n]

namespace TerminalModes

variable (modes : TerminalModes)

/-- `#alternate` -/
def alternate : Bool := alternateModes.any fun mode => mode ∈ modes.enabled

/-- One mode of `CSI ? … h` or `CSI ? … l`. -/
def setMode (on : Bool) (modes : TerminalModes) (mode : Nat) : TerminalModes :=
  if mode = 25 then { modes with cursorHidden := !on }
  else if mode ∈ decModes then
    { modes with enabled := if on then insert mode modes.enabled else modes.enabled.erase mode }
  else modes

/-- `#apply(params, final)` -/
def apply (params : List UInt16) (final : UInt16) : TerminalModes :=
  match if final = unit 'h' ∨ final = unit 'l' then namedModes params else none with
  | some named =>
      let after := named.foldl (setMode (final = unit 'h')) modes
      if modes.alternate ≠ after.alternate then { after with alternateKeyboard := [0] } else after
  | none =>
      match if final = unit 'm' then namedKeys params else none with
      | some value => { modes with modifyOtherKeys := value }
      | none =>
          match if final = unit 'u' then namedFlags params else none with
          | none => modes
          | some (kind, digits, operation) =>
              let n := if digits.isEmpty then if kind = unit '<' then 1 else 0
                else decimalValue digits
              if 2 ^ 53 - 1 < n then modes
              else if modes.alternate then
                { modes with
                  alternateKeyboard := keyboardAfter kind operation n modes.alternateKeyboard }
              else { modes with mainKeyboard := keyboardAfter kind operation n modes.mainKeyboard }

end TerminalModes

/-! ## The parser -/

inductive ParserState where
  | text
  | escape
  | csi
  | string
  | stringEscape
  deriving DecidableEq

structure TerminalModeTracker where
  modes : TerminalModes
  state : ParserState
  osc : Bool
  csi : List UInt16

/-- `new TerminalModeTracker()` -/
def TerminalModeTracker.new : TerminalModeTracker := ⟨.normal, .text, false, []⟩

/-- The characters of `for (const c of data)`: a pair of surrogates is one character. -/
def characters : List UInt16 → List (List UInt16)
  | [] => []
  | [u] => [[u]]
  | u :: v :: rest =>
      if isHighSurrogate u && isLowSurrogate v then [u, v] :: characters rest
      else [u] :: characters (v :: rest)

/-- `c >= first && c <= last` -/
def isBetween (first last : UInt16) : List UInt16 → Bool
  | [] => false
  | u :: rest => first ≤ u && (u < last || (u == last && rest.isEmpty))

namespace TerminalModeTracker

variable (tracker : TerminalModeTracker)

/-- A character after an escape. -/
def feedEscape (c : List UInt16) : TerminalModeTracker :=
  if c = [unit '['] then { tracker with state := .csi, csi := [] }
  else if c ∈ [[unit ']'], [unit 'P'], [unit 'X'], [unit '^'], [unit '_']] then
    { tracker with state := .string, osc := c = [unit ']'] }
  else if c = [unit '='] ∨ c = [unit '>'] then
    { tracker with state := .text, modes := { tracker.modes with keypad := c = [unit '='] } }
  else if c = [unit 'c'] then { tracker with state := .text, modes := .normal }
  else { tracker with state := .text }

/-- A character of a control sequence. -/
def feedCsi (c : List UInt16) : TerminalModeTracker :=
  if isBetween (unit '@') (unit '~') c then
    { tracker with state := .text, modes := tracker.modes.apply tracker.csi (c.headD 0) }
  else if isBetween (unit ' ') (unit '?') c ∧ tracker.csi.length < 128 then
    { tracker with csi := tracker.csi ++ c }
  else if isBetween (unit ' ') 0xffff c then { tracker with state := .text }
  else tracker

/-- The body of the loop of `feed`. -/
def feedCharacter (c : List UInt16) : TerminalModeTracker :=
  if c = [0x18] ∨ c = [0x1a] then { tracker with state := .text }
  else if tracker.state = .string ∨ tracker.state = .stringEscape then
    if c = [0x9c] ∨ (tracker.osc = true ∧ c = [0x07]) ∨
        (tracker.state = .stringEscape ∧ c = [unit '\\']) then
      { tracker with state := .text }
    else { tracker with state := if c = [esc] then .stringEscape else .string }
  else if c = [esc] then { tracker with state := .escape }
  else if c = [0x9b] then { tracker with state := .csi, csi := [] }
  else if c ∈ [[0x9d], [0x90], [0x9e], [0x9f]] then
    { tracker with state := .string, osc := c = [0x9d] }
  else
    match tracker.state with
    | .escape => tracker.feedEscape c
    | .csi => tracker.feedCsi c
    | _ => tracker

/-- `feed(data)` -/
def feed (data : JsString) : TerminalModeTracker :=
  (characters data.units).foldl feedCharacter tracker

end TerminalModeTracker

/-! ## The sequences it prints -/

/-- `String(n)` -/
def numberUnits : Int → List UInt16
  | .ofNat n => decimalUnits n
  | .negSucc n => unit '-' :: decimalUnits (n + 1)

/-- A control sequence. -/
def csiUnits (params : List UInt16) (final : Char) : List UInt16 :=
  esc :: unit '[' :: (params ++ [unit final])

/-- `#keyboardReset(stack)` -/
def keyboardReset (stack : List Int) : List UInt16 :=
  (if 1 < stack.length then csiUnits (unit '<' :: numberUnits (stack.length - 1)) 'u' else []) ++
    if stack.headD 0 ≠ 0 then csiUnits [unit '=', unit '0'] 'u' else []

/-- `#keyboardRestore(stack)` -/
def keyboardRestore (stack : List Int) : List UInt16 :=
  (if stack.headD 0 ≠ 0 then csiUnits (unit '=' :: numberUnits (stack.headD 0)) 'u' else []) ++
    stack.tail.flatMap fun flags => csiUnits (unit '>' :: numberUnits flags) 'u'

/-- `CSI ? mode final` -/
def modeUnits (final : Char) (mode : Nat) : List UInt16 :=
  csiUnits (unit '?' :: decimalUnits mode) final

namespace TerminalModeTracker

variable (tracker : TerminalModeTracker)

/-- `resetSequence()` -/
def resetSequence : List UInt16 :=
  let modes := tracker.modes
  (if tracker.state ≠ .text then [0x18] else []) ++
    (if 2026 ∈ modes.enabled then modeUnits 'l' 2026 else []) ++
    keyboardReset (if modes.alternate then modes.alternateKeyboard else modes.mainKeyboard) ++
    (decModes.filter fun mode => mode ≠ 2026 ∧ mode ∈ modes.enabled).flatMap (modeUnits 'l') ++
    (if modes.alternate then keyboardReset modes.mainKeyboard else []) ++
    (if modes.cursorHidden then modeUnits 'h' 25 else []) ++
    (if modes.keypad then [esc, unit '>'] else []) ++
    if modes.modifyOtherKeys ≠ 0 then csiUnits [unit '>', unit '4', unit ';', unit '0'] 'm' else []

/-- `restoreSequence()` -/
def restoreSequence : List UInt16 :=
  let modes := tracker.modes
  keyboardRestore modes.mainKeyboard ++
    (decModes.filter fun mode => mode ∈ modes.enabled).flatMap (modeUnits 'h') ++
    (if modes.alternate then keyboardRestore modes.alternateKeyboard else []) ++
    (if modes.cursorHidden then modeUnits 'l' 25 else []) ++
    (if modes.keypad then [esc, unit '='] else []) ++
    if modes.modifyOtherKeys ≠ 0 then
      csiUnits ([unit '>', unit '4', unit ';'] ++ decimalUnits modes.modifyOtherKeys) 'm'
    else []

/-- `replayPrefix()` -/
def replayPrefix : List UInt16 :=
  match tracker.state with
  | .escape => [esc]
  | .csi => esc :: unit '[' :: tracker.csi
  | .string => [esc, if tracker.osc then unit ']' else unit 'P']
  | .stringEscape => [esc, if tracker.osc then unit ']' else unit 'P', esc]
  | .text => []

end TerminalModeTracker

end H2a.NativeTerminal
