import H2a.Library.JsString
import Mathlib.Logic.Function.Basic
/-!
# Regular expressions

The part of JavaScript's regular expressions that reads a single line: classes of code
units, repeated greedily or lazily, groups, an optional part, the anchors and the word
boundary.  A pattern denotes the matches at a place of a text, in the order in which a
backtracking matcher comes to them; `exec` is the first.
-/

namespace H2a.Library

/-- A pattern over classes of code units. -/
inductive Regex where
  | unit (p : UInt16 → Bool)
  | many (lazily : Bool) (least : Nat) (p : UInt16 → Bool)
  /-- `\b` -/
  | boundary
  /-- `^` -/
  | start
  /-- `$` -/
  | stop
  | seq (a b : Regex)
  /-- `(?:a)?` -/
  | optional (a : Regex)
  | group (n : Nat) (a : Regex)

namespace Regex

/-! ## Classes -/

/-- `\s` -/
def space (u : UInt16) : Bool := JsString.isWhiteSpaceUnit u

/-- `\S` -/
def black (u : UInt16) : Bool := !space u

/-- `.` -/
def dot (u : UInt16) : Bool := u != 0x0A && u != 0x0D && u != 0x2028 && u != 0x2029

/-- `\d` -/
def digit (u : UInt16) : Bool := 0x30 ≤ u && u ≤ 0x39

/-- `[A-Za-z0-9]` -/
def alphanumeric (u : UInt16) : Bool :=
  digit u || (0x41 ≤ u && u ≤ 0x5A) || (0x61 ≤ u && u ≤ 0x7A)

/-- What `\b` looks for on its two sides. -/
def wordUnit (u : UInt16) : Bool := alphanumeric u || u == 0x5F

/-- One of the units of a literal. -/
def oneOf (s : String) (u : UInt16) : Bool := (js s).units.contains u

/-! ## Patterns -/

def concat (parts : List Regex) : Regex := parts.foldr .seq (.many false 0 fun _ => false)

/-- A literal text. -/
def text (s : String) : Regex := concat ((js s).units.map fun u => .unit (· == u))

/-- `\s*` -/
def spaces : Regex := .many false 0 space

/-! ## Matching -/

/-- A place in a text: what stands before it, the nearest first, and what follows. -/
structure Place where
  before : List UInt16
  rest : List UInt16

abbrev Groups := Nat → Option JsString

/-- The places after none, one, two and so on of the units that are in the class. -/
def taken (p : UInt16 → Bool) (before : List UInt16) : List UInt16 → List Place
  | [] => [⟨before, []⟩]
  | u :: rest => ⟨before, u :: rest⟩ :: if p u then taken p (u :: before) rest else []

/-- What lies between a place and a later one. -/
def between (s t : Place) : JsString := ⟨s.rest.take (s.rest.length - t.rest.length)⟩

def matchesAt : Regex → Place × Groups → List (Place × Groups)
  | .unit p, (place, groups) =>
      match place.rest with
      | [] => []
      | u :: rest => if p u then [(⟨u :: place.before, rest⟩, groups)] else []
  | .many lazily least p, (place, groups) =>
      let places := (taken p place.before place.rest).drop least
      (if lazily then places else places.reverse).map fun place => (place, groups)
  | .boundary, s =>
      if s.1.before.head?.any wordUnit = s.1.rest.head?.any wordUnit then [] else [s]
  | .start, s => if s.1.before = [] then [s] else []
  | .stop, s => if s.1.rest = [] then [s] else []
  | .seq a b, s => (a.matchesAt s).flatMap b.matchesAt
  | .optional a, s =>
      -- a part that took nothing is not tried
      ((a.matchesAt s).filter fun t => t.1.rest.length ≠ s.1.rest.length) ++ [s]
  | .group n a, s =>
      (a.matchesAt s).map fun t => (t.1, Function.update t.2 n (some (between s.1 t.1)))

/-- `pattern.exec(text)`: the groups of the first match, the whole of it being group 0. -/
def exec (pattern : Regex) (text : JsString) : Option Groups :=
  (((taken (fun _ => true) [] text.units).flatMap fun place =>
    (Regex.group 0 pattern).matchesAt (place, fun _ => none)).head?).map Prod.snd

/-- `pattern.test(text)` -/
def test (pattern : Regex) (text : JsString) : Bool := (pattern.exec text).isSome

end Regex

end H2a.Library
