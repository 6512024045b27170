import Mathlib.Data.List.Infix
import Mathlib.Tactic.Common
/-!
# JavaScript strings

A JavaScript string is a sequence of UTF-16 code units; a surrogate need not be
paired.  Source literals are written `js "…"`.
-/

namespace H2a.Library

/-- A sequence of UTF-16 code units. -/
structure JsString where
  units : List UInt16
  deriving DecidableEq

namespace JsString

/-- The UTF-16 code units of one Unicode scalar value. -/
def utf16 (c : Char) : List UInt16 :=
  if c.toNat < 0x10000 then [UInt16.ofNat c.toNat]
  else
    [UInt16.ofNat (0xD800 + (c.toNat - 0x10000) / 0x400),
      UInt16.ofNat (0xDC00 + (c.toNat - 0x10000) % 0x400)]

/-- The string of a literal of the source. -/
def ofString (s : String) : JsString := ⟨s.toList.flatMap utf16⟩

instance : Inhabited JsString := ⟨⟨[]⟩⟩

/-- String concatenation (`+`, template literals). -/
instance : Append JsString := ⟨fun a b => ⟨a.units ++ b.units⟩⟩

/-- `s.length`, in code units. -/
def length (s : JsString) : Nat := s.units.length

/-- `s.startsWith(t)`. -/
def startsWith (s t : JsString) : Bool := t.units.isPrefixOf s.units

/-- `s.endsWith(t)`. -/
def endsWith (s t : JsString) : Bool := t.units.isSuffixOf s.units

/-- `s.slice(n)` for a non-negative `n`. -/
def slice (s : JsString) (n : Nat) : JsString := ⟨s.units.drop n⟩

/-- The code units `String.prototype.trim` strips: `WhiteSpace` and `LineTerminator`. -/
def isWhiteSpaceUnit (u : UInt16) : Bool :=
  u == 0x09 || u == 0x0A || u == 0x0B || u == 0x0C || u == 0x0D || u == 0x20 || u == 0xA0 ||
    u == 0x1680 || (0x2000 ≤ u && u ≤ 0x200A) || u == 0x2028 || u == 0x2029 || u == 0x202F ||
    u == 0x205F || u == 0x3000 || u == 0xFEFF

/-- `s.trim()`. -/
def trim (s : JsString) : JsString :=
  ⟨((s.units.dropWhile isWhiteSpaceUnit).reverse.dropWhile isWhiteSpaceUnit).reverse⟩

/-- For messages only: a lone surrogate is shown as U+FFFD. -/
def toText (s : JsString) : String :=
  String.ofList (decode s.units)
where
  decode : List UInt16 → List Char
    | [] => []
    | [u] => [unit u]
    | u :: v :: rest =>
        if 0xD800 ≤ u && u ≤ 0xDBFF && 0xDC00 ≤ v && v ≤ 0xDFFF then
          Char.ofNat (0x10000 + (u.toNat - 0xD800) * 0x400 + (v.toNat - 0xDC00)) :: decode rest
        else unit u :: decode (v :: rest)
  unit (u : UInt16) : Char :=
    if 0xD800 ≤ u && u ≤ 0xDFFF then Char.ofNat 0xFFFD else Char.ofNat u.toNat

instance : ToString JsString := ⟨toText⟩

@[simp] theorem append_units (a b : JsString) : (a ++ b).units = a.units ++ b.units := rfl

theorem ext_units {a b : JsString} (h : a.units = b.units) : a = b := by
  cases a
  cases b
  simpa using h

@[simp] theorem startsWith_append (t s : JsString) : (t ++ s).startsWith t = true := by
  simp [startsWith]

@[simp] theorem endsWith_append (s t : JsString) : (s ++ t).endsWith t = true := by
  simp [endsWith]

@[simp] theorem slice_append (t s : JsString) : (t ++ s).slice t.length = s := by
  apply ext_units
  simp [slice, length]

end JsString

/-- A source literal. -/
abbrev js (s : String) : JsString := JsString.ofString s

/-- A literal that goes on on a second line, read without evaluating it, which takes time in the
square of its length. -/
theorem toList_append_ofList (front back : List Char) :
    (String.ofList front ++ String.ofList back).toList = front ++ back := by
  rw [String.toList_append, String.toList_ofList, String.toList_ofList]

theorem js_ofList (l : List Char) : js (String.ofList l) = ⟨l.flatMap JsString.utf16⟩ :=
  congrArg (fun cs => JsString.mk (cs.flatMap JsString.utf16)) String.toList_ofList

end H2a.Library
