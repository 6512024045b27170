import H2a.Library.JsString
import Mathlib.Data.List.Lex
import Mathlib.Data.List.TakeWhile
/-!
# JSON

Values, `JSON.stringify` and `JSON.parse`.  A text is a list of Unicode scalar
values, as UTF-8 decoding produces it.  The members of an object are kept in
the order of their keys by UTF-16 code units, each key once: no other order of
members is ever observed, and equal objects are equal.

The numbers are a parameter: any type with the conversions of `JsonNumber`.
-/

namespace H2a.Library

/-! ## Members, ordered by key -/

namespace JsString

/-- The code units, as numbers. -/
def codes (s : JsString) : List Nat := s.units.map UInt16.toNat

/-- The order of `Array.prototype.sort`: by code units. -/
instance : LT JsString := ⟨fun a b => a.codes < b.codes⟩

instance (a b : JsString) : Decidable (a < b) := inferInstanceAs (Decidable (a.codes < b.codes))

theorem codes_injective : Function.Injective codes := by
  intro a b h
  refine ext_units (List.map_injective_iff.mpr ?_ h)
  exact fun x y hxy => UInt16.toNat_inj.mp hxy

theorem not_lt_self (a : JsString) : ¬a < a := lt_irrefl a.codes

theorem lt_chain {a b c : JsString} (hab : a < b) (hbc : b < c) : a < c :=
  lt_trans (α := List Nat) hab hbc

theorem lt_of_not_lt {a b : JsString} (hne : a ≠ b) (h : ¬b < a) : a < b := by
  have hcodes : a.codes ≠ b.codes := fun h => hne (codes_injective h)
  exact lt_of_le_of_ne (not_lt.mp h) hcodes

end JsString

section Members

variable {V : Type}

/-- Set a member, in its place. -/
def insertMember (k : JsString) (v : V) : List (JsString × V) → List (JsString × V)
  | [] => [(k, v)]
  | m :: ms =>
      if m.1 = k then (k, v) :: ms
      else if k < m.1 then (k, v) :: m :: ms
      else m :: insertMember k v ms

/-- The value of a member. -/
def lookupMember (k : JsString) : List (JsString × V) → Option V
  | [] => none
  | m :: ms => if m.1 = k then some m.2 else lookupMember k ms

def eraseMember (k : JsString) (ms : List (JsString × V)) : List (JsString × V) :=
  ms.filter fun m => decide (m.1 ≠ k)

/-- The object a list of members builds: the last of two equal keys wins. -/
def ofMembers (ms : List (JsString × V)) : List (JsString × V) :=
  ms.foldl (fun acc m => insertMember m.1 m.2 acc) []

/-- Keys strictly ascending. -/
def SortedMembers (ms : List (JsString × V)) : Prop := ms.Pairwise fun a b => a.1 < b.1

end Members

/-! ## Values -/

inductive Json (N : Type) where
  | null
  | bool (b : Bool)
  | num (n : N)
  | str (s : JsString)
  | arr (elements : List (Json N))
  | obj (members : List (JsString × Json N))

/-- The grammar of a number token, after the fraction. -/
def isExponent : List Char → Bool
  | [] => true
  | c :: s =>
      if c = 'e' ∨ c = 'E' then
        let digits := if s.head? = some '+' ∨ s.head? = some '-' then s.tail else s
        !digits.isEmpty && digits.all Char.isDigit
      else false

/-- The grammar of a number token, after the integer part. -/
def isFraction (s : List Char) : Bool :=
  if s.head? = some '.' then
    !(s.tail.takeWhile Char.isDigit).isEmpty && isExponent (s.tail.dropWhile Char.isDigit)
  else isExponent s

/-- `-?(0|[1-9][0-9]*)(\.[0-9]+)?([eE][+-]?[0-9]+)?` -/
def isNumberToken (s : List Char) : Bool :=
  let digits := if s.head? = some '-' then s.tail else s
  match digits with
  | [] => false
  | c :: rest =>
      if c = '0' then isFraction rest
      else c.isDigit && isFraction (rest.dropWhile Char.isDigit)

/-- The characters number tokens are made of. -/
def isNumberChar (c : Char) : Bool :=
  c.isDigit || c == '-' || c == '+' || c == '.' || c == 'e' || c == 'E'

/-- The numbers of the language, up to `===`, with the conversions JSON needs. -/
class JsonNumber (N : Type) where
  /-- the value of a number token -/
  ofToken : List Char → N
  /-- `String(n)`; for a finite number it is `JSON.stringify(n)` -/
  print : N → List Char
  /-- `Number.isFinite` -/
  isFinite : N → Bool
  /-- the integer, where `Number.isInteger` -/
  toInt? : N → Option Int
  /-- a counter as a number -/
  ofNat : Nat → N
  isNumberToken_print : ∀ n, isFinite n = true → isNumberToken (print n) = true
  isNumberChar_print : ∀ n, isFinite n = true → ∀ c ∈ print n, isNumberChar c = true
  ofToken_print : ∀ n, isFinite n = true → ofToken (print n) = n
  toInt?_ofNat : ∀ k, toInt? (ofNat k) = some (k : Int)
  isFinite_ofNat : ∀ k, isFinite (ofNat k) = true

/-! ## `JSON.stringify` -/

def isHighSurrogate (u : UInt16) : Bool := 0xD800 ≤ u.toNat && u.toNat < 0xDC00

def isLowSurrogate (u : UInt16) : Bool := 0xDC00 ≤ u.toNat && u.toNat < 0xE000

/-- A lower-case hexadecimal digit. -/
def hexDigit (n : Nat) : Char := Char.ofNat (if n < 10 then 0x30 + n else 0x57 + n)

/-- `\uXXXX` -/
def unicodeEscape (n : Nat) : List Char :=
  ['\\', 'u', hexDigit (n / 0x1000), hexDigit (n / 0x100 % 0x10), hexDigit (n / 0x10 % 0x10),
    hexDigit (n % 0x10)]

/-- The short escapes. -/
def shortEscape (n : Nat) : Option Char :=
  if n = 0x22 then some '"'
  else if n = 0x5C then some '\\'
  else if n = 0x08 then some 'b'
  else if n = 0x0C then some 'f'
  else if n = 0x0A then some 'n'
  else if n = 0x0D then some 'r'
  else if n = 0x09 then some 't'
  else none

/-- A code unit that is no half of a pair. -/
def quoteUnit (u : UInt16) : List Char :=
  match shortEscape u.toNat with
  | some c => ['\\', c]
  | none =>
      if u.toNat < 0x20 || isHighSurrogate u || isLowSurrogate u then unicodeEscape u.toNat
      else [Char.ofNat u.toNat]

/-- The character of a surrogate pair. -/
def pairChar (u v : UInt16) : Char :=
  Char.ofNat (0x10000 + (u.toNat - 0xD800) * 0x400 + (v.toNat - 0xDC00))

/-- The body of a quoted string: well-formed even where a surrogate stands alone. -/
def quoteUnits : List UInt16 → List Char
  | [] => []
  | [u] => quoteUnit u
  | u :: v :: rest =>
      if isHighSurrogate u && isLowSurrogate v then pairChar u v :: quoteUnits rest
      else quoteUnit u ++ quoteUnits (v :: rest)

def quote (s : JsString) : List Char := '"' :: quoteUnits s.units ++ ['"']

/-- `parts.join(',')` -/
def joinComma : List (List Char) → List Char
  | [] => []
  | [part] => part
  | part :: next :: rest => part ++ ',' :: joinComma (next :: rest)

namespace Json

variable {N : Type} [JsonNumber N]

/-- `canonicalString` on inert data; on data whose objects are ordered it is
`JSON.stringify` as well. -/
def render : Json N → List Char
  | .null => ['n', 'u', 'l', 'l']
  | .bool true => ['t', 'r', 'u', 'e']
  | .bool false => ['f', 'a', 'l', 's', 'e']
  | .num n => JsonNumber.print n
  | .str s => quote s
  | .arr elements => '[' :: joinComma (renderElements elements) ++ [']']
  | .obj members => '\x7b' :: joinComma (renderMembers members) ++ ['\x7d']
where
  renderElements : List (Json N) → List (List Char)
    | [] => []
    | e :: es => render e :: renderElements es
  renderMembers : List (JsString × Json N) → List (List Char)
    | [] => []
    | (k, v) :: ms => (quote k ++ ':' :: render v) :: renderMembers ms

end Json

/-! ## `JSON.parse` -/

/-- The white space of the JSON grammar. -/
def isJsonSpace (c : Char) : Bool := c == ' ' || c == '\t' || c == '\n' || c == '\r'

def skipSpace (s : List Char) : List Char := s.dropWhile isJsonSpace

def hexValue (c : Char) : Option Nat :=
  let n := c.toNat
  if 0x30 ≤ n ∧ n ≤ 0x39 then some (n - 0x30)
  else if 0x61 ≤ n ∧ n ≤ 0x66 then some (n - 0x57)
  else if 0x41 ≤ n ∧ n ≤ 0x46 then some (n - 0x37)
  else none

def unescape (c : Char) : Option UInt16 :=
  if c = '"' then some 0x22
  else if c = '\\' then some 0x5C
  else if c = '/' then some 0x2F
  else if c = 'b' then some 0x08
  else if c = 'f' then some 0x0C
  else if c = 'n' then some 0x0A
  else if c = 'r' then some 0x0D
  else if c = 't' then some 0x09
  else none

def hexUnit (a b c d : Char) : Option UInt16 := do
  let a ← hexValue a
  let b ← hexValue b
  let c ← hexValue c
  let d ← hexValue d
  return UInt16.ofNat (((a * 0x10 + b) * 0x10 + c) * 0x10 + d)

/-- A string from after its opening quote: its units and what follows it. -/
def parseString : List Char → Option (List UInt16 × List Char)
  | [] => none
  | c :: rest =>
      if c = '"' then some ([], rest)
      else if c = '\\' then
        match rest with
        | 'u' :: x :: y :: z :: w :: rest =>
            (hexUnit x y z w).bind fun u => (parseString rest).map fun r => (u :: r.1, r.2)
        | e :: rest => (unescape e).bind fun u => (parseString rest).map fun r => (u :: r.1, r.2)
        | [] => none
      else if c.toNat < 0x20 then none
      else (parseString rest).map fun r => (JsString.utf16 c ++ r.1, r.2)

/-- What follows `word`, if the text starts with it. -/
def stripWord (word s : List Char) : Option (List Char) :=
  if word.isPrefixOf s then some (s.drop word.length) else none

namespace Json

variable {N : Type} [JsonNumber N]

/-- A word or a number. -/
def parseScalar (s : List Char) : Option (Json N × List Char) :=
  match s.head? with
  | some 'n' => (stripWord ['n', 'u', 'l', 'l'] s).map fun rest => (.null, rest)
  | some 't' => (stripWord ['t', 'r', 'u', 'e'] s).map fun rest => (.bool true, rest)
  | some 'f' => (stripWord ['f', 'a', 'l', 's', 'e'] s).map fun rest => (.bool false, rest)
  | _ =>
      let token := s.takeWhile isNumberChar
      if isNumberToken token then
        some (.num (JsonNumber.ofToken token), s.dropWhile isNumberChar)
      else none

mutual

/-- A value and what follows it.  The fuel bounds the number of nested calls;
twice the length of the text is enough (`parseValue_fuel`). -/
def parseValue : Nat → List Char → Option (Json N × List Char)
  | 0, _ => none
  | fuel + 1, s =>
      match skipSpace s with
      | '"' :: rest => (parseString rest).map fun r => (.str ⟨r.1⟩, r.2)
      | '[' :: rest =>
          if (skipSpace rest).head? = some ']' then some (.arr [], (skipSpace rest).tail)
          else (parseElements fuel rest).map fun r => (.arr r.1, r.2)
      | '\x7b' :: rest =>
          if (skipSpace rest).head? = some '\x7d' then some (.obj [], (skipSpace rest).tail)
          else (parseMembers fuel rest).map fun r => (.obj (ofMembers r.1), r.2)
      | s => parseScalar s

/-- The elements of an array, up to its bracket. -/
def parseElements : Nat → List Char → Option (List (Json N) × List Char)
  | 0, _ => none
  | fuel + 1, s =>
      (parseValue fuel s).bind fun v =>
        match skipSpace v.2 with
        | ',' :: rest => (parseElements fuel rest).map fun r => (v.1 :: r.1, r.2)
        | ']' :: rest => some ([v.1], rest)
        | _ => none

/-- The members of an object, up to its brace. -/
def parseMembers : Nat → List Char → Option (List (JsString × Json N) × List Char)
  | 0, _ => none
  | fuel + 1, s =>
      match skipSpace s with
      | '"' :: rest =>
          (parseString rest).bind fun k =>
            match skipSpace k.2 with
            | ':' :: rest =>
                (parseValue fuel rest).bind fun v =>
                  match skipSpace v.2 with
                  | ',' :: rest =>
                      (parseMembers fuel rest).map fun r => ((⟨k.1⟩, v.1) :: r.1, r.2)
                  | '\x7d' :: rest => some ([(⟨k.1⟩, v.1)], rest)
                  | _ => none
            | _ => none
      | _ => none

end

/-- `JSON.parse`; `none` is a `SyntaxError`. -/
def parse (s : List Char) : Option (Json N) :=
  (parseValue (2 * s.length + 2) s).bind fun v =>
    if skipSpace v.2 = [] then some v.1 else none

end Json

end H2a.Library
