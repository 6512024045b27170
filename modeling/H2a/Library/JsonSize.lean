import Mathlib.Algebra.GroupWithZero.Nat
import H2a.Library.JsonRoundTrip
import H2a.Library.Utf8
/-!
# The size of a JSON text

How many bytes `JSON.stringify` takes in UTF-8, part by part.
-/

namespace H2a.Library

namespace Utf8

/-- `Buffer.byteLength(text, "utf8")` -/
def size (cs : List Char) : Nat := (encode cs).length

@[simp] theorem size_nil : size [] = 0 := rfl

@[simp] theorem size_cons (c : Char) (cs : List Char) : size (c :: cs) = c.utf8Size + size cs := by
  rw [size, encode_cons, List.length_append, String.length_utf8EncodeChar, size]

@[simp] theorem size_append (cs ds : List Char) : size (cs ++ ds) = size cs + size ds := by
  rw [size, encode_append, List.length_append, size, size]

theorem utf8Size_of_ascii {c : Char} (h : c.toNat < 0x80) : c.utf8Size = 1 := by
  rw [Char.utf8Size_eq_one_iff, UInt32.le_iff_toNat_le]
  exact Nat.le_of_lt_succ h

theorem size_of_ascii {cs : List Char} (h : ∀ c ∈ cs, c.toNat < 0x80) : size cs = cs.length := by
  induction cs with
  | nil => rfl
  | cons c cs ih =>
      have hc := utf8Size_of_ascii (h c List.mem_cons_self)
      have hcs := ih fun d hd => h d (List.mem_cons_of_mem _ hd)
      rw [size_cons, hc, hcs, List.length_cons, Nat.add_comm]

theorem size_le (cs : List Char) : size cs ≤ 4 * cs.length := by
  induction cs with
  | nil => exact Nat.zero_le _
  | cons c cs ih =>
      have hc := c.utf8Size_le_four
      rw [size_cons, List.length_cons]
      omega

theorem utf16_length_le (c : Char) : (JsString.utf16 c).length ≤ c.utf8Size := by
  have hpos := c.utf8Size_pos
  unfold JsString.utf16
  split
  · exact hpos
  · rename_i hlarge
    have hfour : c.utf8Size = 4 := by
      rw [Char.utf8Size_eq_four_iff, UInt32.lt_iff_toNat_lt]
      exact Nat.lt_of_succ_le (Nat.not_lt.mp hlarge)
    rw [hfour]
    exact (by decide : 2 ≤ 4)

theorem units_length_le (cs : List Char) : (cs.flatMap JsString.utf16).length ≤ size cs := by
  induction cs with
  | nil => exact Nat.le_refl 0
  | cons c cs ih =>
      have hc := utf16_length_le c
      rw [List.flatMap_cons, List.length_append, size_cons]
      omega

theorem length_le_units (cs : List Char) : cs.length ≤ (cs.flatMap JsString.utf16).length := by
  induction cs with
  | nil => exact Nat.le_refl 0
  | cons c cs ih =>
      have hc : 1 ≤ (JsString.utf16 c).length := by
        unfold JsString.utf16
        split
        · exact Nat.le_refl 1
        · exact (by decide : 1 ≤ 2)
      rw [List.flatMap_cons, List.length_append, List.length_cons]
      omega

end Utf8

open Utf8

/-! ## Strings -/

theorem size_quoteUnit_le (u : UInt16) : size (quoteUnit u) ≤ 6 := by
  have hdigit : ∀ n < 16, (hexDigit n).toNat < 0x80 := by decide
  have hu := u.toNat_lt
  unfold quoteUnit
  split
  · rename_i c hshort
    have hc : c.toNat < 0x80 := by
      unfold shortEscape at hshort
      split_ifs at hshort <;> (obtain rfl := Option.some.inj hshort; decide)
    rw [size_cons, size_cons, size_nil, utf8Size_of_ascii hc]
    decide
  · split_ifs with hescape
    · have h3 := utf8Size_of_ascii (hdigit (u.toNat / 0x1000) (by omega))
      have h2 := utf8Size_of_ascii (hdigit (u.toNat / 0x100 % 0x10) (by omega))
      have h1 := utf8Size_of_ascii (hdigit (u.toNat / 0x10 % 0x10) (by omega))
      have h0 := utf8Size_of_ascii (hdigit (u.toNat % 0x10) (by omega))
      simp only [unicodeEscape, size_cons, size_nil, h3, h2, h1, h0]
      decide
    · have hfour := (Char.ofNat u.toNat).utf8Size_le_four
      rw [size_cons, size_nil]
      omega

/-- A code unit takes six bytes at most. -/
theorem size_quoteUnits_le (us : List UInt16) : size (quoteUnits us) ≤ 6 * us.length := by
  induction us using quoteUnits.induct with
  | case1 => exact Nat.le_refl 0
  | case2 u => exact size_quoteUnit_le u
  | case3 u v rest hpair ih =>
      have hfour := (pairChar u v).utf8Size_le_four
      rw [quoteUnits, if_pos hpair, size_cons, List.length_cons, List.length_cons]
      omega
  | case4 u v rest hpair ih =>
      have hu := size_quoteUnit_le u
      rw [quoteUnits, if_neg hpair, size_append, List.length_cons]
      omega

theorem size_quote (s : JsString) : size (quote s) = size (quoteUnits s.units) + 2 := by
  have hquote : ('"' : Char).utf8Size = 1 := by decide
  rw [quote, List.cons_append, size_cons, size_append, size_cons, size_nil, hquote]
  omega

theorem size_quote_le (s : JsString) : size (quote s) ≤ 6 * s.units.length + 2 := by
  have hunits := size_quoteUnits_le s.units
  rw [size_quote]
  omega

theorem isPair_eq (u v : UInt16) :
    (0xD800 ≤ u && u ≤ 0xDBFF && 0xDC00 ≤ v && v ≤ 0xDFFF) =
      (isHighSurrogate u && isLowSurrogate v) := by
  rw [Bool.eq_iff_iff]
  simp only [isHighSurrogate, isLowSurrogate, UInt16.le_iff_toNat_le, Bool.and_eq_true,
    decide_eq_true_eq, UInt16.reduceToNat]
  omega

/-- The size of a quoted literal, by its characters. -/
theorem size_quote_ofList (l : List Char) :
    size (quote (js (String.ofList l))) = size (quote ⟨l.flatMap JsString.utf16⟩) := by
  rw [js_ofList]

/-- A quoted text takes six times its own bytes at most. -/
theorem size_quote_le_byteLength (s : JsString) : size (quote s) ≤ 6 * byteLength s + 2 := by
  have hunits : ∀ us : List UInt16,
      size (quoteUnits us) ≤ 6 * size (JsString.toText.decode us) := by
    intro us
    induction us using quoteUnits.induct with
    | case1 => exact Nat.le_refl 0
    | case2 u =>
        have hquote := size_quoteUnit_le u
        have hpos := (JsString.toText.unit u).utf8Size_pos
        rw [quoteUnits, JsString.toText.decode, size_cons, size_nil]
        omega
    | case3 u v rest hpair ih =>
        have hpos := (pairChar u v).utf8Size_pos
        have hpair' := (isPair_eq u v).trans hpair
        rw [quoteUnits, if_pos hpair, JsString.toText.decode, if_pos hpair', size_cons, size_cons]
        rw [pairChar] at hpos ⊢
        omega
    | case4 u v rest hpair ih =>
        have hquote := size_quoteUnit_le u
        have hpos := (JsString.toText.unit u).utf8Size_pos
        have hpair' : ¬(0xD800 ≤ u && u ≤ 0xDBFF && 0xDC00 ≤ v && v ≤ 0xDFFF) = true := by
          rw [isPair_eq]
          exact hpair
        rw [quoteUnits, if_neg hpair, JsString.toText.decode, if_neg hpair', size_append, size_cons]
        omega
  have hs := hunits s.units
  rw [size_quote]
  exact Nat.add_le_add_right hs 2

/-- A printable code unit takes at most twice its own bytes. -/
theorem size_quoteUnit_plain {u : UInt16} (hu : 0x20 ≤ u.toNat) :
    size (quoteUnit u) ≤ 2 * (JsString.toText.unit u).utf8Size := by
  have hpos := (JsString.toText.unit u).utf8Size_pos
  have hsix := size_quoteUnit_le u
  cases hshort : shortEscape u.toNat with
  | some c =>
      have hc : c.toNat < 0x80 := by
        unfold shortEscape at hshort
        split_ifs at hshort <;> (obtain rfl := Option.some.inj hshort; decide)
      have htwo : size ['\\', c] = 2 := by
        rw [size_cons, size_cons, size_nil, utf8Size_of_ascii hc]
        decide
      have hquote : quoteUnit u = ['\\', c] := by rw [quoteUnit, hshort]
      rw [hquote, htwo]
      omega
  | none =>
      by_cases hsurrogate : (0xD800 ≤ u && u ≤ 0xDFFF) = true
      · have hthree : (JsString.toText.unit u).utf8Size = 3 := by
          rw [JsString.toText.unit, if_pos hsurrogate]
          decide
        omega
      · have hunit : JsString.toText.unit u = Char.ofNat u.toNat := by
          rw [JsString.toText.unit, if_neg hsurrogate]
        have hplain : ¬(u.toNat < 0x20 || isHighSurrogate u || isLowSurrogate u) = true := by
          simp only [isHighSurrogate, isLowSurrogate, Bool.or_eq_true, Bool.and_eq_true,
            decide_eq_true_eq, UInt16.le_iff_toNat_le, UInt16.reduceToNat] at hsurrogate ⊢
          omega
        have hquote : quoteUnit u = [Char.ofNat u.toNat] := by
          rw [quoteUnit, hshort]
          exact if_neg hplain
        rw [hquote, hunit, size_cons, size_nil]
        omega

/-- A quoted text without control characters takes twice its own bytes, and its quotes. -/
theorem size_quote_plain {s : JsString} (hs : ∀ u ∈ s.units, 0x20 ≤ u.toNat) :
    size (quote s) ≤ 2 * byteLength s + 2 := by
  have hunits : ∀ us : List UInt16, (∀ u ∈ us, 0x20 ≤ u.toNat) →
      size (quoteUnits us) ≤ 2 * size (JsString.toText.decode us) := by
    intro us hus
    induction us using quoteUnits.induct with
    | case1 => exact Nat.le_refl 0
    | case2 u =>
        have hquote := size_quoteUnit_plain (hus u List.mem_cons_self)
        rw [quoteUnits, JsString.toText.decode, size_cons, size_nil]
        omega
    | case3 u v rest hpair ih =>
        have ih := ih fun w hw => hus w (List.mem_cons_of_mem _ (List.mem_cons_of_mem _ hw))
        have hpair' := (isPair_eq u v).trans hpair
        rw [quoteUnits, if_pos hpair, JsString.toText.decode, if_pos hpair', size_cons,
          size_cons]
        rw [pairChar]
        omega
    | case4 u v rest hpair ih =>
        have ih := ih fun w hw => hus w (List.mem_cons_of_mem _ hw)
        have hquote := size_quoteUnit_plain (hus u List.mem_cons_self)
        have hpair' : ¬(0xD800 ≤ u && u ≤ 0xDBFF && 0xDC00 ≤ v && v ≤ 0xDFFF) = true := by
          rw [isPair_eq]
          exact hpair
        rw [quoteUnits, if_neg hpair, JsString.toText.decode, if_neg hpair', size_append,
          size_cons]
        omega
  have hall := hunits s.units hs
  rw [size_quote]
  exact Nat.add_le_add_right hall 2

/-! ## Texts within texts -/

/-- The characters that stand for one in a quoted text. -/
def quoteChar (c : Char) : List Char :=
  if c.toNat < 0x10000 then quoteUnit (UInt16.ofNat c.toNat) else [c]

theorem quoteUnits_cons {u : UInt16} (hu : isHighSurrogate u = false) (us : List UInt16) :
    quoteUnits (u :: us) = quoteUnit u ++ quoteUnits us := by
  cases us with
  | nil => rw [quoteUnits, quoteUnits, List.append_nil]
  | cons v us =>
      have hpair : ¬(isHighSurrogate u && isLowSurrogate v) = true := by
        rw [hu, Bool.false_and]
        exact Bool.false_ne_true
      rw [quoteUnits, if_neg hpair]

theorem quoteUnits_utf16 (c : Char) (us : List UInt16) :
    quoteUnits (JsString.utf16 c ++ us) = quoteChar c ++ quoteUnits us := by
  have hvalid : c.toNat < 0xD800 ∨ 0xDFFF < c.toNat ∧ c.toNat < 0x110000 := c.valid
  rw [JsString.utf16, quoteChar]
  split
  · rename_i hsmall
    have hhigh : isHighSurrogate (UInt16.ofNat c.toNat) = false := by
      rw [isHighSurrogate, UInt16.toNat_ofNat', Nat.mod_eq_of_lt hsmall, Bool.and_eq_false_iff,
        decide_eq_false_iff_not, decide_eq_false_iff_not]
      omega
    rw [List.singleton_append, quoteUnits_cons hhigh]
  · have hhigh : (UInt16.ofNat (0xD800 + (c.toNat - 0x10000) / 0x400)).toNat =
        0xD800 + (c.toNat - 0x10000) / 0x400 := by
      rw [UInt16.toNat_ofNat']
      exact Nat.mod_eq_of_lt (by omega)
    have hlow : (UInt16.ofNat (0xDC00 + (c.toNat - 0x10000) % 0x400)).toNat =
        0xDC00 + (c.toNat - 0x10000) % 0x400 := by
      rw [UInt16.toNat_ofNat']
      exact Nat.mod_eq_of_lt (by omega)
    have hpair : (isHighSurrogate (UInt16.ofNat (0xD800 + (c.toNat - 0x10000) / 0x400)) &&
        isLowSurrogate (UInt16.ofNat (0xDC00 + (c.toNat - 0x10000) % 0x400))) = true := by
      simp only [isHighSurrogate, isLowSurrogate, Bool.and_eq_true, decide_eq_true_eq, hhigh, hlow]
      omega
    have hchar : pairChar (UInt16.ofNat (0xD800 + (c.toNat - 0x10000) / 0x400))
        (UInt16.ofNat (0xDC00 + (c.toNat - 0x10000) % 0x400)) = c := by
      have hnat : 0x10000 + (0xD800 + (c.toNat - 0x10000) / 0x400 - 0xD800) * 0x400 +
          (0xDC00 + (c.toNat - 0x10000) % 0x400 - 0xDC00) = c.toNat := by omega
      rw [pairChar, hhigh, hlow, hnat, Char.ofNat_toNat]
    rw [List.cons_append, List.singleton_append, quoteUnits, if_pos hpair, hchar,
      List.singleton_append]

/-- A text is quoted character by character. -/
theorem quoteUnits_flatMap (text : List Char) :
    quoteUnits (text.flatMap JsString.utf16) = text.flatMap quoteChar := by
  induction text with
  | nil => rfl
  | cons c text ih => rw [List.flatMap_cons, quoteUnits_utf16, ih, List.flatMap_cons]

/-- A character takes at least its own bytes, and at most twice, if it is no control character. -/
theorem size_quoteChar (c : Char) :
    c.utf8Size ≤ size (quoteChar c) ∧
      (0x20 ≤ c.toNat → size (quoteChar c) ≤ 2 * c.utf8Size) := by
  have hpos := c.utf8Size_pos
  have hvalid : c.toNat < 0xD800 ∨ 0xDFFF < c.toNat ∧ c.toNat < 0x110000 := c.valid
  unfold quoteChar
  split
  · rename_i hsmall
    have hunit : (UInt16.ofNat c.toNat).toNat = c.toNat := by
      rw [UInt16.toNat_ofNat']
      exact Nat.mod_eq_of_lt hsmall
    rw [quoteUnit, hunit]
    cases hshort : shortEscape c.toNat with
    | some d =>
        have hd : d.toNat < 0x80 ∧ c.toNat < 0x80 := by
          unfold shortEscape at hshort
          split_ifs at hshort <;>
            (obtain rfl := Option.some.inj hshort; exact ⟨by decide, by omega⟩)
        have htwo : size ['\\', d] = 2 := by
          rw [size_cons, size_cons, size_nil, utf8Size_of_ascii hd.1]
          decide
        dsimp only
        rw [htwo, utf8Size_of_ascii hd.2]
        exact ⟨by decide, fun _ => Nat.le_refl 2⟩
    | none =>
        dsimp only
        split
        · rename_i hescape
          have hcontrol : c.toNat < 0x20 := by
            simp only [isHighSurrogate, isLowSurrogate, hunit, Bool.or_eq_true, Bool.and_eq_true,
              decide_eq_true_eq] at hescape
            omega
          have hone := utf8Size_of_ascii (Nat.lt_trans hcontrol (by decide))
          refine ⟨?_, fun h => absurd hcontrol (Nat.not_lt.mpr h)⟩
          rw [hone, unicodeEscape, size_cons]
          exact Nat.le_add_right 1 _
        · rw [Char.ofNat_toNat, size_cons, size_nil]
          omega
  · rw [size_cons, size_nil]
    omega

theorem size_le_quote (text : List Char) :
    size text + 2 ≤ size (quote ⟨text.flatMap JsString.utf16⟩) := by
  rw [size_quote, quoteUnits_flatMap]
  induction text with
  | nil => exact Nat.le_refl 2
  | cons c text ih =>
      have hc := (size_quoteChar c).1
      rw [List.flatMap_cons, size_append, size_cons]
      omega

/-- A text without control characters takes at most twice its own bytes, and its quotes. -/
theorem size_quote_utf16 {text : List Char} (h : Json.Visible text) :
    size (quote ⟨text.flatMap JsString.utf16⟩) ≤ 2 * size text + 2 := by
  rw [size_quote, quoteUnits_flatMap]
  induction text with
  | nil => exact Nat.le_refl 2
  | cons c text ih =>
      obtain ⟨hc, htext⟩ := List.forall_mem_cons.mp h
      have hc := (size_quoteChar c).2 hc
      have ih := ih htext
      rw [List.flatMap_cons, size_append, size_cons]
      omega

/-- A text of characters that are not escaped takes its own length, and its quotes. -/
theorem size_quote_bare {s : JsString}
    (hs : ∀ u ∈ s.units, 0x20 ≤ u.toNat ∧ u.toNat < 0x80 ∧ u.toNat ≠ 0x22 ∧ u.toNat ≠ 0x5C) :
    size (quote s) = s.units.length + 2 := by
  have hunits : ∀ us : List UInt16,
      (∀ u ∈ us, 0x20 ≤ u.toNat ∧ u.toNat < 0x80 ∧ u.toNat ≠ 0x22 ∧ u.toNat ≠ 0x5C) →
        size (quoteUnits us) = us.length := by
    intro us hus
    induction us with
    | nil => rfl
    | cons u us ih =>
        obtain ⟨⟨hspace, hascii, hmark, hslash⟩, hus⟩ := List.forall_mem_cons.mp hus
        have hhigh : isHighSurrogate u = false := by
          rw [isHighSurrogate, Bool.and_eq_false_iff, decide_eq_false_iff_not,
            decide_eq_false_iff_not]
          omega
        have hquote : quoteUnit u = [Char.ofNat u.toNat] := by
          have hshort : shortEscape u.toNat = none := by
            unfold shortEscape
            split_ifs <;> first | omega | rfl
          have hplain : ¬(u.toNat < 0x20 || isHighSurrogate u || isLowSurrogate u) = true := by
            simp only [isHighSurrogate, isLowSurrogate, Bool.or_eq_true, Bool.and_eq_true,
              decide_eq_true_eq]
            omega
          rw [quoteUnit, hshort]
          exact if_neg hplain
        have hchar : (Char.ofNat u.toNat).toNat = u.toNat := toNat_charOfNat (by omega)
        rw [quoteUnits_cons hhigh, hquote, List.singleton_append, size_cons, ih hus,
          utf8Size_of_ascii (by omega), List.length_cons, Nat.add_comm]
  rw [size_quote, hunits s.units hs]

/-! ## Values -/

namespace Json

variable {N : Type} [JsonNumber N]

/-- The bytes of `JSON.stringify`. -/
def size (j : Json N) : Nat := Utf8.size j.render

theorem renderElements_eq_map (es : List (Json N)) : render.renderElements es = es.map render := by
  induction es with
  | nil => rfl
  | cons e es ih => rw [render.renderElements, ih, List.map_cons]

theorem renderMembers_eq_map (ms : List (JsString × Json N)) :
    render.renderMembers ms = ms.map fun m => quote m.1 ++ ':' :: render m.2 := by
  induction ms with
  | nil => rfl
  | cons m ms ih => rw [render.renderMembers, ih, List.map_cons]

theorem size_joinComma (part : List Char) (parts : List (List Char)) :
    Utf8.size (joinComma (part :: parts)) + 1 =
      ((part :: parts).map fun p => Utf8.size p + 1).sum := by
  have hcomma : (',' : Char).utf8Size = 1 := by decide
  induction parts generalizing part with
  | nil => rfl
  | cons next parts ih =>
      have hnext := ih next
      rw [List.map_cons, List.sum_cons, ← hnext, joinComma, size_append, size_cons, hcomma]
      omega

theorem size_obj (m : JsString × Json N) (ms : List (JsString × Json N)) :
    size (.obj (m :: ms)) =
      1 + ((m :: ms).map fun m => Utf8.size (quote m.1) + m.2.size + 2).sum := by
  have hbraces : ('\x7b' : Char).utf8Size = 1 ∧ ('\x7d' : Char).utf8Size = 1 := by decide
  have hcolon : (':' : Char).utf8Size = 1 := by decide
  have hparts := size_joinComma (quote m.1 ++ ':' :: render m.2)
    (ms.map fun m => quote m.1 ++ ':' :: render m.2)
  have hmember : (fun m : JsString × Json N => Utf8.size (quote m.1) + m.2.size + 2) =
      (fun p => Utf8.size p + 1) ∘ fun m => quote m.1 ++ ':' :: render m.2 := by
    funext m
    simp only [Function.comp_apply, size_append, size_cons, hcolon, size]
    omega
  rw [← List.map_cons (f := fun m : JsString × Json N => quote m.1 ++ ':' :: render m.2),
    List.map_map, ← hmember] at hparts
  rw [← hparts, size, render, renderMembers_eq_map, List.cons_append, size_cons, size_append,
    size_cons, size_nil, hbraces.1, hbraces.2, List.map_cons]

theorem size_arr (e : Json N) (es : List (Json N)) :
    size (.arr (e :: es)) = 1 + ((e :: es).map fun e => e.size + 1).sum := by
  have hbrackets : ('[' : Char).utf8Size = 1 ∧ (']' : Char).utf8Size = 1 := by decide
  have hparts := size_joinComma (render e) (es.map render)
  rw [← List.map_cons (f := render), List.map_map] at hparts
  have hsum : ((e :: es).map fun e => e.size + 1).sum =
      Utf8.size (joinComma ((e :: es).map render)) + 1 := hparts.symm
  rw [hsum, size, render, renderElements_eq_map, List.cons_append, size_cons, size_append,
    size_cons, size_nil, hbrackets.1, hbrackets.2]

@[simp] theorem size_str (s : JsString) : size (.str s : Json N) = Utf8.size (quote s) := rfl

@[simp] theorem size_true : size (.bool true : Json N) = 4 := by
  simp only [size, render]
  decide

@[simp] theorem size_false : size (.bool false : Json N) = 5 := by
  simp only [size, render]
  decide

@[simp] theorem size_null : size (.null : Json N) = 4 := by
  simp only [size, render]
  decide

/-- The text of a number is of ASCII characters. -/
theorem size_num {n : N} (hn : JsonNumber.isFinite n = true) :
    size (.num n) = (JsonNumber.print n).length := by
  apply size_of_ascii
  intro c hc
  have hchar := JsonNumber.isNumberChar_print n hn c hc
  simp only [isNumberChar, Char.isDigit, Bool.or_eq_true, beq_iff_eq, Bool.and_eq_true,
    decide_eq_true_eq] at hchar
  rcases hchar with ((((hdigit | rfl) | rfl) | rfl) | rfl) | rfl
  · have hle : c.toNat ≤ 57 := hdigit.2
    omega
  all_goals decide

end Json

end H2a.Library
