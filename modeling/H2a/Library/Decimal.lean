import H2a.Library.JsObject
/-!
# Decimal numbers

The text of a number, in code units, and the number that a text of digits stands for.
-/

namespace H2a.Library

/-- The code units of `String(n)`. -/
def decimalUnits (n : Nat) : List UInt16 := (Nat.toDigits 10 n).map fun c => UInt16.ofNat c.toNat

/-- `Number(digits)` of a text of digits. -/
def decimalValue (digits : List UInt16) : Nat :=
  digits.foldl (fun n u => 10 * n + (u.toNat - 0x30)) 0

theorem isDigitUnit_ofNat {c : Char} (h : c.isDigit = true) :
    isDigitUnit (UInt16.ofNat c.toNat) = true ∧ (UInt16.ofNat c.toNat).toNat = c.toNat := by
  have hbounds : 48 ≤ c.toNat ∧ c.toNat ≤ 57 := by
    rw [Char.isDigit, Bool.and_eq_true, decide_eq_true_eq, decide_eq_true_eq] at h
    exact h
  have hunit : (UInt16.ofNat c.toNat).toNat = c.toNat := by
    rw [UInt16.toNat_ofNat']
    omega
  refine ⟨?_, hunit⟩
  rw [isDigitUnit, hunit]
  simp [hbounds.1, hbounds.2]

theorem isDigitUnit_decimalUnits (n : Nat) : ∀ u ∈ decimalUnits n, isDigitUnit u = true := by
  intro u hu
  obtain ⟨c, hc, rfl⟩ := List.mem_map.mp hu
  have hdigit : c.isDigit = true := Nat.isDigit_of_mem_toDigits (by decide) (by decide) hc
  exact (isDigitUnit_ofNat hdigit).1

theorem decimalUnits_ne_nil (n : Nat) : decimalUnits n ≠ [] := by
  rw [decimalUnits, ne_eq, List.map_eq_nil_iff]
  exact Nat.toDigits_ne_nil

theorem foldl_decimal (cs : List Char) (h : ∀ c ∈ cs, c.isDigit = true) (n : Nat) :
    (cs.map fun c => UInt16.ofNat c.toNat).foldl (fun n u => 10 * n + (u.toNat - 0x30)) n =
      Nat.ofDigitChars 10 cs n := by
  induction cs generalizing n with
  | nil => rfl
  | cons c cs ih =>
      have hunit := (isDigitUnit_ofNat (h c List.mem_cons_self)).2
      rw [List.map_cons, List.foldl_cons, hunit, Nat.ofDigitChars_cons]
      exact ih (fun c hc => h c (List.mem_cons_of_mem _ hc)) _

/-- A number is read back. -/
theorem decimalValue_decimalUnits (n : Nat) : decimalValue (decimalUnits n) = n := by
  have hdigits : ∀ c ∈ Nat.toDigits 10 n, c.isDigit = true :=
    fun c hc => Nat.isDigit_of_mem_toDigits (by decide) (by decide) hc
  rw [decimalValue, decimalUnits, foldl_decimal _ hdigits, Nat.ofDigitChars_ten_toDigits]

/-- A number at the end of a text is told from what stands before it. -/
theorem append_decimalUnits_inj {text text' : List UInt16} {u : UInt16} {n n' : Nat}
    (hu : isDigitUnit u = false)
    (h : text ++ u :: decimalUnits n = text' ++ u :: decimalUnits n') : text = text' ∧ n = n' := by
  have hdigits : ∀ (text : List UInt16) n,
      (text ++ u :: decimalUnits n).reverse.takeWhile isDigitUnit = (decimalUnits n).reverse := by
    intro text n
    rw [List.reverse_append, List.reverse_cons, List.append_assoc, List.takeWhile_append_of_pos]
    · rw [List.singleton_append, List.takeWhile_cons_of_neg (by simp [hu]), List.append_nil]
    · intro v hv
      exact isDigitUnit_decimalUnits n v (List.mem_reverse.mp hv)
  have hsame : decimalUnits n = decimalUnits n' := by
    rw [← List.reverse_inj, ← hdigits text, ← hdigits text', h]
  rw [hsame] at h
  refine ⟨List.append_cancel_right h, ?_⟩
  rw [← decimalValue_decimalUnits n, hsame, decimalValue_decimalUnits]

/-- `String(n)` as a literal. -/
theorem js_toString (n : Nat) : js (toString n) = ⟨decimalUnits n⟩ := by
  have hdigits : ∀ c ∈ Nat.toDigits 10 n, JsString.utf16 c = [UInt16.ofNat c.toNat] := by
    intro c hc
    have hdigit : c.isDigit = true := Nat.isDigit_of_mem_toDigits (by decide) (by decide) hc
    rw [Char.isDigit, Bool.and_eq_true, decide_eq_true_eq, decide_eq_true_eq] at hdigit
    have hle : c.toNat ≤ 57 := hdigit.2
    exact if_pos (by omega)
  apply JsString.ext_units
  change (toString n).toList.flatMap JsString.utf16 = decimalUnits n
  have hlist : (toString n).toList = Nat.toDigits 10 n := Nat.toList_repr
  rw [hlist, List.flatMap_congr hdigits, decimalUnits]
  exact List.flatMap_pure_eq_map _ _

theorem length_decimalUnits_le {n k : Nat} (hk : 0 < k) (h : n < 10 ^ k) :
    (decimalUnits n).length ≤ k := by
  rw [decimalUnits, List.length_map]
  exact (Nat.length_toDigits_le_iff (by decide) hk).mpr h

end H2a.Library
