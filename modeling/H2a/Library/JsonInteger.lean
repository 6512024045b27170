import H2a.Library.Json
/-!
# JSON over the integers

The least numbers `JsonNumber` can be: decimal integers, enough for counters and
for concrete texts.  A fraction or an exponent in a token is dropped.
-/

namespace H2a.Library.JsonInteger

def digits (n : Nat) : List Char := Nat.toDigits 10 n

/-- `String(n)` -/
def print : Int → List Char
  | .ofNat n => digits n
  | .negSucc n => '-' :: digits (n + 1)

def ofToken (s : List Char) : Int :=
  if s.head? = some '-' then -(Nat.ofDigitChars 10 (s.tail.takeWhile Char.isDigit) 0 : Nat)
  else (Nat.ofDigitChars 10 (s.takeWhile Char.isDigit) 0 : Nat)

theorem isDigit_digits {n : Nat} : ∀ c ∈ digits n, c.isDigit = true :=
  fun _ hc => Nat.isDigit_of_mem_toDigits (by decide) (by decide) hc

theorem takeWhile_digits (n : Nat) : (digits n).takeWhile Char.isDigit = digits n :=
  List.takeWhile_eq_self_iff.mpr isDigit_digits

/-- A positive number does not start with a zero. -/
theorem head_digits {n : Nat} (hn : 0 < n) :
    ∃ c rest, digits n = c :: rest ∧ c ≠ '0' ∧ c.isDigit = true := by
  induction n using Nat.strongRecOn with
  | ind n ih =>
      by_cases hsmall : n < 10
      · refine ⟨n.digitChar, [], Nat.toDigits_of_lt_base hsmall, ?_⟩
        have hdigit : ∀ m : Nat, m < 10 → 0 < m →
            m.digitChar ≠ '0' ∧ m.digitChar.isDigit = true := by
          decide
        exact hdigit n hsmall hn
      · obtain ⟨c, rest, hdigits, hc⟩ := ih (n / 10) (by omega) (by omega)
        refine ⟨c, rest ++ [(n % 10).digitChar], ?_, hc⟩
        rw [digits, Nat.toDigits_of_base_le (by decide) (by omega),
          show Nat.toDigits 10 (n / 10) = c :: rest from hdigits]
        rfl

theorem isFraction_nil : isFraction [] = true := rfl

theorem isNumberToken_digits (n : Nat) : isNumberToken (digits n) = true := by
  rcases Nat.eq_zero_or_pos n with rfl | hn
  · decide
  · obtain ⟨c, rest, hdigits, hzero, hdigit⟩ := head_digits hn
    have hrest : rest.dropWhile Char.isDigit = [] := by
      rw [List.dropWhile_eq_nil_iff]
      exact fun d hd => isDigit_digits d (hdigits ▸ List.mem_cons_of_mem c hd)
    have hminus : ¬c = '-' := by
      rintro rfl
      exact absurd hdigit (by decide)
    rw [hdigits]
    simp [isNumberToken, hminus, hzero, hdigit, hrest, isFraction_nil]

theorem isNumberToken_print (n : Int) : isNumberToken (print n) = true := by
  cases n with
  | ofNat n => exact isNumberToken_digits n
  | negSucc n =>
      obtain ⟨c, rest, hdigits, hzero, hdigit⟩ := head_digits (Nat.succ_pos n)
      have htoken := isNumberToken_digits (n + 1)
      have hminus : ¬c = '-' := by
        rintro rfl
        exact absurd hdigit (by decide)
      rw [print]
      rw [hdigits] at htoken ⊢
      simpa [isNumberToken, hminus] using htoken

theorem isNumberChar_of_isDigit {c : Char} (h : c.isDigit = true) : isNumberChar c = true := by
  simp [isNumberChar, h]

theorem isNumberChar_print (n : Int) : ∀ c ∈ print n, isNumberChar c = true := by
  cases n with
  | ofNat n => exact fun c hc => isNumberChar_of_isDigit (isDigit_digits c hc)
  | negSucc n =>
      intro c hc
      rcases List.mem_cons.mp hc with rfl | hc
      · decide
      · exact isNumberChar_of_isDigit (isDigit_digits c hc)

theorem ofToken_digits (n : Nat) : ofToken (digits n) = n := by
  have hminus : ¬(digits n).head? = some '-' := by
    intro h
    obtain ⟨rest, hrest⟩ := List.head?_eq_some_iff.mp h
    exact absurd (isDigit_digits '-' (hrest ▸ List.mem_cons_self ..)) (by decide)
  rw [ofToken, if_neg hminus, takeWhile_digits, digits, Nat.ofDigitChars_ten_toDigits]

theorem ofToken_print (n : Int) : ofToken (print n) = n := by
  cases n with
  | ofNat n => exact ofToken_digits n
  | negSucc n =>
      rw [ofToken, print, if_pos List.head?_cons, List.tail_cons, takeWhile_digits, digits,
        Nat.ofDigitChars_ten_toDigits]
      rfl

instance : JsonNumber Int where
  ofToken := ofToken
  print := print
  isFinite _ := true
  toInt? := some
  ofNat k := k
  isNumberToken_print n _ := isNumberToken_print n
  isNumberChar_print n _ := isNumberChar_print n
  ofToken_print n _ := ofToken_print n
  toInt?_ofNat _ := rfl
  isFinite_ofNat _ := rfl

end H2a.Library.JsonInteger
