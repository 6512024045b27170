import Mathlib.Data.List.Basic
import Mathlib.Tactic.Common
/-!
# Base 64

The text of a sequence of bytes, with padding.
-/

namespace H2a.Library.Base64

/-- The digits, and then the sign of padding. -/
def alphabet : List Char :=
  "ABCDEFGHIJKLMNOPQRSTUVWXYZabcdefghijklmnopqrstuvwxyz0123456789+/=".toList

def digit (n : Nat) : Char := alphabet.getD n '='

def encode : List UInt8 → List Char
  | [] => []
  | [a] => [digit (a.toNat / 4), digit (a.toNat % 4 * 16), '=', '=']
  | [a, b] =>
      [digit (a.toNat / 4), digit (a.toNat % 4 * 16 + b.toNat / 16), digit (b.toNat % 16 * 4), '=']
  | a :: b :: c :: rest =>
      digit (a.toNat / 4) :: digit (a.toNat % 4 * 16 + b.toNat / 16) ::
        digit (b.toNat % 16 * 4 + c.toNat / 64) :: digit (c.toNat % 64) :: encode rest

/-- The number a digit stands for. -/
def value (c : Char) : Nat := alphabet.idxOf c

/-- The bytes of a text with padding. -/
def decode : List Char → List UInt8
  | a :: b :: c :: d :: rest =>
      let first := UInt8.ofNat (value a * 4 + value b / 16)
      let second := UInt8.ofNat (value b % 16 * 16 + value c / 4)
      let third := UInt8.ofNat (value c % 4 * 64 + value d)
      (if c = '=' then [first] else if d = '=' then [first, second] else [first, second, third]) ++
        decode rest
  | _ => []

/-- The digits one by one: to evaluate the literal itself is slow. -/
theorem alphabet_eq : alphabet =
    ['A', 'B', 'C', 'D', 'E', 'F', 'G', 'H', 'I', 'J', 'K', 'L', 'M', 'N', 'O', 'P', 'Q', 'R',
      'S', 'T', 'U', 'V', 'W', 'X', 'Y', 'Z', 'a', 'b', 'c', 'd', 'e', 'f', 'g', 'h', 'i', 'j',
      'k', 'l', 'm', 'n', 'o', 'p', 'q', 'r', 's', 't', 'u', 'v', 'w', 'x', 'y', 'z', '0', '1',
      '2', '3', '4', '5', '6', '7', '8', '9', '+', '/', '='] :=
  String.toList_ofList

theorem pad_mem : '=' ∈ alphabet := by
  rw [alphabet_eq]
  decide

theorem digit_mem (n : Nat) : digit n ∈ alphabet := by
  rw [digit, List.getD_eq_getElem?_getD]
  cases h : alphabet[n]? with
  | none => exact pad_mem
  | some c => exact List.mem_of_getElem? h

theorem encode_mem {bytes : List UInt8} {c : Char} (h : c ∈ encode bytes) : c ∈ alphabet := by
  induction bytes using encode.induct with
  | case1 => cases h
  | case2 a =>
      simp only [encode, List.mem_cons, List.not_mem_nil, or_false] at h
      rcases h with rfl | rfl | rfl | rfl
      · exact digit_mem _
      · exact digit_mem _
      · exact pad_mem
      · exact pad_mem
  | case3 a b =>
      simp only [encode, List.mem_cons, List.not_mem_nil, or_false] at h
      rcases h with rfl | rfl | rfl | rfl
      · exact digit_mem _
      · exact digit_mem _
      · exact digit_mem _
      · exact pad_mem
  | case4 a b c' rest ih =>
      simp only [encode, List.mem_cons] at h
      rcases h with rfl | rfl | rfl | rfl | h
      · exact digit_mem _
      · exact digit_mem _
      · exact digit_mem _
      · exact digit_mem _
      · exact ih h

theorem encode_ne_nil {bytes : List UInt8} (h : bytes ≠ []) : encode bytes ≠ [] := by
  cases bytes using encode.induct with
  | case1 => exact absurd rfl h
  | case2 a => exact List.cons_ne_nil _ _
  | case3 a b => exact List.cons_ne_nil _ _
  | case4 a b c rest => exact List.cons_ne_nil _ _

theorem value_digit {n : Nat} (hn : n < 64) : value (digit n) = n := by
  have hall : ∀ n < 64, value (digit n) = n := by
    unfold value digit
    rw [alphabet_eq]
    decide +kernel
  exact hall n hn

theorem digit_ne_pad {n : Nat} (hn : n < 64) : digit n ≠ '=' := by
  have hall : ∀ n < 64, digit n ≠ '=' := by
    unfold digit
    rw [alphabet_eq]
    decide +kernel
  exact hall n hn

theorem ofNat_eq {n : Nat} {b : UInt8} (h : n = b.toNat) : UInt8.ofNat n = b := by
  rw [h, UInt8.ofNat_toNat]

/-- The bytes are read back. -/
theorem decode_encode (bytes : List UInt8) : decode (encode bytes) = bytes := by
  induction bytes using encode.induct with
  | case1 => rfl
  | case2 a =>
      have ha := a.toNat_lt
      have hfirst : UInt8.ofNat (a.toNat / 4 * 4 + a.toNat % 4 * 16 / 16) = a :=
        ofNat_eq (by omega)
      simp only [encode, decode, value_digit (n := a.toNat / 4) (by omega),
        value_digit (n := a.toNat % 4 * 16) (by omega), if_true, hfirst]
      rfl
  | case3 a b =>
      have ha := a.toNat_lt
      have hb := b.toNat_lt
      have hfirst : UInt8.ofNat (a.toNat / 4 * 4 + (a.toNat % 4 * 16 + b.toNat / 16) / 16) = a :=
        ofNat_eq (by omega)
      have hsecond : UInt8.ofNat
          ((a.toNat % 4 * 16 + b.toNat / 16) % 16 * 16 + b.toNat % 16 * 4 / 4) = b :=
        ofNat_eq (by omega)
      simp only [encode, decode, value_digit (n := a.toNat / 4) (by omega),
        value_digit (n := a.toNat % 4 * 16 + b.toNat / 16) (by omega),
        value_digit (n := b.toNat % 16 * 4) (by omega),
        digit_ne_pad (n := b.toNat % 16 * 4) (by omega), if_true, if_false, hfirst, hsecond]
      rfl
  | case4 a b c rest ih =>
      have ha := a.toNat_lt
      have hb := b.toNat_lt
      have hc := c.toNat_lt
      have hfirst : UInt8.ofNat (a.toNat / 4 * 4 + (a.toNat % 4 * 16 + b.toNat / 16) / 16) = a :=
        ofNat_eq (by omega)
      have hsecond : UInt8.ofNat ((a.toNat % 4 * 16 + b.toNat / 16) % 16 * 16 +
          (b.toNat % 16 * 4 + c.toNat / 64) / 4) = b := ofNat_eq (by omega)
      have hthird : UInt8.ofNat
          ((b.toNat % 16 * 4 + c.toNat / 64) % 4 * 64 + c.toNat % 64) = c := ofNat_eq (by omega)
      simp only [encode, decode, value_digit (n := a.toNat / 4) (by omega),
        value_digit (n := a.toNat % 4 * 16 + b.toNat / 16) (by omega),
        value_digit (n := b.toNat % 16 * 4 + c.toNat / 64) (by omega),
        value_digit (n := c.toNat % 64) (by omega),
        digit_ne_pad (n := b.toNat % 16 * 4 + c.toNat / 64) (by omega),
        digit_ne_pad (n := c.toNat % 64) (by omega), if_false, hfirst, hsecond, hthird, ih]
      rfl

/-! ## In URLs -/

/-- The digit that stands for another in a URL. -/
def urlDigit (c : Char) : Char := if c = '+' then '-' else if c = '/' then '_' else c

/-- `toString("base64url")`: without padding. -/
def encodeUrl (bytes : List UInt8) : List Char :=
  ((encode bytes).filter fun c => decide (c ≠ '=')).map urlDigit

/-- The digits of a URL: printable characters that are no dot, quote or backslash. -/
theorem encodeUrl_mem {bytes : List UInt8} {c : Char} (h : c ∈ encodeUrl bytes) :
    c.toNat ≠ 0x2E ∧ 0x20 ≤ c.toNat ∧ c.toNat < 0x80 ∧ c.toNat ≠ 0x22 ∧ c.toNat ≠ 0x5C := by
  have hall : (alphabet.all fun d => decide ((urlDigit d).toNat ≠ 0x2E ∧
      0x20 ≤ (urlDigit d).toNat ∧ (urlDigit d).toNat < 0x80 ∧ (urlDigit d).toNat ≠ 0x22 ∧
        (urlDigit d).toNat ≠ 0x5C)) = true := by
    rw [alphabet_eq]
    decide +kernel
  obtain ⟨d, hd, rfl⟩ := List.mem_map.mp h
  exact of_decide_eq_true (List.all_eq_true.mp hall d (encode_mem (List.mem_filter.mp hd).1))

theorem encodeUrl_ne_nil {bytes : List UInt8} (h : bytes ≠ []) : encodeUrl bytes ≠ [] := by
  obtain ⟨a, rest, rfl⟩ := List.exists_cons_of_ne_nil h
  have ha := a.toNat_lt
  have hhead : ∃ tail, encode (a :: rest) = digit (a.toNat / 4) :: tail := by
    cases rest with
    | nil => exact ⟨_, rfl⟩
    | cons b rest =>
        cases rest with
        | nil => exact ⟨_, rfl⟩
        | cons c rest => exact ⟨_, rfl⟩
  obtain ⟨tail, htail⟩ := hhead
  have hdigit : digit (a.toNat / 4) ≠ '=' := digit_ne_pad (by omega)
  rw [encodeUrl, htail, List.filter_cons_of_pos (by simpa using hdigit)]
  exact List.cons_ne_nil _ _

theorem length_encode (bytes : List UInt8) :
    (encode bytes).length = 4 * ((bytes.length + 2) / 3) := by
  induction bytes using encode.induct with
  | case1 => rfl
  | case2 a => simp [encode]
  | case3 a b => simp [encode]
  | case4 a b c rest ih =>
      simp only [encode, List.length_cons, ih]
      omega

theorem length_encodeUrl_le (bytes : List UInt8) :
    (encodeUrl bytes).length ≤ 4 * ((bytes.length + 2) / 3) := by
  rw [encodeUrl, List.length_map, ← length_encode]
  exact List.length_filter_le _ _

/-- The number a digit of a URL stands for. -/
def urlValue (c : Char) : Nat := value (if c = '-' then '+' else if c = '_' then '/' else c)

/-- The bytes of a text without padding. -/
def decodeUrl : List Char → List UInt8
  | a :: b :: c :: d :: rest =>
      UInt8.ofNat (urlValue a * 4 + urlValue b / 16) ::
        UInt8.ofNat (urlValue b % 16 * 16 + urlValue c / 4) ::
          UInt8.ofNat (urlValue c % 4 * 64 + urlValue d) :: decodeUrl rest
  | [a, b, c] =>
      [UInt8.ofNat (urlValue a * 4 + urlValue b / 16),
        UInt8.ofNat (urlValue b % 16 * 16 + urlValue c / 4)]
  | [a, b] => [UInt8.ofNat (urlValue a * 4 + urlValue b / 16)]
  | _ => []

/-- The digit that a digit of a URL stands for. -/
theorem urlValue_urlDigit_of_mem {c : Char} (hc : c ∈ alphabet) :
    urlValue (urlDigit c) = value c := by
  have hminus : '-' ∉ alphabet := by
    rw [alphabet_eq]
    decide
  have hscore : '_' ∉ alphabet := by
    rw [alphabet_eq]
    decide
  have hneminus : c ≠ '-' := fun heq => hminus (heq ▸ hc)
  have hnescore : c ≠ '_' := fun heq => hscore (heq ▸ hc)
  unfold urlValue urlDigit
  split_ifs <;> simp_all

theorem urlValue_urlDigit {n : Nat} (hn : n < 64) : urlValue (urlDigit (digit n)) = n := by
  rw [urlValue_urlDigit_of_mem (digit_mem n), value_digit hn]

theorem filter_pad_cons {n : Nat} (hn : n < 64) (cs : List Char) :
    (digit n :: cs).filter (fun c => decide (c ≠ '=')) =
      digit n :: cs.filter fun c => decide (c ≠ '=') :=
  List.filter_cons_of_pos (by simpa using digit_ne_pad hn)

/-- The bytes are read back. -/
theorem decodeUrl_encodeUrl (bytes : List UInt8) : decodeUrl (encodeUrl bytes) = bytes := by
  rw [encodeUrl]
  induction bytes using encode.induct with
  | case1 => rfl
  | case2 a =>
      have ha := a.toNat_lt
      have hpad : ['=', '='].filter (fun c => decide (c ≠ '=')) = [] := by decide
      have hfirst : UInt8.ofNat (a.toNat / 4 * 4 + a.toNat % 4 * 16 / 16) = a :=
        ofNat_eq (by omega)
      rw [encode, filter_pad_cons (by omega), filter_pad_cons (by omega), hpad]
      simp only [List.map_cons, List.map_nil, decodeUrl,
        urlValue_urlDigit (n := a.toNat / 4) (by omega),
        urlValue_urlDigit (n := a.toNat % 4 * 16) (by omega), hfirst]
  | case3 a b =>
      have ha := a.toNat_lt
      have hb := b.toNat_lt
      have hpad : ['='].filter (fun c => decide (c ≠ '=')) = [] := by decide
      have hfirst : UInt8.ofNat (a.toNat / 4 * 4 + (a.toNat % 4 * 16 + b.toNat / 16) / 16) = a :=
        ofNat_eq (by omega)
      have hsecond : UInt8.ofNat
          ((a.toNat % 4 * 16 + b.toNat / 16) % 16 * 16 + b.toNat % 16 * 4 / 4) = b :=
        ofNat_eq (by omega)
      rw [encode, filter_pad_cons (by omega), filter_pad_cons (by omega),
        filter_pad_cons (by omega), hpad]
      simp only [List.map_cons, List.map_nil, decodeUrl,
        urlValue_urlDigit (n := a.toNat / 4) (by omega),
        urlValue_urlDigit (n := a.toNat % 4 * 16 + b.toNat / 16) (by omega),
        urlValue_urlDigit (n := b.toNat % 16 * 4) (by omega), hfirst, hsecond]
  | case4 a b c rest ih =>
      have ha := a.toNat_lt
      have hb := b.toNat_lt
      have hc := c.toNat_lt
      have hfirst : UInt8.ofNat (a.toNat / 4 * 4 + (a.toNat % 4 * 16 + b.toNat / 16) / 16) = a :=
        ofNat_eq (by omega)
      have hsecond : UInt8.ofNat ((a.toNat % 4 * 16 + b.toNat / 16) % 16 * 16 +
          (b.toNat % 16 * 4 + c.toNat / 64) / 4) = b := ofNat_eq (by omega)
      have hthird : UInt8.ofNat
          ((b.toNat % 16 * 4 + c.toNat / 64) % 4 * 64 + c.toNat % 64) = c := ofNat_eq (by omega)
      rw [encode, filter_pad_cons (by omega), filter_pad_cons (by omega),
        filter_pad_cons (by omega), filter_pad_cons (by omega)]
      simp only [List.map_cons, decodeUrl, urlValue_urlDigit (n := a.toNat / 4) (by omega),
        urlValue_urlDigit (n := a.toNat % 4 * 16 + b.toNat / 16) (by omega),
        urlValue_urlDigit (n := b.toNat % 16 * 4 + c.toNat / 64) (by omega),
        urlValue_urlDigit (n := c.toNat % 64) (by omega), hfirst, hsecond, hthird, ih]

example : encode [104, 105, 33, 63] = "aGkhPw==".toList := by simp [encode, digit, alphabet_eq]

example : encodeUrl [104, 105, 63, 62, 255] = "aGk_Pv8".toList := by
  simp [encodeUrl, encode, digit, urlDigit, alphabet_eq]

end H2a.Library.Base64
