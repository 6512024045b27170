import H2a.Library.JsString
import Mathlib.Data.List.Basic
import Mathlib.Tactic.Common
/-!
# UTF-8

Decoding with replacement, as text files are read: the longest valid start of
an ill-formed sequence becomes one U+FFFD.  Whatever stands before it, encoded
text is decoded to itself (`decode_append_encode`), and a text cut in the middle
of a character ends in U+FFFD (`decode_take_encode`).
-/

namespace H2a.Library.Utf8

/-- The UTF-8 bytes of a text. -/
def encode (cs : List Char) : List UInt8 := cs.flatMap String.utf8EncodeChar

/-- `Buffer.byteLength(s, "utf8")`; a surrogate without its pair is written as U+FFFD. -/
def byteLength (s : JsString) : Nat := (encode (JsString.toText.decode s.units)).length

/-- U+FFFD. -/
def replacement : Char := Char.ofNat 0xFFFD

/-- Between two bytes: at a character boundary, or inside a character with
`more + 1` bytes to come, the next of them between `lower` and `upper`. -/
inductive State where
  | boundary
  | inside (more lower upper codePoint : Nat)
  deriving DecidableEq

/-- The first byte of a character. -/
def first (b : Nat) : List Char × State :=
  if b < 0x80 then ([Char.ofNat b], .boundary)
  else if b < 0xC2 then ([replacement], .boundary)
  else if b < 0xE0 then ([], .inside 0 0x80 0xBF (b - 0xC0))
  else if b < 0xF0 then
    ([], .inside 1 (if b = 0xE0 then 0xA0 else 0x80) (if b = 0xED then 0x9F else 0xBF) (b - 0xE0))
  else if b < 0xF5 then
    ([], .inside 2 (if b = 0xF0 then 0x90 else 0x80) (if b = 0xF4 then 0x8F else 0xBF) (b - 0xF0))
  else ([replacement], .boundary)

/-- A first byte is a character, or begins one. -/
theorem first_of {P : List Char × State → Prop} (hchar : ∀ c, P ([c], .boundary))
    (hinside : ∀ more lower upper codePoint, P ([], .inside more lower upper codePoint)) (b : Nat) :
    P (first b) := by
  unfold first
  refine iteInduction (fun _ => hchar _) fun _ => ?_
  refine iteInduction (fun _ => hchar _) fun _ => ?_
  refine iteInduction (fun _ => hinside _ _ _ _) fun _ => ?_
  refine iteInduction (fun _ => hinside _ _ _ _) fun _ => ?_
  exact iteInduction (fun _ => hinside _ _ _ _) fun _ => hchar _

/-- One byte: the characters it completes, and the state after it. -/
def step (s : State) (b : UInt8) : List Char × State :=
  match s with
  | .boundary => first b.toNat
  | .inside more lower upper codePoint =>
      if lower ≤ b.toNat ∧ b.toNat ≤ upper then
        let codePoint := codePoint * 64 + (b.toNat - 0x80)
        match more with
        | 0 => ([Char.ofNat codePoint], .boundary)
        | more + 1 => ([], .inside more 0x80 0xBF codePoint)
      else
        -- the byte does not belong to the character: it is read again as a first byte
        (replacement :: (first b.toNat).1, (first b.toNat).2)

/-- What the end of the input makes of a state. -/
def flush : State → List Char
  | .boundary => []
  | .inside .. => [replacement]

def decodeFrom (s : State) : List UInt8 → List Char
  | [] => flush s
  | b :: bs => (step s b).1 ++ decodeFrom (step s b).2 bs

/-- Decode with replacement. -/
def decode (bs : List UInt8) : List Char := decodeFrom .boundary bs

/-! ## Encoded text -/

theorem encode_append (cs ds : List Char) : encode (cs ++ ds) = encode cs ++ encode ds := by
  simp [encode]

theorem encode_cons (c : Char) (cs : List Char) :
    encode (c :: cs) = String.utf8EncodeChar c ++ encode cs := by
  simp [encode]

theorem toNat_char (c : Char) : c.toNat < 0xD800 ∨ 0xDFFF < c.toNat ∧ c.toNat < 0x110000 :=
  c.valid

/-- The bounds of a state are those of a continuation byte. -/
def State.Ok : State → Prop
  | .boundary => True
  | .inside _ lower upper _ => 0x80 ≤ lower ∧ upper ≤ 0xBF

/-- A byte that cannot continue a character ends the one before it. -/
theorem step_first {s : State} (hs : s.Ok) {b : UInt8}
    (hb : b.toNat < 0x80 ∨ 0xC0 ≤ b.toNat) :
    step s b = (flush s ++ (first b.toNat).1, (first b.toNat).2) := by
  cases s with
  | boundary => rfl
  | inside more lower upper codePoint =>
      obtain ⟨hlower, hupper⟩ := hs
      have hout : ¬(lower ≤ b.toNat ∧ b.toNat ≤ upper) := by omega
      simp [step, hout, flush]

theorem toNat_ofNat {n : Nat} (hn : n < 256) : (UInt8.ofNat n).toNat = n := by
  rw [UInt8.toNat_ofNat']
  omega

theorem first_one {b : Nat} (hb : b < 0x80) : first b = ([Char.ofNat b], .boundary) := by
  simp [first, hb]

theorem first_two {b : Nat} (hlow : 0xC2 ≤ b) (hhigh : b < 0xE0) :
    first b = ([], .inside 0 0x80 0xBF (b - 0xC0)) := by
  rw [first, if_neg (by omega), if_neg (by omega), if_pos hhigh]

theorem first_three {b : Nat} (hlow : 0xE0 ≤ b) (hhigh : b < 0xF0) :
    first b = ([], .inside 1 (if b = 0xE0 then 0xA0 else 0x80)
      (if b = 0xED then 0x9F else 0xBF) (b - 0xE0)) := by
  rw [first, if_neg (by omega), if_neg (by omega), if_neg (by omega), if_pos hhigh]

theorem first_four {b : Nat} (hlow : 0xF0 ≤ b) (hhigh : b < 0xF5) :
    first b = ([], .inside 2 (if b = 0xF0 then 0x90 else 0x80)
      (if b = 0xF4 then 0x8F else 0xBF) (b - 0xF0)) := by
  rw [first, if_neg (by omega), if_neg (by omega), if_neg (by omega), if_neg (by omega),
    if_pos hhigh]

theorem step_last {lower upper codePoint n : Nat} (hn : n < 256) (hlower : lower ≤ n)
    (hupper : n ≤ upper) :
    step (.inside 0 lower upper codePoint) (UInt8.ofNat n) =
      ([Char.ofNat (codePoint * 64 + (n - 0x80))], .boundary) := by
  simp [step, toNat_ofNat hn, hlower, hupper]

theorem step_more {more lower upper codePoint n : Nat} (hn : n < 256) (hlower : lower ≤ n)
    (hupper : n ≤ upper) :
    step (.inside (more + 1) lower upper codePoint) (UInt8.ofNat n) =
      ([], .inside more 0x80 0xBF (codePoint * 64 + (n - 0x80))) := by
  simp [step, toNat_ofNat hn, hlower, hupper]

theorem step_first_ofNat {s : State} (hs : s.Ok) {n : Nat} (hn : n < 256)
    (hfirst : n < 0x80 ∨ 0xC0 ≤ n) :
    step s (UInt8.ofNat n) = (flush s ++ (first n).1, (first n).2) := by
  rw [step_first hs (by rw [toNat_ofNat hn]; exact hfirst), toNat_ofNat hn]

/-- The bytes of a character: the first `inner` of them emit nothing once the
pending characters are flushed, and the last one emits it. -/
theorem decodeFrom_encodeChar {s : State} (hs : s.Ok) (c : Char) (bs : List UInt8) :
    decodeFrom s (String.utf8EncodeChar c ++ bs) = flush s ++ c :: decodeFrom .boundary bs := by
  have hv := toNat_char c
  have hval : c.val.toNat = c.toNat := rfl
  have hc : Char.ofNat c.toNat = c := Char.ofNat_toNat c
  simp only [String.utf8EncodeChar, hval]
  generalize c.toNat = v at hv hc
  split_ifs with h1 h2 h3
  · simp only [List.cons_append, List.nil_append, decodeFrom]
    rw [step_first_ofNat hs (by omega) (by omega), first_one (by omega), hc]
    simp
  · simp only [List.cons_append, List.nil_append, decodeFrom]
    rw [step_first_ofNat hs (by omega) (by omega), first_two (by omega) (by omega),
      step_last (by omega) (by omega) (by omega),
      show (v / 64 % 32 + 192 - 192) * 64 + (v % 64 + 128 - 128) = v by omega, hc]
    simp
  · simp only [List.cons_append, List.nil_append, decodeFrom]
    rw [step_first_ofNat hs (by omega) (by omega), first_three (by omega) (by omega),
      step_more (by omega) (by split_ifs <;> omega) (by split_ifs <;> omega),
      step_last (by omega) (by omega) (by omega),
      show ((v / 4096 % 16 + 224 - 224) * 64 + (v / 64 % 64 + 128 - 128)) * 64 +
        (v % 64 + 128 - 128) = v by omega, hc]
    simp
  · simp only [List.cons_append, List.nil_append, decodeFrom]
    rw [step_first_ofNat hs (by omega) (by omega), first_four (by omega) (by omega),
      step_more (by omega) (by split_ifs <;> omega) (by split_ifs <;> omega),
      step_more (by omega) (by omega) (by omega), step_last (by omega) (by omega) (by omega),
      show (((v / 262144 % 8 + 240 - 240) * 64 + (v / 4096 % 64 + 128 - 128)) * 64 +
        (v / 64 % 64 + 128 - 128)) * 64 + (v % 64 + 128 - 128) = v by omega, hc]
    simp

theorem decodeFrom_encode {s : State} (hs : s.Ok) (c : Char) (cs : List Char)
    (bs : List UInt8) :
    decodeFrom s (encode (c :: cs) ++ bs) =
      flush s ++ c :: cs ++ decodeFrom .boundary bs := by
  induction cs generalizing s c with
  | nil => simpa [encode] using decodeFrom_encodeChar hs c bs
  | cons d ds ih =>
      rw [encode_cons, List.append_assoc, decodeFrom_encodeChar hs c]
      have hrest := ih (s := .boundary) trivial d
      rw [hrest]
      simp [flush]

theorem decode_encode_append (cs : List Char) (bs : List UInt8) :
    decode (encode cs ++ bs) = cs ++ decode bs := by
  cases cs with
  | nil => simp [encode]
  | cons c cs => exact decodeFrom_encode (s := .boundary) trivial c cs bs

/-! ## Text cut short -/

/-- A character cut short is one U+FFFD. -/
theorem decode_encode (cs : List Char) : decode (encode cs) = cs := by
  have h := decode_encode_append cs []
  rwa [List.append_nil, show decode [] = [] from rfl, List.append_nil] at h

theorem decode_take_encodeChar (c : Char) {k : Nat} (hpos : 0 < k)
    (hlt : k < (String.utf8EncodeChar c).length) :
    decode ((String.utf8EncodeChar c).take k) = [replacement] := by
  have hv := toNat_char c
  have hval : c.val.toNat = c.toNat := rfl
  have hok : State.boundary.Ok := trivial
  simp only [String.utf8EncodeChar, hval] at hlt ⊢
  generalize c.toNat = v at hv hlt ⊢
  split_ifs at hlt ⊢ with h1 h2 h3
  · simp only [List.length_cons, List.length_nil] at hlt
    omega
  · obtain rfl : k = 1 := by
      simp only [List.length_cons, List.length_nil] at hlt
      omega
    simp only [List.take_succ_cons, List.take_zero, decode, decodeFrom]
    rw [step_first_ofNat hok (by omega) (by omega), first_two (by omega) (by omega)]
    rfl
  · simp only [List.length_cons, List.length_nil] at hlt
    have hcases : k = 1 ∨ k = 2 := by omega
    rcases hcases with rfl | rfl
    · simp only [List.take_succ_cons, List.take_zero, decode, decodeFrom]
      rw [step_first_ofNat hok (by omega) (by omega), first_three (by omega) (by omega)]
      rfl
    · simp only [List.take_succ_cons, List.take_zero, decode, decodeFrom]
      rw [step_first_ofNat hok (by omega) (by omega), first_three (by omega) (by omega),
        step_more (by omega) (by split_ifs <;> omega) (by split_ifs <;> omega)]
      rfl
  · simp only [List.length_cons, List.length_nil] at hlt
    have hcases : k = 1 ∨ k = 2 ∨ k = 3 := by omega
    rcases hcases with rfl | rfl | rfl
    · simp only [List.take_succ_cons, List.take_zero, decode, decodeFrom]
      rw [step_first_ofNat hok (by omega) (by omega), first_four (by omega) (by omega)]
      rfl
    · simp only [List.take_succ_cons, List.take_zero, decode, decodeFrom]
      rw [step_first_ofNat hok (by omega) (by omega), first_four (by omega) (by omega),
        step_more (by omega) (by split_ifs <;> omega) (by split_ifs <;> omega)]
      rfl
    · simp only [List.take_succ_cons, List.take_zero, decode, decodeFrom]
      rw [step_first_ofNat hok (by omega) (by omega), first_four (by omega) (by omega),
        step_more (by omega) (by split_ifs <;> omega) (by split_ifs <;> omega),
        step_more (by omega) (by omega) (by omega)]
      rfl

/-- Bytes cut short decode to a part of the text, followed by U+FFFD when the
cut falls inside a character. -/
theorem decode_take_encode (cs : List Char) (k : Nat) :
    ∃ ds es, cs = ds ++ es ∧
      (decode ((encode cs).take k) = ds ∧ ((encode cs).length ≤ k → es = []) ∨
        es ≠ [] ∧ decode ((encode cs).take k) = ds ++ [replacement]) := by
  induction cs generalizing k with
  | nil => exact ⟨[], [], rfl, Or.inl ⟨by simp [encode, decode, decodeFrom, flush], fun _ => rfl⟩⟩
  | cons c cs ih =>
      rw [encode_cons, List.take_append]
      by_cases hk : k < (String.utf8EncodeChar c).length
      · refine ⟨[], c :: cs, rfl, ?_⟩
        have hnone : k - (String.utf8EncodeChar c).length = 0 := by omega
        rw [hnone, List.take_zero, List.append_nil]
        by_cases hpos : 0 < k
        · exact Or.inr ⟨by simp, by simpa using decode_take_encodeChar c hpos hk⟩
        · obtain rfl : k = 0 := by omega
          refine Or.inl ⟨by simp [decode, decodeFrom, flush], fun hle => ?_⟩
          rw [List.length_append] at hle
          omega
      · obtain ⟨ds, es, hsplit, hcut⟩ := ih (k - (String.utf8EncodeChar c).length)
        refine ⟨c :: ds, es, by simp [hsplit], ?_⟩
        have hwhole : (String.utf8EncodeChar c).take k = encode [c] := by
          rw [List.take_of_length_le (by omega)]
          simp [encode]
        rw [hwhole, decode_encode_append]
        rcases hcut with ⟨hdecode, hall⟩ | ⟨hne, hdecode⟩
        · refine Or.inl ⟨by rw [hdecode, List.singleton_append], fun hle => hall ?_⟩
          rw [List.length_append] at hle
          omega
        · exact Or.inr ⟨hne, by rw [hdecode, List.singleton_append, List.cons_append]⟩

end H2a.Library.Utf8
