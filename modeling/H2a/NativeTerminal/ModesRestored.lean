import H2a.NativeTerminal.TerminalModes
import Mathlib.Data.Finset.Lattice.Lemmas
/-!
# Modes made again

A fresh tracker that is fed `restoreSequence()` and `replayPrefix()` of a tracker continues as that
tracker does, unless flags of a keyboard are negative: the operators on 32 bits give such flags, and
no control sequence sets them.
-/

namespace H2a.NativeTerminal

open H2a.Library

namespace TerminalModeTracker

/-! ## One code unit after another -/

/-- A code unit that is a character of its own. -/
def feedUnit (tracker : TerminalModeTracker) (u : UInt16) : TerminalModeTracker :=
  tracker.feedCharacter [u]

/-- Code units. -/
def feedUnits (tracker : TerminalModeTracker) (units : List UInt16) : TerminalModeTracker :=
  units.foldl feedUnit tracker

theorem feedUnits_append (tracker : TerminalModeTracker) (a b : List UInt16) :
    tracker.feedUnits (a ++ b) = (tracker.feedUnits a).feedUnits b := List.foldl_append

theorem isBetween_one (first last u : UInt16) :
    isBetween first last [u] = decide (first ≤ u ∧ u ≤ last) := by
  rw [isBetween, List.isEmpty_nil, Bool.and_true, Bool.eq_iff_iff]
  simp only [Bool.and_eq_true, Bool.or_eq_true, decide_eq_true_eq, beq_iff_eq,
    UInt16.lt_iff_toNat_lt, UInt16.le_iff_toNat_le, ← UInt16.toNat_inj]
  omega

theorem ne_of_surrogate {u x : UInt16} (hu : 0xD800 ≤ u.toNat) (rest : List UInt16)
    (hx : x.toNat < 0xD800) : u :: rest ≠ [x] := by
  intro h
  rw [(List.cons.inj h).1] at hu
  omega

theorem isBetween_surrogate {first last u : UInt16} (hu : 0xD800 ≤ u.toNat) (rest : List UInt16)
    (hlast : last.toNat < 0xD800) : isBetween first last (u :: rest) = false := by
  have hlt : ¬u < last := by
    rw [UInt16.lt_iff_toNat_lt]
    omega
  have hne : u ≠ last := by
    rintro rfl
    omega
  simp [isBetween, hlt, hne]

/-- Surrogates: the source names none. -/
theorem feedCharacter_surrogate (tracker : TerminalModeTracker) {u : UInt16}
    (hu : 0xD800 ≤ u.toNat) {rest : List UInt16} (hrest : u = 0xffff → rest = []) :
    tracker.feedCharacter (u :: rest) = { tracker with
      state := if tracker.state = .string ∨ tracker.state = .stringEscape then .string
        else .text } := by
  have hne (x : UInt16) (hx : x.toNat < 0xD800) : ¬u :: rest = [x] := ne_of_surrogate hu rest hx
  have hprintable : isBetween (unit ' ') 0xffff (u :: rest) = true := by
    have hle : unit ' ' ≤ u := by
      rw [UInt16.le_iff_toNat_le]
      exact le_trans (by decide) hu
    have hlast : u < 0xffff ∨ u = 0xffff := by
      have := u.toNat_lt
      rw [UInt16.lt_iff_toNat_lt, ← UInt16.toNat_inj]
      change u.toNat < 65535 ∨ u.toNat = 65535
      omega
    rcases hlast with hlast | hlast
    · rw [isBetween, decide_eq_true hle]
      simp [hlast]
    · rw [isBetween, decide_eq_true hle, hrest hlast, hlast]
      rfl
  have hcontrol : ¬(u :: rest = [0x18] ∨ u :: rest = [0x1a]) :=
    not_or.mpr ⟨hne _ (by decide), hne _ (by decide)⟩
  rw [feedCharacter, if_neg hcontrol]
  by_cases hstring : tracker.state = .string ∨ tracker.state = .stringEscape
  · rw [if_pos hstring, if_pos hstring, if_neg (hne _ (by decide)), if_neg]
    rintro (h | ⟨-, h⟩ | ⟨-, h⟩)
    · exact hne _ (by decide) h
    · exact hne _ (by decide) h
    · exact hne _ (by decide) h
  · rw [if_neg hstring, if_neg hstring, if_neg (hne _ (by decide)), if_neg (hne _ (by decide)),
      if_neg (by simp [hne])]
    cases hstate : tracker.state with
    | text => simp [← hstate]
    | escape =>
        simp only [feedEscape]
        rw [if_neg (hne _ (by decide)), if_neg, if_neg, if_neg (hne _ (by decide))]
        · exact not_or.mpr ⟨hne _ (by decide), hne _ (by decide)⟩
        · simp only [List.mem_cons, List.not_mem_nil, or_false, not_or]
          exact ⟨hne _ (by decide), hne _ (by decide), hne _ (by decide), hne _ (by decide),
            hne _ (by decide)⟩
    | csi =>
        simp only [feedCsi]
        rw [isBetween_surrogate hu rest (by decide), isBetween_surrogate hu rest (by decide),
          hprintable]
        simp
    | string => exact absurd (Or.inl hstate) hstring
    | stringEscape => exact absurd (Or.inr hstate) hstring

/-- A pair of surrogates is read as its two halves would be. -/
theorem feedCharacter_pair (tracker : TerminalModeTracker) {u v : UInt16}
    (hu : isHighSurrogate u = true) (hv : isLowSurrogate v = true) :
    tracker.feedCharacter [u, v] = (tracker.feedUnit u).feedUnit v := by
  simp only [isHighSurrogate, isLowSurrogate, Bool.and_eq_true, decide_eq_true_eq] at hu hv
  have hne : u ≠ 0xffff := by
    rintro rfl
    exact absurd hu.2 (by decide)
  rw [feedUnit, feedUnit, feedCharacter_surrogate tracker hu.1 (fun h => absurd h hne),
    feedCharacter_surrogate _ (by omega) (fun _ => rfl),
    feedCharacter_surrogate tracker hu.1 (fun _ => rfl)]
  by_cases hstring : tracker.state = .string ∨ tracker.state = .stringEscape
  · simp [hstring]
  · simp [hstring]

theorem feed_eq (tracker : TerminalModeTracker) (data : JsString) :
    tracker.feed data = tracker.feedUnits data.units := by
  rw [feed, feedUnits]
  generalize data.units = units
  induction units using characters.induct generalizing tracker with
  | case1 => rfl
  | case2 u => rfl
  | case3 u v rest hpair ih =>
      rw [Bool.and_eq_true] at hpair
      rw [characters, if_pos (by rw [hpair.1, hpair.2]; rfl), List.foldl_cons, List.foldl_cons,
        List.foldl_cons, ih, feedCharacter_pair tracker hpair.1 hpair.2]
  | case4 u v rest hpair ih =>
      rw [characters, if_neg hpair, List.foldl_cons, List.foldl_cons, ih]
      rfl

/-- A text is read alike in one piece and in two. -/
theorem feed_append (tracker : TerminalModeTracker) (a b : JsString) :
    tracker.feed (a ++ b) = (tracker.feed a).feed b := by
  rw [feed_eq, feed_eq, feed_eq, JsString.append_units, feedUnits_append]

/-! ## What is forgotten -/

/-- The kind of a string matters inside of it, and the parameters inside a control sequence. -/
def canonical (tracker : TerminalModeTracker) : TerminalModeTracker :=
  { tracker with
    osc := (tracker.state = .string || tracker.state = .stringEscape) && tracker.osc
    csi := if tracker.state = .csi then tracker.csi else [] }

theorem canonical_canonical (tracker : TerminalModeTracker) :
    tracker.canonical.canonical = tracker.canonical := by
  rcases tracker with ⟨modes, state, osc, csi⟩
  cases state <;> simp [canonical]

theorem feedCharacter_text (modes : TerminalModes) (osc osc' : Bool) (csi csi' c : List UInt16) :
    (feedCharacter ⟨modes, .text, osc, csi⟩ c).canonical =
      (feedCharacter ⟨modes, .text, osc', csi'⟩ c).canonical := by
  simp only [feedCharacter, reduceCtorEq, or_self, if_false, apply_ite canonical]
  rfl

theorem feedCharacter_escape (modes : TerminalModes) (osc osc' : Bool) (csi csi' c : List UInt16) :
    (feedCharacter ⟨modes, .escape, osc, csi⟩ c).canonical =
      (feedCharacter ⟨modes, .escape, osc', csi'⟩ c).canonical := by
  simp only [feedCharacter, feedEscape, reduceCtorEq, or_self, if_false, apply_ite canonical]
  rfl

theorem feedCharacter_csi (modes : TerminalModes) (osc osc' : Bool) (csi c : List UInt16) :
    (feedCharacter ⟨modes, .csi, osc, csi⟩ c).canonical =
      (feedCharacter ⟨modes, .csi, osc', csi⟩ c).canonical := by
  simp only [feedCharacter, feedCsi, reduceCtorEq, or_self, if_false, apply_ite canonical]
  rfl

theorem feedCharacter_string (modes : TerminalModes) {state : ParserState}
    (hstate : state = .string ∨ state = .stringEscape) (osc : Bool) (csi csi' c : List UInt16) :
    (feedCharacter ⟨modes, state, osc, csi⟩ c).canonical =
      (feedCharacter ⟨modes, state, osc, csi'⟩ c).canonical := by
  simp only [feedCharacter, hstate, if_true]
  split_ifs <;> rfl

theorem canonical_feedCharacter (tracker : TerminalModeTracker) (c : List UInt16) :
    (tracker.canonical.feedCharacter c).canonical = (tracker.feedCharacter c).canonical := by
  rcases tracker with ⟨modes, state, osc, csi⟩
  cases state with
  | text => exact feedCharacter_text modes _ _ _ _ c
  | escape => exact feedCharacter_escape modes _ _ _ _ c
  | csi => exact feedCharacter_csi modes _ _ _ c
  | string => exact feedCharacter_string modes (Or.inl rfl) osc _ _ c
  | stringEscape => exact feedCharacter_string modes (Or.inr rfl) osc _ _ c

theorem canonical_feedUnits (tracker : TerminalModeTracker) (units : List UInt16) :
    (tracker.canonical.feedUnits units).canonical = (tracker.feedUnits units).canonical := by
  induction units generalizing tracker with
  | nil => exact canonical_canonical tracker
  | cons u units ih =>
      change ((tracker.canonical.feedUnit u).feedUnits units).canonical =
        ((tracker.feedUnit u).feedUnits units).canonical
      rw [← ih (tracker.canonical.feedUnit u), ← ih (tracker.feedUnit u)]
      congr 2
      exact canonical_feedCharacter tracker [u]

/-- Trackers that are equal in all that matters go on alike. -/
theorem feedUnits_congr {a b : TerminalModeTracker} (h : a.canonical = b.canonical)
    (units : List UInt16) : (a.feedUnits units).canonical = (b.feedUnits units).canonical := by
  rw [← canonical_feedUnits a, h, canonical_feedUnits b]

theorem replayPrefix_canonical (tracker : TerminalModeTracker) :
    tracker.canonical.replayPrefix = tracker.replayPrefix := by
  rcases tracker with ⟨modes, state, osc, csi⟩
  cases state <;> simp [canonical, replayPrefix]

/-- The three sequences that a tracker prints. -/
def sequences (tracker : TerminalModeTracker) : List UInt16 × List UInt16 × List UInt16 :=
  (tracker.resetSequence, tracker.restoreSequence, tracker.replayPrefix)

theorem sequences_congr {a b : TerminalModeTracker} (h : a.canonical = b.canonical) :
    a.sequences = b.sequences := by
  have hcanonical (tracker : TerminalModeTracker) :
      tracker.sequences = tracker.canonical.sequences := by
    rw [sequences, sequences, replayPrefix_canonical]
    rfl
  rw [hcanonical a, h, hcanonical b]

/-! ## Sequences that are read back -/

/-- Units that make `after` of `before`, and leave the parser where it was. -/
def Restores (units : List UInt16) (before after : TerminalModes) : Prop :=
  ∀ osc csi, ∃ csi', feedUnits ⟨before, .text, osc, csi⟩ units = ⟨after, .text, osc, csi'⟩

theorem restores_nil (modes : TerminalModes) : Restores [] modes modes :=
  fun _ csi => ⟨csi, rfl⟩

theorem Restores.append {a b : List UInt16} {before between after : TerminalModes}
    (ha : Restores a before between) (hb : Restores b between after) :
    Restores (a ++ b) before after := by
  intro osc csi
  obtain ⟨csi₁, h₁⟩ := ha osc csi
  obtain ⟨csi₂, h₂⟩ := hb osc csi₁
  exact ⟨csi₂, by rw [feedUnits_append, h₁, h₂]⟩

/-- The code units of the parameters of a control sequence. -/
abbrev IsParameter (u : UInt16) : Prop := 0x20 ≤ u.toNat ∧ u.toNat ≤ 0x3f

theorem feedUnit_parameter (modes : TerminalModes) (osc : Bool) {csi : List UInt16} {u : UInt16}
    (hu : IsParameter u) (hlength : csi.length < 128) :
    feedUnit ⟨modes, .csi, osc, csi⟩ u = ⟨modes, .csi, osc, csi ++ [u]⟩ := by
  have hne (x : UInt16) (hx : ¬IsParameter x) : ¬[u] = [x] := by
    intro h
    exact hx ((List.cons.inj h).1 ▸ hu)
  have hfinal : isBetween (unit '@') (unit '~') [u] = false := by
    rw [isBetween_one, decide_eq_false_iff_not, UInt16.le_iff_toNat_le]
    exact fun h => absurd (le_trans h.1 hu.2) (by decide)
  have hparameter : isBetween (unit ' ') (unit '?') [u] = true := by
    rw [isBetween_one, decide_eq_true_eq, UInt16.le_iff_toNat_le, UInt16.le_iff_toNat_le]
    exact hu
  have hcontrol (x : UInt16) (hx : x.toNat < 0x20 ∨ 0x3f < x.toNat) : ¬[u] = [x] := by
    apply hne
    rw [IsParameter]
    omega
  simp [feedUnit, feedCharacter, feedCsi, hfinal, hparameter, hlength,
    hcontrol 0x18 (by decide), hcontrol 0x1a (by decide), hcontrol esc (by decide),
    hcontrol 0x9b (by decide), hcontrol 0x9d (by decide), hcontrol 0x90 (by decide),
    hcontrol 0x9e (by decide), hcontrol 0x9f (by decide)]

theorem feedUnits_parameters (modes : TerminalModes) (osc : Bool) {params : List UInt16}
    (hparams : ∀ u ∈ params, IsParameter u) (csi : List UInt16)
    (hlength : csi.length + params.length ≤ 128) :
    feedUnits ⟨modes, .csi, osc, csi⟩ params = ⟨modes, .csi, osc, csi ++ params⟩ := by
  induction params generalizing csi with
  | nil => rw [List.append_nil]; rfl
  | cons u params ih =>
      rw [List.length_cons] at hlength
      have hu := feedUnit_parameter modes osc (hparams u List.mem_cons_self)
        (show csi.length < 128 by omega)
      have htail := ih (fun u hu => hparams u (List.mem_cons_of_mem _ hu)) (csi ++ [u])
        (show (csi ++ [u]).length + params.length ≤ 128 by
          rw [List.length_append, List.length_singleton]
          omega)
      change feedUnits (feedUnit _ u) params = _
      rw [hu, htail, List.append_assoc, List.singleton_append]

/-- A control sequence does what it says. -/
theorem restores_csi {params : List UInt16} (final : Char) (modes : TerminalModes)
    (hparams : ∀ u ∈ params, IsParameter u) (hlength : params.length ≤ 128)
    (hfinal : final ∈ ['h', 'l', 'm', 'u']) :
    Restores (csiUnits params final) modes (modes.apply params (unit final)) := by
  intro osc csi
  refine ⟨params, ?_⟩
  have hopen : feedUnits ⟨modes, .text, osc, csi⟩ [esc, unit '['] = ⟨modes, .csi, osc, []⟩ := rfl
  have hread := feedUnits_parameters modes osc hparams []
    (by rw [List.length_nil, Nat.zero_add]; exact hlength)
  have hclose : feedUnit ⟨modes, .csi, osc, params⟩ (unit final) =
      ⟨modes.apply params (unit final), .text, osc, params⟩ := by
    simp only [List.mem_cons, List.not_mem_nil, or_false] at hfinal
    rcases hfinal with rfl | rfl | rfl | rfl <;> rfl
  change feedUnits _ ([esc, unit '['] ++ (params ++ [unit final])) = _
  rw [feedUnits_append, hopen, feedUnits_append, hread]
  exact hclose

/-! ## Keyboards -/

/-- The flags that control sequences make of a stack: negative ones are in none. -/
def settable (stack : List Int) : List Int :=
  max 0 (stack.headD 0) :: stack.tail.filter (0 ≤ ·)

theorem isParameter_of_isDigitUnit {u : UInt16} (h : isDigitUnit u = true) : IsParameter u := by
  simp only [isDigitUnit, Bool.and_eq_true, decide_eq_true_eq] at h
  rw [IsParameter]
  omega

theorem isParameter_decimal {kind : UInt16} (hkind : IsParameter kind) (n : Nat) :
    ∀ u ∈ kind :: decimalUnits n, IsParameter u := by
  intro u hu
  rcases List.mem_cons.mp hu with rfl | hu
  · exact hkind
  · exact isParameter_of_isDigitUnit (isDigitUnit_decimalUnits n u hu)

theorem length_decimal_le {n : Nat} (h : n ≤ 2 ^ 53 - 1) (kind : UInt16) :
    (kind :: decimalUnits n).length ≤ 128 := by
  have hlength := length_decimalUnits_le (n := n) (k := 16) (by decide) (by omega)
  rw [List.length_cons]
  omega

theorem namedFlags_decimal {kind : UInt16} (hkind : kind ∈ [unit '>', unit '<', unit '='])
    (n : Nat) : namedFlags (kind :: decimalUnits n) = some (kind, decimalUnits n, none) := by
  have hdrop : (decimalUnits n).dropWhile isDigitUnit = [] :=
    List.dropWhile_eq_nil_iff.mpr (isDigitUnit_decimalUnits n)
  have htake : (decimalUnits n).takeWhile isDigitUnit = decimalUnits n :=
    List.takeWhile_eq_self_iff.mpr (isDigitUnit_decimalUnits n)
  rw [namedFlags, if_pos hkind, hdrop, htake]

/-- `CSI kind n u` changes the keyboard of the screen. -/
theorem apply_flags (modes : TerminalModes) {kind : UInt16}
    (hkind : kind ∈ [unit '>', unit '<', unit '=']) {n : Nat} (hn : n ≤ 2 ^ 53 - 1) :
    modes.apply (kind :: decimalUnits n) (unit 'u') =
      if modes.alternate then
        { modes with alternateKeyboard := keyboardAfter kind none n modes.alternateKeyboard }
      else { modes with mainKeyboard := keyboardAfter kind none n modes.mainKeyboard } := by
  have hdigits : (decimalUnits n).isEmpty = false := by
    rw [List.isEmpty_eq_false_iff]
    exact decimalUnits_ne_nil n
  have hsmall : ¬2 ^ 53 - 1 < n := by omega
  rw [TerminalModes.apply, if_neg (by decide), if_neg (by decide), if_pos rfl,
    namedFlags_decimal hkind]
  simp only [hdigits, decimalValue_decimalUnits, hsmall, if_false, Bool.false_eq_true]

theorem numberUnits_of_nonneg {n : Int} (h : 0 ≤ n) : numberUnits n = decimalUnits n.natAbs := by
  obtain ⟨k, rfl⟩ := Int.eq_ofNat_of_zero_le h
  rfl

theorem numberUnits_of_neg {n : Int} (h : n < 0) :
    numberUnits n = unit '-' :: decimalUnits n.natAbs := by
  obtain ⟨k, rfl⟩ := Int.eq_negSucc_of_lt_zero h
  rfl

/-- No flags are negative numbers. -/
theorem namedFlags_minus (kind : UInt16) (digits : List UInt16) :
    namedFlags (kind :: unit '-' :: digits) = none := by
  have hdrop : (unit '-' :: digits).dropWhile isDigitUnit = unit '-' :: digits := rfl
  have hminus : unit '-' ≠ unit ';' := by decide
  rw [namedFlags]
  split_ifs
  · rw [hdrop]
    split
    case h_1 h => cases h
    case h_2 h =>
      rw [if_neg]
      rintro ⟨heq, -⟩
      exact hminus ((List.cons.inj h).1.trans heq)
    case h_3 => rfl
  · rfl

theorem restores_minus (modes : TerminalModes) (kind : UInt16) (hkind : IsParameter kind) {n : Int}
    (hn : n < 0) (hsafe : n.natAbs ≤ 2 ^ 53 - 1) :
    Restores (csiUnits (kind :: numberUnits n) 'u') modes modes := by
  have hparams : ∀ u ∈ kind :: unit '-' :: decimalUnits n.natAbs, IsParameter u := by
    intro u hu
    rcases List.mem_cons.mp hu with rfl | hu
    · exact hkind
    · exact isParameter_decimal (by decide) _ u hu
  have hlength := length_decimal_le hsafe (unit '-')
  have hdigits := length_decimalUnits_le (n := n.natAbs) (k := 16) (by decide) (by omega)
  have hrestores := restores_csi 'u' modes hparams
    (by rw [List.length_cons, List.length_cons]; omega) (by decide)
  rw [TerminalModes.apply, if_neg (by decide), if_neg (by decide), if_pos rfl,
    namedFlags_minus] at hrestores
  rw [numberUnits_of_neg hn]
  exact hrestores

/-- The flags of a stack are set one after another; `put` says which stack it is. -/
theorem restores_pushes (put : List Int → TerminalModes)
    (hput : ∀ kind ∈ [unit '>', unit '<', unit '='], ∀ n ≤ 2 ^ 53 - 1, ∀ stack,
      (put stack).apply (kind :: decimalUnits n) (unit 'u') = put (keyboardAfter kind none n stack))
    {flags : List Int} (hsafe : ∀ n ∈ flags, n.natAbs ≤ 2 ^ 53 - 1) (stack : List Int)
    (hlength : stack.length + flags.length ≤ 17) :
    Restores (flags.flatMap fun n => csiUnits (unit '>' :: numberUnits n) 'u') (put stack)
      (put (stack ++ flags.filter (0 ≤ ·))) := by
  induction flags generalizing stack with
  | nil =>
      rw [List.filter_nil, List.append_nil]
      exact restores_nil _
  | cons n flags ih =>
      have hn := hsafe n List.mem_cons_self
      have hflags : ∀ m ∈ flags, m.natAbs ≤ 2 ^ 53 - 1 :=
        fun m hm => hsafe m (List.mem_cons_of_mem _ hm)
      rw [List.length_cons] at hlength
      rw [List.flatMap_cons]
      by_cases hnonneg : 0 ≤ n
      · have hpush : keyboardAfter (unit '>') none n.natAbs stack = stack ++ [n] := by
          have hfull : ¬17 ≤ stack.length := by omega
          rw [keyboardAfter, if_neg (by decide), if_pos rfl, if_neg hfull,
            Int.natAbs_of_nonneg hnonneg]
        have hhead := restores_csi 'u' (put stack) (isParameter_decimal (by decide) n.natAbs)
          (length_decimal_le hn (unit '>')) (by decide)
        have htail := ih hflags (stack ++ [n])
          (by rw [List.length_append, List.length_singleton]; omega)
        rw [hput _ (by decide) _ hn, hpush] at hhead
        rw [List.append_assoc, List.singleton_append] at htail
        rw [List.filter_cons_of_pos (by simpa using hnonneg), numberUnits_of_nonneg hnonneg]
        exact hhead.append htail
      · have hhead := restores_minus (put stack) (unit '>') (by decide) (by omega) hn
        rw [List.filter_cons_of_neg (by simpa using hnonneg)]
        exact hhead.append (ih hflags stack (by omega))

/-- A keyboard is made again from a normal one, up to its negative flags. -/
theorem restores_keyboard (put : List Int → TerminalModes)
    (hput : ∀ kind ∈ [unit '>', unit '<', unit '='], ∀ n ≤ 2 ^ 53 - 1, ∀ stack,
      (put stack).apply (kind :: decimalUnits n) (unit 'u') = put (keyboardAfter kind none n stack))
    {stack : List Int} (hne : stack ≠ []) (hlength : stack.length ≤ 17)
    (hsafe : ∀ n ∈ stack, n.natAbs ≤ 2 ^ 53 - 1) :
    Restores (keyboardRestore stack) (put [0]) (put (settable stack)) := by
  obtain ⟨base, flags, rfl⟩ := List.exists_cons_of_ne_nil hne
  have hn := hsafe base List.mem_cons_self
  rw [List.length_cons] at hlength
  have hbase : Restores
      (if base ≠ 0 then csiUnits (unit '=' :: numberUnits base) 'u' else []) (put [0])
      (put [max 0 base]) := by
    rcases lt_trichotomy base 0 with hneg | hzero | hpos
    · rw [if_pos (by omega), max_eq_left hneg.le]
      exact restores_minus _ _ (by decide) hneg hn
    · rw [if_neg (not_not.mpr hzero), hzero]
      exact restores_nil _
    · have hset : keyboardAfter (unit '=') none base.natAbs [0] = [base] := by
        rw [keyboardAfter, if_neg (by decide), if_neg (by decide)]
        simp [Int.natAbs_of_nonneg hpos.le]
      have hrestores := restores_csi 'u' (put [0]) (isParameter_decimal (by decide) base.natAbs)
        (length_decimal_le hn (unit '=')) (by decide)
      rw [hput _ (by decide) _ hn, hset] at hrestores
      rw [if_pos (by omega), numberUnits_of_nonneg hpos.le, max_eq_right hpos.le]
      exact hrestores
  exact hbase.append (restores_pushes put hput
    (fun n hn => hsafe n (List.mem_cons_of_mem _ hn)) [max 0 base]
    (by rw [List.length_singleton]; omega))

/-! ## Modes -/

theorem namedModes_decimal : ∀ mode ∈ 25 :: decModes,
    namedModes (unit '?' :: decimalUnits mode) = some [mode] := by decide

theorem isParameter_modes : ∀ mode ∈ 25 :: decModes,
    ∀ u ∈ unit '?' :: decimalUnits mode, IsParameter u :=
  fun mode _ => isParameter_decimal (by decide) mode

theorem length_modes : ∀ mode ∈ 25 :: decModes,
    (unit '?' :: decimalUnits mode).length ≤ 128 := by decide

theorem restores_mode (modes : TerminalModes) (final : Char) (hfinal : final ∈ ['h', 'l'])
    {mode : Nat} (hmode : mode ∈ 25 :: decModes) :
    Restores (modeUnits final mode) modes
      (let after := modes.setMode (unit final = unit 'h') mode
       if modes.alternate ≠ after.alternate then { after with alternateKeyboard := [0] }
       else after) := by
  have hrestores := restores_csi final modes (isParameter_modes mode hmode)
    (length_modes mode hmode) (by
      simp only [List.mem_cons, List.not_mem_nil, or_false] at hfinal ⊢
      exact hfinal.elim Or.inl fun h => Or.inr (Or.inl h))
  have happly : modes.apply (unit '?' :: decimalUnits mode) (unit final) =
      (let after := modes.setMode (unit final = unit 'h') mode
       if modes.alternate ≠ after.alternate then { after with alternateKeyboard := [0] }
       else after) := by
    have hunit : unit final = unit 'h' ∨ unit final = unit 'l' := by
      simp only [List.mem_cons, List.not_mem_nil, or_false] at hfinal
      exact hfinal.imp (congrArg unit) (congrArg unit)
    rw [TerminalModes.apply, if_pos hunit, namedModes_decimal mode hmode]
    rfl
  rw [happly] at hrestores
  exact hrestores

/-- Enabled modes are enabled again, while the alternate screen has a normal keyboard. -/
theorem restores_enabled {named : List Nat} (hnamed : ∀ mode ∈ named, mode ∈ decModes)
    (modes : TerminalModes) (halternate : modes.alternateKeyboard = [0]) :
    Restores (named.flatMap (modeUnits 'h')) modes
      { modes with enabled := modes.enabled ∪ named.toFinset } := by
  induction named generalizing modes with
  | nil =>
      rw [List.toFinset_nil, Finset.union_empty]
      exact restores_nil _
  | cons mode named ih =>
      have hmode := hnamed mode List.mem_cons_self
      have hset : modes.setMode true mode =
          { modes with enabled := insert mode modes.enabled } := by
        have hcursor : mode ≠ 25 := by
          rintro rfl
          exact absurd hmode (by decide)
        rw [TerminalModes.setMode, if_neg hcursor, if_pos hmode]
        simp
      have hhead : Restores (modeUnits 'h' mode) modes
          (let after := modes.setMode true mode
           if modes.alternate ≠ after.alternate then { after with alternateKeyboard := [0] }
           else after) :=
        restores_mode modes 'h' (by decide) (List.mem_cons_of_mem _ hmode)
      have hkept : ({ ({ modes with enabled := insert mode modes.enabled } : TerminalModes) with
          alternateKeyboard := [0] } : TerminalModes) =
          { modes with enabled := insert mode modes.enabled } := by
        rw [← halternate]
      simp only [hset, hkept, ite_self] at hhead
      have htail := ih (fun m hm => hnamed m (List.mem_cons_of_mem _ hm))
        { modes with enabled := insert mode modes.enabled } halternate
      have hunion : insert mode modes.enabled ∪ named.toFinset =
          modes.enabled ∪ (mode :: named).toFinset := by
        rw [List.toFinset_cons, Finset.insert_union, Finset.union_insert]
      simp only [hunion] at htail
      rw [List.flatMap_cons]
      exact hhead.append htail

end TerminalModeTracker

/-! ## The state a tracker is in -/

/-- A stack of flags: what stands at its bottom, and at most 16 saved entries. -/
structure KeyboardValid (stack : List Int) : Prop where
  ne_nil : stack ≠ []
  length_le : stack.length ≤ 17
  safe : ∀ flags ∈ stack, flags.natAbs ≤ 2 ^ 53 - 1

structure TerminalModes.Valid (modes : TerminalModes) : Prop where
  enabled : ∀ mode ∈ modes.enabled, mode ∈ decModes
  modifyOtherKeys : modes.modifyOtherKeys ≤ 2
  main : KeyboardValid modes.mainKeyboard
  alternate : KeyboardValid modes.alternateKeyboard
  normal : modes.alternate = false → modes.alternateKeyboard = [0]

structure TerminalModeTracker.Valid (tracker : TerminalModeTracker) : Prop where
  modes : tracker.modes.Valid
  csi : ∀ u ∈ tracker.csi, TerminalModeTracker.IsParameter u
  length : tracker.csi.length ≤ 128

theorem keyboardValid_normal : KeyboardValid [0] := ⟨by decide, by decide, by decide⟩

theorem natAbs_toInt_le (v : BitVec 32) : v.toInt.natAbs ≤ 2 ^ 53 - 1 := by
  have hlt := v.toInt_lt
  have hle := v.le_toInt
  omega

theorem KeyboardValid.after {stack : List Int} (h : KeyboardValid stack) (kind : UInt16)
    (operation : Option UInt16) {n : Nat} (hn : n ≤ 2 ^ 53 - 1) :
    KeyboardValid (keyboardAfter kind operation n stack) := by
  have hpos : 0 < stack.length := List.length_pos_iff.mpr h.ne_nil
  rw [keyboardAfter]
  split_ifs with hpop hpush hfull hor hclear
  · constructor
    · rw [← List.length_pos_iff, List.length_take]
      omega
    · rw [List.length_take]
      have := h.length_le
      omega
    · exact fun flags hflags => h.safe flags (List.mem_of_mem_take hflags)
  · constructor
    · simp
    · rw [List.length_append, List.length_eraseIdx_of_lt (by omega), List.length_singleton]
      have := h.length_le
      omega
    · intro flags hflags
      rcases List.mem_append.mp hflags with hflags | hflags
      · exact h.safe flags (List.mem_of_mem_eraseIdx hflags)
      · rw [List.mem_singleton.mp hflags]
        omega
  · constructor
    · simp
    · rw [List.length_append, List.length_singleton]
      omega
    · intro flags hflags
      rcases List.mem_append.mp hflags with hflags | hflags
      · exact h.safe flags hflags
      · rw [List.mem_singleton.mp hflags]
        omega
  all_goals
    constructor
    · simp
    · rw [List.length_append, List.length_dropLast, List.length_singleton]
      have := h.length_le
      omega
    · intro flags hflags
      rcases List.mem_append.mp hflags with hflags | hflags
      · exact h.safe flags (List.mem_of_mem_dropLast hflags)
      · rw [List.mem_singleton.mp hflags]
        first | exact natAbs_toInt_le _ | omega

namespace TerminalModes

variable {modes : TerminalModes}

theorem valid_normal : Valid .normal :=
  ⟨by simp [normal], by decide, keyboardValid_normal, keyboardValid_normal, fun _ => rfl⟩

theorem setMode_keyboards (on : Bool) (modes : TerminalModes) (mode : Nat) :
    (setMode on modes mode).mainKeyboard = modes.mainKeyboard ∧
      (setMode on modes mode).alternateKeyboard = modes.alternateKeyboard ∧
      (setMode on modes mode).modifyOtherKeys = modes.modifyOtherKeys := by
  rw [setMode]
  split_ifs <;> exact ⟨rfl, rfl, rfl⟩

theorem foldl_setMode_keyboards (on : Bool) (named : List Nat) (modes : TerminalModes) :
    (named.foldl (setMode on) modes).mainKeyboard = modes.mainKeyboard ∧
      (named.foldl (setMode on) modes).alternateKeyboard = modes.alternateKeyboard ∧
      (named.foldl (setMode on) modes).modifyOtherKeys = modes.modifyOtherKeys := by
  induction named generalizing modes with
  | nil => exact ⟨rfl, rfl, rfl⟩
  | cons mode named ih =>
      obtain ⟨hmain, halternate, hkeys⟩ := ih (setMode on modes mode)
      obtain ⟨hmain', halternate', hkeys'⟩ := setMode_keyboards on modes mode
      exact ⟨hmain.trans hmain', halternate.trans halternate', hkeys.trans hkeys'⟩

theorem foldl_setMode_enabled (on : Bool) (named : List Nat) {modes : TerminalModes}
    (h : ∀ mode ∈ modes.enabled, mode ∈ decModes) :
    ∀ mode ∈ (named.foldl (setMode on) modes).enabled, mode ∈ decModes := by
  induction named generalizing modes with
  | nil => exact h
  | cons first named ih =>
      apply ih
      intro mode hmode
      rw [setMode] at hmode
      split_ifs at hmode with hcursor hdec hon
      · exact h mode hmode
      · rcases Finset.mem_insert.mp hmode with rfl | hmode
        · exact hdec
        · exact h mode hmode
      · exact h mode (Finset.mem_of_mem_erase hmode)
      · exact h mode hmode

theorem namedKeys_le {params : List UInt16} {value : Nat} (h : namedKeys params = some value) :
    value ≤ 2 := by
  have hmem := List.mem_of_find?_eq_some h
  simp only [List.mem_cons, List.not_mem_nil, or_false] at hmem
  omega

theorem Valid.apply (h : modes.Valid) (params : List UInt16) (final : UInt16) :
    (modes.apply params final).Valid := by
  rw [TerminalModes.apply]
  split
  case h_1 named hnamed =>
    obtain ⟨hmain, halternate, hkeys⟩ := foldl_setMode_keyboards (final = unit 'h') named modes
    have henabled := foldl_setMode_enabled (final = unit 'h') named h.enabled
    dsimp only
    split_ifs with hscreen
    · exact ⟨henabled, hkeys ▸ h.modifyOtherKeys, hmain ▸ h.main, keyboardValid_normal,
        fun _ => rfl⟩
    · refine ⟨henabled, hkeys ▸ h.modifyOtherKeys, hmain ▸ h.main, halternate ▸ h.alternate,
        fun hnormal => ?_⟩
      rw [halternate]
      exact h.normal ((not_not.mp hscreen).trans hnormal)
  case h_2 =>
    split
    case h_1 value hvalue =>
      split_ifs at hvalue
      exact ⟨h.enabled, namedKeys_le hvalue, h.main, h.alternate, h.normal⟩
    case h_2 =>
      split
      case h_1 => exact h
      case h_2 kind digits operation hflags =>
        dsimp only
        generalize (if digits.isEmpty then if kind = unit '<' then 1 else 0
          else decimalValue digits) = n
        split_ifs with hsafe hscreen
        · exact h
        · refine ⟨h.enabled, h.modifyOtherKeys, h.main, h.alternate.after _ _ (by omega),
            fun hnormal => ?_⟩
          exact absurd (hscreen.symm.trans hnormal) (by decide)
        · exact ⟨h.enabled, h.modifyOtherKeys, h.main.after _ _ (by omega), h.alternate, h.normal⟩

end TerminalModes

namespace TerminalModeTracker

variable {tracker : TerminalModeTracker}

theorem valid_new : Valid .new := ⟨TerminalModes.valid_normal, by simp [new], by simp [new]⟩

theorem Valid.feedUnit (h : tracker.Valid) (u : UInt16) : (tracker.feedUnit u).Valid := by
  have hempty : ∀ v ∈ ([] : List UInt16), IsParameter v := by simp
  rw [TerminalModeTracker.feedUnit, feedCharacter]
  split_ifs
  · exact ⟨h.modes, h.csi, h.length⟩
  · exact ⟨h.modes, h.csi, h.length⟩
  · exact ⟨h.modes, h.csi, h.length⟩
  · exact ⟨h.modes, h.csi, h.length⟩
  · exact ⟨h.modes, h.csi, h.length⟩
  · exact ⟨h.modes, hempty, by simp⟩
  · exact ⟨h.modes, h.csi, h.length⟩
  · split
    · rw [feedEscape]
      split_ifs
      · exact ⟨h.modes, hempty, by simp⟩
      · exact ⟨h.modes, h.csi, h.length⟩
      · exact ⟨⟨h.modes.enabled, h.modes.modifyOtherKeys, h.modes.main, h.modes.alternate,
          h.modes.normal⟩, h.csi, h.length⟩
      · exact ⟨TerminalModes.valid_normal, h.csi, h.length⟩
      · exact ⟨h.modes, h.csi, h.length⟩
    · rw [feedCsi]
      split_ifs with hfinal hparameter hprintable
      · exact ⟨h.modes.apply _ _, h.csi, h.length⟩
      · rw [isBetween_one, decide_eq_true_eq, UInt16.le_iff_toNat_le,
          UInt16.le_iff_toNat_le] at hparameter
        refine ⟨h.modes, fun v hv => ?_, ?_⟩
        · rcases List.mem_append.mp hv with hv | hv
          · exact h.csi v hv
          · rw [List.mem_singleton.mp hv]
            exact hparameter.1
        · rw [List.length_append, List.length_singleton]
          exact hparameter.2
      · exact ⟨h.modes, h.csi, h.length⟩
      · exact h
    · exact h

theorem Valid.feedUnits (h : tracker.Valid) (units : List UInt16) :
    (tracker.feedUnits units).Valid := by
  induction units generalizing tracker with
  | nil => exact h
  | cons u units ih => exact ih (h.feedUnit u)

/-! ## The tracker made again -/

theorem restores_main {modes : TerminalModes} (hvalid : KeyboardValid modes.mainKeyboard) :
    Restores (keyboardRestore modes.mainKeyboard) .normal
      { TerminalModes.normal with mainKeyboard := settable modes.mainKeyboard } := by
  refine restores_keyboard
    (fun stack => { TerminalModes.normal with mainKeyboard := stack }) ?_ hvalid.ne_nil
    hvalid.length_le hvalid.safe
  intro kind hkind n hn stack
  have hscreen : ({ TerminalModes.normal with mainKeyboard := stack } : TerminalModes).alternate =
      false := rfl
  rw [apply_flags _ hkind hn, if_neg (by rw [hscreen]; decide)]

theorem restores_alternate (modes : TerminalModes) (hscreen : modes.alternate = true)
    {stack : List Int} (hvalid : KeyboardValid stack) :
    Restores (keyboardRestore stack) { modes with alternateKeyboard := [0] }
      { modes with alternateKeyboard := settable stack } := by
  refine restores_keyboard (fun stack => { modes with alternateKeyboard := stack }) ?_
    hvalid.ne_nil hvalid.length_le hvalid.safe
  intro kind hkind n hn stack
  have hscreen' : ({ modes with alternateKeyboard := stack } : TerminalModes).alternate = true :=
    hscreen
  rw [apply_flags _ hkind hn, if_pos hscreen']

theorem restores_cursor (modes : TerminalModes) :
    Restores (modeUnits 'l' 25) modes { modes with cursorHidden := true } := by
  have hrestores := restores_mode modes 'l' (by decide) List.mem_cons_self
  have hset : modes.setMode (decide (unit 'l' = unit 'h')) 25 =
      { modes with cursorHidden := true } := rfl
  have hscreen : modes.alternate = (modes.setMode (decide (unit 'l' = unit 'h')) 25).alternate :=
    rfl
  dsimp only at hrestores
  rw [if_neg (not_not.mpr hscreen), hset] at hrestores
  exact hrestores

theorem restores_keypad (modes : TerminalModes) :
    Restores [esc, unit '='] modes { modes with keypad := true } :=
  fun _ csi => ⟨csi, rfl⟩

theorem restores_keys (modes : TerminalModes) {value : Nat} (hvalue : value ≤ 2) :
    Restores (csiUnits ([unit '>', unit '4', unit ';'] ++ decimalUnits value) 'm') modes
      { modes with modifyOtherKeys := value } := by
  have hparams : ∀ value ≤ 2, ([unit '>', unit '4', unit ';'] ++ decimalUnits value).all
      (fun u => decide (IsParameter u)) = true := by decide
  have hlength : ∀ value ≤ 2,
      ([unit '>', unit '4', unit ';'] ++ decimalUnits value).length ≤ 128 := by decide
  have hnamed : ∀ value ≤ 2,
      namedKeys ([unit '>', unit '4', unit ';'] ++ decimalUnits value) = some value := by decide
  have hrestores := restores_csi 'm' modes
    (fun u hu => of_decide_eq_true (List.all_eq_true.mp (hparams value hvalue) u hu))
    (hlength value hvalue) (by decide)
  rw [TerminalModes.apply, if_neg (by decide), if_pos rfl, hnamed value hvalue] at hrestores
  exact hrestores

/-- The modes with the flags that control sequences make. -/
def settableModes (modes : TerminalModes) : TerminalModes :=
  { modes with
    mainKeyboard := settable modes.mainKeyboard
    alternateKeyboard := settable modes.alternateKeyboard }

theorem restores_when {c : Prop} [Decidable c] {units : List UInt16} {before after : TerminalModes}
    (hdo : c → Restores units before after) (hskip : ¬c → before = after) :
    Restores (if c then units else []) before after := by
  by_cases hc : c
  · rw [if_pos hc]
    exact hdo hc
  · rw [if_neg hc, hskip hc]
    exact restores_nil after

theorem alternate_congr {a b : TerminalModes} (h : a.enabled = b.enabled) :
    a.alternate = b.alternate := by
  rw [TerminalModes.alternate, TerminalModes.alternate, h]

/-- `restoreSequence()` makes the modes of a normal terminal. -/
theorem restores_sequence {tracker : TerminalModeTracker} (h : tracker.modes.Valid) :
    Restores tracker.restoreSequence .normal (settableModes tracker.modes) := by
  let modes := tracker.modes
  let named := decModes.filter fun mode => mode ∈ modes.enabled
  have henabled : named.toFinset = modes.enabled := by
    ext mode
    simp only [named, List.mem_toFinset, List.mem_filter, decide_eq_true_eq]
    exact ⟨And.right, fun hmode => ⟨h.enabled mode hmode, hmode⟩⟩
  let m₁ : TerminalModes :=
    { TerminalModes.normal with mainKeyboard := settable modes.mainKeyboard }
  let m₂ : TerminalModes := { m₁ with enabled := modes.enabled }
  let m₃ : TerminalModes := { m₂ with alternateKeyboard := settable modes.alternateKeyboard }
  let m₄ : TerminalModes := { m₃ with cursorHidden := modes.cursorHidden }
  let m₅ : TerminalModes := { m₄ with keypad := modes.keypad }
  have h₁ : Restores (keyboardRestore modes.mainKeyboard) .normal m₁ := restores_main h.main
  have h₂ : Restores (named.flatMap (modeUnits 'h')) m₁ m₂ := by
    have hrestores := @restores_enabled named
      (fun mode hmode => (List.mem_filter.mp hmode).1) m₁ rfl
    have hunion : m₁.enabled ∪ named.toFinset = modes.enabled := by
      rw [henabled]
      exact Finset.empty_union _
    rw [hunion] at hrestores
    exact hrestores
  have hscreen : m₂.alternate = modes.alternate := alternate_congr rfl
  have h₃ : Restores (if modes.alternate then keyboardRestore modes.alternateKeyboard else [])
      m₂ m₃ := by
    refine restores_when (fun hon => ?_) fun hoff => ?_
    · exact restores_alternate m₂ (hscreen.trans hon) h.alternate
    · have hnormal : settable modes.alternateKeyboard = [0] := by
        rw [h.normal (by simpa using hoff)]
        rfl
      change m₂ = { m₂ with alternateKeyboard := settable modes.alternateKeyboard }
      rw [hnormal]
      rfl
  have h₄ : Restores (if modes.cursorHidden then modeUnits 'l' 25 else []) m₃ m₄ := by
    refine restores_when (fun hon => ?_) fun hoff => ?_
    · have hrestores := restores_cursor m₃
      rw [← hon] at hrestores
      exact hrestores
    · change m₃ = { m₃ with cursorHidden := modes.cursorHidden }
      rw [Bool.not_eq_true] at hoff
      rw [hoff]
      rfl
  have h₅ : Restores (if modes.keypad then [esc, unit '='] else []) m₄ m₅ := by
    refine restores_when (fun hon => ?_) fun hoff => ?_
    · have hrestores := restores_keypad m₄
      rw [← hon] at hrestores
      exact hrestores
    · change m₄ = { m₄ with keypad := modes.keypad }
      rw [Bool.not_eq_true] at hoff
      rw [hoff]
      rfl
  have h₆ : Restores (if modes.modifyOtherKeys ≠ 0 then
      csiUnits ([unit '>', unit '4', unit ';'] ++ decimalUnits modes.modifyOtherKeys) 'm' else [])
      m₅ (settableModes modes) := by
    refine restores_when (fun _ => restores_keys m₅ h.modifyOtherKeys) fun hoff => ?_
    rw [not_not] at hoff
    change m₅ = { m₅ with modifyOtherKeys := modes.modifyOtherKeys }
    rw [hoff]
    rfl
  exact ((((h₁.append h₂).append h₃).append h₄).append h₅).append h₆

/-- The prefix of a replay makes the tracker, up to negative flags. -/
theorem canonical_restored {tracker : TerminalModeTracker} (h : tracker.Valid) :
    (feedUnits .new (tracker.restoreSequence ++ tracker.replayPrefix)).canonical =
      { tracker with modes := settableModes tracker.modes }.canonical := by
  obtain ⟨csi', hrestored⟩ := restores_sequence h.modes false []
  rw [feedUnits_append]
  change (feedUnits (feedUnits ⟨.normal, .text, false, []⟩ _) _).canonical = _
  rw [hrestored]
  have hcsi := h.csi
  have hlength := h.length
  rcases tracker with ⟨modes, state, osc, csi⟩
  cases state with
  | text => rfl
  | escape => rfl
  | csi =>
      have hparameters := feedUnits_parameters (settableModes modes) false hcsi []
        (by rw [List.length_nil, Nat.zero_add]; exact hlength)
      change (feedUnits ⟨settableModes modes, .text, false, csi'⟩
        ([esc, unit '['] ++ csi)).canonical = _
      rw [feedUnits_append]
      change (feedUnits ⟨settableModes modes, .csi, false, []⟩ csi).canonical = _
      rw [hparameters]
      rfl
  | string => cases osc <;> rfl
  | stringEscape => cases osc <;> rfl

/-! ## Exactly when it is the same tracker -/

/-- No flags of a keyboard are negative. -/
def NonNegative (modes : TerminalModes) : Prop :=
  (∀ flags ∈ modes.mainKeyboard, 0 ≤ flags) ∧ ∀ flags ∈ modes.alternateKeyboard, 0 ≤ flags

instance : DecidablePred NonNegative := fun _ => inferInstanceAs (Decidable (_ ∧ _))

theorem settable_of_nonneg {stack : List Int} (hne : stack ≠ []) (h : ∀ flags ∈ stack, 0 ≤ flags) :
    settable stack = stack := by
  obtain ⟨base, flags, rfl⟩ := List.exists_cons_of_ne_nil hne
  have hfilter : flags.filter (0 ≤ ·) = flags := by
    rw [List.filter_eq_self]
    intro n hn
    exact decide_eq_true (h n (List.mem_cons_of_mem _ hn))
  rw [settable, List.headD_cons, List.tail_cons, hfilter, max_eq_right (h base List.mem_cons_self)]

/-- Whatever is fed after it, the prefix stands for what was fed before. -/
theorem sequences_restored {tracker : TerminalModeTracker} (h : tracker.Valid)
    (hnonneg : NonNegative tracker.modes) (later : List UInt16) :
    (feedUnits .new (tracker.restoreSequence ++ tracker.replayPrefix ++ later)).sequences =
      (tracker.feedUnits later).sequences := by
  have hmodes : settableModes tracker.modes = tracker.modes := by
    rw [settableModes, settable_of_nonneg h.modes.main.ne_nil hnonneg.1,
      settable_of_nonneg h.modes.alternate.ne_nil hnonneg.2]
  have hrestored := canonical_restored h
  rw [hmodes] at hrestored
  rw [feedUnits_append]
  exact sequences_congr (feedUnits_congr hrestored later)

theorem minus_not_mem_decimal (n : Nat) : unit '-' ∉ decimalUnits n := by
  intro h
  exact absurd (isDigitUnit_decimalUnits n _ h) (by decide)

theorem minus_mem_numberUnits (n : Int) : unit '-' ∈ numberUnits n ↔ n < 0 := by
  rcases lt_or_ge n 0 with hn | hn
  · rw [numberUnits_of_neg hn]
    simp [hn]
  · rw [numberUnits_of_nonneg hn]
    exact iff_of_false (minus_not_mem_decimal _) (not_lt.mpr hn)

theorem minus_mem_csiUnits {params : List UInt16} {final : Char} (hfinal : unit final ≠ unit '-') :
    unit '-' ∈ csiUnits params final ↔ unit '-' ∈ params := by
  have hesc : unit '-' ≠ esc := by decide
  have hopen : unit '-' ≠ unit '[' := by decide
  simp [csiUnits, hesc, hopen, hfinal.symm]

theorem minus_not_mem_modeUnits {final : Char} (hfinal : unit final ≠ unit '-') (mode : Nat) :
    unit '-' ∉ modeUnits final mode := by
  have hkind : unit '-' ≠ unit '?' := by decide
  rw [modeUnits, minus_mem_csiUnits hfinal, List.mem_cons, not_or]
  exact ⟨hkind, minus_not_mem_decimal mode⟩

theorem minus_mem_keyboardRestore {stack : List Int} (hne : stack ≠ []) :
    unit '-' ∈ keyboardRestore stack ↔ ¬∀ flags ∈ stack, 0 ≤ flags := by
  obtain ⟨base, flags, rfl⟩ := List.exists_cons_of_ne_nil hne
  have hfinal : unit 'u' ≠ unit '-' := by decide
  have hset : unit '-' ≠ unit '=' := by decide
  have hpush : unit '-' ≠ unit '>' := by decide
  have hbase : unit '-' ∈ (if base ≠ 0 then csiUnits (unit '=' :: numberUnits base) 'u' else []) ↔
      base < 0 := by
    split_ifs with hzero
    · rw [minus_mem_csiUnits hfinal, List.mem_cons, minus_mem_numberUnits]
      simp [hset]
    · rw [not_not.mp hzero]
      simp
  have hflags (n : Int) : unit '-' ∈ csiUnits (unit '>' :: numberUnits n) 'u' ↔ n < 0 := by
    rw [minus_mem_csiUnits hfinal, List.mem_cons, minus_mem_numberUnits]
    simp [hpush]
  rw [keyboardRestore, List.headD_cons, List.tail_cons, List.mem_append, hbase, List.mem_flatMap]
  simp only [hflags, List.forall_mem_cons, not_and_or, not_forall, not_le, exists_prop]

/-- A restored state is printed with a minus sign where flags are negative. -/
theorem minus_mem_restoreSequence {tracker : TerminalModeTracker}
    (hmain : tracker.modes.mainKeyboard ≠ []) (halternate : tracker.modes.alternateKeyboard ≠ [])
    (hnormal : tracker.modes.alternate = false →
      ∀ flags ∈ tracker.modes.alternateKeyboard, 0 ≤ flags) :
    unit '-' ∈ tracker.restoreSequence ↔ ¬NonNegative tracker.modes := by
  have hmodes : unit '-' ∉ (decModes.filter fun mode => mode ∈ tracker.modes.enabled).flatMap
      (modeUnits 'h') := by
    rw [List.mem_flatMap]
    rintro ⟨mode, -, hmode⟩
    exact minus_not_mem_modeUnits (by decide) mode hmode
  have hcursor : unit '-' ∉ (if tracker.modes.cursorHidden then modeUnits 'l' 25 else []) := by
    split_ifs
    · exact minus_not_mem_modeUnits (by decide) 25
    · exact List.not_mem_nil
  have hkeypad : unit '-' ∉ (if tracker.modes.keypad then [esc, unit '='] else []) := by
    split_ifs
    · decide
    · exact List.not_mem_nil
  have hkeys : unit '-' ∉ (if tracker.modes.modifyOtherKeys ≠ 0 then
      csiUnits ([unit '>', unit '4', unit ';'] ++ decimalUnits tracker.modes.modifyOtherKeys) 'm'
      else []) := by
    split_ifs
    · rw [minus_mem_csiUnits (by decide), List.mem_append, not_or]
      exact ⟨by decide, minus_not_mem_decimal _⟩
    · exact List.not_mem_nil
  have hscreen : unit '-' ∈ (if tracker.modes.alternate then
      keyboardRestore tracker.modes.alternateKeyboard else []) ↔
      ¬∀ flags ∈ tracker.modes.alternateKeyboard, 0 ≤ flags := by
    split_ifs with hon
    · exact minus_mem_keyboardRestore halternate
    · exact iff_of_false List.not_mem_nil (not_not.mpr (hnormal (by simpa using hon)))
  simp only [restoreSequence, List.mem_append, minus_mem_keyboardRestore hmain, hmodes, hcursor,
    hkeypad, hkeys, hscreen, or_false, NonNegative, not_and_or]

theorem nonneg_settable (stack : List Int) : ∀ flags ∈ settable stack, 0 ≤ flags := by
  intro flags hflags
  rcases List.mem_cons.mp hflags with rfl | hflags
  · exact le_max_left _ _
  · exact of_decide_eq_true (List.mem_filter.mp hflags).2

/-- Where the prefix alone makes the same sequences, no flags are negative. -/
theorem nonneg_of_restored {tracker : TerminalModeTracker} (h : tracker.Valid)
    (hsame : (feedUnits .new (tracker.restoreSequence ++ tracker.replayPrefix)).sequences =
      tracker.sequences) : NonNegative tracker.modes := by
  have hsequences := sequences_congr (canonical_restored h)
  rw [hsame] at hsequences
  let restored : TerminalModeTracker := { tracker with modes := settableModes tracker.modes }
  have hrestore : tracker.restoreSequence = restored.restoreSequence :=
    congrArg (fun printed => printed.2.1) hsequences
  have hminus := minus_mem_restoreSequence h.modes.main.ne_nil h.modes.alternate.ne_nil
    fun hnormal => by rw [h.modes.normal hnormal]; decide
  have hminus' := @minus_mem_restoreSequence
    { tracker with modes := settableModes tracker.modes } (List.cons_ne_nil _ _)
    (List.cons_ne_nil _ _) fun _ => nonneg_settable _
  rw [hrestore, hminus'] at hminus
  by_contra hnot
  exact hminus.mpr hnot ⟨nonneg_settable _, nonneg_settable _⟩

/-- The prefix stands for what was fed before, whatever is fed after it, exactly when no flags of a
keyboard are negative. -/
theorem restored_iff {tracker : TerminalModeTracker} (h : tracker.Valid) :
    (∀ later : List UInt16,
      (feedUnits .new (tracker.restoreSequence ++ tracker.replayPrefix ++ later)).sequences =
        (tracker.feedUnits later).sequences) ↔ NonNegative tracker.modes := by
  constructor
  · intro hsame
    apply nonneg_of_restored h
    have hnil := hsame []
    rw [List.append_nil] at hnil
    exact hnil
  · exact fun hnonneg later => sequences_restored h hnonneg later

end TerminalModeTracker

end H2a.NativeTerminal
