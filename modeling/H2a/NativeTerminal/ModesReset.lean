import H2a.NativeTerminal.ReplayExact
/-!
# Modes undone and made again

`feed` reads a text alike however it is cut.  `resetSequence()` undoes what was read, whatever the
state of the parser: "only outstanding application changes are undone".  `restoreSequence()` and
`replayPrefix()` make it again, unless flags of a keyboard are negative.
-/

namespace H2a.NativeTerminal

open H2a.Library

namespace TerminalModeTracker

/-! ## Keyboards -/

/-- A keyboard is made normal: its saved flags are popped, and the last ones are set to zero. -/
theorem restores_keyboardReset (put : List Int → TerminalModes)
    (hput : ∀ kind ∈ [unit '>', unit '<', unit '='], ∀ n ≤ 2 ^ 53 - 1, ∀ stack,
      (put stack).apply (kind :: decimalUnits n) (unit 'u') = put (keyboardAfter kind none n stack))
    {stack : List Int} (h : KeyboardValid stack) :
    Restores (keyboardReset stack) (put stack) (put [0]) := by
  obtain ⟨base, flags, rfl⟩ := List.exists_cons_of_ne_nil h.ne_nil
  have hlength := h.length_le
  have hpop : Restores (if 1 < (base :: flags).length then
      csiUnits (unit '<' :: numberUnits (((base :: flags).length : Int) - 1)) 'u' else [])
      (put (base :: flags)) (put [base]) := by
    rw [List.length_cons] at hlength
    cases flags with
    | nil => exact restores_nil _
    | cons saved flags =>
        have hcount : numberUnits (((base :: saved :: flags).length : Int) - 1) =
            decimalUnits (flags.length + 1) := by
          have hnat : ((base :: saved :: flags).length : Int) - 1 =
              ((flags.length + 1 : Nat) : Int) := by
            simp only [List.length_cons]
            omega
          rw [hnat]
          rfl
        have hsmall : flags.length + 1 ≤ 2 ^ 53 - 1 := by
          rw [List.length_cons] at hlength
          omega
        have htake : keyboardAfter (unit '<') none (flags.length + 1) (base :: saved :: flags) =
            [base] := by
          have hone : max 1 ((base :: saved :: flags).length - (flags.length + 1)) = 1 := by
            simp only [List.length_cons]
            omega
          rw [keyboardAfter, if_pos rfl, hone]
          rfl
        have hrestores := restores_csi 'u' (put (base :: saved :: flags))
          (isParameter_decimal (by decide) (flags.length + 1))
          (length_decimal_le hsmall (unit '<')) (by decide)
        rw [hput _ (by decide) _ hsmall, htake] at hrestores
        rw [if_pos (by simp), hcount]
        exact hrestores
  have hzero : Restores (if base ≠ 0 then csiUnits [unit '=', unit '0'] 'u' else []) (put [base])
      (put [0]) := by
    refine restores_when (fun _ => ?_) fun hbase => by rw [not_not.mp hbase]
    have hrestores := restores_csi 'u' (put [base]) (isParameter_decimal (by decide) 0)
      (length_decimal_le (Nat.zero_le _) (unit '=')) (by decide)
    rw [hput _ (by decide) _ (Nat.zero_le _)] at hrestores
    exact hrestores
  exact hpop.append hzero

/-! ## Modes -/

/-- The modes that are enabled change; the alternate keyboard is lost with its screen. -/
def withEnabled (modes : TerminalModes) (enabled : Finset Nat) : TerminalModes :=
  { modes with
    enabled
    alternateKeyboard :=
      if ({ modes with enabled } : TerminalModes).alternate then modes.alternateKeyboard else [0] }

theorem alternate_of_subset {a b : TerminalModes} (h : a.enabled ⊆ b.enabled)
    (ha : a.alternate = true) : b.alternate = true := by
  rw [TerminalModes.alternate, List.any_eq_true] at ha ⊢
  obtain ⟨mode, hmode, henabled⟩ := ha
  exact ⟨mode, hmode, decide_eq_true (h (of_decide_eq_true henabled))⟩

theorem withEnabled_alternate {modes : TerminalModes} {enabled : Finset Nat}
    (h : ({ modes with enabled } : TerminalModes).alternate = true) :
    withEnabled modes enabled = { modes with enabled } := by
  rw [withEnabled, if_pos h]

theorem withEnabled_normal {modes : TerminalModes} {enabled : Finset Nat}
    (h : ({ modes with enabled } : TerminalModes).alternate = false) :
    withEnabled modes enabled = { modes with enabled, alternateKeyboard := [0] } := by
  rw [withEnabled, if_neg]
  rw [h]
  exact Bool.false_ne_true

theorem withEnabled_self {modes : TerminalModes}
    (h : modes.alternate = false → modes.alternateKeyboard = [0]) :
    withEnabled modes modes.enabled = modes := by
  cases hscreen : modes.alternate with
  | true => exact withEnabled_alternate hscreen
  | false =>
      rw [withEnabled_normal hscreen, ← h hscreen]

/-- A normal screen has a normal alternate keyboard after the change. -/
theorem withEnabled_keyboard (modes : TerminalModes) (enabled : Finset Nat)
    (h : (withEnabled modes enabled).alternate = false) :
    (withEnabled modes enabled).alternateKeyboard = [0] := by
  have hscreen : ({ modes with enabled } : TerminalModes).alternate = false := h
  rw [withEnabled_normal hscreen]

theorem withEnabled_withEnabled (modes : TerminalModes) {fewer enabled : Finset Nat}
    (h : fewer ⊆ enabled) :
    withEnabled (withEnabled modes enabled) fewer = withEnabled modes fewer := by
  cases hscreen : ({ modes with enabled := fewer } : TerminalModes).alternate with
  | true =>
      have hbefore : ({ modes with enabled } : TerminalModes).alternate = true :=
        alternate_of_subset h hscreen
      rw [withEnabled_alternate hbefore]
      rfl
  | false =>
      have hafter : ({ withEnabled modes enabled with enabled := fewer } :
          TerminalModes).alternate = false := hscreen
      rw [withEnabled_normal hafter, withEnabled_normal hscreen]
      rfl

/-- A mode is disabled. -/
theorem restores_disable {modes : TerminalModes}
    (h : modes.alternate = false → modes.alternateKeyboard = [0]) {mode : Nat}
    (hmode : mode ∈ decModes) :
    Restores (modeUnits 'l' mode) modes (withEnabled modes (modes.enabled.erase mode)) := by
  have hset : modes.setMode false mode = { modes with enabled := modes.enabled.erase mode } := by
    have hcursor : mode ≠ 25 := by
      rintro rfl
      exact absurd hmode (by decide)
    rw [TerminalModes.setMode, if_neg hcursor, if_pos hmode]
    simp
  have hrestores : Restores (modeUnits 'l' mode) modes
      (let after := modes.setMode false mode
       if modes.alternate ≠ after.alternate then { after with alternateKeyboard := [0] }
       else after) :=
    restores_mode modes 'l' (by decide) (List.mem_cons_of_mem _ hmode)
  rw [hset] at hrestores
  have hafter : (if modes.alternate ≠
        ({ modes with enabled := modes.enabled.erase mode } : TerminalModes).alternate then
      ({ modes with enabled := modes.enabled.erase mode, alternateKeyboard := [0] } :
        TerminalModes)
      else { modes with enabled := modes.enabled.erase mode }) =
      withEnabled modes (modes.enabled.erase mode) := by
    cases hscreen : ({ modes with enabled := modes.enabled.erase mode } :
        TerminalModes).alternate with
    | true =>
        have hbefore := alternate_of_subset (Finset.erase_subset mode modes.enabled) hscreen
        rw [withEnabled_alternate hscreen, hbefore]
        rfl
    | false =>
        rw [withEnabled_normal hscreen]
        cases hbefore : modes.alternate with
        | true => rfl
        | false =>
            rw [← h hbefore]
            rfl
  dsimp only at hrestores
  rw [hafter] at hrestores
  exact hrestores

/-- Modes are disabled one after another. -/
theorem restores_disabled {named : List Nat} (hnamed : ∀ mode ∈ named, mode ∈ decModes)
    {modes : TerminalModes} (h : modes.alternate = false → modes.alternateKeyboard = [0]) :
    Restores (named.flatMap (modeUnits 'l')) modes
      (withEnabled modes (modes.enabled \ named.toFinset)) := by
  induction named generalizing modes with
  | nil =>
      rw [List.toFinset_nil, Finset.sdiff_empty, withEnabled_self h]
      exact restores_nil _
  | cons mode named ih =>
      have hhead := restores_disable h (hnamed mode List.mem_cons_self)
      have htail := ih (fun m hm => hnamed m (List.mem_cons_of_mem _ hm))
        (withEnabled_keyboard modes (modes.enabled.erase mode))
      have hrest : (withEnabled modes (modes.enabled.erase mode)).enabled \ named.toFinset =
          modes.enabled \ (mode :: named).toFinset := by
        change modes.enabled.erase mode \ named.toFinset = _
        rw [List.toFinset_cons, Finset.insert_eq, Finset.erase_eq, sdiff_sdiff]
        rfl
      have hfewer : modes.enabled \ (mode :: named).toFinset ⊆ modes.enabled.erase mode := by
        rw [← hrest]
        exact Finset.sdiff_subset
      rw [hrest, withEnabled_withEnabled modes hfewer] at htail
      rw [List.flatMap_cons]
      exact hhead.append htail

/-! ## What `resetSequence()` undoes -/

/-- The part of `resetSequence()` that is about the modes. -/
def undoModes (modes : TerminalModes) : List UInt16 :=
  (if 2026 ∈ modes.enabled then modeUnits 'l' 2026 else []) ++
    keyboardReset (if modes.alternate then modes.alternateKeyboard else modes.mainKeyboard) ++
    (decModes.filter fun mode => mode ≠ 2026 ∧ mode ∈ modes.enabled).flatMap (modeUnits 'l') ++
    (if modes.alternate then keyboardReset modes.mainKeyboard else []) ++
    (if modes.cursorHidden then modeUnits 'h' 25 else []) ++
    (if modes.keypad then [esc, unit '>'] else []) ++
    if modes.modifyOtherKeys ≠ 0 then csiUnits [unit '>', unit '4', unit ';', unit '0'] 'm' else []

theorem resetSequence_eq (tracker : TerminalModeTracker) :
    tracker.resetSequence =
      (if tracker.state ≠ .text then [0x18] else []) ++ undoModes tracker.modes := by
  simp only [resetSequence, undoModes, List.append_assoc]

theorem restores_synchronized {modes : TerminalModes} (h : modes.Valid) :
    Restores (if 2026 ∈ modes.enabled then modeUnits 'l' 2026 else []) modes
      { modes with enabled := modes.enabled.erase 2026 } := by
  refine restores_when (fun _ => ?_) fun habsent => ?_
  · have hrestores := restores_disable h.normal (show 2026 ∈ decModes by decide)
    have hscreen : ({ modes with enabled := modes.enabled.erase 2026 } : TerminalModes).alternate =
        modes.alternate := by
      simp [TerminalModes.alternate, alternateModes]
    cases hbefore : modes.alternate with
    | true =>
        rw [withEnabled_alternate (hscreen.trans hbefore)] at hrestores
        exact hrestores
    | false =>
        rw [withEnabled_normal (hscreen.trans hbefore), ← h.normal hbefore] at hrestores
        exact hrestores
  · rw [Finset.erase_eq_of_notMem habsent]

/-- The keyboard of the screen that is shown. -/
theorem restores_shown {modes : TerminalModes} (h : modes.Valid) {enabled : Finset Nat}
    (hscreen : ({ modes with enabled } : TerminalModes).alternate = modes.alternate) :
    Restores (keyboardReset (if modes.alternate then modes.alternateKeyboard else modes.mainKeyboard))
      { modes with enabled }
      (if modes.alternate then { modes with enabled, alternateKeyboard := [0] }
        else { modes with enabled, mainKeyboard := [0] }) := by
  cases hshown : modes.alternate with
  | true =>
      refine restores_keyboardReset
        (fun stack => { modes with enabled, alternateKeyboard := stack }) ?_ h.alternate
      intro kind hkind n hn stack
      have hput : ({ modes with enabled, alternateKeyboard := stack } : TerminalModes).alternate =
          true := hscreen.trans hshown
      rw [apply_flags _ hkind hn, if_pos hput]
  | false =>
      refine restores_keyboardReset
        (fun stack => { modes with enabled, mainKeyboard := stack }) ?_ h.main
      intro kind hkind n hn stack
      have hput : ({ modes with enabled, mainKeyboard := stack } : TerminalModes).alternate =
          false := hscreen.trans hshown
      rw [apply_flags _ hkind hn, if_neg (by rw [hput]; exact Bool.false_ne_true)]

theorem restores_showCursor (modes : TerminalModes) :
    Restores (modeUnits 'h' 25) modes { modes with cursorHidden := false } := by
  have hrestores := restores_mode modes 'h' (by decide) List.mem_cons_self
  have hset : modes.setMode (decide (unit 'h' = unit 'h')) 25 =
      { modes with cursorHidden := false } := rfl
  have hscreen : modes.alternate = (modes.setMode (decide (unit 'h' = unit 'h')) 25).alternate :=
    rfl
  dsimp only at hrestores
  rw [if_neg (not_not.mpr hscreen), hset] at hrestores
  exact hrestores

/-- All that was changed is made normal. -/
theorem restores_undoModes {modes : TerminalModes} (h : modes.Valid) :
    Restores (undoModes modes) modes .normal := by
  let synchronized : TerminalModes := { modes with enabled := modes.enabled.erase 2026 }
  let named := decModes.filter fun mode => mode ≠ 2026 ∧ mode ∈ modes.enabled
  let quiet : TerminalModes :=
    { modes with enabled := ∅, mainKeyboard := [0], alternateKeyboard := [0] }
  have hscreen : synchronized.alternate = modes.alternate := by
    simp [synchronized, TerminalModes.alternate, alternateModes]
  have hnone : synchronized.enabled \ named.toFinset = ∅ := by
    ext mode
    simp only [synchronized, named, Finset.mem_sdiff, Finset.mem_erase, List.mem_toFinset,
      List.mem_filter, decide_eq_true_eq, Finset.notMem_empty, iff_false]
    rintro ⟨hmode, habsent⟩
    exact habsent ⟨h.enabled mode hmode.2, hmode⟩
  have hnormal (m : TerminalModes) :
      withEnabled m ∅ = { m with enabled := ∅, alternateKeyboard := [0] } :=
    withEnabled_normal (by simp [TerminalModes.alternate])
  have hnamed : ∀ mode ∈ named, mode ∈ decModes := fun mode hmode => (List.mem_filter.mp hmode).1
  have h₁ := restores_synchronized h
  have h₂ := restores_shown h hscreen
  have h₃₄ : Restores (named.flatMap (modeUnits 'l') ++
      if modes.alternate then keyboardReset modes.mainKeyboard else [])
      (if modes.alternate then { synchronized with alternateKeyboard := [0] }
        else { synchronized with mainKeyboard := [0] }) quiet := by
    cases hshown : modes.alternate with
    | true =>
        have hdisabled := @restores_disabled named hnamed
          { synchronized with alternateKeyboard := [0] } fun _ => rfl
        rw [hnone, hnormal] at hdisabled
        refine hdisabled.append ?_
        refine restores_keyboardReset
          (fun stack => { quiet with mainKeyboard := stack }) ?_ h.main
        intro kind hkind n hn stack
        have hput : ({ quiet with mainKeyboard := stack } : TerminalModes).alternate = false := by
          simp [quiet, TerminalModes.alternate]
        rw [apply_flags _ hkind hn, if_neg (by rw [hput]; exact Bool.false_ne_true)]
    | false =>
        have hdisabled := @restores_disabled named hnamed
          { synchronized with mainKeyboard := [0] } fun _ => h.normal hshown
        rw [hnone, hnormal] at hdisabled
        rw [if_neg (by decide), if_neg (by decide), List.append_nil]
        exact hdisabled
  let shown : TerminalModes := { quiet with cursorHidden := false }
  let plain : TerminalModes := { shown with keypad := false }
  have h₅ : Restores (if modes.cursorHidden then modeUnits 'h' 25 else []) quiet shown := by
    refine restores_when (fun _ => restores_showCursor quiet) fun hoff => ?_
    rw [Bool.not_eq_true] at hoff
    change quiet = { quiet with cursorHidden := false }
    rw [← hoff]
  have h₆ : Restores (if modes.keypad then [esc, unit '>'] else []) shown plain := by
    refine restores_when (fun _ _ csi => ⟨csi, rfl⟩) fun hoff => ?_
    rw [Bool.not_eq_true] at hoff
    change shown = { shown with keypad := false }
    rw [← hoff]
  have h₇ : Restores (if modes.modifyOtherKeys ≠ 0 then
      csiUnits [unit '>', unit '4', unit ';', unit '0'] 'm' else []) plain .normal := by
    have hparams : [unit '>', unit '4', unit ';'] ++ decimalUnits 0 =
        [unit '>', unit '4', unit ';', unit '0'] := by decide
    have hkeys := restores_keys plain (Nat.zero_le 2)
    rw [hparams] at hkeys
    refine restores_when (fun _ => hkeys) fun hoff => ?_
    rw [not_not] at hoff
    change plain = { plain with modifyOtherKeys := 0 }
    rw [← hoff]
  have hall := ((((h₁.append h₂).append h₃₄).append h₅).append h₆).append h₇
  simp only [undoModes, List.append_assoc] at hall ⊢
  exact hall

/-- After its reset sequence a tracker is that of a normal terminal. -/
theorem feed_resetSequence {tracker : TerminalModeTracker} (h : tracker.Valid) :
    ∃ csi, tracker.feedUnits tracker.resetSequence = ⟨.normal, .text, tracker.osc, csi⟩ := by
  have hcancel : tracker.feedUnits (if tracker.state ≠ .text then [0x18] else []) =
      ⟨tracker.modes, .text, tracker.osc, tracker.csi⟩ := by
    rcases tracker with ⟨modes, state, osc, csi⟩
    cases state <;> rfl
  rw [resetSequence_eq, feedUnits_append, hcancel]
  exact restores_undoModes h.modes tracker.osc tracker.csi

end TerminalModeTracker

open TerminalModeTracker in
/-- A text that is fed to a new tracker, cut in any way: it is read alike; the reset sequence undoes
it, and leaves nothing to reset or restore; and a new tracker that is fed the restore sequence and
the replay prefix goes on as the tracker does exactly when no flags of a keyboard are negative. -/
theorem modes_undone_and_restored (data : JsString) :
    (∀ chunks : List JsString, chunks.flatMap JsString.units = data.units →
      TerminalModeTracker.new.feedAll chunks = TerminalModeTracker.new.feed data) ∧
    (∀ undone, undone = (TerminalModeTracker.new.feed data).feed
        ⟨(TerminalModeTracker.new.feed data).resetSequence⟩ →
      undone.resetSequence = [] ∧ undone.restoreSequence = [] ∧ undone.state = .text) ∧
    ((∀ later : JsString,
      (((TerminalModeTracker.new.feed ⟨(TerminalModeTracker.new.feed data).restoreSequence⟩).feed
        ⟨(TerminalModeTracker.new.feed data).replayPrefix⟩).feed later).sequences =
          ((TerminalModeTracker.new.feed data).feed later).sequences) ↔
        NonNegative (TerminalModeTracker.new.feed data).modes) := by
  have hvalid : (TerminalModeTracker.new.feed data).Valid := by
    rw [feed_eq]
    exact valid_new.feedUnits data.units
  refine ⟨?_, ?_, ?_⟩
  · intro chunks hchunks
    rw [feedAll_eq, hchunks, feed_eq]
  · rintro undone rfl
    obtain ⟨csi, hundone⟩ := feed_resetSequence hvalid
    rw [feed_eq _ ⟨_⟩, hundone]
    refine ⟨?_, ?_, rfl⟩
    · rfl
    · rfl
  · rw [← restored_iff hvalid]
    constructor
    · intro hsame later
      have h := hsame ⟨later⟩
      rw [feed_eq _ ⟨later⟩, feed_eq _ ⟨later⟩, feed_eq _ ⟨_⟩, feed_eq _ ⟨_⟩] at h
      rw [feedUnits_append, feedUnits_append]
      exact h
    · intro hsame later
      have h := hsame later.units
      rw [feedUnits_append, feedUnits_append] at h
      rw [feed_eq _ later, feed_eq _ later, feed_eq _ ⟨_⟩, feed_eq _ ⟨_⟩]
      exact h

/-- `CSI = 2147483648 ; 2 u`, whose flags are negative. -/
def negativeFlags : JsString := ⟨csiUnits (js "=2147483648;2").units 'u'⟩

open TerminalModeTracker in
/-- The restore sequence names the negative flags, and nothing sets them again. -/
theorem negative_flags_not_restored :
    (((TerminalModeTracker.new.feed
      ⟨(TerminalModeTracker.new.feed negativeFlags).restoreSequence⟩).feed
        ⟨(TerminalModeTracker.new.feed negativeFlags).replayPrefix⟩).feed (js "")).sequences ≠
          ((TerminalModeTracker.new.feed negativeFlags).feed (js "")).sequences := by
  decide +kernel

end H2a.NativeTerminal
