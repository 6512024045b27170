import H2a.Library.JsString
import H2a.Library.StreamReplace
import Mathlib.Data.List.Induction
/-!
# The reset relay

`TerminalResetRelay` of `packages/h2a-runtime/src/native-terminal/reset-relay.ts`: a marker in the
output of a wrapper asks for the resets of a terminal, and is replaced by them.  What is emitted
does not depend on how the output is cut (`resetRelay_exact`).
-/

namespace H2a.NativeTerminal

open H2a.Library

/-! ## The source -/

def NATIVE_TERMINAL_RESET_MARKER : JsString := js "\x1b]777;h2a-reset\x07"

/-- The text held back, and what was emitted, call by call. -/
structure TerminalResetRelay where
  pending : JsString
  emitted : List JsString

namespace TerminalResetRelay

/-- `new TerminalResetRelay(emit, reset)` -/
def fresh : TerminalResetRelay := ⟨⟨[]⟩, []⟩

/-- Texts one after the other. -/
def joined (texts : List JsString) : JsString := ⟨texts.flatMap JsString.units⟩

/-- The text emitted so far. -/
def emittedText (relay : TerminalResetRelay) : JsString := joined relay.emitted

theorem marker_length : NATIVE_TERMINAL_RESET_MARKER.units.length = 16 := by decide

section Source

variable (reset : JsString → JsString)

/-- The loop over the markers: what is emitted after it, and what remains.  `reset` answers
according to what was emitted. -/
def relayMarkers (emitted : List JsString) (remaining : JsString) : List JsString × JsString :=
  match _h : indexOf NATIVE_TERMINAL_RESET_MARKER.units remaining.units with
  | none => (emitted, remaining)
  | some index =>
      let emitted := if 0 < index then emitted ++ [⟨remaining.units.take index⟩] else emitted
      let answer := reset (joined emitted)
      let emitted := if 0 < answer.length then emitted ++ [answer] else emitted
      relayMarkers emitted (remaining.slice (index + NATIVE_TERMINAL_RESET_MARKER.length))
termination_by remaining.units.length
decreasing_by
  obtain ⟨hle, hoccurs, -⟩ := indexOf_eq_some _h
  have hlength := hoccurs.le_length hle
  have hmarker := marker_length
  simp only [JsString.slice, JsString.length, List.length_drop]
  omega

/-- `remaining.slice(-carry)`, for a positive `carry` -/
def sliceLast (remaining : JsString) (carry : Nat) : JsString :=
  remaining.slice (remaining.length - carry)

/-- The loop that finds the carry. -/
def carryFrom (remaining : JsString) : Nat → Nat
  | 0 => 0
  | carry + 1 =>
      if NATIVE_TERMINAL_RESET_MARKER.startsWith (sliceLast remaining (carry + 1)) then carry + 1
      else carryFrom remaining carry

/-- `feed(data)` -/
def feed (relay : TerminalResetRelay) (data : JsString) : TerminalResetRelay :=
  let (emitted, remaining) := relayMarkers reset relay.emitted (relay.pending ++ data)
  let carry := carryFrom remaining
    (min remaining.length (NATIVE_TERMINAL_RESET_MARKER.length - 1))
  { emitted :=
      if carry < remaining.length then
        emitted ++ [⟨remaining.units.take (remaining.length - carry)⟩]
      else emitted
    pending := if 0 < carry then sliceLast remaining carry else ⟨[]⟩ }

/-- `flush()` -/
def flush (relay : TerminalResetRelay) : TerminalResetRelay where
  emitted := if 0 < relay.pending.length then relay.emitted ++ [relay.pending] else relay.emitted
  pending := ⟨[]⟩

end Source

/-! ## What is emitted -/

/-- The units `reset` answers with. -/
def answerUnits (reset : JsString → JsString) (out : List UInt16) : List UInt16 :=
  (reset ⟨out⟩).units

/-- What a stream becomes, from what was emitted on. -/
abbrev Relayed (reset : JsString → JsString) (out stream all : List UInt16) : Prop :=
  Replaced NATIVE_TERMINAL_RESET_MARKER.units (answerUnits reset) out stream all

variable {reset : JsString → JsString}

theorem joined_append (texts : List JsString) (text : JsString) :
    (joined (texts ++ [text])).units = (joined texts).units ++ text.units := by
  simp [joined]

/-- A text that is empty need not be emitted. -/
theorem joined_ite {texts : List JsString} {text : JsString} :
    (joined (if 0 < text.length then texts ++ [text] else texts)).units =
      (joined texts).units ++ text.units := by
  split
  next => exact joined_append texts text
  next hempty =>
    have hnil : text.units = [] := List.length_eq_zero_iff.mp (Nat.eq_zero_of_not_pos hempty)
    rw [hnil, List.append_nil]

variable (reset) in
/-- The loop leaves no marker, and what follows is relayed as if it had not run. -/
theorem relayMarkers_spec (emitted : List JsString) (remaining : JsString) :
    (∀ i, ¬OccursAt NATIVE_TERMINAL_RESET_MARKER.units
      (relayMarkers reset emitted remaining).2.units i) ∧
    ∀ more all, Relayed reset (joined (relayMarkers reset emitted remaining).1).units
        ((relayMarkers reset emitted remaining).2.units ++ more) all →
      Relayed reset (joined emitted).units (remaining.units ++ more) all := by
  fun_induction relayMarkers reset emitted remaining with
  | case1 emitted remaining hnone =>
      have hmarker := marker_length
      exact ⟨indexOf_eq_none (by omega) hnone, fun _ _ h => h⟩
  | case2 emitted remaining index hsome emitted' answer emitted'' ih =>
      refine ⟨ih.1, fun more all h => ?_⟩
      obtain ⟨hle, hoccurs, hfirst⟩ := indexOf_eq_some hsome
      have hlength := hoccurs.le_length hle
      have hbefore : (joined emitted').units =
          (joined emitted).units ++ remaining.units.take index := by
        rw [← joined_append emitted ⟨remaining.units.take index⟩]
        by_cases hindex : 0 < index
        · rw [show emitted' = _ from if_pos hindex]
        · rw [show emitted' = _ from if_neg hindex, joined_append]
          simp [Nat.eq_zero_of_not_pos hindex]
      have hanswer : (joined emitted'').units = (joined emitted').units ++
          answerUnits reset (joined emitted').units := joined_ite
      have hafter := ih.2 more all h
      rw [hanswer, hbefore] at hafter
      have hsplit := hoccurs.split
      rw [hsplit, List.append_assoc]
      apply Replaced.occurrence
      · intro i hi
        rw [List.length_take] at hi
        rw [← List.append_assoc, ← hsplit, occursAt_of_le (by omega)]
        exact hfirst i (by omega)
      · exact hafter

/-! ## What is held back -/

theorem carryFrom_le (remaining : JsString) (n : Nat) : carryFrom remaining n ≤ n := by
  induction n with
  | zero => exact le_rfl
  | succ n ih =>
      unfold carryFrom
      split
      · exact le_rfl
      · exact ih.trans (Nat.le_succ n)

theorem startsWith_iff (s t : JsString) : s.startsWith t = true ↔ t.units <+: s.units :=
  List.isPrefixOf_iff_prefix

theorem carryFrom_prefix (remaining : JsString) (n : Nat) (h : 0 < carryFrom remaining n) :
    (sliceLast remaining (carryFrom remaining n)).units <+: NATIVE_TERMINAL_RESET_MARKER.units := by
  induction n with
  | zero => exact absurd h (Nat.lt_irrefl 0)
  | succ n ih =>
      unfold carryFrom at h ⊢
      split
      next hstarts => exact (startsWith_iff _ _).mp hstarts
      next hstarts =>
        rw [if_neg hstarts] at h
        exact ih h

theorem carryFrom_longest (remaining : JsString) {n m : Nat} (hm : m ≤ n)
    (h : (sliceLast remaining m).units <+: NATIVE_TERMINAL_RESET_MARKER.units) :
    m ≤ carryFrom remaining n := by
  induction n with
  | zero => exact hm
  | succ n ih =>
      unfold carryFrom
      split
      next => exact hm
      next hstarts =>
        apply ih
        have hne : m ≠ n + 1 := fun heq => hstarts ((startsWith_iff _ _).mpr (heq ▸ h))
        omega

/-- The carry of what remains. -/
def carryOf (remaining : JsString) : Nat :=
  carryFrom remaining (min remaining.length (NATIVE_TERMINAL_RESET_MARKER.length - 1))

theorem carryOf_le (remaining : JsString) :
    carryOf remaining ≤ remaining.length ∧ carryOf remaining < 16 := by
  have hle := carryFrom_le remaining
    (min remaining.length (NATIVE_TERMINAL_RESET_MARKER.length - 1))
  have hmarker : NATIVE_TERMINAL_RESET_MARKER.length = 16 := marker_length
  unfold carryOf
  omega

theorem isHeld_carryOf (remaining : JsString) :
    IsHeld NATIVE_TERMINAL_RESET_MARKER.units remaining.units
      (sliceLast remaining (carryOf remaining)).units where
  isSuffix := List.drop_suffix _ _
  isPrefix := by
    by_cases hcarry : 0 < carryOf remaining
    · exact carryFrom_prefix remaining _ hcarry
    · rw [Nat.eq_zero_of_not_pos hcarry]
      simp [sliceLast, JsString.slice, JsString.length]
  proper := by
    have hle := carryOf_le remaining
    rw [marker_length]
    simp only [sliceLast, JsString.slice, JsString.length, List.length_drop]
    omega
  longest other hsuffix hprefix hproper := by
    have hlength : other.length ≤ remaining.length := hsuffix.length_le
    have hother : (sliceLast remaining other.length).units = other :=
      (List.suffix_iff_eq_drop.mp hsuffix).symm
    have hmarker : NATIVE_TERMINAL_RESET_MARKER.length = 16 := marker_length
    rw [marker_length] at hproper
    have hcarry : other.length ≤ carryOf remaining := by
      apply carryFrom_longest
      · omega
      · rwa [hother]
    have hle := carryOf_le remaining
    simp only [sliceLast, JsString.slice, JsString.length, List.length_drop] at hlength hle ⊢
    omega

/-- After some of a stream: what is held back can become a marker, and what follows is relayed
as if the stream were whole. -/
structure Relays (reset : JsString → JsString) (relay : TerminalResetRelay)
    (stream : List UInt16) : Prop where
  heldPrefix : relay.pending.units <+: NATIVE_TERMINAL_RESET_MARKER.units
  heldProper : relay.pending.units.length < NATIVE_TERMINAL_RESET_MARKER.units.length
  continues : ∀ more all, Relayed reset relay.emittedText.units (relay.pending.units ++ more) all →
    Relayed reset [] (stream ++ more) all

theorem relays_fresh : Relays reset fresh [] where
  heldPrefix := List.nil_prefix
  heldProper := by
    rw [marker_length]
    decide
  continues _ _ h := h

/-- One call more. -/
theorem Relays.feed {relay : TerminalResetRelay} {stream : List UInt16}
    (h : Relays reset relay stream) (data : JsString) :
    Relays reset (relay.feed reset data) (stream ++ data.units) := by
  obtain ⟨habsent, hmarkers⟩ := relayMarkers_spec reset relay.emitted
    (relay.pending ++ data)
  rcases hrun : relayMarkers reset relay.emitted (relay.pending ++ data) with ⟨emitted, remaining⟩
  rw [hrun] at habsent hmarkers
  have hheld := isHeld_carryOf remaining
  have hsplit : remaining.units.take (remaining.length - carryOf remaining) ++
      (sliceLast remaining (carryOf remaining)).units = remaining.units :=
    List.take_append_drop _ _
  have hpending : (relay.feed reset data).pending = sliceLast remaining (carryOf remaining) := by
    unfold TerminalResetRelay.feed
    simp only [hrun]
    change (if 0 < carryOf remaining then sliceLast remaining (carryOf remaining) else ⟨[]⟩) = _
    split
    next => rfl
    next hzero =>
      rw [Nat.eq_zero_of_not_pos hzero]
      simp [sliceLast, JsString.slice, JsString.length]
  have hemitted : (relay.feed reset data).emittedText.units =
      (joined emitted).units ++ remaining.units.take (remaining.length - carryOf remaining) := by
    unfold TerminalResetRelay.feed emittedText
    simp only [hrun]
    change (joined (if carryOf remaining < remaining.length then
      emitted ++ [⟨remaining.units.take (remaining.length - carryOf remaining)⟩]
      else emitted)).units = _
    split
    next => exact joined_append emitted _
    next hall =>
      have hzero : remaining.length - carryOf remaining = 0 := by omega
      rw [hzero, List.take_zero, List.append_nil]
  refine ⟨hpending ▸ hheld.isPrefix, hpending ▸ hheld.proper, fun more all hmore => ?_⟩
  rw [hpending, hemitted] at hmore
  rw [List.append_assoc]
  apply h.continues
  rw [← List.append_assoc]
  apply hmarkers
  rw [← hsplit] at habsent hheld ⊢
  rw [List.append_assoc]
  exact Replaced.of_held habsent hheld hmore

/-- The relay after the calls of `feed`. -/
def fed (reset : JsString → JsString) (chunks : List JsString) : TerminalResetRelay :=
  chunks.foldl (feed reset) fresh

variable (reset) in
theorem relays_fed (chunks : List JsString) :
    Relays reset (fed reset chunks) (joined chunks).units := by
  induction chunks using List.reverseRecOn with
  | nil => exact relays_fresh
  | append_singleton chunks data ih =>
      rw [fed, List.foldl_append, joined_append]
      exact ih.feed data

/-- At the end what is held back is emitted as it is. -/
theorem Relays.flush {relay : TerminalResetRelay} {stream : List UInt16}
    (h : Relays reset relay stream) : Relayed reset [] stream relay.flush.emittedText.units := by
  have hemitted : relay.flush.emittedText.units = relay.emittedText.units ++ relay.pending.units :=
    joined_ite
  have hrest : Relayed reset relay.emittedText.units (relay.pending.units ++ [])
      (relay.emittedText.units ++ (relay.pending.units ++ [])) := by
    apply Replaced.rest
    intro i hoccurs
    rw [List.append_nil] at hoccurs
    have hlength := hoccurs.length_le
    rw [List.length_drop] at hlength
    have hproper := h.heldProper
    omega
  rw [hemitted]
  simpa using h.continues [] _ hrest

/-- Whatever the stream and however it is cut: what is emitted is the stream with each marker
replaced by what `reset` returned there, and what is held back is a proper prefix of the marker. -/
theorem resetRelay_exact (reset : JsString → JsString) (chunks : List JsString) :
    (fed reset chunks).flush.emittedText = (fed reset [joined chunks]).flush.emittedText ∧
    (∀ all, Relayed reset [] (joined chunks).units all ↔
      all = (fed reset chunks).flush.emittedText.units) ∧
    (fed reset chunks).pending.units <+: NATIVE_TERMINAL_RESET_MARKER.units ∧
    (fed reset chunks).pending.units.length < NATIVE_TERMINAL_RESET_MARKER.units.length := by
  have hcut := (relays_fed reset chunks).flush
  have hwhole := (relays_fed reset [joined chunks]).flush
  have hstream : (joined [joined chunks]).units = (joined chunks).units := by simp [joined]
  rw [hstream] at hwhole
  refine ⟨JsString.ext_units (hcut.unique hwhole), fun all => ?_, (relays_fed _ chunks).heldPrefix,
    (relays_fed _ chunks).heldProper⟩
  constructor
  · exact fun h => h.unique hcut
  · rintro rfl
    exact hcut

/-- A marker in three pieces, after one that fails. -/
example : (fed (fun out => js "<" ++ out ++ js ">")
    [js "a\x1b]77", js "x\x1b]7", js "77;h2a-", js "reset\x07b"]).flush.emittedText =
      js "a\x1b]77x<a\x1b]77x>b" := by
  decide +kernel

end TerminalResetRelay

end H2a.NativeTerminal
