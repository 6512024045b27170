import H2a.Track.Events.Store
/-!
# Extending a sound log

When the locked section of `appendCommand` writes a command of one event.
-/

namespace H2a.Track.Events

open H2a.Library

variable {C K : Type} [EventCore C K] [DecidableEq K]

/-! ## The kinds of the aggregates -/

section Kinds

variable {kinds : JsMap K K} {cs : List C} {k kind : K}

/-- A kind that is known stays known. -/
theorem get_run_kinds (h : kinds.get k = some kind) :
    (kindChecker.run kinds cs).get k = some kind := by
  refine Checker.run_induction kindChecker (I := fun kinds => kinds.get k = some kind) ?_ h
  intro kinds c _ hkind
  unfold kindChecker
  dsimp only
  split
  · rename_i hnone _
    rw [JsMap.get_set_of_ne _ _ fun heq => by rw [← heq, hkind] at hnone; simp at hnone]
    exact hkind
  · exact hkind

/-- A kind that is known has been met. -/
theorem met_of_get_run (h : (kindChecker.run kinds cs).get k = some kind) :
    kinds.get k = some kind ∨
      ∃ c ∈ cs, EventCore.aggregateId c = k ∧ EventCore.aggregate c = some kind := by
  induction cs generalizing kinds with
  | nil => exact .inl h
  | cons c cs ih =>
      rw [Checker.run_cons] at h
      rcases ih h with hnext | ⟨c', hc', hmet⟩
      · unfold kindChecker at hnext
        dsimp only at hnext
        split at hnext
        · rename_i kind' hnone haggregate
          rw [JsMap.get_set] at hnext
          split at hnext
          · rename_i hk
            obtain rfl := Option.some.inj hnext
            exact .inr ⟨c, List.mem_cons_self, hk.symm, haggregate⟩
          · exact .inl hnext
        · exact .inl hnext
      · exact .inr ⟨c', List.mem_cons_of_mem _ hc', hmet⟩

/-- In a log that is accepted, a kind that has been met is known. -/
theorem get_run_of_met (h : kindChecker.Accepts kinds cs) {c : C} (hc : c ∈ cs)
    (hkind : EventCore.aggregate c = some kind) :
    (kindChecker.run kinds cs).get (EventCore.aggregateId c) = some kind := by
  induction cs generalizing kinds with
  | nil => simp at hc
  | cons first rest ih =>
      obtain ⟨hok, hrest⟩ := h
      rw [Checker.run_cons]
      rcases List.mem_cons.mp hc with rfl | hc
      · apply get_run_kinds
        unfold kindChecker
        dsimp only
        cases hknown : kinds.get (EventCore.aggregateId c) with
        | none =>
            rw [hkind]
            exact JsMap.get_set_self _ _ _
        | some known =>
            rw [hok.1 known hknown, Option.some.injEq] at hkind
            rw [← hkind]
            exact hknown
      · exact ih hrest hc

end Kinds

/-! ## One event more -/

/-- An event on its own that no rule but the one about kinds is about. -/
structure Plain (c : C) : Prop where
  cmdId : EventCore.cmdId c = none
  cmd : EventCore.cmd c = none
  blockerOpened : EventCore.blockerOpened c = none
  lifecycle : ∀ reopening, EventCore.lifecycle c ≠ .reopened reopening

theorem wellFormed_concat_iff {cs : List C} (h : WellFormed (K := K) cs) {c : C} (hplain : Plain c) :
    WellFormed (K := K) (cs ++ [c]) ↔
      ∀ c' ∈ cs, EventCore.aggregateId c' = EventCore.aggregateId c →
        ∀ kind, EventCore.aggregate c' = some kind → EventCore.aggregate c = some kind := by
  have hkinds : kindChecker.Accepts (JsMap.empty : JsMap K K) (cs ++ [c]) ↔
      ∀ kind, (kindChecker.run JsMap.empty cs).get (EventCore.aggregateId c) = some kind →
        EventCore.aggregate c = some kind := by
    rw [Checker.accepts_append]
    simp only [h.kinds, true_and, Checker.accepts_cons, Checker.accepts_nil, and_true]
    unfold kindChecker
    simp [hplain.cmdId, hplain.cmd]
  have hmembers : ∀ k : K, membersFrom 0 k (cs ++ [c]) = membersFrom 0 k cs := by
    intro k
    rw [membersFrom_append]
    simp [membersFrom, hplain.cmdId]
  refine ⟨fun hwf c' hc' hsame kind hkind => ?_, fun hmet => ⟨?_, ?_, ?_, ?_⟩⟩
  · apply hkinds.mp hwf.kinds
    rw [← hsame]
    exact get_run_of_met h.kinds hc' hkind
  · rw [hkinds]
    intro kind hget
    rcases met_of_get_run hget with hempty | ⟨c', hc', hsame, hkind⟩
    · simp at hempty
    · exact hmet c' hc' hsame kind hkind
  · intro k hne
    rw [hmembers] at hne ⊢
    exact h.batches k hne
  · intro c' hc'
    rcases List.mem_append.mp hc' with hc' | hc'
    · exact h.blockerScope c' hc'
    · rw [List.mem_singleton.mp hc', hplain.blockerOpened]
      rfl
  · rw [Checker.accepts_append]
    refine ⟨h.reopen, ?_, trivial⟩
    unfold reopenChecker
    dsimp only
    split
    · rename_i reopening hlifecycle
      exact absurd hlifecycle (hplain.lifecycle reopening)
    · trivial

variable {contentHashOf : C → Sha256}

/-- The event that goes on a log. -/
def sealNext (contentHashOf : C → Sha256) (existing : List (TrackEvent C)) (c : C) : TrackEvent C :=
  sealCore contentHashOf (sealState contentHashOf FrameScan.init (existing.map (·.core))) c

theorem sound_concat_iff {existing : List (TrackEvent C)} (h : Sound contentHashOf existing)
    {c : C} : Sound contentHashOf (existing ++ [sealNext contentHashOf existing c]) ↔
      WellFormed (K := K) (existing.map (·.core) ++ [c]) := by
  have hcores : (existing ++ [sealNext contentHashOf existing c]).map (·.core) =
      existing.map (·.core) ++ [c] := by
    simp [sealNext, sealCore]
  refine ⟨fun hsound => hcores ▸ hsound.wellFormed, fun hwf => ⟨?_, hcores ▸ hwf⟩⟩
  rw [hcores, sealFrom_append, ← h.isSealed]
  rfl

theorem sound_nil : Sound contentHashOf ([] : List (TrackEvent C)) where
  isSealed := rfl
  wellFormed := ⟨trivial, fun k h => absurd rfl h, by simp, trivial⟩

/-- In a sound log the events of an aggregate are of one kind. -/
theorem Sound.sameKind {existing : List (TrackEvent C)} (h : Sound contentHashOf existing)
    {e e' : TrackEvent C} (he : e ∈ existing) (he' : e' ∈ existing)
    (hid : EventCore.aggregateId e.core = EventCore.aggregateId e'.core) {kind kind' : K}
    (hkind : EventCore.aggregate e.core = some kind)
    (hkind' : EventCore.aggregate e'.core = some kind') : kind = kind' := by
  have hmet := get_run_of_met h.wellFormed.kinds (List.mem_map_of_mem he) hkind
  have hmet' := get_run_of_met h.wellFormed.kinds (List.mem_map_of_mem he') hkind'
  rw [hid, hmet'] at hmet
  exact (Option.some.inj hmet).symm

/-- The frame the store gives to an event is the one the log asks for. -/
theorem sealNext_eq {existing : List (TrackEvent C)} (h : Sound contentHashOf existing) (c : C) :
    sealNext contentHashOf existing c =
      ⟨c, ((lastSeqByAggregate existing).get (EventCore.aggregateId c)).getD 0 + 1,
        lastHash existing, contentHashOf c⟩ := by
  have hseqs : ∀ (es : List (TrackEvent C)) (s : FrameScan K),
      (es.foldl FrameScan.next s).lastSeqByAggregate =
        es.foldl (fun seqs e => seqs.set e.aggregateId e.seq) s.lastSeqByAggregate := by
    intro es
    induction es with
    | nil => exact fun _ => rfl
    | cons e es ih => exact fun s => ih (s.next e)
  have hlast : (sealState contentHashOf FrameScan.init (existing.map (·.core))).prevHash =
      lastHash existing := by
    rw [prevHash_sealState, ← h.isSealed]
    simp [FrameScan.init, lastHash]
  have hseq : (sealState contentHashOf FrameScan.init
      (existing.map (·.core))).lastSeqByAggregate = lastSeqByAggregate existing := by
    rw [sealState, ← h.isSealed, hseqs]
    rfl
  rw [sealNext, sealCore, hlast, hseq]

/-! ## A command of one event -/

section One

variable {I : Type} [CommandEvent I C K]
variable {existing : List (TrackEvent C)} {head : Option Head} {opts : AppendOpts I C}
variable {input : I} {c : C}

variable (contentHashOf existing head opts input c) in
/-- The store is in order, and nothing but the rules of the log is in the way. -/
structure Single : Prop where
  sound : Sound contentHashOf existing
  anchored : Anchored existing head
  dedupe : runDedupe opts [input] existing = .ok none
  recheck : runRecheck opts [input] existing = (.ok () : Except (StoreError K) Unit)
  materialize : CommandEvent.materialize input none = .ok c
  aggregateId : CommandEvent.aggregateId input = EventCore.aggregateId c

theorem planAppend_one (h : Single contentHashOf existing head opts input c) :
    planAppend contentHashOf existing head [input] opts =
      let events := [sealNext contentHashOf existing c]
      let candidate := validate contentHashOf (existing ++ events) none
      if candidate.ok then .ok (.append events)
      else .error (.invalidCandidate candidate.findings) := by
  have hok : (validate contentHashOf existing head).ok = true :=
    (validate_ok_iff _ _).mpr ⟨h.sound, h.anchored⟩
  have hframe : frameInputs contentHashOf (batchOf [input] opts) 0 (lastHash existing)
      (lastSeqByAggregate existing) [input] =
        (.ok [sealNext contentHashOf existing c] : Except (StoreError K) _) := by
    have hbatch : batchOf [input] opts = none := by simp [batchOf]
    simp only [frameInputs, hbatch, Option.map_none, h.materialize, Except.mapError]
    rw [sealNext_eq h.sound, h.aggregateId]
    rfl
  simp only [planAppend, hok, h.dedupe, h.recheck, hframe, Bool.true_eq_false, if_false, Bind.bind,
    Except.bind]
  cases (validate contentHashOf (existing ++ [sealNext contentHashOf existing c]) none).ok <;> rfl

theorem checkCommand_one : checkCommand [input] opts = .ok () :=
  checkCommand_eq_ok_iff.mpr ⟨List.cons_ne_nil _ _, fun hmany => absurd hmany (by simp)⟩

/-- It is written when the log stays sound. -/
theorem appendCommand_one (h : Single contentHashOf existing head opts input c)
    (hnext : Sound contentHashOf (existing ++ [sealNext contentHashOf existing c])) :
    Store.appendCommand contentHashOf ⟨existing, head⟩ [input] opts =
      (.ok [sealNext contentHashOf existing c],
        ⟨existing ++ [sealNext contentHashOf existing c],
          some (expectedHead existing [sealNext contentHashOf existing c])⟩) := by
  have hok : (validate contentHashOf (existing ++ [sealNext contentHashOf existing c])
      none).ok = true := (validate_ok_iff _ _).mpr ⟨hnext, trivial⟩
  have hplan := planAppend_one h
  dsimp only at hplan
  rw [if_pos hok] at hplan
  simp only [Store.appendCommand, checkCommand_one, hplan,
    verifyAppend_ok hnext (List.cons_ne_nil _ _)]

/-- It is refused when the log would not stay sound. -/
theorem appendCommand_one_refused (h : Single contentHashOf existing head opts input c)
    (hnext : ¬ Sound contentHashOf (existing ++ [sealNext contentHashOf existing c])) :
    ∃ error, Store.appendCommand contentHashOf ⟨existing, head⟩ [input] opts =
      (.error error, ⟨existing, head⟩) := by
  have hplan := planAppend_one h
  dsimp only at hplan
  rw [if_neg fun hok => hnext ((validate_ok_iff _ _).mp hok).1] at hplan
  simp only [Store.appendCommand, checkCommand_one, hplan]
  exact ⟨_, rfl⟩

end One

end H2a.Track.Events
