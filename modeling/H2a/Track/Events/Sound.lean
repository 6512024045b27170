import H2a.Track.Events.Validate
import Mathlib.Data.Finset.Card
import Mathlib.Data.List.Perm.Subperm
/-!
# What a clean validation means

`validate` is silent exactly on the streams that are the seal of a well-formed
list of cores.  `sealFrom` computes the integrity frame a list of cores must
carry; `WellFormed` is the part of the verdict that never looks at a frame.
The writers (`appendCommand`, `resealEvents`) are verified against this
description and never unfold the validator.
-/

namespace H2a.Track.Events

open H2a.Library

variable {C K : Type} [EventCore C K] [DecidableEq K]

/-! ## Sealing -/

/-- The only frame the scan accepts for `c` at this point. -/
def sealCore (contentHashOf : C → Sha256) (s : FrameScan K) (c : C) : TrackEvent C where
  core := c
  seq := (s.lastSeqByAggregate.get (EventCore.aggregateId c)).getD 0 + 1
  prevHash := s.prevHash
  contentHash := contentHashOf c

def sealFrom (contentHashOf : C → Sha256) (s : FrameScan K) : List C → List (TrackEvent C)
  | [] => []
  | c :: cs =>
      sealCore contentHashOf s c ::
        sealFrom contentHashOf (s.next (sealCore contentHashOf s c)) cs

/-- The scan state after a sealed list of cores. -/
def sealState (contentHashOf : C → Sha256) (s : FrameScan K) (cs : List C) : FrameScan K :=
  (sealFrom contentHashOf s cs).foldl FrameScan.next s

variable {contentHashOf : C → Sha256}

@[simp] theorem map_core_sealFrom (s : FrameScan K) (cs : List C) :
    (sealFrom contentHashOf s cs).map (·.core) = cs := by
  induction cs generalizing s with
  | nil => rfl
  | cons c cs ih => simp [sealFrom, ih, sealCore]

@[simp] theorem length_sealFrom (s : FrameScan K) (cs : List C) :
    (sealFrom contentHashOf s cs).length = cs.length := by
  induction cs generalizing s with
  | nil => rfl
  | cons c cs ih => simp [sealFrom, ih]

theorem sealFrom_append (s : FrameScan K) (cs ds : List C) :
    sealFrom contentHashOf s (cs ++ ds) =
      sealFrom contentHashOf s cs ++ sealFrom contentHashOf (sealState contentHashOf s cs) ds := by
  induction cs generalizing s with
  | nil => rfl
  | cons c cs ih =>
      simp only [List.cons_append, sealFrom, ih]
      rfl

theorem contentHash_of_mem_sealFrom {s : FrameScan K} {cs : List C} {e : TrackEvent C}
    (he : e ∈ sealFrom contentHashOf s cs) : e.contentHash = contentHashOf e.core := by
  induction cs generalizing s with
  | nil => simp [sealFrom] at he
  | cons c cs ih =>
      rcases List.mem_cons.mp he with rfl | hrest
      · rfl
      · exact ih hrest

theorem prevHash_sealState (s : FrameScan K) (cs : List C) :
    (sealState contentHashOf s cs).prevHash =
      ((sealFrom contentHashOf s cs).getLast?.map (·.contentHash)).or s.prevHash := by
  induction cs generalizing s with
  | nil => rfl
  | cons c cs ih =>
      have hstep : sealState contentHashOf s (c :: cs) =
          sealState contentHashOf (s.next (sealCore contentHashOf s c)) cs := rfl
      rw [hstep, ih, sealFrom, List.getLast?_cons]
      cases (sealFrom contentHashOf (s.next (sealCore contentHashOf s c)) cs).getLast? <;> rfl

/-- In a sealed log every event repeats the hash of the event before it. -/
theorem prevHash_of_sealed {es ds : List (TrackEvent C)} {e : TrackEvent C} {cs : List C}
    (h : es ++ e :: ds = sealFrom contentHashOf (FrameScan.init (K := K)) cs) :
    e.prevHash = lastHash es := by
  have hcores : cs = es.map (·.core) ++ e.core :: ds.map (·.core) := by
    have := congrArg (List.map (·.core)) h
    simpa using this.symm
  rw [hcores, sealFrom_append] at h
  have hlen : es.length =
      (sealFrom contentHashOf (FrameScan.init (K := K)) (es.map (·.core))).length := by simp
  obtain ⟨hes, hrest⟩ := List.append_inj h hlen
  have he : e = sealCore contentHashOf
      (sealState contentHashOf (FrameScan.init (K := K)) (es.map (·.core))) e.core :=
    (List.cons.inj hrest).1
  rw [he]
  change (sealState contentHashOf FrameScan.init (es.map (·.core))).prevHash = lastHash es
  rw [prevHash_sealState, ← hes]
  simp [FrameScan.init, lastHash]

/-! ## Conditions on the cores -/

/-- Condition (iv) and the batch frame, as one walk over the cores. -/
def kindChecker : Checker (JsMap K K) C where
  next kinds c :=
    match kinds.get (EventCore.aggregateId c), EventCore.aggregate c with
    | none, some kind => kinds.set (EventCore.aggregateId c) kind
    | _, _ => kinds
  ok kinds c :=
    (∀ kind, kinds.get (EventCore.aggregateId c) = some kind →
      EventCore.aggregate c = some kind) ∧
    ((EventCore.cmdId c).isSome ↔ (EventCore.cmd c).isSome)

/-- The members of batch `cmdId` in a stream whose first index is `index`. -/
def membersFrom (index : Nat) (cmdId : K) : List C → List BatchMember
  | [] => []
  | c :: cs =>
      (if EventCore.cmdId c = some cmdId then [BatchMember.ofCore index c] else []) ++
        membersFrom (index + 1) cmdId cs

/-- A batch that `validateBatches` accepts, with its size. -/
structure Complete (n : Nat) (members : List BatchMember) : Prop where
  pos : 0 < n
  declared : some (.int n) ∈ members.map (·.n)
  agreed : ∀ m ∈ members, m.n = none ∨ m.n = some (.int n)
  count : members.length = n
  contiguous : Contiguous (members.map (·.index))
  positions : ∃ ps : List Nat,
    members.map (·.i) = ps.map (fun p => some (.int p)) ∧ ps.Perm (List.range n)

/-- The reopening rule as a walk over the cores. -/
def reopenChecker : Checker (JsMap K JsString) C where
  next := reopenNext
  ok realizationOf c :=
    match EventCore.lifecycle c with
    | .reopened p =>
        reopenShape p = none ∧ p.itemId = .itself ∧
          ∀ current, realizationOf.get (EventCore.aggregateId c) = some current →
            isClosed current
    | _ => True

/-- The part of the verdict that depends on the cores alone. -/
structure WellFormed (cs : List C) : Prop where
  kinds : kindChecker.Accepts (JsMap.empty : JsMap K K) cs
  batches : ∀ k : K, membersFrom 0 k cs ≠ [] → ∃ n, Complete n (membersFrom 0 k cs)
  blockerScope : ∀ c ∈ cs, (EventCore.blockerOpened c).bind blockerScopeReason = none
  reopen : reopenChecker.Accepts (JsMap.empty : JsMap K JsString) cs

/-- The log is the seal of well-formed cores. -/
structure Sound (contentHashOf : C → Sha256) (events : List (TrackEvent C)) : Prop where
  isSealed : events = sealFrom contentHashOf (FrameScan.init (K := K)) (events.map (·.core))
  wellFormed : WellFormed (K := K) (events.map (·.core))

theorem Sound.contentHash {events : List (TrackEvent C)} (h : Sound contentHashOf events)
    {e : TrackEvent C} (he : e ∈ events) : e.contentHash = contentHashOf e.core :=
  contentHash_of_mem_sealFrom (h.isSealed ▸ he)

theorem Sound.prevHash {es ds : List (TrackEvent C)} {e : TrackEvent C}
    (h : Sound contentHashOf (es ++ e :: ds)) : e.prevHash = lastHash es :=
  prevHash_of_sealed h.isSealed

/-- Sealing numbers the events of an aggregate upwards from its last one. -/
theorem lastSeq_lt_of_mem_sealFrom {s : FrameScan K} {cs : List C} {e : TrackEvent C}
    (he : e ∈ sealFrom contentHashOf s cs) :
    (s.lastSeqByAggregate.get e.aggregateId).getD 0 < e.seq := by
  induction cs generalizing s with
  | nil => simp [sealFrom] at he
  | cons c cs ih =>
      rcases List.mem_cons.mp he with rfl | hrest
      · simp [sealCore, TrackEvent.aggregateId]
      · have hlt := ih hrest
        simp only [FrameScan.next, JsMap.get_set] at hlt
        split at hlt
        · rename_i hsame
          rw [hsame]
          simp only [Option.getD_some, sealCore, TrackEvent.aggregateId] at hlt ⊢
          omega
        · exact hlt

/-- No event of a sound log occurs twice: `aggregateId` and `seq` tell them apart. -/
theorem Sound.nodup {events : List (TrackEvent C)} (h : Sound contentHashOf events) :
    events.Nodup := by
  suffices hseal : ∀ (s : FrameScan K) cs, (sealFrom contentHashOf s cs).Nodup by
    rw [h.isSealed]
    exact hseal _ _
  intro s cs
  induction cs generalizing s with
  | nil => exact List.nodup_nil
  | cons c cs ih =>
      refine List.nodup_cons.mpr ⟨fun hmem => ?_, ih _⟩
      have hlt := lastSeq_lt_of_mem_sealFrom hmem
      simp [FrameScan.next] at hlt

/-- The head points at an event of the log that carries the recorded hash. -/
def Anchored (events : List (TrackEvent C)) : Option Head → Prop
  | none => True
  | some head =>
      head.streamLength ≤ events.length ∧
        (head.streamLength ≠ 0 →
          events[head.streamLength - 1]?.map (·.contentHash) = head.lastContentHash)

/-! ## The frame loop -/

theorem kindFindings_eq_nil_iff (s : FrameScan K) (index : Nat) (e : TrackEvent C) :
    kindFindings s index e = [] ↔
      ∀ kind, s.aggregateKind.get e.aggregateId = some kind → e.aggregate = some kind := by
  unfold kindFindings
  cases s.aggregateKind.get e.aggregateId with
  | none => simp
  | some known => simp [eq_comm]

theorem frameFindings_eq_nil_iff (s : FrameScan K) (index : Nat) (e : TrackEvent C) :
    frameFindings contentHashOf s index e = [] ↔
      e = sealCore contentHashOf s e.core ∧ kindChecker.ok s.aggregateKind e.core := by
  have hseal : e = sealCore contentHashOf s e.core ↔
      e.contentHash = contentHashOf e.core ∧ e.prevHash = s.prevHash ∧
        e.seq = (s.lastSeqByAggregate.get e.aggregateId).getD 0 + 1 := by
    cases e
    simp only [sealCore, TrackEvent.aggregateId, TrackEvent.mk.injEq, true_and]
    tauto
  have hframe : (¬(e.cmdId.isSome && e.cmd.isNone) = true ∧
      ¬(e.cmd.isSome && e.cmdId.isNone) = true) ↔ (e.cmdId.isSome ↔ e.cmd.isSome) := by
    cases e.cmdId <;> cases e.cmd <;> simp
  simp only [frameFindings, List.append_eq_nil_iff, ite_eq_left_iff, ite_eq_right_iff,
    List.cons_ne_nil, imp_false, not_not, kindChecker]
  rw [kindFindings_eq_nil_iff, hseal]
  simp only [TrackEvent.aggregateId, TrackEvent.aggregate, TrackEvent.cmdId, TrackEvent.cmd,
    TrackEvent.stripFrame] at hframe ⊢
  rw [← hframe]
  simp only [and_assoc]

@[simp] theorem aggregateKind_next (s : FrameScan K) (e : TrackEvent C) :
    (s.next e).aggregateKind = kindChecker.next s.aggregateKind e.core := rfl

theorem scanFrames_eq_nil_iff (s : FrameScan K) (index : Nat) (es : List (TrackEvent C)) :
    scanFrames contentHashOf s index es = [] ↔
      es = sealFrom contentHashOf s (es.map (·.core)) ∧
        kindChecker.Accepts s.aggregateKind (es.map (·.core)) := by
  induction es generalizing s index with
  | nil => simp [scanFrames, sealFrom]
  | cons e es ih =>
      simp only [scanFrames, List.append_eq_nil_iff, frameFindings_eq_nil_iff, ih, List.map_cons,
        sealFrom, List.cons.injEq, Checker.accepts_cons, aggregateKind_next]
      constructor
      · rintro ⟨⟨he, hok⟩, hes, hrest⟩
        exact ⟨⟨he, he ▸ hes⟩, hok, hrest⟩
      · rintro ⟨⟨he, hes⟩, hok, hrest⟩
        exact ⟨⟨he, hok⟩, he.symm ▸ hes, hrest⟩

/-! ## Batches -/

theorem get_collectBatches (index : Nat) (es : List (TrackEvent C))
    (batches : JsMap K (List BatchMember)) (k : K) :
    (collectBatches index es batches).get k =
      if membersFrom index k (es.map (·.core)) = [] then batches.get k
      else some ((batches.get k).getD [] ++ membersFrom index k (es.map (·.core))) := by
  induction es generalizing index batches with
  | nil => simp [collectBatches, membersFrom]
  | cons e es ih =>
      rw [collectBatches, ih]
      cases hid : e.cmdId with
      | none =>
          have hid' : EventCore.cmdId e.core = none := hid
          simp [membersFrom, hid']
      | some k' =>
          have hid' : EventCore.cmdId e.core = some k' := hid
          by_cases hk : k = k'
          · subst hk
            simp [membersFrom, hid']
          · simp [membersFrom, hid', hk, Ne.symm hk]

theorem validateBatches_eq_nil_iff (es : List (TrackEvent C)) :
    validateBatches es = [] ↔
      ∀ k : K, membersFrom 0 k (es.map (·.core)) ≠ [] →
        batchFindings k (membersFrom 0 k (es.map (·.core))) = [] := by
  have hget : ∀ k ms, (k, ms) ∈ (collectBatches 0 es (.empty : JsMap K _)).entries ↔
      membersFrom 0 k (es.map (·.core)) ≠ [] ∧ ms = membersFrom 0 k (es.map (·.core)) := by
    intro k ms
    rw [JsMap.mem_entries_iff, get_collectBatches]
    by_cases hk : membersFrom 0 k (es.map (·.core)) = []
    · simp [hk]
    · simp [hk, eq_comm]
  simp only [validateBatches, List.flatMap_eq_nil_iff, Prod.forall, hget]
  constructor
  · intro h k hk
    exact h k _ ⟨hk, rfl⟩
  · rintro h k ms ⟨hk, rfl⟩
    exact h k hk

omit [DecidableEq K] in
/-- A silent position loop has read distinct positions below `n`, none seen before. -/
theorem positionFindings_eq_nil_iff (k : K) (n count : Nat) (seen : List Int)
    (ms : List BatchMember) :
    (positionFindings k n count seen ms).1 = [] ↔
      ∃ ps : List Nat, ms.map (·.i) = ps.map (fun p => some (.int p)) ∧ ps.Nodup ∧
        (∀ p ∈ ps, p < n) ∧ ∀ p ∈ ps, (p : Int) ∉ seen := by
  induction ms generalizing seen with
  | nil =>
      simp only [positionFindings, List.map_nil, true_iff]
      exact ⟨[], by simp⟩
  | cons m ms ih =>
      have hnot : ∀ x, m.i = x → (∀ p : Nat, x ≠ some (.int p)) →
          ¬∃ ps : List Nat, (m :: ms).map (·.i) = ps.map (fun p => some (.int p)) ∧ ps.Nodup ∧
            (∀ p ∈ ps, p < n) ∧ ∀ p ∈ ps, (p : Int) ∉ seen := by
        rintro x hx hne ⟨ps, hps, -⟩
        cases ps with
        | nil => simp at hps
        | cons p ps =>
            simp only [List.map_cons, List.cons.injEq, hx] at hps
            exact hne p hps.1
      cases hi : m.i with
      | none =>
          simp only [positionFindings, hi]
          exact iff_of_false (List.cons_ne_nil _ _) (hnot none hi (by simp))
      | some i =>
          cases i with
          | other =>
              simp only [positionFindings, hi]
              exact iff_of_false (List.cons_ne_nil _ _) (hnot _ hi (by simp))
          | int p =>
              simp only [positionFindings, hi]
              by_cases hp : p < 0 ∨ (n : Int) ≤ p
              · simp only [if_pos hp]
                refine iff_of_false (by simp) ?_
                rintro ⟨ps, hps, -, hlt, -⟩
                cases ps with
                | nil => simp at hps
                | cons q ps =>
                    simp only [List.map_cons, List.cons.injEq, hi, Option.some.injEq,
                      CmdNumber.int.injEq] at hps
                    have := hlt q (by simp)
                    omega
              · simp only [if_neg hp, List.append_eq_nil_iff, ite_eq_right_iff,
                  List.cons_ne_nil, imp_false, ih]
                obtain ⟨q, rfl⟩ : ∃ q : Nat, p = q := ⟨p.toNat, by omega⟩
                constructor
                · rintro ⟨hseen, ps, hps, hnodup, hlt, hfresh⟩
                  refine ⟨q :: ps, by simp [hi, hps], ?_, ?_, ?_⟩
                  · refine List.nodup_cons.mpr ⟨fun hq => ?_, hnodup⟩
                    exact hfresh q hq (by simp)
                  · intro r hr
                    rcases List.mem_cons.mp hr with rfl | hr
                    · omega
                    · exact hlt r hr
                  · intro r hr
                    rcases List.mem_cons.mp hr with rfl | hr
                    · exact hseen
                    · exact fun h => hfresh r hr (List.mem_cons_of_mem _ h)
                · rintro ⟨ps, hps, hnodup, hlt, hfresh⟩
                  cases ps with
                  | nil => simp at hps
                  | cons r ps =>
                      simp only [List.map_cons, List.cons.injEq, hi, Option.some.injEq,
                        CmdNumber.int.injEq, Int.natCast_inj] at hps
                      obtain ⟨rfl, hps⟩ := hps
                      rw [List.nodup_cons] at hnodup
                      refine ⟨hfresh q (by simp), ps, hps, hnodup.2,
                        fun r hr => hlt r (List.mem_cons_of_mem _ hr), fun r hr hmem => ?_⟩
                      rcases List.mem_cons.mp hmem with heq | hmem
                      · exact hnodup.1 (Int.natCast_inj.mp heq ▸ hr)
                      · exact hfresh r (List.mem_cons_of_mem _ hr) hmem

omit [DecidableEq K] in
theorem positionFindings_seen (k : K) (n count : Nat) (seen : List Int) {ms : List BatchMember}
    {ps : List Nat} (hms : ms.map (·.i) = ps.map (fun p => some (.int p)))
    (hlt : ∀ p ∈ ps, p < n) :
    (positionFindings k n count seen ms).2 = (ps.map Nat.cast).reverse ++ seen := by
  induction ms generalizing seen ps with
  | nil =>
      have hps : ps = [] := by simpa using hms.symm
      simp [hps, positionFindings]
  | cons m ms ih =>
      cases ps with
      | nil => simp at hms
      | cons p ps =>
          simp only [List.map_cons, List.cons.injEq] at hms
          have hp := hlt p (by simp)
          have hin : ¬((p : Int) < 0 ∨ (n : Int) ≤ p) := by omega
          have hrest := ih ((p : Int) :: seen) hms.2
            (fun q hq => hlt q (List.mem_cons_of_mem _ hq))
          simp only [positionFindings, hms.1, if_neg hin, hrest]
          simp

theorem dedup_eq_singleton_iff {α : Type} [DecidableEq α] (xs : List α) (a : α) :
    xs.dedup = [a] ↔ a ∈ xs ∧ ∀ x ∈ xs, x = a := by
  constructor
  · intro h
    have hmem : ∀ x, x ∈ xs ↔ x = a := by
      intro x
      rw [← List.mem_dedup, h, List.mem_singleton]
    exact ⟨(hmem a).mpr rfl, fun x hx => (hmem x).mp hx⟩
  · rintro ⟨ha, hall⟩
    have hperm : xs.dedup.Perm [a] := by
      refine (List.perm_ext_iff_of_nodup (List.nodup_dedup xs) (List.nodup_singleton a)).mpr ?_
      intro x
      rw [List.mem_dedup, List.mem_singleton]
      exact ⟨hall x, fun h => h ▸ ha⟩
    exact List.perm_singleton.mp hperm

/-- `n` distinct positions below `n` are all of them. -/
theorem perm_range_of_nodup {ps : List Nat} {n : Nat} (hnodup : ps.Nodup)
    (hlt : ∀ p ∈ ps, p < n) (hlen : ps.length = n) : ps.Perm (List.range n) := by
  have hsub : ps.Subperm (List.range n) :=
    List.subperm_of_subset hnodup fun p hp => List.mem_range.mpr (hlt p hp)
  exact hsub.perm_of_length_le (by simp [hlen])

omit [DecidableEq K] in
theorem batchFindings_eq_nil_iff (k : K) (ms : List BatchMember) :
    batchFindings k ms = [] ↔ ∃ n, Complete n ms := by
  have hdecl : ∀ n : Nat, (ms.filterMap (·.n)).dedup = [.int n] ↔
      some (.int n) ∈ ms.map (·.n) ∧ ∀ m ∈ ms, m.n = none ∨ m.n = some (.int n) := by
    intro n
    rw [dedup_eq_singleton_iff]
    refine and_congr (by simp) ?_
    constructor
    · intro h m hm
      cases hn : m.n with
      | none => exact Or.inl rfl
      | some x => exact Or.inr (congrArg some (h x (List.mem_filterMap.mpr ⟨m, hm, hn⟩)))
    · rintro h x hx
      obtain ⟨m, hm, hn⟩ := List.mem_filterMap.mp hx
      rcases h m hm with h | h
      · simp [h] at hn
      · simpa [h] using hn.symm
  constructor
  · intro h
    unfold batchFindings at h
    split at h
    · simp at h
    · rename_i n hd
      split at h
      · simp at h
      · rename_i hpos
        obtain ⟨n, rfl⟩ : ∃ q : Nat, n = q := ⟨n.toNat, by omega⟩
        simp only [List.append_eq_nil_iff, ite_eq_left_iff, List.cons_ne_nil, imp_false,
          not_not, positionFindings_eq_nil_iff] at h
        obtain ⟨⟨⟨hcount, hcont⟩, ps, hps, hnodup, hlt, -⟩, -⟩ := h
        have hcount' : ms.length = n := by exact_mod_cast hcount
        have hlen : ps.length = n := by
          have := congrArg List.length hps
          simpa [hcount'] using this.symm
        have hdecl' := (hdecl n).mp hd
        exact ⟨n, by omega, hdecl'.1, hdecl'.2, hcount', hcont, ps, hps,
          perm_range_of_nodup hnodup hlt hlen⟩
    · simp at h
  · rintro ⟨n, hpos, hdeclared, hagreed, hcount, hcont, ps, hps, hperm⟩
    have hlt : ∀ p ∈ ps, p < n := fun p hp => List.mem_range.mp (hperm.mem_iff.mp hp)
    have hnodup : ps.Nodup := hperm.nodup_iff.mpr List.nodup_range
    have hsilent : (positionFindings k n n [] ms).1 = [] :=
      (positionFindings_eq_nil_iff k n _ [] ms).mpr ⟨ps, hps, hnodup, hlt, by simp⟩
    have hcovered : ∀ p < n, (p : Int) ∈ (positionFindings k n n [] ms).2 := by
      intro p hp
      rw [positionFindings_seen k n n [] hps hlt]
      have hmem : p ∈ ps := hperm.mem_iff.mpr (List.mem_range.mpr hp)
      simp only [List.append_nil, List.mem_reverse]
      exact List.mem_map_of_mem hmem
    have hne : ¬((n : Int) ≤ 0) := by omega
    simp only [batchFindings, (hdecl n).mpr ⟨hdeclared, hagreed⟩, if_neg hne]
    simpa [hcount, hcont, hsilent] using hcovered

/-! ## Blocker scope, reopening, head -/

omit [DecidableEq K] in
theorem validateBlockerScope_eq_nil_iff (index : Nat) (es : List (TrackEvent C)) :
    validateBlockerScope index es = [] ↔
      ∀ c ∈ es.map (·.core), (EventCore.blockerOpened c).bind blockerScopeReason = none := by
  induction es generalizing index with
  | nil => simp [validateBlockerScope]
  | cons e es ih =>
      simp only [validateBlockerScope, List.append_eq_nil_iff, List.map_eq_nil_iff,
        Option.toList_eq_nil_iff, ih, List.map_cons, List.forall_mem_cons]

theorem reopenLegality_eq_none_iff (p : ReopenedFields) (current : Option JsString) :
    reopenLegality p current = none ↔
      p.itemId = .itself ∧ ∀ realization, current = some realization → isClosed realization := by
  unfold reopenLegality
  cases p.itemId with
  | absent => simp
  | foreign => simp
  | itself => cases current <;> simp

theorem reopenFindings_eq_nil_iff (realizationOf : JsMap K JsString) (index : Nat)
    (e : TrackEvent C) :
    reopenFindings realizationOf index e = [] ↔ reopenChecker.ok realizationOf e.core := by
  simp only [reopenFindings, reopenChecker]
  cases EventCore.lifecycle e.core with
  | created => simp
  | transition => simp
  | other => simp
  | reopened p =>
      simp only [List.append_eq_nil_iff, List.map_eq_nil_iff, Option.toList_eq_nil_iff,
        reopenLegality_eq_none_iff, TrackEvent.aggregateId]

theorem validateReopen_eq_nil_iff (realizationOf : JsMap K JsString) (index : Nat)
    (es : List (TrackEvent C)) :
    validateReopen realizationOf index es = [] ↔
      reopenChecker.Accepts realizationOf (es.map (·.core)) := by
  induction es generalizing realizationOf index with
  | nil => simp [validateReopen]
  | cons e es ih =>
      rw [validateReopen, List.append_eq_nil_iff, reopenFindings_eq_nil_iff, ih]
      rfl

omit [EventCore C K] [DecidableEq K] in
theorem validateHead_eq_nil_iff (es : List (TrackEvent C)) (head : Option Head) :
    validateHead (K := K) es head = [] ↔ Anchored es head := by
  cases head with
  | none => simp [validateHead, Anchored]
  | some head =>
      simp only [validateHead, Anchored]
      by_cases hlen : es.length < head.streamLength
      · simp [hlen]
      · by_cases hzero : head.streamLength = 0
        · simp [hzero]
        · have hlt : head.streamLength - 1 < es.length := by omega
          simp [hlen, hzero, List.getElem?_eq_getElem hlt, Nat.not_lt.mp hlen]

/-! ## The verdict -/

/-- A clean validation says that the log is sound and that the head anchors in it. -/
theorem validate_ok_iff (es : List (TrackEvent C)) (head : Option Head) :
    (validate contentHashOf es head).ok = true ↔ Sound contentHashOf es ∧ Anchored es head := by
  simp only [validate, List.isEmpty_iff, List.append_eq_nil_iff, scanFrames_eq_nil_iff,
    validateBatches_eq_nil_iff, batchFindings_eq_nil_iff, validateBlockerScope_eq_nil_iff,
    validateReopen_eq_nil_iff, validateHead_eq_nil_iff]
  constructor
  · rintro ⟨⟨⟨⟨⟨hseal, hkinds⟩, hbatches⟩, hscope⟩, hreopen⟩, hhead⟩
    exact ⟨⟨hseal, hkinds, hbatches, hscope, hreopen⟩, hhead⟩
  · rintro ⟨⟨hseal, hkinds, hbatches, hscope, hreopen⟩, hhead⟩
    exact ⟨⟨⟨⟨⟨hseal, hkinds⟩, hbatches⟩, hscope⟩, hreopen⟩, hhead⟩

end H2a.Track.Events
