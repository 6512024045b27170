import H2a.Track.Events.Batch
import H2a.Track.Events.Reseal
/-!
# Union merge

`merge=union` followed by `track reseal`: two branches that extend one log
without sharing an aggregate, a batch or an id are recovered side by side.
Every condition of `WellFormed` is carried across the seam; the frame is the
reseal's own work.
-/

namespace H2a.Track.Events

open H2a.Library

variable {C K : Type} [EventCore C K] [DecidableEq K]
variable {contentHashOf : C → Sha256}

/-! ## The walks read and write their own aggregate only -/

theorem kindChecker_keyed : (kindChecker (C := C)).Keyed (EventCore.aggregateId (K := K)) where
  frame kinds c k hk := by
    simp only [kindChecker]
    split
    · exact JsMap.get_set_of_ne _ _ hk
    · rfl
  next_local s t c h := by
    simp only [kindChecker, h]
    split
    · simp
    · exact h
  ok_local s t c h := by simp only [kindChecker, h]

theorem reopenChecker_keyed : (reopenChecker (C := C)).Keyed (EventCore.aggregateId (K := K)) where
  frame realizationOf c k hk := by
    simp only [reopenChecker, reopenNext]
    split
    · exact JsMap.get_set_of_ne _ _ hk
    · exact JsMap.get_set_of_ne _ _ hk
    · rfl
    · split
      · split
        · exact JsMap.get_set_of_ne _ _ hk
        · rfl
      · rfl
    · rfl
  next_local s t c h := by
    simp only [reopenChecker, reopenNext, h]
    split
    · simp
    · simp
    · exact h
    · split
      · split
        · simp
        · exact h
      · exact h
    · exact h
  ok_local s t c h := by simp only [reopenChecker, h]

/-! ## Well-formedness across the seam -/

section Seam

variable {p a b : List C}

/-- The batches of two branches, side by side. -/
theorem batches_union
    (hp : ∀ k : K, membersFrom 0 k p ≠ [] → ∃ n, Complete n (membersFrom 0 k p))
    (ha : ∀ k : K, membersFrom 0 k (p ++ a) ≠ [] → ∃ n, Complete n (membersFrom 0 k (p ++ a)))
    (hb : ∀ k : K, membersFrom 0 k (p ++ b) ≠ [] → ∃ n, Complete n (membersFrom 0 k (p ++ b)))
    (hdisj : ∀ x ∈ a, ∀ y ∈ b, ∀ k : K, EventCore.cmdId x = some k → EventCore.cmdId y ≠ some k)
    (k : K) (hk : membersFrom 0 k (p ++ a ++ b) ≠ []) :
    ∃ n, Complete n (membersFrom 0 k (p ++ a ++ b)) := by
  have hsplit : membersFrom 0 k (p ++ a ++ b) =
      membersFrom 0 k p ++ membersFrom p.length k a ++
        membersFrom (p.length + a.length) k b := by
    simp [membersFrom_append]
  have hpa : membersFrom 0 k (p ++ a) = membersFrom 0 k p ++ membersFrom p.length k a := by
    simp [membersFrom_append]
  have hpb : membersFrom 0 k (p ++ b) = membersFrom 0 k p ++ membersFrom p.length k b := by
    simp [membersFrom_append]
  have hshift : membersFrom (p.length + a.length) k b =
      (membersFrom p.length k b).map (BatchMember.shift a.length) := membersFrom_add ..
  by_cases hold : membersFrom 0 k p = []
  · by_cases hfirst : membersFrom p.length k a = []
    · have hall : membersFrom 0 k (p ++ a ++ b) =
          (membersFrom 0 k (p ++ b)).map (BatchMember.shift a.length) := by
        rw [hsplit, hpb, hold, hfirst, hshift]
        simp
      rw [hall] at hk ⊢
      obtain ⟨n, hn⟩ := hb k fun h => hk (by simp [h])
      exact ⟨n, (complete_map_shift _ _ _).mpr hn⟩
    · -- the batch is the first branch's, so the second has no member of it
      have hsecond : membersFrom (p.length + a.length) k b = [] := by
        rw [membersFrom_eq_nil_iff] at hfirst
        push Not at hfirst
        obtain ⟨x, hx, hxk⟩ := hfirst
        exact (membersFrom_eq_nil_iff _ k b).mpr fun y hy => hdisj x hx y hy k hxk
      have hall : membersFrom 0 k (p ++ a ++ b) = membersFrom 0 k (p ++ a) := by
        rw [hsplit, hpa, hsecond, List.append_nil]
      rw [hall] at hk ⊢
      exact ha k hk
  · -- a batch of the common log is complete there and has no member in either branch
    obtain ⟨n, hn⟩ := hp k hold
    obtain ⟨_, hna⟩ := ha k (by simp [hpa, hold])
    obtain ⟨_, hnb⟩ := hb k (by simp [hpb, hold])
    rw [hpa] at hna
    rw [hpb] at hnb
    have hall : membersFrom 0 k (p ++ a ++ b) = membersFrom 0 k p := by
      rw [hsplit, hn.append_eq_nil hna, hshift, hn.append_eq_nil hnb]
      simp
    exact ⟨n, hall ▸ hn⟩

theorem WellFormed.union (hp : WellFormed (K := K) p) (ha : WellFormed (K := K) (p ++ a))
    (hb : WellFormed (K := K) (p ++ b))
    (haggregate : ∀ x ∈ a, ∀ y ∈ b, EventCore.aggregateId x ≠ EventCore.aggregateId (K := K) y)
    (hcmd : ∀ x ∈ a, ∀ y ∈ b, ∀ k : K, EventCore.cmdId x = some k → EventCore.cmdId y ≠ some k) :
    WellFormed (K := K) (p ++ a ++ b) where
  kinds := by
    have hka := (Checker.accepts_append _ _ p a).mp ha.kinds
    have hkb := (Checker.accepts_append _ _ p b).mp hb.kinds
    rw [List.append_assoc, Checker.accepts_append,
      kindChecker_keyed.accepts_append haggregate]
    exact ⟨hka.1, hka.2, hkb.2⟩
  batches := batches_union hp.batches ha.batches hb.batches hcmd
  blockerScope c hc := by
    rcases List.mem_append.mp hc with hc | hc
    · exact ha.blockerScope c hc
    · exact hb.blockerScope c (List.mem_append_right _ hc)
  reopen := by
    have hra := (Checker.accepts_append _ _ p a).mp ha.reopen
    have hrb := (Checker.accepts_append _ _ p b).mp hb.reopen
    rw [List.append_assoc, Checker.accepts_append,
      reopenChecker_keyed.accepts_append haggregate]
    exact ⟨hra.1, hra.2, hrb.2⟩

end Seam

/-! ## Recovery -/

/-- The reseal of the union succeeds, loses nothing and changes frames only. -/
def RecoversUnion (contentHashOf : C → Sha256) (P A B : List (TrackEvent C)) : Prop :=
  ∃ out result, resealEvents contentHashOf (P ++ A ++ B) = .ok (out, result) ∧
    result.deduplicated = 0 ∧
    out.map (·.core) = (P ++ A ++ B).map (·.core) ∧
    out.map (·.id) = (P ++ A ++ B).map (·.id) ∧
    out.map (·.contentHash) = (P ++ A ++ B).map (·.contentHash) ∧
    (validate contentHashOf out (some (headOf out))).ok = true

/-- Two validated continuations of a validated log that share no aggregate, no
batch and no id, and repeat no id themselves, merge without loss. -/
theorem resealEvents_union {P A B : List (TrackEvent C)}
    (hP : (validate contentHashOf P none).ok = true)
    (hA : (validate contentHashOf (P ++ A) none).ok = true)
    (hB : (validate contentHashOf (P ++ B) none).ok = true)
    (hids : ∀ x ∈ A, ∀ y ∈ B, x.id ≠ y.id)
    (hcmds : ∀ x ∈ A, ∀ y ∈ B, ∀ k, x.cmdId = some k → y.cmdId ≠ some k)
    (haggregates : ∀ x ∈ A, ∀ y ∈ B, x.aggregateId ≠ y.aggregateId)
    (hdistinctA : ((P ++ A).map (·.id)).Nodup) (hdistinctB : ((P ++ B).map (·.id)).Nodup) :
    RecoversUnion contentHashOf P A B := by
  rw [validate_ok_iff] at hP hA hB
  have hhash : ∀ e ∈ P ++ A ++ B, e.contentHash = contentHashOf e.core := by
    intro e he
    rcases List.mem_append.mp he with he | he
    · exact hA.1.contentHash he
    · exact hB.1.contentHash (List.mem_append_right _ he)
  have hnodup : ((P ++ A ++ B).map (·.id)).Nodup := by
    rw [List.map_append, List.nodup_append]
    rw [List.map_append, List.nodup_append] at hdistinctB
    refine ⟨hdistinctA, hdistinctB.2.1, ?_⟩
    intro x hx y hy
    rw [List.map_append, List.mem_append] at hx
    rcases hx with hx | hx
    · exact hdistinctB.2.2 x hx y hy
    · obtain ⟨e, he, rfl⟩ := List.mem_map.mp hx
      obtain ⟨f, hf, rfl⟩ := List.mem_map.mp hy
      exact hids e he f hf
  have hcollapse : collapseDuplicates (.empty : JsMap K Sha256) (P ++ A ++ B) =
      .ok (P ++ A ++ B, 0) := collapseDuplicates_of_nodup hnodup fun e _ => rfl
  have hwellFormed : WellFormed (K := K) ((P ++ A ++ B).map (·.core)) := by
    have hwA := hA.1.wellFormed
    have hwB := hB.1.wellFormed
    simp only [List.map_append] at hwA hwB ⊢
    refine WellFormed.union hP.1.wellFormed hwA hwB ?_ ?_
    · intro c hc d hd
      obtain ⟨x, hx, rfl⟩ := List.mem_map.mp hc
      obtain ⟨y, hy, rfl⟩ := List.mem_map.mp hd
      exact haggregates x hx y hy
    · intro c hc d hd
      obtain ⟨x, hx, rfl⟩ := List.mem_map.mp hc
      obtain ⟨y, hy, rfl⟩ := List.mem_map.mp hd
      exact hcmds x hx y hy
  let out := sealFrom contentHashOf (FrameScan.init (K := K)) ((P ++ A ++ B).map (·.core))
  have hcores : out.map (·.core) = (P ++ A ++ B).map (·.core) := map_core_sealFrom _ _
  have hsound : Sound contentHashOf out := ⟨by rw [hcores], hcores ▸ hwellFormed⟩
  have hreseal : resealEvents contentHashOf (P ++ A ++ B) =
      .ok (out, ⟨out.length, (reframe (.empty : JsMap K Nat) none (P ++ A ++ B)).2, 0⟩) :=
    (resealEvents_eq_ok_iff _ _ _).mpr ⟨hhash, _, hcollapse, rfl, hsound, rfl, rfl⟩
  refine ⟨out, _, hreseal, rfl, hcores, ?_, ?_, ?_⟩
  · have hids' := congrArg (List.map (EventCore.id (K := K))) hcores
    rw [List.map_map, List.map_map] at hids'
    exact hids'
  · have hout : out.map (·.contentHash) = (out.map (·.core)).map contentHashOf := by
      rw [List.map_map]
      exact List.map_congr_left fun e he => hsound.contentHash he
    rw [hout, hcores, List.map_map]
    exact List.map_congr_left fun e he => (hhash e he).symm
  · exact (validate_ok_iff _ _).mpr ⟨hsound, anchored_headOf out⟩

/-! A log of one item, and two branches that create one more item each. -/

def oneItem : List (TrackEvent BareCore) :=
  sealFrom BareCore.hash FrameScan.init [⟨js "1", js "a", none⟩]

def oneItemThen (id aggregateId : JsString) : List (TrackEvent BareCore) :=
  sealFrom BareCore.hash (sealState BareCore.hash FrameScan.init [⟨js "1", js "a", none⟩])
    [⟨id, aggregateId, none⟩]

theorem resealEvents_union_oneItem :
    RecoversUnion BareCore.hash oneItem (oneItemThen (js "2") (js "b"))
      (oneItemThen (js "3") (js "c")) :=
  resealEvents_union (by decide) (by decide) (by decide) (by decide) (by decide) (by decide)
    (by decide) (by decide)

/-- A validated log that repeats an event id. -/
def repeatedItem : List (TrackEvent BareCore) :=
  sealFrom BareCore.hash FrameScan.init [⟨js "1", js "a", none⟩, ⟨js "1", js "a", none⟩]

def repeatedItemThen (id aggregateId : JsString) : List (TrackEvent BareCore) :=
  sealFrom BareCore.hash
    (sealState BareCore.hash FrameScan.init [⟨js "1", js "a", none⟩, ⟨js "1", js "a", none⟩])
    [⟨id, aggregateId, none⟩]

/-- `validate` does not compare event ids, and where the common log repeats one
the reseal collapses it. -/
theorem resealEvents_union_needs_distinct_ids :
    ¬∀ P A B : List (TrackEvent BareCore),
      (validate BareCore.hash P none).ok = true →
      (validate BareCore.hash (P ++ A) none).ok = true →
      (validate BareCore.hash (P ++ B) none).ok = true →
      (∀ x ∈ A, ∀ y ∈ B, x.id ≠ y.id) →
      (∀ x ∈ A, ∀ y ∈ B, ∀ k, x.cmdId = some k → y.cmdId ≠ some k) →
      (∀ x ∈ A, ∀ y ∈ B, x.aggregateId ≠ y.aggregateId) →
      RecoversUnion BareCore.hash P A B := by
  intro h
  obtain ⟨out, result, hreseal, hnone, -⟩ :=
    h repeatedItem (repeatedItemThen (js "2") (js "b")) (repeatedItemThen (js "3") (js "c"))
      (by decide) (by decide) (by decide) (by decide) (by decide) (by decide)
  have hone : (resealEvents BareCore.hash (repeatedItem ++ repeatedItemThen (js "2") (js "b") ++
      repeatedItemThen (js "3") (js "c"))).map (·.2.deduplicated) = .ok 1 := by decide
  rw [hreseal] at hone
  simp [Except.map, hnone] at hone

end H2a.Track.Events
