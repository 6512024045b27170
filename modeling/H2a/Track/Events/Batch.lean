import H2a.Track.Events.Sound
/-!
# Batches

The algebra of `membersFrom` and `Complete`: how the members of a batch split
at a seam, that completeness does not depend on where the batch stands, and
that a complete batch can neither lose nor gain a member.
-/

namespace H2a.Track.Events

open H2a.Library

variable {C K : Type} [EventCore C K] [DecidableEq K]

/-- A member `d` places further down the stream. -/
def BatchMember.shift (d : Nat) (m : BatchMember) : BatchMember :=
  { m with index := m.index + d }

/-- The members of `k` among `cs`, in order. -/
def batchCores (k : K) (cs : List C) : List C :=
  cs.filter fun c => decide (EventCore.cmdId c = some k)

theorem membersFrom_append (index : Nat) (k : K) (cs ds : List C) :
    membersFrom index k (cs ++ ds) =
      membersFrom index k cs ++ membersFrom (index + cs.length) k ds := by
  induction cs generalizing index with
  | nil => simp [membersFrom]
  | cons c cs ih =>
      simp [membersFrom, ih, Nat.add_comm, Nat.add_left_comm]

theorem membersFrom_add (index d : Nat) (k : K) (cs : List C) :
    membersFrom (index + d) k cs = (membersFrom index k cs).map (BatchMember.shift d) := by
  induction cs generalizing index with
  | nil => rfl
  | cons c cs ih =>
      have hrest := ih (index + 1)
      rw [Nat.add_right_comm] at hrest
      by_cases hc : EventCore.cmdId c = some k
      · simp [membersFrom, hc, hrest, BatchMember.ofCore, BatchMember.shift]
      · simp [membersFrom, hc, hrest]

theorem membersFrom_eq_nil_iff (index : Nat) (k : K) (cs : List C) :
    membersFrom index k cs = [] ↔ ∀ c ∈ cs, EventCore.cmdId c ≠ some k := by
  induction cs generalizing index with
  | nil => simp [membersFrom]
  | cons c cs ih => simp [membersFrom, ih]

theorem length_membersFrom (index : Nat) (k : K) (cs : List C) :
    (membersFrom index k cs).length = (batchCores k cs).length := by
  induction cs generalizing index with
  | nil => rfl
  | cons c cs ih =>
      by_cases hc : EventCore.cmdId c = some k
      · simpa [membersFrom, batchCores, hc, Nat.add_comm] using ih (index + 1)
      · simpa [membersFrom, batchCores, hc] using ih (index + 1)

theorem contiguous_map_add (d : Nat) (indices : List Nat) :
    Contiguous (indices.map (· + d)) ↔ Contiguous indices := by
  cases hmax : indices.max? with
  | none =>
      obtain rfl := List.max?_eq_none_iff.mp hmax
      simp
  | some hi =>
      cases hmin : indices.min? with
      | none =>
          obtain rfl := List.min?_eq_none_iff.mp hmin
          simp
      | some lo =>
          have hmax' : (indices.map (· + d)).max? = some (hi + d) := by
            rw [List.max?_eq_some_iff] at hmax ⊢
            refine ⟨List.mem_map_of_mem hmax.1, fun b hb => ?_⟩
            obtain ⟨a, ha, rfl⟩ := List.mem_map.mp hb
            exact Nat.add_le_add_right (hmax.2 a ha) d
          have hmin' : (indices.map (· + d)).min? = some (lo + d) := by
            rw [List.min?_eq_some_iff] at hmin ⊢
            refine ⟨List.mem_map_of_mem hmin.1, fun b hb => ?_⟩
            obtain ⟨a, ha, rfl⟩ := List.mem_map.mp hb
            exact Nat.add_le_add_right (hmin.2 a ha) d
          simp only [Contiguous, hmax, hmin, hmax', hmin', Option.getD_some, List.length_map,
            Nat.add_sub_add_right]

theorem complete_map_shift (d n : Nat) (ms : List BatchMember) :
    Complete n (ms.map (BatchMember.shift d)) ↔ Complete n ms := by
  have hi : (ms.map (BatchMember.shift d)).map (·.i) = ms.map (·.i) := by
    simp [Function.comp_def, BatchMember.shift]
  have hn : (ms.map (BatchMember.shift d)).map (·.n) = ms.map (·.n) := by
    simp [Function.comp_def, BatchMember.shift]
  have hindex : (ms.map (BatchMember.shift d)).map (·.index) = (ms.map (·.index)).map (· + d) := by
    simp [Function.comp_def, BatchMember.shift]
  have hagreed : (∀ m ∈ ms.map (BatchMember.shift d), m.n = none ∨ m.n = some (.int n)) ↔
      ∀ m ∈ ms, m.n = none ∨ m.n = some (.int n) := by
    simp [BatchMember.shift]
  constructor
  · rintro ⟨hpos, hdecl, hagr, hcount, hcont, hposn⟩
    rw [hi] at hposn
    rw [hn] at hdecl
    rw [hindex, contiguous_map_add] at hcont
    exact ⟨hpos, hdecl, hagreed.mp hagr, by simpa using hcount, hcont, hposn⟩
  · rintro ⟨hpos, hdecl, hagr, hcount, hcont, hposn⟩
    rw [← hi] at hposn
    rw [← hn] at hdecl
    rw [← contiguous_map_add d, ← hindex] at hcont
    exact ⟨hpos, hdecl, hagreed.mpr hagr, by simpa using hcount, hcont, hposn⟩

/-- Batches that share a declaring member have the same size. -/
theorem Complete.size_unique {n n' : Nat} {ms ms' : List BatchMember} (h : Complete n ms)
    (h' : Complete n' ms') (hsub : ms ⊆ ms') : n = n' := by
  obtain ⟨m, hm, hn⟩ := List.mem_map.mp h.declared
  rcases h'.agreed m (hsub hm) with hnone | hsome
  · simp [hnone] at hn
  · rw [hsome] at hn
    exact_mod_cast CmdNumber.int.inj (Option.some.inj hn.symm)

/-- A complete batch does not grow. -/
theorem Complete.append_eq_nil {n n' : Nat} {ms more : List BatchMember} (h : Complete n ms)
    (h' : Complete n' (ms ++ more)) : more = [] := by
  have hn := h.size_unique h' (List.subset_append_left ms more)
  have hlen := h'.count
  rw [List.length_append, h.count, hn] at hlen
  exact List.eq_nil_of_length_eq_zero (by omega)

/-! ## A complete batch stands in one piece -/

/-- `m` members spread over at least `m` places. -/
theorem exists_le_index (index : Nat) (k : K) (cs : List C) (h : membersFrom index k cs ≠ []) :
    ∃ m ∈ membersFrom index k cs, index + (membersFrom index k cs).length ≤ m.index + 1 := by
  induction cs generalizing index with
  | nil => simp [membersFrom] at h
  | cons c cs ih =>
      by_cases hrest : membersFrom (index + 1) k cs = []
      · by_cases hc : EventCore.cmdId c = some k
        · simp [membersFrom, hc, hrest, BatchMember.ofCore]
        · simp [membersFrom, hc, hrest] at h
      · obtain ⟨m, hm, hle⟩ := ih (index + 1) hrest
        refine ⟨m, List.mem_append_right _ hm, ?_⟩
        by_cases hc : EventCore.cmdId c = some k
        · simp only [membersFrom, if_pos hc, List.length_append, List.length_singleton]
          omega
        · simp only [membersFrom, if_neg hc, List.nil_append]
          omega

/-- Members that leave no place free before the last of them come first. -/
theorem batchCores_isPrefix (index : Nat) (k : K) (cs : List C)
    (hdense : ∀ m ∈ membersFrom index k cs,
      m.index < index + (membersFrom index k cs).length) : batchCores k cs <+: cs := by
  induction cs generalizing index with
  | nil => exact List.nil_prefix
  | cons c cs ih =>
      by_cases hc : EventCore.cmdId c = some k
      · have hrest : batchCores k cs <+: cs := by
          refine ih (index + 1) fun m hm => ?_
          have hlt := hdense m (List.mem_append_right _ hm)
          simp only [membersFrom, if_pos hc, List.length_append, List.length_singleton] at hlt
          omega
        simpa [batchCores, hc] using hrest
      · have hnone : membersFrom (index + 1) k cs = [] := by
          by_contra hsome
          obtain ⟨m, hm, hle⟩ := exists_le_index (index + 1) k cs hsome
          have hlt := hdense m (List.mem_append_right _ hm)
          simp only [membersFrom, if_neg hc, List.nil_append] at hlt
          omega
        have hempty : batchCores k (c :: cs) = [] := by
          rw [membersFrom_eq_nil_iff] at hnone
          simpa [batchCores, hc, List.filter_eq_nil_iff] using hnone
        rw [hempty]
        exact List.nil_prefix

theorem le_index {index : Nat} {k : K} {cs : List C} {m : BatchMember}
    (hm : m ∈ membersFrom index k cs) : index ≤ m.index := by
  induction cs generalizing index with
  | nil => simp [membersFrom] at hm
  | cons c cs ih =>
      rcases List.mem_append.mp hm with hm | hm
      · split at hm
        · simp [List.mem_singleton.mp hm, BatchMember.ofCore]
        · simp at hm
      · exact Nat.le_of_succ_le (ih hm)

/-- The members of a contiguous batch are one piece of the stream. -/
theorem batchCores_isInfix (index : Nat) (k : K) (cs : List C)
    (hcont : Contiguous ((membersFrom index k cs).map (·.index))) : batchCores k cs <:+: cs := by
  induction cs generalizing index with
  | nil => exact List.infix_rfl
  | cons c cs ih =>
      by_cases hc : EventCore.cmdId c = some k
      · refine (batchCores_isPrefix index k (c :: cs) fun m hm => ?_).isInfix
        have hindices : (membersFrom index k (c :: cs)).map (·.index) =
            index :: (membersFrom (index + 1) k cs).map (·.index) := by
          simp [membersFrom, hc, BatchMember.ofCore]
        have hmin : ((membersFrom index k (c :: cs)).map (·.index)).min? = some index := by
          rw [List.min?_eq_some_iff]
          refine ⟨by simp [hindices], fun i hi => ?_⟩
          obtain ⟨m, hm, rfl⟩ := List.mem_map.mp hi
          exact le_index hm
        obtain ⟨hi, hmax⟩ := Option.isSome_iff_exists.mp
          (List.isSome_max?_of_mem (List.mem_map_of_mem (f := (·.index)) hm))
        have hle : m.index ≤ hi := (List.max?_eq_some_iff.mp hmax).2 _ (List.mem_map_of_mem hm)
        have hlow := le_index hm
        simp only [Contiguous, hmax, hmin, Option.getD_some, List.length_map] at hcont
        omega
      · have hskip : membersFrom index k (c :: cs) = membersFrom (index + 1) k cs := by
          simp [membersFrom, hc]
        have hrest := ih (index + 1) (hskip ▸ hcont)
        have hsame : batchCores k (c :: cs) = batchCores k cs := by simp [batchCores, hc]
        rw [hsame]
        exact List.infix_cons hrest

/-! ## Commands -/

/-- The cores of one command: a single event, or a batch that knows its size. -/
structure IsCommand (cs : List C) : Prop where
  nonempty : cs ≠ []
  framed : cs.length = 1 ∨ ∃ k : K, ∀ c ∈ cs, EventCore.cmdId c = some k ∧
    (EventCore.cmd c).bind (·.n) = some (.int cs.length)

theorem exists_member {c : C} {cs : List C} {k : K} (hc : c ∈ cs)
    (hk : EventCore.cmdId c = some k) (index : Nat) :
    ∃ m ∈ membersFrom index k cs, m.n = (EventCore.cmd c).bind (·.n) := by
  induction cs generalizing index with
  | nil => simp at hc
  | cons d ds ih =>
      rcases List.mem_cons.mp hc with rfl | hc
      · exact ⟨BatchMember.ofCore index c, by simp [membersFrom, hk], rfl⟩
      · obtain ⟨m, hm, hn⟩ := ih hc (index + 1)
        exact ⟨m, List.mem_append_right _ hm, hn⟩

/-- In a well-formed stream a batch has as many members as any of them declares. -/
theorem WellFormed.length_batchCores {cs : List C} (h : WellFormed (K := K) cs) {c : C} {k : K}
    {n : Nat} (hc : c ∈ cs) (hk : EventCore.cmdId c = some k)
    (hn : (EventCore.cmd c).bind (·.n) = some (.int n)) : (batchCores k cs).length = n := by
  obtain ⟨m, hm, hmn⟩ := exists_member hc hk 0
  obtain ⟨n', hcomplete⟩ := h.batches k (List.ne_nil_of_mem hm)
  have hsize : n' = n := by
    rcases hcomplete.agreed m hm with hnone | hsome
    · rw [hmn, hn] at hnone
      simp at hnone
    · rw [hmn, hn] at hsome
      exact_mod_cast CmdNumber.int.inj (Option.some.inj hsome.symm)
  rw [← length_membersFrom 0, hcomplete.count, hsize]

/-- A command of several events is the whole of its batch. -/
theorem WellFormed.batchCores_eq {cs xs : List C} (h : WellFormed (K := K) cs)
    (hsub : xs.Sublist cs) (hne : xs ≠ []) {k : K}
    (hxs : ∀ c ∈ xs, EventCore.cmdId c = some k ∧
      (EventCore.cmd c).bind (·.n) = some (.int xs.length)) : batchCores k cs = xs := by
  obtain ⟨c, hc⟩ := List.exists_mem_of_ne_nil xs hne
  have hlen := h.length_batchCores (hsub.subset hc) (hxs c hc).1 (hxs c hc).2
  have hall : xs.filter (fun c => decide (EventCore.cmdId c = some k)) = xs :=
    List.filter_eq_self.mpr fun c hc => by simp [(hxs c hc).1]
  have hinside : xs.Sublist (batchCores k cs) := hall ▸ hsub.filter _
  exact (hinside.eq_of_length hlen.symm).symm

/-- A proper part of a command is never well-formed. -/
theorem IsCommand.whole {cs xs : List C} (hxs : IsCommand (K := K) xs)
    (hall : WellFormed (K := K) (cs ++ xs)) {m : Nat} (hpos : 0 < m)
    (hpart : WellFormed (K := K) (cs ++ xs.take m)) : xs.take m = xs := by
  rcases hxs.framed with hone | ⟨k, hk⟩
  · exact List.take_of_length_le (by omega)
  · obtain ⟨c, hc⟩ := List.exists_mem_of_ne_nil (xs.take m)
      (by simpa [List.take_eq_nil_iff, hpos.ne'] using hxs.nonempty)
    have hcxs := List.mem_of_mem_take hc
    obtain ⟨hid, hn⟩ := hk c hcxs
    have hfull := hall.length_batchCores (List.mem_append_right cs hcxs) hid hn
    have hcut := hpart.length_batchCores (List.mem_append_right cs hc) hid hn
    have hmine : ∀ ds : List C, (∀ d ∈ ds, d ∈ xs) → batchCores k ds = ds := fun ds hds =>
      List.filter_eq_self.mpr fun d hd => by simp [(hk d (hds d hd)).1]
    rw [batchCores, List.filter_append, List.length_append] at hfull hcut
    rw [show xs.filter _ = xs from hmine xs fun _ h => h] at hfull
    rw [show (xs.take m).filter _ = xs.take m from
      hmine _ fun _ h => List.mem_of_mem_take h] at hcut
    exact (List.take_sublist m xs).eq_of_length (by omega)

/-- A command stays in one piece when a well-formed stream loses events to a
well-formed one that keeps a member of it. -/
theorem IsCommand.isInfix_of_sublist {cs us xs : List C} (hxs : IsCommand (K := K) xs)
    (hcs : WellFormed (K := K) cs) (hus : WellFormed (K := K) us) (hsub : us.Sublist cs)
    (hpiece : xs <:+: cs) (hkept : ∀ c ∈ xs, c ∈ us) : xs <:+: us := by
  rcases hxs.framed with hone | ⟨k, hk⟩
  · obtain ⟨c, rfl⟩ := List.length_eq_one_iff.mp hone
    exact List.singleton_infix_iff _ _ |>.mpr (hkept c (by simp))
  · obtain ⟨c, hc⟩ := List.exists_mem_of_ne_nil xs hxs.nonempty
    have hwhole := hcs.batchCores_eq hpiece.sublist hxs.nonempty hk
    have hlen := hus.length_batchCores (hkept c hc) (hk c hc).1 (hk c hc).2
    -- the batch is still complete, so the sublist has lost none of its members
    have hsame : batchCores k us = xs := by
      have hinside : (batchCores k us).Sublist (batchCores k cs) := hsub.filter _
      rw [hwhole] at hinside
      exact hinside.eq_of_length hlen
    obtain ⟨m, hm, -⟩ := exists_member (hkept c hc) (hk c hc).1 0
    obtain ⟨n, hcomplete⟩ := hus.batches k (List.ne_nil_of_mem hm)
    exact hsame ▸ batchCores_isInfix 0 k us hcomplete.contiguous

end H2a.Track.Events
