import H2a.Track.Events.Reseal
/-!
# What a reseal leaves alone

A reseal repairs frames only: it keeps the first event of each id, with its core and its hash
(`resealEvents_exact`).  On a sound log it has nothing to do, unless an id is repeated: `validate`
does not compare ids, and `resealEvents` does (`resealEvents_noop_iff`).
-/

namespace H2a.Track.Events

open H2a.Library

variable {C K : Type} [EventCore C K] [DecidableEq K]

/-! ## `cmdEventsContains` of `packages/track/src/cli/events-contains.ts` -/

/-- `idsOf(path)`, on the events that were read. -/
def idsOf (events : List (TrackEvent C)) : List K := (events.map (·.id)).eraseDups

/-- The ids of the base that the candidate has not. -/
def missingIds (base candidate : List (TrackEvent C)) : List K :=
  (idsOf base).filter fun id => !(idsOf candidate).contains id

/-- The exit code of `track events-contains`; `none` is a log that cannot be read. -/
def cmdEventsContains (base candidate : Option (List (TrackEvent C))) : Nat :=
  match base, candidate with
  | some base, some candidate => if (missingIds base candidate).length = 0 then 0 else 1
  | _, _ => 2

/-! ## First occurrences -/

/-- The events no earlier one of which has their id. -/
def firstOccurrences : List (TrackEvent C) → List (TrackEvent C)
  | [] => []
  | e :: es => e :: (firstOccurrences es).filter fun x => x.id ≠ e.id

theorem firstOccurrences_sublist (es : List (TrackEvent C)) : (firstOccurrences es).Sublist es := by
  induction es with
  | nil => exact List.Sublist.refl []
  | cons e es ih => exact (List.filter_sublist.trans ih).cons_cons e

theorem nodup_firstOccurrences (es : List (TrackEvent C)) :
    ((firstOccurrences es).map (·.id)).Nodup := by
  induction es with
  | nil => exact List.nodup_nil
  | cons e es ih =>
      rw [firstOccurrences, List.map_cons, List.nodup_cons]
      constructor
      · intro hmem
        obtain ⟨x, hx, hid⟩ := List.mem_map.mp hmem
        exact of_decide_eq_true (List.mem_filter.mp hx).2 hid
      · exact (List.filter_sublist.map _).nodup ih

theorem mem_ids_firstOccurrences {es : List (TrackEvent C)} {k : K} :
    k ∈ (firstOccurrences es).map (·.id) ↔ k ∈ es.map (·.id) := by
  constructor
  · exact fun h => ((firstOccurrences_sublist es).map _).subset h
  · induction es with
    | nil => exact id
    | cons e es ih =>
        intro h
        rw [List.map_cons, List.mem_cons] at h
        rw [firstOccurrences, List.map_cons, List.mem_cons]
        by_cases hk : k = e.id
        · exact Or.inl hk
        · obtain ⟨x, hx, rfl⟩ := List.mem_map.mp (ih (h.resolve_left hk))
          exact Or.inr (List.mem_map.mpr ⟨x, List.mem_filter.mpr ⟨hx, decide_eq_true hk⟩, rfl⟩)

theorem firstOccurrences_of_nodup {es : List (TrackEvent C)} (h : (es.map (·.id)).Nodup) :
    firstOccurrences es = es := by
  induction es with
  | nil => rfl
  | cons e es ih =>
      rw [List.map_cons, List.nodup_cons] at h
      rw [firstOccurrences, ih h.2, List.filter_eq_self.mpr]
      intro x hx
      exact decide_eq_true fun hid => h.1 (hid ▸ List.mem_map_of_mem hx)

/-- The collapse keeps the first occurrences of the ids that are not known. -/
theorem collapseDuplicates_eq {known : JsMap K Sha256} {es unique : List (TrackEvent C)} {d : Nat}
    (h : collapseDuplicates known es = .ok (unique, d)) :
    unique = (firstOccurrences es).filter (fun e => (known.get e.id).isNone) ∧
      unique.length + d = es.length := by
  induction es generalizing known unique d with
  | nil =>
      simp only [collapseDuplicates, Except.ok.injEq, Prod.mk.injEq] at h
      obtain ⟨rfl, rfl⟩ := h
      exact ⟨rfl, rfl⟩
  | cons e es ih =>
      cases hknown : known.get e.id with
      | none =>
          simp only [collapseDuplicates, hknown, bind_eq_ok_iff] at h
          obtain ⟨⟨rest, d'⟩, hrest, hret⟩ := h
          obtain ⟨rfl, rfl⟩ : e :: rest = unique ∧ d' = d := by simpa using hret
          obtain ⟨hunique, hlength⟩ := ih hrest
          constructor
          · rw [firstOccurrences, List.filter_cons_of_pos (by simp [hknown]), hunique,
              List.filter_filter]
            apply congrArg (List.cons e)
            apply List.filter_congr
            intro x _
            by_cases hid : x.id = e.id
            · simp [hid]
            · simp [hid, JsMap.get_set_of_ne _ _ hid]
          · rw [List.length_cons, List.length_cons]
            omega
      | some hash =>
          by_cases hsame : hash = e.contentHash
          · simp only [collapseDuplicates, hknown, if_pos hsame, bind_eq_ok_iff] at h
            obtain ⟨⟨rest, d'⟩, hrest, hret⟩ := h
            obtain ⟨rfl, rfl⟩ : rest = unique ∧ d' + 1 = d := by simpa using hret
            obtain ⟨hunique, hlength⟩ := ih hrest
            constructor
            · rw [firstOccurrences, List.filter_cons_of_neg (by simp [hknown]), hunique,
                List.filter_filter]
              apply List.filter_congr
              intro x _
              by_cases hid : x.id = e.id
              · simp [hid, hknown]
              · simp [hid]
            · rw [List.length_cons]
              omega
          · simp [collapseDuplicates, hknown, hsame] at h

theorem collapseDuplicates_empty {es unique : List (TrackEvent C)} {d : Nat}
    (h : collapseDuplicates (.empty : JsMap K Sha256) es = .ok (unique, d)) :
    unique = firstOccurrences es ∧ unique.length + d = es.length := by
  obtain ⟨hunique, hlength⟩ := collapseDuplicates_eq h
  refine ⟨?_, hlength⟩
  rw [hunique, List.filter_eq_self.mpr]
  intro e _
  simp

/-! ## Frames -/

variable {contentHashOf : C → Sha256}

/-- The frames of a sealed list are those that reframing gives. -/
theorem reframe_sealFrom (s : FrameScan K) (cs : List C) :
    reframe s.lastSeqByAggregate s.prevHash (sealFrom contentHashOf s cs) =
      (sealFrom contentHashOf s cs, 0) := by
  induction cs generalizing s with
  | nil => rfl
  | cons c cs ih =>
      have hrest := ih (s.next (sealCore contentHashOf s c))
      rw [sealFrom, reframe]
      simp only [FrameScan.next] at hrest
      simp only [sealCore, TrackEvent.aggregateId] at hrest ⊢
      simp [hrest, FrameScan.next, TrackEvent.aggregateId]

variable (contentHashOf) in
/-- The events of an aggregate are numbered from its last one on. -/
theorem seq_sealFrom (s : FrameScan K) (cs : List C) (k : K) :
    ((sealFrom contentHashOf s cs).filter fun e => e.aggregateId = k).map (·.seq) =
      List.range' ((s.lastSeqByAggregate.get k).getD 0 + 1)
        ((cs.filter fun c => EventCore.aggregateId c = k).length) := by
  induction cs generalizing s with
  | nil => rfl
  | cons c cs ih =>
      have hrest := ih (s.next (sealCore contentHashOf s c))
      by_cases hk : EventCore.aggregateId c = k
      · rw [sealFrom, List.filter_cons_of_pos (by simp [TrackEvent.aggregateId, sealCore, hk]),
          List.filter_cons_of_pos (by simp [hk]), List.map_cons, hrest, List.length_cons,
          List.range'_succ]
        simp [sealCore, FrameScan.next, TrackEvent.aggregateId, hk]
      · have hget : ((s.next (sealCore contentHashOf s c)).lastSeqByAggregate.get k) =
            s.lastSeqByAggregate.get k := JsMap.get_set_of_ne _ _ (Ne.symm hk)
        rw [sealFrom, List.filter_cons_of_neg (by simp [TrackEvent.aggregateId, sealCore, hk]),
          List.filter_cons_of_neg (by simp [hk]), hrest, hget]

/-- A sound log without repeated ids is its own reseal. -/
theorem resealEvents_of_sound {es : List (TrackEvent C)} (h : Sound contentHashOf es)
    (hids : (es.map (·.id)).Nodup) :
    resealEvents contentHashOf es = .ok (es, ⟨es.length, 0, 0⟩) := by
  have hcollapse : collapseDuplicates (.empty : JsMap K Sha256) es = .ok (es, 0) :=
    collapseDuplicates_of_nodup hids fun _ _ => by simp
  have hframes : (reframe (.empty : JsMap K Nat) none es).2 = 0 := by
    rw [h.isSealed]
    exact congrArg Prod.snd (reframe_sealFrom FrameScan.init _)
  exact (resealEvents_eq_ok_iff _ _ _).mpr
    ⟨fun e he => h.contentHash he, es, hcollapse, h.isSealed, h, rfl, hframes.symm⟩

/-! ## On a log that `validate` accepts -/

/-- An accepted log is returned as it is exactly when no id is repeated. -/
theorem resealEvents_noop_iff {events : List (TrackEvent C)} {head : Option Head}
    (h : (validate contentHashOf events head).ok = true) :
    resealEvents contentHashOf events = .ok (events, ⟨events.length, 0, 0⟩) ↔
      (events.map (·.id)).Nodup := by
  have hsound := ((validate_ok_iff events head).mp h).1
  constructor
  · intro hreseal
    obtain ⟨-, unique, hcollapse, -⟩ := (resealEvents_eq_ok_iff _ _ _).mp hreseal
    obtain ⟨hunique, hlength⟩ := collapseDuplicates_empty hcollapse
    have hall : firstOccurrences events = events := by
      apply (firstOccurrences_sublist events).eq_of_length
      rw [← hunique]
      exact hlength
    rw [← hall]
    exact nodup_firstOccurrences events
  · exact resealEvents_of_sound hsound

/-! ## On any log -/

theorem mem_idsOf {events : List (TrackEvent C)} {k : K} :
    k ∈ idsOf events ↔ k ∈ events.map (·.id) := List.mem_eraseDups

theorem cmdEventsContains_eq_zero {base candidate : List (TrackEvent C)}
    (h : ∀ k ∈ base.map (·.id), k ∈ candidate.map (·.id)) :
    cmdEventsContains (some base) (some candidate) = 0 := by
  have hmissing : missingIds base candidate = [] := by
    apply List.filter_eq_nil_iff.mpr
    intro k hk
    simpa using mem_idsOf.mpr (h k (mem_idsOf.mp hk))
  rw [cmdEventsContains, hmissing]
  rfl

/-- A reseal that succeeds keeps the first event of each id, with its core and its hash, and so
every id a parent has; its frames are those `validate` asks for, and a second reseal changes
nothing. -/
theorem resealEvents_exact {events out : List (TrackEvent C)} {result : ResealResult}
    (h : resealEvents contentHashOf events = .ok (out, result)) :
    ((firstOccurrences events).Sublist events ∧
      out.map (fun e => (e.core, e.contentHash)) =
        (firstOccurrences events).map fun e => (e.core, e.contentHash)) ∧
    ((∀ k, k ∈ out.map (·.id) ↔ k ∈ events.map (·.id)) ∧
      ∀ parent : List (TrackEvent C), (∀ e ∈ parent, e.id ∈ events.map (·.id)) →
        cmdEventsContains (some parent) (some out) = 0) ∧
    (∀ k, ((out.filter fun e => e.aggregateId = k).map (·.seq)) =
      List.range' 1 (out.filter fun e => e.aggregateId = k).length) ∧
    (∀ before e after, out = before ++ e :: after → e.prevHash = lastHash before) ∧
    (validate contentHashOf out (some (headOf out))).ok = true ∧
    resealEvents contentHashOf out = .ok (out, ⟨out.length, 0, 0⟩) := by
  obtain ⟨hhash, unique, hcollapse, hout, hsound, -, -⟩ := (resealEvents_eq_ok_iff _ _ _).mp h
  obtain ⟨rfl, -⟩ := collapseDuplicates_empty hcollapse
  have hcores : out.map (·.core) = (firstOccurrences events).map (·.core) := by
    rw [hout, map_core_sealFrom]
  have hids : out.map (·.id) = (firstOccurrences events).map (·.id) := by
    have hmap := congrArg (List.map (EventCore.id (K := K))) hcores
    rw [List.map_map, List.map_map] at hmap
    exact hmap
  have hsame : ∀ k, k ∈ out.map (·.id) ↔ k ∈ events.map (·.id) := by
    intro k
    rw [hids, mem_ids_firstOccurrences]
  have hnodup : (out.map (·.id)).Nodup := hids ▸ nodup_firstOccurrences events
  refine ⟨⟨firstOccurrences_sublist events, ?_⟩, ⟨hsame, fun parent hparent => ?_⟩, fun k => ?_,
    fun before e after hsplit => ?_, (validate_ok_iff _ _).mpr ⟨hsound, anchored_headOf out⟩,
    resealEvents_of_sound hsound hnodup⟩
  · have hpairs : ∀ es : List (TrackEvent C), (∀ e ∈ es, e.contentHash = contentHashOf e.core) →
        es.map (fun e => (e.core, e.contentHash)) =
          (es.map (·.core)).map fun c => (c, contentHashOf c) := by
      intro es hes
      rw [List.map_map]
      exact List.map_congr_left fun e he => Prod.ext rfl (hes e he)
    rw [hpairs out fun e he => hsound.contentHash he, hcores, hpairs]
    exact fun e he => hhash e ((firstOccurrences_sublist events).subset he)
  · apply cmdEventsContains_eq_zero
    intro k hk
    obtain ⟨e, he, rfl⟩ := List.mem_map.mp hk
    exact (hsame e.id).mpr (hparent e he)
  · have hseq := seq_sealFrom contentHashOf FrameScan.init (out.map (·.core)) k
    rw [← hsound.isSealed] at hseq
    have hlength := congrArg List.length hseq
    rw [List.length_map, List.length_range'] at hlength
    rw [hseq, hlength]
    rfl
  · exact Sound.prevHash (hsplit ▸ hsound)

/-- An accepted log whose first event is there twice, and another. -/
def repeatedLog : List (TrackEvent BareCore) :=
  sealFrom BareCore.hash FrameScan.init
    [⟨js "1", js "a", none⟩, ⟨js "1", js "a", none⟩, ⟨js "2", js "b", none⟩]

/-- The same without the repetition. -/
def collapsedLog : List (TrackEvent BareCore) :=
  sealFrom BareCore.hash FrameScan.init [⟨js "1", js "a", none⟩, ⟨js "2", js "b", none⟩]

theorem resealEvents_exact_repeatedLog :
    (validate BareCore.hash collapsedLog (some (headOf collapsedLog))).ok = true ∧
      resealEvents BareCore.hash collapsedLog = .ok (collapsedLog, ⟨2, 0, 0⟩) := by
  have hreseal : resealEvents BareCore.hash repeatedLog = .ok (collapsedLog, ⟨2, 0, 1⟩) := by
    decide
  obtain ⟨-, -, -, -, hok, hagain⟩ := resealEvents_exact hreseal
  exact ⟨hok, hagain⟩

theorem resealEvents_noop_collapsedLog :
    resealEvents BareCore.hash collapsedLog = .ok (collapsedLog, ⟨2, 0, 0⟩) := by
  have hok : (validate BareCore.hash collapsedLog none).ok = true := by decide
  exact (resealEvents_noop_iff hok).mpr (by decide)

/-- `validate` accepts the repeated event, and the reseal drops it. -/
theorem resealEvents_collapses_repeatedLog :
    ¬∀ events : List (TrackEvent BareCore), (validate BareCore.hash events none).ok = true →
      resealEvents BareCore.hash events = .ok (events, ⟨events.length, 0, 0⟩) := by
  intro h
  have hreseal := h repeatedLog (by decide)
  have hcollapsed : resealEvents BareCore.hash repeatedLog = .ok (collapsedLog, ⟨2, 0, 1⟩) := by
    decide
  rw [hcollapsed] at hreseal
  exact absurd hreseal (by decide)

end H2a.Track.Events
