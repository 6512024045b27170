import H2a.Library.Result
import H2a.Track.Events.Batch
/-!
# `resealEvents`

`packages/track/src/events/reseal.ts`: recompute the frame of a union-merged
log and nothing else.  `resealEvents_eq_ok_iff` reads the four steps off the
loops: a reseal that succeeds returns the seal of the cores that survive the
duplicate collapse, and that seal is sound.
-/

namespace H2a.Track.Events

open H2a.Library

variable {C K : Type} [EventCore C K] [DecidableEq K]

/-- A refusal to touch the log. -/
inductive IntegrityError (K : Type) where
  | contentHashMismatch (index : Nat) (eventId : K) (stored expected : Sha256)
  | duplicateEventId (eventId : K) (known actual : Sha256)
  | invalid (findings : List (IntegrityFinding K))
  deriving DecidableEq

structure ResealResult where
  events : Nat
  resealed : Nat
  deduplicated : Nat
  deriving DecidableEq

/-- Step 1: every stored hash is the hash of its core. -/
def guardCores (contentHashOf : C → Sha256) :
    Nat → List (TrackEvent C) → Except (IntegrityError K) Unit
  | _, [] => .ok ()
  | index, e :: es =>
      if e.contentHash = contentHashOf e.stripFrame then guardCores contentHashOf (index + 1) es
      else .error (.contentHashMismatch index e.id e.contentHash (contentHashOf e.stripFrame))

/-- Step 2: collapse exact duplicates onto the first, and count them. -/
def collapseDuplicates (firstHashById : JsMap K Sha256) :
    List (TrackEvent C) → Except (IntegrityError K) (List (TrackEvent C) × Nat)
  | [] => .ok ([], 0)
  | e :: es =>
      match firstHashById.get e.id with
      | none => do
          let (unique, deduplicated) ←
            collapseDuplicates (firstHashById.set e.id e.contentHash) es
          return (e :: unique, deduplicated)
      | some known =>
          if known = e.contentHash then do
            let (unique, deduplicated) ← collapseDuplicates firstHashById es
            return (unique, deduplicated + 1)
          else .error (.duplicateEventId e.id known e.contentHash)

/-- Step 3: the frame recomputed, and how many frames changed. -/
def reframe (nextSeq : JsMap K Nat) (prevHash : Option Sha256) :
    List (TrackEvent C) → List (TrackEvent C) × Nat
  | [] => ([], 0)
  | e :: es =>
      let seq := (nextSeq.get e.aggregateId).getD 0 + 1
      let rest := reframe (nextSeq.set e.aggregateId seq) (some e.contentHash) es
      (⟨e.stripFrame, seq, prevHash, e.contentHash⟩ :: rest.1,
        rest.2 + if seq ≠ e.seq ∨ prevHash ≠ e.prevHash then 1 else 0)

def resealEvents (contentHashOf : C → Sha256) (events : List (TrackEvent C)) :
    Except (IntegrityError K) (List (TrackEvent C) × ResealResult) := do
  guardCores contentHashOf 0 events
  let (unique, deduplicated) ← collapseDuplicates .empty events
  let (out, resealed) := reframe .empty none unique
  let integrity := validate contentHashOf out (some (headOf out))
  if integrity.ok then return (out, ⟨out.length, resealed, deduplicated⟩)
  else throw (.invalid integrity.findings)

variable {contentHashOf : C → Sha256}

/-! ## The steps -/

omit [DecidableEq K] in
theorem guardCores_eq_ok_iff (index : Nat) (es : List (TrackEvent C)) :
    guardCores contentHashOf index es = .ok () ↔
      ∀ e ∈ es, e.contentHash = contentHashOf e.core := by
  induction es generalizing index with
  | nil => simp [guardCores]
  | cons e es ih =>
      by_cases he : e.contentHash = contentHashOf e.core
      · simp [guardCores, he, ih]
      · simp [guardCores, he]

/-- On events with honest hashes, reframing is sealing. -/
theorem reframe_eq_sealFrom (s : FrameScan K) {es : List (TrackEvent C)}
    (hhash : ∀ e ∈ es, e.contentHash = contentHashOf e.core) :
    (reframe s.lastSeqByAggregate s.prevHash es).1 =
      sealFrom contentHashOf s (es.map (·.core)) := by
  induction es generalizing s with
  | nil => rfl
  | cons e es ih =>
      have he := hhash e (List.mem_cons_self ..)
      have hrest := ih (s.next (sealCore contentHashOf s e.core))
        (fun e' he' => hhash e' (List.mem_cons_of_mem _ he'))
      simp only [reframe, List.map_cons, sealFrom, ← hrest, List.cons.injEq]
      refine ⟨by simp [sealCore, he, TrackEvent.aggregateId], ?_⟩
      simp [FrameScan.next, sealCore, TrackEvent.aggregateId, he]

/-- The collapse keeps events of the log, and an event of every `(id, contentHash)`. -/
theorem collapseDuplicates_ok {known : JsMap K Sha256} {es unique : List (TrackEvent C)} {d : Nat}
    (h : collapseDuplicates known es = .ok (unique, d)) :
    unique.Sublist es ∧
      ∀ e ∈ es, known.get e.id = some e.contentHash ∨
        ∃ u ∈ unique, u.id = e.id ∧ u.contentHash = e.contentHash := by
  induction es generalizing known unique d with
  | nil =>
      obtain rfl : unique = [] := by
        simp only [collapseDuplicates, Except.ok.injEq, Prod.mk.injEq] at h
        exact h.1.symm
      simp
  | cons e es ih =>
      cases hknown : known.get e.id with
      | none =>
          simp only [collapseDuplicates, hknown, bind_eq_ok_iff] at h
          obtain ⟨⟨rest, d'⟩, hrest, hret⟩ := h
          obtain ⟨rfl, -⟩ : e :: rest = unique ∧ d' = d := by simpa using hret
          obtain ⟨hsub, hkept⟩ := ih hrest
          refine ⟨hsub.cons_cons e, fun x hx => ?_⟩
          rcases List.mem_cons.mp hx with rfl | hx
          · exact Or.inr ⟨x, by simp⟩
          · rcases hkept x hx with hset | ⟨u, hu, hid⟩
            · rw [JsMap.get_set] at hset
              split at hset
              · rename_i hid
                exact Or.inr ⟨e, by simp, hid.symm, by simpa using hset⟩
              · exact Or.inl hset
            · exact Or.inr ⟨u, List.mem_cons_of_mem _ hu, hid⟩
      | some hash =>
          by_cases hsame : hash = e.contentHash
          · simp only [collapseDuplicates, hknown, if_pos hsame, bind_eq_ok_iff] at h
            obtain ⟨⟨rest, d'⟩, hrest, hret⟩ := h
            obtain ⟨rfl, -⟩ : rest = unique ∧ d' + 1 = d := by simpa using hret
            obtain ⟨hsub, hkept⟩ := ih hrest
            refine ⟨hsub.cons e, fun x hx => ?_⟩
            rcases List.mem_cons.mp hx with rfl | hx
            · exact Or.inl (hsame ▸ hknown)
            · exact hkept x hx
          · simp [collapseDuplicates, hknown, hsame] at h

/-- Nothing is collapsed where no id repeats. -/
theorem collapseDuplicates_of_nodup {known : JsMap K Sha256} {es : List (TrackEvent C)}
    (hnodup : (es.map (·.id)).Nodup) (hknown : ∀ e ∈ es, known.get e.id = none) :
    collapseDuplicates known es = .ok (es, 0) := by
  induction es generalizing known with
  | nil => rfl
  | cons e es ih =>
      rw [List.map_cons, List.nodup_cons] at hnodup
      have hrest : collapseDuplicates (known.set e.id e.contentHash) es = .ok (es, 0) := by
        refine ih hnodup.2 fun x hx => ?_
        have hne : x.id ≠ e.id := fun h => hnodup.1 (h ▸ List.mem_map_of_mem hx)
        rw [JsMap.get_set_of_ne _ _ hne]
        exact hknown x (List.mem_cons_of_mem _ hx)
      simp [collapseDuplicates, hknown e (List.mem_cons_self ..), hrest]

/-! ## The whole -/

/-- The head a stream defines anchors in it. -/
theorem anchored_headOf (es : List (TrackEvent C)) : Anchored es (some (headOf es)) := by
  refine ⟨le_rfl, fun _ => ?_⟩
  simp [headOf, lastHash, List.getLast?_eq_getElem?]

/-- What a successful reseal has found and what it returns. -/
theorem resealEvents_eq_ok_iff (es out : List (TrackEvent C)) (result : ResealResult) :
    resealEvents contentHashOf es = .ok (out, result) ↔
      (∀ e ∈ es, e.contentHash = contentHashOf e.core) ∧
        ∃ unique, collapseDuplicates .empty es = .ok (unique, result.deduplicated) ∧
          out = sealFrom contentHashOf (FrameScan.init (K := K)) (unique.map (·.core)) ∧
          Sound contentHashOf out ∧
          result.events = out.length ∧
          result.resealed = (reframe (.empty : JsMap K Nat) none unique).2 := by
  simp only [resealEvents, bind_eq_ok_iff, Prod.exists]
  constructor
  · rintro ⟨⟨⟩, hguard, unique, d, hcollapse, h⟩
    have hhash := (guardCores_eq_ok_iff 0 es).mp hguard
    have hseal : (reframe (.empty : JsMap K Nat) none unique).1 =
        sealFrom contentHashOf (FrameScan.init (K := K)) (unique.map (·.core)) :=
      reframe_eq_sealFrom FrameScan.init fun e he =>
        hhash e ((collapseDuplicates_ok hcollapse).1.subset he)
    split at h
    · rename_i hok
      simp only [pure_eq_ok, Except.ok.injEq, Prod.mk.injEq] at h
      obtain ⟨rfl, rfl⟩ := h
      exact ⟨hhash, unique, hcollapse, hseal, ((validate_ok_iff _ _).mp hok).1, rfl, rfl⟩
    · simp at h
  · rintro ⟨hhash, unique, hcollapse, hout, hsound, hevents, hresealed⟩
    have hseal : (reframe (.empty : JsMap K Nat) none unique).1 = out := by
      rw [hout]
      exact reframe_eq_sealFrom FrameScan.init fun e he =>
        hhash e ((collapseDuplicates_ok hcollapse).1.subset he)
    refine ⟨(), (guardCores_eq_ok_iff 0 es).mpr hhash, unique, result.deduplicated, hcollapse, ?_⟩
    have hok : (validate contentHashOf out (some (headOf out))).ok = true :=
      (validate_ok_iff _ _).mpr ⟨hsound, anchored_headOf out⟩
    simp only [hseal, hok, if_true, pure_eq_ok, ← hevents, ← hresealed]

/-- A reseal that succeeds on a sound log keeps every command in one piece,
provided no two cores share a hash. -/
theorem resealEvents_keeps_command {es out : List (TrackEvent C)} {result : ResealResult}
    (hinj : Function.Injective contentHashOf) (hes : Sound contentHashOf es)
    (hreseal : resealEvents contentHashOf es = .ok (out, result)) {xs : List C}
    (hxs : IsCommand (K := K) xs) (hpiece : xs <:+: es.map (·.core)) :
    xs <:+: out.map (·.core) := by
  obtain ⟨hhash, unique, hcollapse, hout, hsound, -, -⟩ :=
    (resealEvents_eq_ok_iff es out result).mp hreseal
  obtain ⟨hsub, hkept⟩ := collapseDuplicates_ok hcollapse
  have hcores : out.map (·.core) = unique.map (·.core) := by
    rw [hout, map_core_sealFrom]
  rw [hcores]
  refine hxs.isInfix_of_sublist hes.wellFormed (hcores ▸ hsound.wellFormed) (hsub.map _)
    hpiece fun c hc => ?_
  obtain ⟨e, he, rfl⟩ := List.mem_map.mp (hpiece.subset hc)
  rcases hkept e he with hnone | ⟨u, hu, -, hsame⟩
  · simp at hnone
  · rw [hhash e he, hhash u (hsub.subset hu)] at hsame
    exact List.mem_map.mpr ⟨u, hu, hinj hsame⟩

end H2a.Track.Events
