import H2a.Track.Events.Sound
/-!
# Tamper evidence

`contentHash` commits to neither `seq` nor `prevHash`, so a kept event proves
nothing by itself.  What detects deletion, reordering and repetition is that an
intact event names its predecessor: a log re-assembled from the events of a
sound log can only retrace it from the start, and the head fixes the length.
-/

namespace H2a.Track.Events

open H2a.Library

variable {C K : Type} [EventCore C K] [DecidableEq K]
variable {contentHashOf : C → Sha256}

omit [EventCore C K] [DecidableEq K] in
/-- With distinct hashes, the last hash of an initial part tells which part it is. -/
theorem initialPart_unique {xs ys xs' ys' : List (TrackEvent C)}
    (hsame : xs ++ ys = xs' ++ ys') (hnodup : ((xs ++ ys).map (·.contentHash)).Nodup)
    (hlast : lastHash xs = lastHash xs') : xs = xs' := by
  rcases List.eq_nil_or_concat xs with rfl | ⟨as, x, rfl⟩
  · rcases List.eq_nil_or_concat xs' with rfl | ⟨bs, y, rfl⟩
    · rfl
    · simp [lastHash] at hlast
  · rcases List.eq_nil_or_concat xs' with rfl | ⟨bs, y, rfl⟩
    · simp [lastHash] at hlast
    · rw [List.concat_eq_append] at hsame hnodup hlast ⊢
      rw [List.concat_eq_append] at hsame hlast ⊢
      have hhash : x.contentHash = y.contentHash := by
        simpa [lastHash] using hlast
      have hx : x ∈ as ++ [x] ++ ys := by simp
      have hy : y ∈ as ++ [x] ++ ys := by
        rw [hsame]
        simp
      obtain rfl := List.inj_on_of_nodup_map hnodup hx hy hhash
      have hmiddle : as ++ x :: ys = bs ++ x :: ys' := by simpa using hsame
      have hnodup' : (as ++ x :: ys).Nodup := by simpa using hnodup.of_map
      rw [List.nodup_middle, List.nodup_cons, List.mem_append, not_or] at hnodup'
      have hinj := (List.append_cons_inj_of_notMem hnodup'.1.1 hnodup'.1.2).mp hmiddle
      rw [hinj.1]

/-- A sound log made of events of a sound log retraces it. -/
theorem Sound.isPrefix {L L' : List (TrackEvent C)} (hL : Sound contentHashOf L)
    (hnodup : (L.map (·.contentHash)).Nodup) (hL' : Sound contentHashOf L')
    (hsub : ∀ e ∈ L', e ∈ L) : L' <+: L := by
  suffices h : ∀ xs ys, L' = xs ++ ys → xs <+: L from h L' [] (by simp)
  intro xs
  induction xs using List.reverseRecOn with
  | nil => exact fun _ _ => List.nil_prefix
  | append_singleton xs e ih =>
      intro ys hsplit
      rw [List.append_assoc, List.singleton_append] at hsplit
      obtain ⟨rest, hrest⟩ := ih (e :: ys) hsplit
      obtain ⟨as, bs, hmem⟩ := List.append_of_mem (hsub e (by simp [hsplit]))
      -- `e` kept its frame, so it names the same predecessor in both logs
      have hprev : lastHash xs = lastHash as := by
        rw [← Sound.prevHash (hsplit ▸ hL'), ← Sound.prevHash (hmem ▸ hL)]
      have hxs : xs = as :=
        initialPart_unique (hrest.trans hmem) (hrest ▸ hnodup) hprev
      exact ⟨bs, by simp [hxs, hmem]⟩

/-- Deleting, reordering or repeating events of a validated log cannot go
unnoticed under its head. -/
theorem validate_tamper_evident (contentHashOf : C → Sha256) {L L' : List (TrackEvent C)}
    (hinj : ∀ c ∈ L.map (·.core), ∀ d ∈ L.map (·.core),
      contentHashOf c = contentHashOf d → c = d)
    (hdistinct : (L.map (·.core)).Nodup)
    (hL : (validate contentHashOf L (some (headOf L))).ok = true)
    (hsub : ∀ e ∈ L', e ∈ L)
    (hL' : (validate contentHashOf L' (some (headOf L))).ok = true) : L' = L := by
  rw [validate_ok_iff] at hL hL'
  have hhashes : L.map (·.contentHash) = (L.map (·.core)).map contentHashOf := by
    rw [List.map_map]
    exact List.map_congr_left fun e he => hL.1.contentHash he
  have hnodup : (L.map (·.contentHash)).Nodup := by
    rw [hhashes]
    exact hdistinct.map_on hinj
  have hprefix := hL.1.isPrefix hnodup hL'.1 hsub
  have hlength : L.length ≤ L'.length := hL'.2.1
  exact hprefix.eq_of_length_le hlength

/-- The log of two items. -/
def twoItems : List (TrackEvent BareCore) :=
  sealFrom BareCore.hash FrameScan.init [⟨js "1", js "a", none⟩, ⟨js "2", js "b", none⟩]

theorem validate_tamper_evident_twoItems :
    twoItems.reverse.reverse = twoItems ∧ twoItems.reverse ≠ twoItems :=
  ⟨validate_tamper_evident BareCore.hash (by decide) (by decide) (by decide)
    (by decide) (by decide), by decide⟩

end H2a.Track.Events
