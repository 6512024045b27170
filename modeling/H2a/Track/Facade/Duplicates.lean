import H2a.Library.Chain
import H2a.Track.Facade.DemandLifecycle
/-!
# No duplicate cycle

A demand becomes a duplicate of something that is no duplicate itself, and both
states are terminal: under the lock a new `duplicateOf` link leads to a demand
without one, however the commands race.
-/

namespace H2a.Track

open H2a.Library H2a.Library.Program H2a.Library.Concurrent H2a.Track.Model
open H2a.Library.Chain (Follows Grounded)
open H2a.Track.Events (Sha256)

/-- The demand that a demand is a duplicate of, if it is one of a demand. -/
def duplicateLink (s : State) (demandId : DemandId) : Option DemandId := do
  let demand ← s.demands.get demandId
  let survivor ← demand.duplicateOf
  if survivor.kind = .demand then some survivor.id else none

/-- What a link names is there, in a workspace. -/
def SurvivorIn (s : State) (workspace : JsString) (survivor : DemandRef) : Prop :=
  match survivor.kind with
  | .demand => ∃ demand, s.demands.get survivor.id = some demand ∧ demand.workspace = workspace
  | .item => ∃ item, s.items.get survivor.id = some item ∧ item.workspace = workspace

/-- Following `duplicateOf` from a demand ends after finitely many links, at an item
or at a demand that is no duplicate, and stays in a workspace. -/
inductive LeadsToSurvivor (s : State) (workspace : JsString) : DemandId → Prop
  | survivor {demandId demand} (hdemand : s.demands.get demandId = some demand)
      (hworkspace : demand.workspace = workspace) (hstatus : demand.status ≠ .duplicate) :
      LeadsToSurvivor s workspace demandId
  | item {demandId demand itemId item} (hdemand : s.demands.get demandId = some demand)
      (hworkspace : demand.workspace = workspace)
      (hlink : demand.duplicateOf = some ⟨.item, itemId⟩)
      (hitem : s.items.get itemId = some item) (hitemWorkspace : item.workspace = workspace) :
      LeadsToSurvivor s workspace demandId
  | link {demandId demand next} (hdemand : s.demands.get demandId = some demand)
      (hworkspace : demand.workspace = workspace)
      (hlink : demand.duplicateOf = some ⟨.demand, next⟩)
      (hrest : LeadsToSurvivor s workspace next) : LeadsToSurvivor s workspace demandId

/-- The links of a state are those of its duplicates, and lead somewhere. -/
structure DuplicatesInOrder (s : State) : Prop where
  unlinked : ∀ x demand, s.demands.get x = some demand → demand.status ≠ .duplicate →
    demand.duplicateOf = none
  linked : ∀ x demand, s.demands.get x = some demand → demand.status = .duplicate →
    ∃ survivor, demand.duplicateOf = some survivor ∧ SurvivorIn s demand.workspace survivor
  grounded : Grounded (duplicateLink s)

section Links

variable {s : State}

theorem duplicateLink_eq_some {x y : DemandId} : duplicateLink s x = some y ↔
    ∃ demand, s.demands.get x = some demand ∧ demand.duplicateOf = some ⟨.demand, y⟩ := by
  unfold duplicateLink
  cases hdemand : s.demands.get x with
  | none => simp
  | some demand =>
      cases hlink : demand.duplicateOf with
      | none => simp [hlink]
      | some survivor =>
          obtain ⟨kind, id⟩ := survivor
          cases kind <;> simp [hlink]

theorem DuplicatesInOrder.leads (h : DuplicatesInOrder s) {demandId : DemandId}
    {demand : DemandState} (hdemand : s.demands.get demandId = some demand) :
    LeadsToSurvivor s demand.workspace demandId := by
  induction demandId using h.grounded.induction generalizing demand with
  | _ demandId ih =>
      by_cases hstatus : demand.status = .duplicate
      · obtain ⟨⟨kind, id⟩, hlink, hin⟩ := h.linked demandId demand hdemand hstatus
        cases kind with
        | demand =>
            obtain ⟨next, hnext, hworkspace⟩ := hin
            have hrest := ih id (duplicateLink_eq_some.mpr ⟨demand, hdemand, hlink⟩) hnext
            exact .link hdemand rfl hlink (hworkspace ▸ hrest)
        | item =>
            obtain ⟨item, hitem, hworkspace⟩ := hin
            exact .item hdemand rfl hlink hitem hworkspace
      · exact .survivor hdemand rfl hstatus

/-- What the containment check has found. -/
theorem assertDuplicateContainment_ok {demand : DemandState} {duplicateOf : Option DemandRef}
    (h : Facade.assertDuplicateContainment demand duplicateOf s = .ok ()) :
    ∃ survivor, duplicateOf = some survivor ∧ survivor.id ≠ demand.id ∧
      SurvivorIn s demand.workspace survivor ∧
      (survivor.kind = .demand → ∀ other, s.demands.get survivor.id = some other →
        other.status ≠ .duplicate) := by
  unfold Facade.assertDuplicateContainment at h
  cases duplicateOf with
  | none => simp at h
  | some survivor =>
      obtain ⟨kind, id⟩ := survivor
      by_cases hself : id = demand.id
      · rw [hself] at h
        cases kind <;> simp at h
      · refine ⟨⟨kind, id⟩, rfl, hself, ?_⟩
        cases kind with
        | demand =>
            cases hother : s.demands.get id with
            | none => simp [hself, hother] at h
            | some other =>
                by_cases hworkspace : other.workspace = demand.workspace
                · by_cases hstatus : other.status = .duplicate ∨ other.status = .rejected
                  · simp [hself, hother, hworkspace, hstatus] at h
                  · refine ⟨⟨other, hother, hworkspace⟩, fun _ other' hother' => ?_⟩
                    obtain rfl : other = other' := by simpa [hother] using hother'
                    exact fun hduplicate => hstatus (.inl hduplicate)
                · simp [hself, hother, hworkspace] at h
        | item =>
            cases hitem : s.items.get id with
            | none => simp [hself, hitem] at h
            | some item =>
                by_cases hworkspace : item.workspace = demand.workspace
                · exact ⟨⟨item, hitem, hworkspace⟩, by simp⟩
                · simp [hself, hitem, hworkspace] at h

theorem duplicateLink_congr {s' : State} {x : DemandId}
    (h : s'.demands.get x = s.demands.get x) : duplicateLink s' x = duplicateLink s x := by
  unfold duplicateLink
  rw [h]

/-- Only the links of duplicates are links. -/
theorem DuplicatesInOrder.link_none (h : DuplicatesInOrder s) {x : DemandId}
    (hx : ∀ demand, s.demands.get x = some demand → demand.status ≠ .duplicate) :
    duplicateLink s x = none := by
  unfold duplicateLink
  cases hdemand : s.demands.get x with
  | none => rfl
  | some demand => simp [h.unlinked x demand hdemand (hx demand hdemand)]

end Links

/-! ## What lands -/

/-- One demand is new or moved: a duplicate is linked to something without a link. -/
theorem DuplicatesInOrder.change {s s' : State} (h : DuplicatesInOrder s) {x : DemandId}
    {demand : DemandState}
    (hdemands : ∀ y, s'.demands.get y = if y = x then some demand else s.demands.get y)
    (hsurvivors : ∀ workspace survivor, SurvivorIn s workspace survivor →
      SurvivorIn s' workspace survivor)
    (hunlinked : demand.status ≠ .duplicate → demand.duplicateOf = none)
    (hlinked : demand.status = .duplicate → ∃ survivor, demand.duplicateOf = some survivor ∧
      SurvivorIn s demand.workspace survivor ∧
      (survivor.kind = .demand → survivor.id ≠ x ∧ duplicateLink s survivor.id = none)) :
    DuplicatesInOrder s' := by
  have hx : s'.demands.get x = some demand := by rw [hdemands, if_pos rfl]
  have hother : ∀ y, y ≠ x → s'.demands.get y = s.demands.get y := by
    intro y hy
    rw [hdemands, if_neg hy]
  refine ⟨fun y found hfound hstatus => ?_, fun y found hfound hstatus => ?_, ?_⟩
  · by_cases hy : y = x
    · subst hy
      obtain rfl := Option.some.inj (hx.symm.trans hfound)
      exact hunlinked hstatus
    · exact h.unlinked y found (hother y hy ▸ hfound) hstatus
  · by_cases hy : y = x
    · subst hy
      obtain rfl := Option.some.inj (hx.symm.trans hfound)
      obtain ⟨survivor, hlink, hin, -⟩ := hlinked hstatus
      exact ⟨survivor, hlink, hsurvivors _ _ hin⟩
    · obtain ⟨survivor, hlink, hin⟩ := h.linked y found (hother y hy ▸ hfound) hstatus
      exact ⟨survivor, hlink, hsurvivors _ _ hin⟩
  · refine h.grounded.relink (x := x) (fun y hy => duplicateLink_congr (hother y hy)) ?_
    intro y hy hback
    obtain ⟨found, hfound, hlink⟩ := duplicateLink_eq_some.mp hy
    obtain rfl := Option.some.inj (hx.symm.trans hfound)
    by_cases hstatus : demand.status = .duplicate
    · obtain ⟨survivor, hlink', -, hend⟩ := hlinked hstatus
      obtain rfl := Option.some.inj (hlink'.symm.trans hlink)
      obtain ⟨hne, hnone⟩ := hend rfl
      exact hne (hback.of_next_none hnone).symm
    · rw [hunlinked hstatus] at hlink
      simp at hlink

theorem SurvivorIn.persists {log events : List Event} (hfresh : Fresh (log ++ events))
    {workspace : JsString} {survivor : DemandRef}
    (h : SurvivorIn (rawFold log) workspace survivor) :
    SurvivorIn (rawFold (log ++ events)) workspace survivor := by
  have hprefix := List.prefix_append log events
  obtain ⟨kind, id⟩ := survivor
  cases kind with
  | demand =>
      obtain ⟨demand, hdemand, hworkspace⟩ := h
      obtain ⟨demand', hdemand', hbirth⟩ := demand_persists hfresh hprefix hdemand
      simp only [demandBirth, Prod.mk.injEq] at hbirth
      exact ⟨demand', hdemand', hbirth.2.trans hworkspace⟩
  | item =>
      obtain ⟨item, hitem, hworkspace⟩ := h
      obtain ⟨item', hitem', hbirth⟩ := item_persists hfresh hprefix hitem
      simp only [itemBirth, Prod.mk.injEq] at hbirth
      exact ⟨item', hitem', hbirth.2.1.trans hworkspace⟩

/-- A demand that moves was no duplicate, and had no link. -/
theorem DuplicatesInOrder.moved {s : State} (h : DuplicatesInOrder s) {x : DemandId}
    {demand : DemandState} {dest : DemandStatus} (hdemand : s.demands.get x = some demand)
    (hmove : dest ∈ DEMAND_TRANSITIONS demand.status) : demand.duplicateOf = none := by
  refine h.unlinked x demand hdemand fun hstatus => ?_
  simp [hstatus, DEMAND_TRANSITIONS] at hmove

/-- Only becoming a duplicate links a demand. -/
theorem duplicateOf_demandEdit {e : EventData} {demand : DemandState}
    (hstatus : (demandEdit e demand).status ≠ .duplicate) :
    (demandEdit e demand).duplicateOf = demand.duplicateOf := by
  unfold demandEdit at hstatus ⊢
  split <;> try rfl
  rename_i outcome _ reason duplicateOf _ _ hbody
  cases outcome with
  | duplicate => simp [hbody, disposeDemand, DispositionOutcome.status] at hstatus
  | _ => rfl

/-- A demand that becomes a duplicate has passed the containment check. -/
theorem DemandStep.contained {log : List Event} {ev : Event} {rest : List Event}
    (h : DemandStep log ev rest) (hstatus : statusOf ev.core.body = some .duplicate)
    {before : DemandState} (hbefore : (fold log).demands.get ev.core.aggregateId = some before)
    (hnone : before.duplicateOf = none) :
    Facade.assertDuplicateContainment before (demandEdit ev.core before).duplicateOf (fold log) =
      .ok () := by
  cases h with
  | raised hbody => simp [hbody, statusOf] at hstatus
  | claimed hbody => simp [hbody, statusOf] at hstatus
  | agreed hbody => simp [hbody, statusOf] at hstatus
  | @disposed outcome handler reason duplicateOf _ _ demand hbody hdemand _ hcontained =>
      obtain rfl := Option.some.inj (hbefore.symm.trans hdemand)
      obtain rfl : outcome = .duplicate := by
        cases outcome <;> simp [hbody, statusOf, DispositionOutcome.status] at hstatus ⊢
      have hlink : (demandEdit ev.core before).duplicateOf = duplicateOf := by
        simp [demandEdit, hbody, disposeDemand, hnone]
      rw [hlink]
      exact hcontained rfl

theorem DuplicatesInOrder.lands {ok : List Event → Call → Emission → Prop}
    {log view : List Event} {c : Call} {minted : List JsString} {e : Emission}
    {events : List Event} (hfresh : Fresh log) (h : DuplicatesInOrder (rawFold log))
    (hlands : Lands ok log c view minted e events) :
    DuplicatesInOrder (rawFold (log ++ events)) := by
  have hfresh' := hlands.fresh_append hfresh
  have hsurvivors := fun workspace survivor =>
    @SurvivorIn.persists _ _ hfresh' workspace survivor
  rcases hlands.demand hfresh with hnone | ⟨ev, rest, rfl, hstep⟩
  · have hdemands := fun x => replay_demands (s := rawFold log) hnone x
    rw [← rawFold_append] at hdemands
    refine ⟨fun x demand hdemand => ?_, fun x demand hdemand hstatus => ?_, ?_⟩
    · exact h.unlinked x demand (hdemands x ▸ hdemand)
    · obtain ⟨survivor, hlink, hin⟩ := h.linked x demand (hdemands x ▸ hdemand) hstatus
      exact ⟨survivor, hlink, hsurvivors _ _ hin⟩
    · refine h.grounded.mono fun x y hxy => ?_
      rwa [duplicateLink_congr (hdemands x)] at hxy
  · obtain ⟨demand, status, hstatus, rfl, hdemands, hmove⟩ := hstep.demands
    rcases hmove with ⟨hraised, hnone, -⟩ | ⟨before, hbefore, hmove, rfl⟩
    · exact h.change hdemands hsurvivors (fun _ => hnone) (by simp [hraised])
    · have hnone := h.moved hbefore hmove
      have hid := ((known_rawFold log).demands _ before hbefore).1
      refine h.change hdemands hsurvivors (fun hstatus => ?_) fun hduplicate => ?_
      · rw [duplicateOf_demandEdit hstatus, hnone]
      · obtain ⟨survivor, hlink, hne, hin, hother⟩ := assertDuplicateContainment_ok
          (hstep.contained (hduplicate ▸ hstatus) hbefore hnone)
        have hbirth := demandBirth_demandEdit ev.core before
        simp only [demandBirth, Prod.mk.injEq] at hbirth
        refine ⟨survivor, hlink, hbirth.2 ▸ hin, fun hkind => ⟨hid ▸ hne, ?_⟩⟩
        exact h.link_none (hother hkind)

/-- In every log reached, `duplicateOf` goes in no circle, and leads from every demand
to a survivor in its workspace. -/
theorem duplicateOf_acyclic {P : Type} [DecidableEq P] {contentHashOf : EventData → Sha256}
    {s : FacadeSys P}
    (hrun : Reaches (FacadeStep contentHashOf fun _ _ _ => True) Sys.initial s) :
    (∀ demandId, ¬ Relation.TransGen (fun x y => duplicateLink (fold s.log) x = some y)
      demandId demandId) ∧
    ∀ demandId demand, (fold s.log).demands.get demandId = some demand →
      LeadsToSurvivor (fold s.log) demand.workspace demandId := by
  have h : DuplicatesInOrder (rawFold s.log) := by
    refine (reachable_invariant (G := fun log => DuplicatesInOrder (rawFold log)) ?_ ?_ hrun).2
    · refine ⟨fun x demand hdemand => ?_, fun x demand hdemand => ?_, .of_none fun x => rfl⟩ <;>
        simp [rawFold, cores, emptyState] at hdemand
    · exact fun hfresh h hlands => h.lands hfresh hlands
  have hfold : DuplicatesInOrder (fold s.log) := ⟨h.unlinked, h.linked, h.grounded⟩
  exact ⟨hfold.grounded.acyclic, fun demandId demand hdemand => hfold.leads hdemand⟩

/-- Two processes each make one of two demands a duplicate of the other: the second is
refused under the lock. -/
def duplicateRace : Schedule Bool :=
  claimOf false 0 (js "d") (js "w") ++ claimOf false 2 (js "e") (js "w") ++
    [callOf false (.disposeDemand (js "d") .duplicate none (js "same")
        (some ⟨.demand, js "e"⟩) none none), .read false, .read false,
      callOf true (.disposeDemand (js "e") .duplicate none (js "same")
        (some ⟨.demand, js "d"⟩) none none), .read true, .read true,
      .append true (.nth 4), .append false (.nth 5)]

theorem duplicateOf_acyclic_duplicateRace :
    ∃ s : FacadeSys Bool, (duplicateLink (fold s.log) (js "d"),
        duplicateLink (fold s.log) (js "e")) = (none, some (js "d")) ∧
      (∀ demandId, ¬ Relation.TransGen (fun x y => duplicateLink (fold s.log) x = some y)
        demandId demandId) ∧
      ∀ demandId demand, (fold s.log).demands.get demandId = some demand →
        LeadsToSurvivor (fold s.log) demand.workspace demandId := by
  have hrun : outcome (fun _ _ _ => True) duplicateRace
      (fun log => (duplicateLink (fold log) (js "d"), duplicateLink (fold log) (js "e"))) =
      some (none, some (js "d")) := by
    decide +kernel
  obtain ⟨s, hreached, hs⟩ := reached_of_outcome hrun
  exact ⟨s, hs, duplicateOf_acyclic hreached⟩

end H2a.Track
