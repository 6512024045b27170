import H2a.Track.Report.Leaves
/-!
# The task level

`statusByLevel` at `task` starts from the items without a parent and follows the
children.  It lists the leaves whose chain of parents ends at such an item, and
loses those whose chain runs into a cycle or ends at an id that no item has.
-/

namespace H2a.Track

open H2a.Library H2a.Library.Concurrent H2a.Track.Model
open H2a.Library.Chain (Follows OnCycle Ends)
open H2a.Track.Facade (parentOf)
open H2a.Track.Events (Sha256)

/-- One group, and no more, has the id of the item; its status is the item's bucket. -/
def ListedOnce (s : State) (config : ReportConfig) (groups : List StatusGroup)
    (item : ItemState) : Prop :=
  ∃ group, (groups.filter fun g => g.id = item.id) = [group] ∧ group.status = bucketOf s item config

/-- The chain of parents ends at an item without one. -/
def Rooted (s : State) (x : ItemId) : Prop :=
  ∃ top, Follows (parentOf s) x top ∧ (s.items.get top).map (·.parentId) = some none

section Task

variable {compareIds : ItemId → ItemId → Ordering} {s : State} {config : ReportConfig}
variable (hkeyed : ∀ x item, s.items.get x = some item → item.id = x)

include hkeyed

/-- What is listed are the leaves under the key, each as its own group. -/
theorem walkLeaves_collects {fuel depth : Nat} {key : Option ItemId} {groups : List StatusGroup}
    (h : walkLeaves compareIds s config fuel key depth = some groups)
    (hoff : ∀ y ∈ key, ¬ OnCycle (parentOf s) y) :
    Collects s key (groups.filterMap (s.items.get ·.id)) ∧
      ∀ group ∈ groups, ∃ item depth, s.items.get item.id = some item ∧
        group = leafGroup s config item depth := by
  induction fuel generalizing key depth groups with
  | zero => simp [walkLeaves] at h
  | succ fuel ih =>
      rw [walkLeaves] at h
      obtain ⟨outs, houts, h⟩ := Option.bind_eq_some_iff.mp h
      obtain rfl := Option.some.inj h
      have hstep : ∀ child ∈ childrenOf compareIds s key,
          (if isWp child then walkLeaves compareIds s config fuel (some child.id) (depth + 1)
            else if (childrenOf compareIds s (some child.id)).length = 0 then
              some [leafGroup s config child depth]
            else walkLeaves compareIds s config fuel (some child.id) depth) =
          if ¬ isWp child ∧ (childrenOf compareIds s (some child.id)).length = 0 then
            some [leafGroup s config child depth]
          else walkLeaves compareIds s config fuel (some child.id)
            (if isWp child then depth + 1 else depth) := by
        intro child _
        cases isWp child <;> simp
      have hunder : ∀ child ∈ childrenOf compareIds s key, ∀ depth out,
          walkLeaves compareIds s config fuel (some child.id) depth = some out →
            Collects s (some child.id) (out.filterMap (s.items.get ·.id)) ∧
              ∀ group ∈ out, ∃ item depth, s.items.get item.id = some item ∧
                group = leafGroup s config item depth := by
        intro child hchild depth out hout
        refine ih hout fun y hy => ?_
        obtain rfl := Option.mem_some_iff.mp hy
        exact child_off_cycles hkeyed hoff hchild
      refine ⟨collects_mapM hkeyed houts hoff (fun child hchild hleaf => ?_)
        fun child hchild hnot out hout => ?_, fun group hgroup => ?_⟩
      · rw [hstep child hchild, if_pos ((isLeaf_child hkeyed hchild).mp hleaf)]
        exact ⟨_, rfl, rfl⟩
      · rw [hstep child hchild, if_neg fun hleaf => hnot
          ((isLeaf_child hkeyed hchild).mpr hleaf)] at hout
        exact (hunder child hchild _ out hout).1
      · obtain ⟨out, hmem, hgroup⟩ := List.mem_flatten.mp hgroup
        obtain ⟨child, hchild, hout⟩ := mem_of_mapM houts hmem
        rw [hstep child hchild] at hout
        split at hout
        · obtain rfl := Option.some.inj hout
          obtain rfl := List.mem_singleton.mp hgroup
          exact ⟨child, depth, ((mem_childrenOf hkeyed).mp hchild).1, rfl⟩
        · exact (hunder child hchild _ out hout).2 group hgroup

/-- A leaf is listed, and listed once, exactly when its chain of parents ends at an item
without one. -/
theorem listedOnce_iff {fuel : Nat} {groups : List StatusGroup}
    (h : statusByLevel compareIds s config .task fuel = some groups) {item : ItemState}
    (hleaf : IsLeaf s item) : ListedOnce s config groups item ↔ Rooted s item.id := by
  rw [statusByLevel, if_pos rfl] at h
  obtain ⟨hcollects, hgroups⟩ := walkLeaves_collects hkeyed h (by simp)
  have hget : ∀ group ∈ groups, ∃ item depth, s.items.get group.id = some item ∧
      group = leafGroup s config item depth := by
    intro group hgroup
    obtain ⟨item, depth, hitem, rfl⟩ := hgroups group hgroup
    exact ⟨item, depth, hitem, rfl⟩
  have hrooted : Rooted s item.id ↔ item ∈ groups.filterMap (s.items.get ·.id) :=
    ⟨fun h => (hcollects.mem_iff item).mpr ⟨hleaf, h⟩, fun h => ((hcollects.mem_iff item).mp h).below⟩
  have hmatch : ∀ group ∈ groups, group.id = item.id ↔ s.items.get group.id = some item := by
    intro group hgroup
    refine ⟨fun hid => by rw [hid, hleaf.listed], fun hitem => (hkeyed _ item hitem).symm⟩
  have hcount : (groups.filter fun g => g.id = item.id).length =
      (groups.filterMap (s.items.get ·.id)).count item := by
    rw [List.count_filterMap, List.countP_eq_length_filter]
    refine congrArg List.length (List.filter_congr fun group hgroup => ?_)
    rw [Bool.eq_iff_iff]
    simp [hmatch group hgroup]
  rw [hrooted]
  refine ⟨fun hlisted => ?_, fun hmem => ?_⟩
  · obtain ⟨group, hone, -⟩ := hlisted
    rw [hone, List.length_singleton] at hcount
    exact List.count_pos_iff.mp (by omega)
  · rw [List.count_eq_one_of_mem hcollects.nodup hmem] at hcount
    obtain ⟨group, hone⟩ := List.length_eq_one_iff.mp hcount
    have hin : group ∈ groups.filter fun g => g.id = item.id := hone ▸ List.mem_singleton_self _
    obtain ⟨hgroup, hid⟩ := List.mem_filter.mp hin
    obtain ⟨item', depth, hitem', rfl⟩ := hget group hgroup
    have heq := (hmatch _ hgroup).mp (of_decide_eq_true hid)
    obtain rfl := Option.some.inj (hitem'.symm.trans heq)
    exact ⟨_, hone, rfl⟩

end Task

/-! ## Runs that name parents there are -/

/-- Every parent a created item is given is an item of the log it lands on, and the
guards of the hierarchy pass there. -/
def FitsParents (log : List Event) (c : Call) (e : Emission) : Prop :=
  FitsHierarchy log c e ∧ e.parts.all (·.body.parents.all (fold log).items.has) = true

instance (log : List Event) (c : Call) (e : Emission) : Decidable (FitsParents log c e) :=
  inferInstanceAs (Decidable (_ ∧ _))

section Lands

variable {log view : List Event} {c : Call} {minted : List JsString} {e : Emission}
variable {events : List Event}

/-- The parents an append gives are items of the log. -/
theorem parentsSet_listed (hfresh : Fresh log) (h : Lands FitsParents log c view minted e events)
    {ev : Event} (hev : ev ∈ events) {p : ItemId} (hp : p ∈ ev.core.body.parentsSet) :
    (fold log).items.has p = true := by
  obtain ⟨part, hpart, hpersisted⟩ := persisted_mem h.events hev
  have hcreated : ∀ payload, ev.core.body = .itemCreated payload →
      (fold log).items.has p = true := by
    intro payload hbody
    have hfits := List.all_eq_true.mp (List.all_eq_true.mp h.ok.2 part hpart)
    refine hfits p ?_
    rw [hpersisted.part_body hbody (by simp)]
    simpa [EventBody.parents, EventBody.parentsSet, hbody] using hp
  have hmoved : ∀ parentId planHash restructureRef,
      ev.core.body = .itemReparented parentId planHash restructureRef →
        (fold log).items.has p = true := by
    intro parentId planHash restructureRef hbody
    have hpartBody := hpersisted.part_body hbody (by simp)
    obtain rfl : parentId = some p := by simpa [EventBody.parentsSet, hbody] using hp
    rcases h.requests.issued.parts with ⟨part', hparts, hsingle, -⟩ | ⟨itemId, code, hparts, -⟩ |
      hjoint
    · obtain rfl : part = part' := by simpa [hparts] using hpart
      simp only [Single, hpartBody] at hsingle
      obtain ⟨-, item, -, hmove⟩ := hsingle
      obtain ⟨parent, hparent, -⟩ := (hmove p rfl).parent
      obtain ⟨parent', hparent', -⟩ := item_persists hfresh h.sees hparent
      exact (JsMap.has_iff _ _).mpr ⟨parent', hparent'⟩
    · obtain rfl : part = _ := by simpa [hparts] using hpart
      simp at hpartBody
    · have hkind := hjoint part hpart
      simp [Joint, hpartBody] at hkind
  cases hbody : ev.core.body with
  | itemCreated payload => exact hcreated payload hbody
  | itemReparented parentId planHash restructureRef =>
      exact hmoved parentId planHash restructureRef hbody
  | _ => simp [EventBody.parentsSet, hbody] at hp

/-- Every parent is an item. -/
def ParentsListed (s : State) : Prop := ∀ x p, parentOf s x = some p → s.items.has p = true

theorem parentsListed_lands (hfresh : Fresh log) (hlisted : ParentsListed (fold log))
    (h : Lands FitsParents log c view minted e events) : ParentsListed (fold (log ++ events)) := by
  have hbefore : ∀ x p, parentOf (rawFold (log ++ events)) x = some p →
      (fold log).items.has p = true := by
    rw [rawFold_append]
    refine parents_known (fun e he p hp => ?_) hlisted
    obtain ⟨ev, hev, rfl⟩ := List.mem_map.mp he
    exact parentsSet_listed hfresh h hev hp
  intro x p hp
  obtain ⟨item, hitem⟩ := (JsMap.has_iff _ _).mp (hbefore x p hp)
  obtain ⟨item', hitem', -⟩ := item_persists (h.fresh_append hfresh)
    (List.prefix_append log events) hitem
  exact (JsMap.has_iff _ _).mpr ⟨item', hitem'⟩

end Lands

/-- Where every chain of parents ends and every parent is an item, every item is rooted. -/
theorem rooted_of_listed {s : State} (hgrounded : Chain.Grounded (parentOf s))
    (hlisted : ParentsListed s) {x : ItemId} (hx : s.items.has x = true) : Rooted s x := by
  induction x using hgrounded.induction with
  | _ x ih =>
      obtain ⟨item, hitem⟩ := (JsMap.has_iff _ _).mp hx
      cases hparent : item.parentId with
      | none => exact ⟨x, .refl, by rw [hitem, Option.map_some, hparent]⟩
      | some p =>
          have hp := parentOf_eq_some.mpr ⟨item, hitem, hparent⟩
          obtain ⟨top, hfollows, htop⟩ := ih p hp (hlisted x p hp)
          exact ⟨top, .head hp hfollows, htop⟩

section Reachable

variable {P : Type} [DecidableEq P] (contentHashOf : EventData → Sha256) {s : FacadeSys P}

variable {contentHashOf} in
theorem rooted_reachable (hrun : Reaches (FacadeStep contentHashOf FitsParents) Sys.initial s)
    {x : ItemId} (hx : (fold s.log).items.has x = true) : Rooted (fold s.log) x := by
  have h : HierarchyInOrder (rawFold s.log) ∧ ParentsListed (fold s.log) := by
    refine (reachable_invariant (G := fun log =>
      HierarchyInOrder (rawFold log) ∧ ParentsListed (fold log)) ⟨⟨?_, ?_⟩, ?_⟩ ?_ hrun).2
    · exact .of_none fun x => rfl
    · intro x item p parent hitem
      simp [rawFold, cores, emptyState] at hitem
    · intro x p hp
      change parentOf emptyState x = some p at hp
      simp [parentOf, emptyState] at hp
    · intro log c view minted e events hfresh hkept hlands
      exact ⟨hkept.1.lands { hlands with ok := hlands.ok.1 },
        parentsListed_lands hfresh hkept.2 hlands⟩
  exact rooted_of_listed h.1.grounded h.2 hx

/-- A leaf is listed at the task level, once and with its bucket, exactly when its chain
of parents ends at an item without one; and where every item was created without a
parent or under an item there is, every leaf is. -/
theorem task_level_complete_iff (compareIds : ItemId → ItemId → Ordering) (config : ReportConfig)
    (s : FacadeSys P) :
    ∃ N, ∀ fuel ≥ N, ∃ groups,
      statusByLevel compareIds (fold s.log) config .task fuel = some groups ∧
        (∀ item, IsLeaf (fold s.log) item →
          (ListedOnce (fold s.log) config groups item ↔ Rooted (fold s.log) item.id)) ∧
        (Reaches (FacadeStep contentHashOf FitsParents) Sys.initial s →
          ∀ item, IsLeaf (fold s.log) item → ListedOnce (fold s.log) config groups item) := by
  have hkeyed := (keyed_fold s.log).items
  obtain ⟨N, hN⟩ := walkLeaves_ends compareIds config hkeyed
  refine ⟨N, fun fuel hfuel => ?_⟩
  obtain ⟨groups, hgroups⟩ := Option.isSome_iff_exists.mp (hN fuel hfuel 0)
  have hstatus : statusByLevel compareIds (fold s.log) config .task fuel = some groups := by
    rw [statusByLevel, if_pos rfl, hgroups]
  refine ⟨groups, hstatus, fun item hleaf => listedOnce_iff hkeyed hstatus hleaf, ?_⟩
  intro hfits item hleaf
  refine (listedOnce_iff hkeyed hstatus hleaf).mpr (rooted_reachable hfits ?_)
  exact (JsMap.has_iff _ _).mpr ⟨item, hleaf.listed⟩

/-- A leaf under a container, and one on its own. -/
def leavesBothWays : Schedule Unit :=
  createOf () 0 (js "wp") (some .workpackage) ++
    [callOf () (.createItem (samplePayload (js "w") none (some (js "wp")))), .mint () (js "leaf"),
      .append () (.nth 1)] ++ createOf () 2 (js "alone") none

theorem task_level_complete_leavesBothWays :
    ∃ s : FacadeSys Unit, Reaches (FacadeStep (fun e => e.id) FitsParents) Sys.initial s ∧
      ∃ fuel groups, statusByLevel (fun _ _ => .eq) (fold s.log) ⟨js "commit", false⟩ .task fuel =
        some groups ∧ ∀ item, IsLeaf (fold s.log) item →
          ListedOnce (fold s.log) ⟨js "commit", false⟩ groups item := by
  have hrun : outcome FitsParents leavesBothWays (fun log => log.length) = some 3 := by
    decide +kernel
  obtain ⟨s, hreached, -⟩ := reached_of_outcome hrun
  obtain ⟨N, hN⟩ := task_level_complete_iff (fun e => e.id) (fun _ _ => .eq)
    ⟨js "commit", false⟩ s
  obtain ⟨groups, hgroups, -, hall⟩ := hN N le_rfl
  exact ⟨s, hreached, N, groups, hgroups, hall hreached⟩

/-- An item under an id that no item has. -/
def orphan : Schedule Unit :=
  [callOf () (.createItem (samplePayload (js "w") none (some (js "ghost")))), .mint () (js "leaf"),
    .append () (.nth 0)]

/-- The task level loses an item whose parent is not an item. -/
theorem task_level_loses_orphan :
    ∃ s : FacadeSys Unit, Reaches (FacadeStep (fun e => e.id) fun _ _ _ => True) Sys.initial s ∧
      ∃ groups item, statusByLevel (fun _ _ => .eq) (fold s.log) ⟨js "commit", false⟩ .task 2 =
        some groups ∧ IsLeaf (fold s.log) item ∧
          ¬ ListedOnce (fold s.log) ⟨js "commit", false⟩ groups item := by
  have hrun : outcome (fun _ _ _ => True) orphan (fun log =>
      (statusByLevel (fun _ _ => .eq) (fold log) ⟨js "commit", false⟩ .task 2,
        (fold log).items.values.map fun item => (item.id, isWp item, item.parentId))) =
      some (some [], [(js "leaf", false, some (js "ghost"))]) := by
    decide +kernel
  obtain ⟨s, hreached, hs⟩ := reached_of_outcome hrun
  rw [Prod.mk.injEq] at hs
  obtain ⟨hgroups, hitems⟩ := hs
  have hkeyed := (keyed_fold s.log).items
  have hvalue : ∀ item, (fold s.log).items.get item.id = some item → item.id = js "leaf" ∧
      isWp item = false ∧ item.parentId = some (js "ghost") := by
    intro item hitem
    have hmem := List.mem_map_of_mem (f := fun item => (item.id, isWp item, item.parentId))
      ((mem_values_iff_get hkeyed).mpr hitem)
    rw [hitems] at hmem
    simpa using hmem
  obtain ⟨item, hmem, -⟩ := List.mem_map.mp (hitems ▸ List.mem_singleton_self _ :
    _ ∈ (fold s.log).items.values.map fun item => (item.id, isWp item, item.parentId))
  have hitem := (mem_values_iff_get hkeyed).mp hmem
  refine ⟨s, hreached, [], item, hgroups, ⟨hitem, (hvalue item hitem).2.1, fun x hx => ?_⟩, ?_⟩
  · obtain ⟨child, hchild, hparent⟩ := parentOf_eq_some.mp hx
    obtain rfl := hkeyed x child hchild
    rw [(hvalue child hchild).2.2, (hvalue item hitem).1] at hparent
    exact absurd hparent (by decide)
  · rintro ⟨group, hone, -⟩
    simp at hone

end Reachable

end H2a.Track
