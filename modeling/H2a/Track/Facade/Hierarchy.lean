import H2a.Library.Chain
import H2a.Track.Facade.Reachable
import H2a.Track.State.Aspects
/-!
# The hierarchy of items

The parents of items form a forest in which the roles nest, as long as the guards
of `createItem`, `reparentItem`, `restructureReparent` and `setRole`, which look at
the log without the lock, would also pass on the log their event lands on.
-/

namespace H2a.Track

open H2a.Library H2a.Library.Program H2a.Library.Concurrent H2a.Track.Model
open H2a.Library.Chain (Follows Grounded)
open H2a.Track.Facade (parentOf walkAncestors ancestryWalk assertCreateNesting assertOwnNesting
  assertChildrenNesting)
open H2a.Track.Events (Sha256)

/-- No item is its own ancestor, and the roles of every item and its parent nest. -/
structure HierarchyKept (s : State) : Prop where
  acyclic : ∀ x, ¬ Relation.TransGen (fun x p => parentOf s x = some p) x x
  nested : ∀ x item p parent, s.items.get x = some item → item.parentId = some p →
    s.items.get p = some parent → assertRoleNesting item.role parent.role x p = .ok ()

/-- The guards of the hierarchy pass in a state. -/
def EventPart.fitsHierarchy (s : State) (part : EventPart) : Bool :=
  match part.body with
  | .itemCreated payload =>
      match payload.role, payload.parentId with
      | some role, some parentId => decide (assertCreateNesting s role parentId = .ok ())
      | _, _ => true
  | .itemReparented (some parentId) _ _ => (s.items.get part.aggregateId).all fun item =>
      decide (ancestryWalk s part.aggregateId parentId = .clear) &&
        (s.items.get parentId).all fun parent =>
          decide (assertRoleNesting item.role parent.role part.aggregateId parentId = .ok ())
  | .itemRoleChanged dest => (s.items.get part.aggregateId).all fun item =>
      decide (assertOwnNesting s item part.aggregateId dest = .ok ()) &&
        decide (assertChildrenNesting part.aggregateId dest s.items.values = .ok ())
  | _ => true

/-- The guards of an append pass on the log it lands on. -/
def FitsHierarchy (log : List Event) (_ : Call) (e : Emission) : Prop :=
  e.parts.all (·.fitsHierarchy (fold log)) = true

instance (log : List Event) (c : Call) (e : Emission) : Decidable (FitsHierarchy log c e) :=
  inferInstanceAs (Decidable (_ = true))

/-! ## The guards -/

section Guards

variable {s : State} {x p : ItemId}

/-- Whether roles nest has nothing to do with the ids of the message. -/
theorem assertRoleNesting_congr {childRole parentRole : Option ItemRole} {x p y q : ItemId}
    (h : assertRoleNesting childRole parentRole x p = .ok ()) :
    assertRoleNesting childRole parentRole y q = .ok () := by
  unfold assertRoleNesting at h ⊢
  by_cases hworkpackage : childRole = some .workpackage ∧ parentRole ≠ some .workpackage ∧
      parentRole ≠ some .stream
  · simp [hworkpackage] at h
  · by_cases hphase : childRole = some .specPhase ∧ parentRole ≠ some .workpackage ∧
        parentRole ≠ some .specPhase
    · simp [hphase] at h
    · by_cases hstream : childRole = some .stream ∧ parentRole ≠ some .stream
      · simp [hstream] at h
      · simp [hworkpackage, hphase, hstream]

/-- A leaf nests under anything. -/
theorem assertRoleNesting_leaf {parentRole : Option ItemRole} :
    assertRoleNesting none parentRole x p = .ok () := by
  simp [assertRoleNesting]

/-- The walk up is clear of an item only if it does not lead there. -/
theorem not_follows_of_clear {fuel : Nat} {cursor : ItemId}
    (h : walkAncestors s x fuel (some cursor) = .clear) : ¬ Follows (parentOf s) cursor x := by
  induction fuel generalizing cursor with
  | zero => simp [walkAncestors] at h
  | succ fuel ih =>
      unfold walkAncestors at h
      split at h
      · simp at h
      · rename_i hne
        intro hfollows
        rcases Relation.ReflTransGen.cases_head hfollows with rfl | ⟨next, hnext, hrest⟩
        · exact hne rfl
        · rw [hnext] at h
          exact ih h hrest

theorem assertChildrenNesting_mem {dest : ItemRole} {items : List ItemState}
    (h : assertChildrenNesting x dest items = .ok ()) {child : ItemState} (hchild : child ∈ items)
    (hparent : child.parentId = some x) :
    assertRoleNesting child.role (some dest) child.id x = .ok () := by
  induction items with
  | nil => simp at hchild
  | cons first rest ih =>
      unfold assertChildrenNesting at h
      rcases List.mem_cons.mp hchild with rfl | hchild
      · rw [if_pos hparent] at h
        obtain ⟨⟨⟩, hfirst, -⟩ := bind_eq_ok_iff.mp h
        exact hfirst
      · refine ih ?_ hchild
        split at h
        · obtain ⟨⟨⟩, -, hrest⟩ := bind_eq_ok_iff.mp h
          exact hrest
        · exact h

end Guards

/-! ## Role and parent of an item -/

/-- What the hierarchy is made of. -/
def placeOf (item : ItemState) : Option ItemRole × Option ItemId := (item.role, item.parentId)

theorem parentOf_eq_some {s : State} {x p : ItemId} :
    parentOf s x = some p ↔ ∃ item, s.items.get x = some item ∧ item.parentId = some p :=
  Option.bind_eq_some_iff

theorem placeOf_itemEdit (e : EventData) (item : ItemState) : placeOf (itemEdit e item) =
    match e.body with
    | .itemRoleChanged dest => (some dest, item.parentId)
    | .itemReparented parentId _ _ => (item.role, parentId)
    | _ => placeOf item := by
  have hrole := role_itemEdit e item
  have hparent := parentId_itemEdit e item
  unfold placeOf
  rw [hrole, hparent]
  cases e.body <;> rfl

/-- The places of the items after an event. -/
theorem place_step {s : State} {e : EventData} {x : ItemId} {item' : ItemState}
    (h : (applyEvent s e).items.get x = some item') :
    (∃ payload, e.body = .itemCreated payload ∧ x = e.aggregateId ∧
      placeOf item' = (payload.role, payload.parentId)) ∨
    ∃ item, s.items.get x = some item ∧ (placeOf item' = placeOf item ∨ x = e.aggregateId ∧
      ((∃ dest, e.body = .itemRoleChanged dest ∧ placeOf item' = (some dest, item.parentId)) ∨
        ∃ parentId planHash restructureRef,
          e.body = .itemReparented parentId planHash restructureRef ∧
            placeOf item' = (item.role, parentId))) := by
  have hplace := aspect_applyEvent (f := placeOf) (fun _ _ _ => rfl) s e x
  rw [h, Option.map_some] at hplace
  cases hbody : e.body with
  | itemCreated payload =>
      simp only [hbody] at hplace
      split at hplace
      · rename_i hself
        exact .inl ⟨payload, rfl, hself, Option.some.inj hplace⟩
      · obtain ⟨item, hitem, heq⟩ := Option.map_eq_some_iff.mp hplace.symm
        exact .inr ⟨item, hitem, .inl heq.symm⟩
  | itemRoleChanged dest =>
      simp only [hbody] at hplace
      split at hplace
      · rename_i hself
        obtain ⟨item, hitem, heq⟩ := Option.map_eq_some_iff.mp hplace.symm
        rw [Function.comp_apply, placeOf_itemEdit] at heq
        simp only [hbody] at heq
        exact .inr ⟨item, hitem, .inr ⟨hself, .inl ⟨dest, rfl, heq.symm⟩⟩⟩
      · obtain ⟨item, hitem, heq⟩ := Option.map_eq_some_iff.mp hplace.symm
        exact .inr ⟨item, hitem, .inl heq.symm⟩
  | itemReparented parentId planHash restructureRef =>
      simp only [hbody] at hplace
      split at hplace
      · rename_i hself
        obtain ⟨item, hitem, heq⟩ := Option.map_eq_some_iff.mp hplace.symm
        rw [Function.comp_apply, placeOf_itemEdit] at heq
        simp only [hbody] at heq
        exact .inr ⟨item, hitem, .inr ⟨hself, .inr ⟨parentId, _, _, rfl, heq.symm⟩⟩⟩
      · obtain ⟨item, hitem, heq⟩ := Option.map_eq_some_iff.mp hplace.symm
        exact .inr ⟨item, hitem, .inl heq.symm⟩
  | _ =>
      have hkept := aspect_kept (f := placeOf) (fun _ _ _ => rfl) (s := s) (e := e) (by simp [hbody])
        (fun item => by rw [placeOf_itemEdit]; simp only [hbody]) x
      rw [h, Option.map_some] at hkept
      obtain ⟨item, hitem, heq⟩ := Option.map_eq_some_iff.mp hkept.symm
      exact .inr ⟨item, hitem, .inl heq.symm⟩

/-- The parents of items are those that events gave them. -/
theorem parents_known {ids : ItemId → Prop} {s : State} {es : List EventData}
    (hset : ∀ e ∈ es, ∀ p ∈ e.body.parentsSet, ids p)
    (h : ∀ x p, parentOf s x = some p → ids p) :
    ∀ x p, parentOf (replay s es) x = some p → ids p := by
  refine replay_keeps (P := fun s => ∀ x p, parentOf s x = some p → ids p) ?_ h
  intro s e he hs x p hp
  obtain ⟨item', hitem', hparent⟩ := parentOf_eq_some.mp hp
  have hknown := hset e he
  rcases place_step hitem' with ⟨payload, hbody, -, hplace⟩ | ⟨item, hitem, hkept⟩
  · simp only [placeOf, Prod.mk.injEq] at hplace
    exact hknown p (by simp [EventBody.parentsSet, hbody, hplace.2 ▸ hparent])
  · have hbefore : item.parentId = some p → ids p :=
      fun hp => hs x p (parentOf_eq_some.mpr ⟨item, hitem, hp⟩)
    rcases hkept with hplace | ⟨-, ⟨dest, -, hplace⟩ | ⟨parentId, _, _, hbody, hplace⟩⟩
    · simp only [placeOf, Prod.mk.injEq] at hplace
      exact hbefore (hplace.2 ▸ hparent)
    · simp only [placeOf, Prod.mk.injEq] at hplace
      exact hbefore (hplace.2 ▸ hparent)
    · simp only [placeOf, Prod.mk.injEq] at hplace
      exact hknown p (by simp [EventBody.parentsSet, hbody, hplace.2 ▸ hparent])

theorem mem_ids_of_parentsSet {e : EventData} {p : ItemId} (h : p ∈ e.body.parentsSet) :
    p ∈ e.ids := by
  unfold EventData.ids EventBody.ids
  unfold EventBody.parentsSet at h
  cases hbody : e.body <;> simp_all

theorem parent_published {log : List Event} {x p : ItemId}
    (h : parentOf (rawFold log) x = some p) : p ∈ published log := by
  refine parents_known (s := emptyState) (fun e he y hy => (?_ : y ∈ published log))
    (fun x p hp => ?_) x p h
  · obtain ⟨ev, hev, rfl⟩ := List.mem_map.mp he
    exact List.mem_flatMap.mpr ⟨ev, hev, mem_ids_of_parentsSet hy⟩
  · simp [parentOf, emptyState] at hp

/-! ## One event -/

/-- The hierarchy, with every walk up ending. -/
structure HierarchyInOrder (s : State) : Prop where
  grounded : Grounded (parentOf s)
  nested : ∀ x item p parent, s.items.get x = some item → item.parentId = some p →
    s.items.get p = some parent → assertRoleNesting item.role parent.role x p = .ok ()

/-- What the guards have found of an event on the state it is applied to. -/
structure Guarded (s : State) (e : EventData) : Prop where
  created : ∀ payload, e.body = .itemCreated payload →
    (∀ y, parentOf s y ≠ some e.aggregateId) ∧ payload.parentId ≠ some e.aggregateId ∧
      ∀ role parentId, payload.role = some role → payload.parentId = some parentId →
        assertCreateNesting s role parentId = .ok ()
  reparented : ∀ p planHash restructureRef,
    e.body = .itemReparented (some p) planHash restructureRef →
      ∀ item, s.items.get e.aggregateId = some item → ¬ Follows (parentOf s) p e.aggregateId ∧
        ∀ parent, s.items.get p = some parent →
          assertRoleNesting item.role parent.role e.aggregateId p = .ok ()
  roleChanged : ∀ dest, e.body = .itemRoleChanged dest →
    ∀ item, s.items.get e.aggregateId = some item →
      assertOwnNesting s item e.aggregateId dest = .ok () ∧
        assertChildrenNesting e.aggregateId dest s.items.values = .ok ()

/-- The guards look at the items alone. -/
theorem Guarded.raw {log : List Event} {e : EventData} (h : Guarded (fold log) e) :
    Guarded (rawFold log) e :=
  ⟨h.created, h.reparented, h.roleChanged⟩

section Step

variable {s : State} {e : EventData}

/-- Only the item addressed gets another parent. -/
theorem parentOf_other {y : ItemId} (hy : y ≠ e.aggregateId) :
    parentOf (applyEvent s e) y = parentOf s y := by
  have hplace := aspect_applyEvent (f := ItemState.parentId) (fun _ _ _ => rfl) s e y
  have hmap : ((applyEvent s e).items.get y).map (·.parentId) =
      (s.items.get y).map (·.parentId) := by
    rw [hplace]
    split <;> simp [hy]
  have hbind : ∀ found : Option ItemState,
      found.bind (·.parentId) = (found.map (·.parentId)).bind id := by
    intro found
    cases found <;> rfl
  unfold parentOf
  rw [hbind, hbind, hmap]

theorem HierarchyInOrder.grounded_step (h : HierarchyInOrder s) (hguard : Guarded s e) :
    Grounded (parentOf (applyEvent s e)) := by
  refine h.grounded.relink (x := e.aggregateId) (fun y hy => parentOf_other hy) fun p hp => ?_
  obtain ⟨item', hitem', hparent⟩ := parentOf_eq_some.mp hp
  -- a parent it had before does not lead back to it
  have hkept : ∀ item, s.items.get e.aggregateId = some item → item.parentId = some p →
      ¬ Follows (parentOf s) p e.aggregateId := by
    intro item hitem hp hfollows
    exact h.grounded.acyclic _
      (Relation.TransGen.head' (parentOf_eq_some.mpr ⟨item, hitem, hp⟩) hfollows)
  rcases place_step hitem' with ⟨payload, hbody, -, hplace⟩ | ⟨item, hitem, hmoved⟩
  · simp only [placeOf, Prod.mk.injEq] at hplace
    obtain ⟨hchildless, hself, -⟩ := hguard.created payload hbody
    intro hfollows
    rcases Relation.ReflTransGen.cases_tail hfollows with rfl | ⟨y, -, hy⟩
    · exact hself (hplace.2 ▸ hparent)
    · exact hchildless y hy
  · rcases hmoved with hplace | ⟨-, ⟨dest, -, hplace⟩ | ⟨parentId, _, _, hbody, hplace⟩⟩ <;>
      simp only [placeOf, Prod.mk.injEq] at hplace
    · exact hkept item hitem (hplace.2 ▸ hparent)
    · exact hkept item hitem (hplace.2 ▸ hparent)
    · obtain rfl : parentId = some p := hplace.2 ▸ hparent
      exact (hguard.reparented p _ _ hbody item hitem).1

/-- Only the item addressed changes its place. -/
theorem place_other {p : ItemId} (hp : p ≠ e.aggregateId) {item' : ItemState}
    (h : (applyEvent s e).items.get p = some item') :
    ∃ item, s.items.get p = some item ∧ item'.role = item.role ∧
      item'.parentId = item.parentId := by
  rcases place_step h with ⟨-, -, hself, -⟩ | ⟨item, hitem, hplace | ⟨hself, -⟩⟩
  · exact (hp hself).elim
  · exact ⟨item, hitem, congrArg Prod.fst hplace, congrArg Prod.snd hplace⟩
  · exact (hp hself).elim

/-- The item addressed nests under its parent after the event. -/
theorem HierarchyInOrder.nested_own (h : HierarchyInOrder s) (hguard : Guarded s e) {p : ItemId}
    {item' parent' : ItemState} (hitem' : (applyEvent s e).items.get e.aggregateId = some item')
    (hparent : item'.parentId = some p) (hparent' : (applyEvent s e).items.get p = some parent') :
    assertRoleNesting item'.role parent'.role e.aggregateId p = .ok () := by
  have hgrounded := h.grounded_step hguard
  have hne : p ≠ e.aggregateId := by
    rintro rfl
    exact hgrounded.acyclic _ (.single (parentOf_eq_some.mpr ⟨item', hitem', hparent⟩))
  obtain ⟨parent, hget, hrole, -⟩ := place_other hne hparent'
  rw [hrole]
  rcases place_step hitem' with ⟨payload, hbody, -, hplace⟩ | ⟨item, hitem, hmoved⟩
  · simp only [placeOf, Prod.mk.injEq] at hplace
    obtain ⟨-, -, hnesting⟩ := hguard.created payload hbody
    rw [hplace.1]
    cases hpayload : payload.role with
    | none => exact assertRoleNesting_leaf
    | some role =>
        have hok := hnesting role p hpayload (hplace.2 ▸ hparent)
        simp only [assertCreateNesting, hget] at hok
        exact assertRoleNesting_congr hok
  · rcases hmoved with hplace | ⟨-, ⟨dest, hbody, hplace⟩ | ⟨parentId, _, _, hbody, hplace⟩⟩ <;>
      simp only [placeOf, Prod.mk.injEq] at hplace <;> rw [hplace.1]
    · exact h.nested _ item p parent hitem (hplace.2 ▸ hparent) hget
    · have hok := (hguard.roleChanged dest hbody item hitem).1
      rw [hplace.2] at hparent
      simp only [assertOwnNesting, hparent, hget] at hok
      exact hok
    · obtain rfl : parentId = some p := hplace.2 ▸ hparent
      exact (hguard.reparented p _ _ hbody item hitem).2 parent hget

theorem HierarchyInOrder.step (h : HierarchyInOrder s) (hguard : Guarded s e) :
    HierarchyInOrder (applyEvent s e) where
  grounded := h.grounded_step hguard
  nested y item' p parent' hitem' hparent hparent' := by
    by_cases hy : y = e.aggregateId
    · subst hy
      exact h.nested_own hguard hitem' hparent hparent'
    · obtain ⟨item, hitem, hrole, hplace⟩ := place_other hy hitem'
      rw [hplace] at hparent
      rw [hrole]
      rcases place_step hparent' with ⟨payload, hbody, rfl, -⟩ | ⟨parent, hget, hmoved⟩
      · exact ((hguard.created payload hbody).1 y (parentOf_eq_some.mpr ⟨item, hitem, hparent⟩)).elim
      · have hbefore := h.nested y item p parent hitem hparent hget
        rcases hmoved with hplace | ⟨rfl, ⟨dest, hbody, hplace⟩ | ⟨_, _, _, -, hplace⟩⟩ <;>
          simp only [placeOf, Prod.mk.injEq] at hplace <;> rw [hplace.1]
        · exact hbefore
        · have hok := (hguard.roleChanged dest hbody parent hget).2
          have hmem := (JsMap.mem_values_iff s.items item).mpr ⟨y, hitem⟩
          exact assertRoleNesting_congr (assertChildrenNesting_mem hok hmem hparent)
        · exact hbefore

end Step

/-! ## What lands -/

section Lands

variable {log view : List Event} {c : Call} {minted : List JsString} {e : Emission}
variable {events : List Event}

/-- What is emitted with others has no place to check. -/
theorem fitsHierarchy_joint {s : State} {part : EventPart} (h : Joint part) :
    part.fitsHierarchy s = true := by
  unfold EventPart.fitsHierarchy
  unfold Joint at h
  split
  · rename_i payload hbody
    rw [hbody] at h
    simp [h.2]
  · rename_i parentId _ _ hbody
    simp [hbody] at h
  · rename_i dest hbody
    simp [hbody] at h
  · rfl

/-- What fits the log it lands on has passed the guards there. -/
theorem guarded_of_fits {s : State} {part : EventPart} {ev : Event} (hev : PersistedAs e part ev)
    (hfits : part.fitsHierarchy s = true)
    (hnew : ∀ payload, part.body = .itemCreated payload →
      (∀ y, parentOf s y ≠ some part.aggregateId) ∧ payload.parentId ≠ some part.aggregateId) :
    Guarded s ev.core where
  created payload hbody := by
    have hpart := hev.part_body hbody (by simp)
    obtain ⟨hchildless, hself⟩ := hnew payload hpart
    rw [hev.aggregateId]
    refine ⟨hchildless, hself, fun role parentId hrole hparent => ?_⟩
    simpa [EventPart.fitsHierarchy, hpart, hrole, hparent] using hfits
  reparented p planHash restructureRef hbody item hitem := by
    have hpart := hev.part_body hbody (by simp)
    rw [hev.aggregateId] at hitem ⊢
    simp only [EventPart.fitsHierarchy, hpart, hitem, Option.all_some, Bool.and_eq_true,
      decide_eq_true_eq] at hfits
    refine ⟨not_follows_of_clear hfits.1, fun parent hparent => ?_⟩
    simpa [hparent] using hfits.2
  roleChanged dest hbody item hitem := by
    have hpart := hev.part_body hbody (by simp)
    rw [hev.aggregateId] at hitem ⊢
    simpa [EventPart.fitsHierarchy, hpart, hitem] using hfits

theorem HierarchyInOrder.lands (h : HierarchyInOrder (rawFold log))
    (hlands : Lands FitsHierarchy log c view minted e events) :
    HierarchyInOrder (rawFold (log ++ events)) := by
  rw [rawFold_append]
  have hpersisted := hlands.events
  have hfits : ∀ part ∈ e.parts, part.fitsHierarchy (fold log) = true :=
    List.all_eq_true.mp hlands.ok
  -- what is created has never been named
  have hunnamed : ∀ part ∈ e.parts, ∀ payload, part.body = .itemCreated payload →
      part.aggregateId ∉ published log ∧ part.aggregateId ∉ c.names := by
    intro part hpart payload hbody
    refine hlands.fresh _ (hlands.requests.issued.creates.2 _ ?_)
    refine List.mem_flatMap.mpr ⟨part, hpart, ?_⟩
    simp [EventPart.creates, EventBody.creates, hbody]
  rcases hlands.requests.issued.parts with ⟨part, hparts, -, hparents⟩ | ⟨itemId, code, hparts, -⟩ |
    hjoint
  · have hpart : part ∈ e.parts := by simp [hparts]
    rw [hparts] at hpersisted
    obtain ⟨ev, rfl, hev⟩ := persisted_singleton hpersisted
    refine h.step (guarded_of_fits hev (hfits part hpart) fun payload hbody => ?_).raw
    obtain ⟨hnew, hname⟩ := hunnamed part hpart payload hbody
    refine ⟨fun y hy => hnew (parent_published hy), fun hself => ?_⟩
    rcases hparents part.aggregateId (by simp [EventBody.parents, hbody, hself]) with hview | hnamed
    · exact hnew (published_mono hlands.sees hview)
    · exact hname hnamed
  · have hpart : ⟨.item, itemId, .itemCodeAssigned code⟩ ∈ e.parts := by simp [hparts]
    rw [hparts] at hpersisted
    obtain ⟨ev, rfl, hev⟩ := persisted_singleton hpersisted
    exact h.step (guarded_of_fits hev (hfits _ hpart) (by simp)).raw
  · -- a batch sets no parents, so they stay those of the log
    refine (replay_keeps (P := fun s => HierarchyInOrder s ∧
      ∀ x p, parentOf s x = some p → p ∈ published log) ?_
      ⟨h, fun x p hp => parent_published hp⟩).1
    rintro s core hcore ⟨hs, hknown⟩
    obtain ⟨ev, hmem, rfl⟩ := List.mem_map.mp hcore
    obtain ⟨part, hpart, hev⟩ := persisted_mem hpersisted hmem
    have hkind := hjoint part hpart
    constructor
    · refine hs.step (guarded_of_fits hev ?_ fun payload hbody => ?_)
      · exact fitsHierarchy_joint hkind
      · rw [Joint, hbody] at hkind
        refine ⟨fun y hy => (hunnamed part hpart payload hbody).1 (hknown y _ hy), ?_⟩
        simp [hkind.1]
    · intro x p hp
      obtain ⟨item', hitem', hparent⟩ := parentOf_eq_some.mp hp
      rcases place_step hitem' with ⟨payload, hbody, -, hplace⟩ | ⟨item, hitem, hmoved⟩
      · simp only [placeOf, Prod.mk.injEq] at hplace
        rw [Joint, hev.part_body hbody (by simp)] at hkind
        simp [hplace.2, hkind.1] at hparent
      · have hbefore : item.parentId = some p → p ∈ published log :=
          fun hp => hknown x p (parentOf_eq_some.mpr ⟨item, hitem, hp⟩)
        rcases hmoved with hplace | ⟨-, ⟨dest, hbody, -⟩ | ⟨parentId, _, _, hbody, -⟩⟩
        · exact hbefore ((congrArg Prod.snd hplace).symm.trans hparent)
        · simp [Joint, hev.part_body hbody (by simp)] at hkind
        · simp [Joint, hev.part_body hbody (by simp)] at hkind

end Lands

/-- In every run whose appends pass the guards of the hierarchy on the log they land
on, the items form a forest in which the roles nest. -/
theorem hierarchyKept_reachable {P : Type} [DecidableEq P] {contentHashOf : EventData → Sha256}
    {s : FacadeSys P} (hrun : Reaches (FacadeStep contentHashOf FitsHierarchy) Sys.initial s) :
    HierarchyKept (fold s.log) := by
  have h : HierarchyInOrder (rawFold s.log) := by
    refine (reachable_invariant (G := fun log => HierarchyInOrder (rawFold log)) ?_ ?_ hrun).2
    · refine ⟨.of_none fun x => rfl, fun x item p parent hitem => ?_⟩
      simp [rawFold, cores, emptyState] at hitem
    · exact fun _ h hlands => h.lands hlands
  exact ⟨h.grounded.acyclic, h.nested⟩

/-- A workpackage moves under a stream. -/
def move : Schedule Unit :=
  createOf () 0 (js "x") (some .workpackage) ++ createOf () 1 (js "y") (some .stream) ++
    [callOf () (.reparentItem (js "x") (some (js "y"))), .read (), .append () (.nth 2)]

theorem hierarchyKept_reachable_move :
    ∃ s : FacadeSys Unit, parentOf (fold s.log) (js "x") = some (js "y") ∧
      HierarchyKept (fold s.log) := by
  have hrun : outcome FitsHierarchy move (fun log => parentOf (fold log) (js "x")) =
      some (some (js "y")) := by
    decide +kernel
  obtain ⟨s, hreached, hs⟩ := reached_of_outcome hrun
  exact ⟨s, hs, hierarchyKept_reachable hreached⟩

/-- Two processes each move one of two items under the other. -/
def cycleRace : Schedule Bool :=
  createOf false 0 (js "x") none ++ createOf false 1 (js "y") none ++
    [callOf false (.reparentItem (js "x") (some (js "y"))), .read false,
      callOf true (.reparentItem (js "y") (some (js "x"))), .read true,
      .append false (.nth 2), .append true (.nth 3)]

/-- Both moves are written, and the items are each other's parents. -/
theorem hierarchyKept_cycleRace :
    ∃ s : FacadeSys Bool, Reaches (FacadeStep (fun e => e.id) fun _ _ _ => True) Sys.initial s ∧
      ¬ HierarchyKept (fold s.log) := by
  have hrun : outcome (fun _ _ _ => True) cycleRace (fun log =>
      (parentOf (fold log) (js "x"), parentOf (fold log) (js "y"))) =
      some (some (js "y"), some (js "x")) := by
    decide +kernel
  obtain ⟨s, hreached, hs⟩ := reached_of_outcome hrun
  rw [Prod.mk.injEq] at hs
  exact ⟨s, hreached, fun h => h.acyclic (js "x") (.tail (.single hs.1) hs.2)⟩

end H2a.Track
