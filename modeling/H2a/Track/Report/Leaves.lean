import H2a.Track.Report.Traversals
/-!
# The leaves of the item tree

An item is a leaf when it is no container and has no child.  A walk down that takes
each child in turn meets every leaf below where it starts, and none twice.
-/

namespace H2a.Track

open H2a.Library H2a.Track.Model
open H2a.Library.Chain (Follows OnCycle)
open H2a.Track.Facade (parentOf)

/-- No container, and no child. -/
structure IsLeaf (s : State) (item : ItemState) : Prop where
  listed : s.items.get item.id = some item
  plain : isWp item = false
  childless : ∀ child, parentOf s child ≠ some item.id

/-- A leaf whose chain of parents comes by an item with this `parentId`. -/
structure LeafUnder (s : State) (key : Option ItemId) (item : ItemState) : Prop where
  leaf : IsLeaf s item
  below : ∃ top, Follows (parentOf s) item.id top ∧ (s.items.get top).map (·.parentId) = some key

/-- The leaves under `key`, each once. -/
structure Collects (s : State) (key : Option ItemId) (items : List ItemState) : Prop where
  nodup : items.Nodup
  mem_iff : ∀ item, item ∈ items ↔ LeafUnder s key item

section Leaves

variable {compareIds : ItemId → ItemId → Ordering} {s : State} {key : Option ItemId}
variable {item child : ItemState}
variable (hkeyed : ∀ x item, s.items.get x = some item → item.id = x)

theorem parentOf_rightUnique :
    Relator.RightUnique fun x p => parentOf s x = some p := by
  intro x p q hp hq
  exact Option.some.inj (hp.symm.trans hq)

theorem parentOf_of_top {top x : ItemId}
    (h : (s.items.get top).map (·.parentId) = some (some x)) : parentOf s top = some x := by
  obtain ⟨item, hitem, hparent⟩ := Option.map_eq_some_iff.mp h
  exact parentOf_eq_some.mpr ⟨item, hitem, hparent⟩

include hkeyed

theorem values_nodup : s.items.values.Nodup := (s.items.values_map_nodup hkeyed).of_map

theorem childrenOf_nodup : (childrenOf compareIds s key).Nodup := by
  rw [childrenOf, sortById, (List.mergeSort_perm _ _).nodup_iff]
  exact (values_nodup hkeyed).filter _

/-- What the code asks of a child says that it is a leaf. -/
theorem isLeaf_child (h : child ∈ childrenOf compareIds s key) :
    IsLeaf s child ↔ ¬ isWp child ∧ (childrenOf compareIds s (some child.id)).length = 0 := by
  rw [List.length_eq_zero_iff, Bool.not_eq_true]
  refine ⟨fun hleaf => ⟨hleaf.plain, ?_⟩, fun ⟨hplain, hnone⟩ => ?_⟩
  · refine List.eq_nil_iff_forall_not_mem.mpr fun below hbelow => ?_
    exact hleaf.childless below.id (parentOf_child hkeyed hbelow)
  · refine ⟨((mem_childrenOf hkeyed).mp h).1, hplain, fun x hx => ?_⟩
    obtain ⟨below, hbelow, hparent⟩ := parentOf_eq_some.mp hx
    obtain rfl := hkeyed x below hbelow
    have hmem : below ∈ childrenOf compareIds s (some child.id) :=
      (mem_childrenOf hkeyed).mpr ⟨hbelow, hparent⟩
    rw [hnone] at hmem
    simp at hmem

/-- A leaf under `key` is a child or lies under one. -/
theorem leafUnder_iff : LeafUnder s key item ↔ ∃ child ∈ childrenOf compareIds s key,
    (IsLeaf s child ∧ item = child) ∨ LeafUnder s (some child.id) item := by
  refine ⟨fun ⟨hleaf, top, hfollows, htop⟩ => ?_, fun ⟨child, hchild, h⟩ => ?_⟩
  · obtain ⟨child, hitem, hparent⟩ := Option.map_eq_some_iff.mp htop
    obtain rfl := hkeyed top child hitem
    refine ⟨child, (mem_childrenOf hkeyed).mpr ⟨hitem, hparent⟩, ?_⟩
    rcases Relation.ReflTransGen.cases_tail hfollows with heq | ⟨z, hz, hlast⟩
    · rw [heq, hleaf.listed] at hitem
      obtain rfl := Option.some.inj hitem
      exact .inl ⟨hleaf, rfl⟩
    · obtain ⟨item', hitem', hparent'⟩ := parentOf_eq_some.mp hlast
      exact .inr ⟨hleaf, z, hz, by rw [hitem', Option.map_some, hparent']⟩
  · obtain ⟨hitem, hparent⟩ := (mem_childrenOf hkeyed).mp hchild
    have htop : (s.items.get child.id).map (·.parentId) = some key := by
      rw [hitem, Option.map_some, hparent]
    rcases h with ⟨hleaf, rfl⟩ | ⟨hleaf, top, hfollows, hunder⟩
    · exact ⟨hleaf, item.id, .refl, htop⟩
    · exact ⟨hleaf, child.id, hfollows.tail (parentOf_of_top hunder), htop⟩

omit hkeyed in
/-- Nothing lies under a leaf. -/
theorem not_leafUnder_leaf (h : IsLeaf s child) : ¬ LeafUnder s (some child.id) item := by
  rintro ⟨-, top, -, htop⟩
  exact h.childless top (parentOf_of_top htop)

/-- Where no cycle is entered, a chain of parents comes by one child only. -/
theorem child_unique {x : ItemId} {child' : ItemState} (hoff : ∀ y ∈ key, ¬ OnCycle (parentOf s) y)
    (hchild : child ∈ childrenOf compareIds s key) (hchild' : child' ∈ childrenOf compareIds s key)
    (hfollows : Follows (parentOf s) x child.id) (hfollows' : Follows (parentOf s) x child'.id) :
    child = child' := by
  have hsame : ∀ {c c' : ItemState}, c ∈ childrenOf compareIds s key →
      c' ∈ childrenOf compareIds s key → Follows (parentOf s) c.id c'.id → c = c' := by
    intro c c' hc hc' hcc'
    obtain ⟨hitem, hparent⟩ := (mem_childrenOf hkeyed).mp hc
    obtain ⟨hitem', hparent'⟩ := (mem_childrenOf hkeyed).mp hc'
    rcases Relation.ReflTransGen.cases_head hcc' with heq | ⟨z, hz, hzc'⟩
    · rw [← heq, hitem] at hitem'
      exact Option.some.inj hitem'
    · exfalso
      obtain ⟨item, hget, hz⟩ := parentOf_eq_some.mp hz
      obtain rfl := Option.some.inj (hitem.symm.trans hget)
      obtain rfl := hparent.symm.trans hz
      exact hoff z rfl (.tail' hzc' (parentOf_eq_some.mpr ⟨c', hitem', hparent'⟩))
  rcases Relation.ReflTransGen.total_of_right_unique parentOf_rightUnique hfollows hfollows'
    with h | h
  · exact hsame hchild hchild' h
  · exact (hsame hchild' hchild h).symm

/-- The leaves below are those that each child contributes: itself, or those under it. -/
theorem collects_children {contribution : ItemState → List ItemState}
    (hoff : ∀ y ∈ key, ¬ OnCycle (parentOf s) y)
    (hleaf : ∀ child ∈ childrenOf compareIds s key, IsLeaf s child → contribution child = [child])
    (hunder : ∀ child ∈ childrenOf compareIds s key, ¬ IsLeaf s child →
      Collects s (some child.id) (contribution child)) :
    Collects s key ((childrenOf compareIds s key).flatMap contribution) := by
  have hmem : ∀ child ∈ childrenOf compareIds s key, ∀ item, item ∈ contribution child ↔
      (IsLeaf s child ∧ item = child) ∨ LeafUnder s (some child.id) item := by
    intro child hchild item
    by_cases h : IsLeaf s child
    · rw [hleaf child hchild h, List.mem_singleton]
      simp [h, not_leafUnder_leaf h]
    · rw [(hunder child hchild h).mem_iff]
      simp [h]
  have hfollows : ∀ child ∈ childrenOf compareIds s key, ∀ item ∈ contribution child,
      Follows (parentOf s) item.id child.id := by
    intro child hchild item hitem
    rcases (hmem child hchild item).mp hitem with ⟨-, rfl⟩ | ⟨-, top, hfollows, htop⟩
    · exact .refl
    · exact hfollows.tail (parentOf_of_top htop)
  refine ⟨List.nodup_flatMap.mpr ⟨fun child hchild => ?_, ?_⟩, fun item => ?_⟩
  · by_cases h : IsLeaf s child
    · rw [hleaf child hchild h]
      exact List.nodup_singleton child
    · exact (hunder child hchild h).nodup
  · refine (childrenOf_nodup hkeyed).imp_of_mem fun {c c'} hc hc' hne => ?_
    refine List.disjoint_left.mpr fun item hitem hitem' => hne ?_
    exact child_unique hkeyed hoff hc hc' (hfollows c hc item hitem) (hfollows c' hc' item hitem')
  · rw [List.mem_flatMap, @leafUnder_iff compareIds s key item hkeyed]
    exact exists_congr fun child => and_congr_right fun hchild => hmem child hchild item

theorem child_off_cycles (hoff : ∀ y ∈ key, ¬ OnCycle (parentOf s) y)
    (hchild : child ∈ childrenOf compareIds s key) : ¬ OnCycle (parentOf s) child.id := by
  intro hcycle
  obtain ⟨z, hz, -⟩ := Relation.TransGen.head'_iff.mp hcycle
  obtain ⟨hitem, hparent⟩ := (mem_childrenOf hkeyed).mp hchild
  obtain ⟨item, hget, hz'⟩ := parentOf_eq_some.mp hz
  obtain rfl := Option.some.inj (hitem.symm.trans hget)
  exact hoff z (hparent.symm.trans hz') (hcycle.parent hz)

/-- A walk that takes each child in turn lists the leaves below by their ids. -/
theorem collects_mapM {β : Type} {id : β → ItemId} {walk : ItemState → Option (List β)}
    {outs : List (List β)} (h : (childrenOf compareIds s key).mapM walk = some outs)
    (hoff : ∀ y ∈ key, ¬ OnCycle (parentOf s) y)
    (hleaf : ∀ child ∈ childrenOf compareIds s key, IsLeaf s child →
      ∃ b, walk child = some [b] ∧ id b = child.id)
    (hunder : ∀ child ∈ childrenOf compareIds s key, ¬ IsLeaf s child → ∀ out,
      walk child = some out → Collects s (some child.id) (out.filterMap (s.items.get <| id ·))) :
    Collects s key (outs.flatten.filterMap (s.items.get <| id ·)) := by
  have houts : outs = (childrenOf compareIds s key).map fun child => (walk child).getD [] :=
    mapM_eq_map h
  rw [houts, ← List.flatMap_def, List.filterMap_flatMap]
  refine collects_children hkeyed hoff (fun child hchild hisLeaf => ?_)
    fun child hchild hnotLeaf => ?_
  · obtain ⟨b, hwalk, hid⟩ := hleaf child hchild hisLeaf
    simp [hwalk, hid, hisLeaf.listed]
  · obtain ⟨out, hout⟩ := exists_of_mapM h hchild
    rw [hout, Option.getD_some]
    exact hunder child hchild hnotLeaf out hout

end Leaves

end H2a.Track
