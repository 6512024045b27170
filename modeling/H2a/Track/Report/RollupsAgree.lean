import H2a.Track.Report.Leaves
import H2a.Track.Report.Nodes
import Mathlib.Data.Set.Card
/-!
# The two rollups agree

`computeWpTree` adds up the counts of nested containers, `statusByLevel` counts the
leaves below each container in a walk of its own.  Both count every leaf below once.
-/

namespace H2a.Track

open H2a.Library H2a.Library.Concurrent H2a.Track.Model
open H2a.Library.Chain (Follows OnCycle)
open H2a.Track.Facade (parentOf)

/-! ## Counting a set of leaves -/

/-- How many of the items are in each bucket. -/
noncomputable def countOf (s : State) (config : ReportConfig) (leaves : Set ItemState) : Tally where
  done := {item ∈ leaves | bucketOf s item config = .done}.ncard
  active := {item ∈ leaves | bucketOf s item config ≠ .dropped}.ncard
  dropped := {item ∈ leaves | bucketOf s item config = .dropped}.ncard

theorem tally_eq_sum (leaves : List WpLeaf) :
    tally leaves = (leaves.map fun leaf => tally [leaf]).sum := by
  induction leaves with
  | nil => rfl
  | cons leaf leaves ih => rw [tally_cons, ih, List.map_cons, List.sum_cons]

theorem tally_perm {leaves leaves' : List WpLeaf} (h : leaves.Perm leaves') :
    tally leaves = tally leaves' := by
  rw [tally_eq_sum, tally_eq_sum leaves']
  exact (h.map _).sum_eq

theorem tally_flatten (outs : List (List WpLeaf)) :
    tally outs.flatten = (outs.map tally).sum := by
  induction outs with
  | nil => rfl
  | cons out outs ih => rw [List.flatten_cons, tally_append, ih, List.map_cons, List.sum_cons]

theorem tally_eq_countP (leaves : List WpLeaf) :
    tally leaves = ⟨leaves.countP (·.bucket = .done), leaves.countP (·.bucket ≠ .dropped),
      leaves.countP (·.bucket = .dropped)⟩ := by
  induction leaves with
  | nil => rfl
  | cons leaf leaves ih =>
      rw [tally_cons, ih]
      simp only [List.countP_cons]
      cases hbucket : leaf.bucket <;>
        simp [tally, Tally.count, Tally.zero, hbucket, Tally.ext_iff, Nat.add_comm]

theorem tally_eq_countOf {s : State} {config : ReportConfig} {items : List ItemState}
    {leaves : Set ItemState} (hnodup : items.Nodup) (hmem : ∀ item, item ∈ items ↔ item ∈ leaves) :
    tally (items.map (buildWpLeaf s · config)) = countOf s config leaves := by
  have hcard : ∀ p : ItemState → Bool, items.countP p = {item ∈ leaves | p item}.ncard := by
    intro p
    have hset : {item ∈ leaves | p item} = ((items.filter p).toFinset : Set ItemState) := by
      ext item
      simp [hmem]
    rw [hset, Set.ncard_coe_finset, List.toFinset_card_of_nodup (hnodup.filter p),
      List.countP_eq_length_filter]
  rw [tally_eq_countP, countOf]
  simp only [List.countP_map, Function.comp_def, buildWpLeaf, hcard, decide_eq_true_eq]

/-! ## Leaves below an item -/

section Below

variable {compareIds : ItemId → ItemId → Ordering} {s : State} {config : ReportConfig}
variable (hkeyed : ∀ x item, s.items.get x = some item → item.id = x)
variable (hacyclic : ∀ x, ¬ OnCycle (parentOf s) x)

open Classical in
/-- The leaves that descend from `x`. -/
noncomputable def leavesUnder (s : State) (x : ItemId) : List ItemState :=
  s.items.values.filter fun item => LeafUnder s (some x) item

/-- Their counts. -/
noncomputable def tallyUnder (s : State) (config : ReportConfig) (x : ItemId) : Tally :=
  tally ((leavesUnder s x).map (buildWpLeaf s · config))

/-- What a child contributes to the counts. -/
noncomputable def share (compareIds : ItemId → ItemId → Ordering) (s : State)
    (config : ReportConfig) (child : ItemState) : Tally :=
  if ¬ isWp child ∧ (childrenOf compareIds s (some child.id)).length = 0 then
    tally [buildWpLeaf s child config]
  else tallyUnder s config child.id

include hkeyed

theorem collects_leavesUnder (x : ItemId) : Collects s (some x) (leavesUnder s x) := by
  refine ⟨(values_nodup hkeyed).filter _, fun item => ?_⟩
  simp only [leavesUnder, List.mem_filter, mem_values_iff_get hkeyed, decide_eq_true_eq]
  exact ⟨fun h => h.2, fun h => ⟨h.leaf.listed, h⟩⟩

theorem tallyUnder_eq_countOf (x : ItemId) :
    tallyUnder s config x = countOf s config {item | LeafUnder s (some x) item} := by
  have h := collects_leavesUnder hkeyed x
  exact tally_eq_countOf h.nodup h.mem_iff

include hacyclic

variable (compareIds) in
/-- The counts below an item are those its children contribute. -/
theorem tallyUnder_eq (x : ItemId) : tallyUnder s config x =
    ((childrenOf compareIds s (some x)).map (share compareIds s config)).sum := by
  let contribution : ItemState → List ItemState := fun child =>
    if ¬ isWp child ∧ (childrenOf compareIds s (some child.id)).length = 0 then [child]
    else leavesUnder s child.id
  have hcollects : Collects s (some x)
      ((childrenOf compareIds s (some x)).flatMap contribution) := by
    refine collects_children hkeyed (fun y _ => hacyclic y) (fun child hchild hleaf => ?_)
      fun child hchild hnot => ?_
    · exact if_pos ((isLeaf_child hkeyed hchild).mp hleaf)
    · rw [show contribution child = leavesUnder s child.id from
        if_neg fun hleaf => hnot ((isLeaf_child hkeyed hchild).mpr hleaf)]
      exact collects_leavesUnder hkeyed child.id
  have hunder := collects_leavesUnder hkeyed x
  have hperm : (leavesUnder s x).Perm ((childrenOf compareIds s (some x)).flatMap contribution) :=
    (List.perm_ext_iff_of_nodup hunder.nodup hcollects.nodup).mpr fun item => by
      rw [hunder.mem_iff, hcollects.mem_iff]
  rw [tallyUnder, tally_perm (hperm.map _), List.flatMap_def, List.map_flatten, tally_flatten,
    List.map_map, List.map_map]
  refine congrArg List.sum (List.map_congr_left fun child _ => ?_)
  simp only [Function.comp_apply, contribution, share]
  split <;> rfl

/-- The walk of `statusByLevel` counts the leaves below. -/
theorem tally_transitiveLeaves {fuel : Nat} {x : ItemId} {leaves : List WpLeaf}
    (h : transitiveLeaves compareIds s config fuel x = some leaves) :
    tally leaves = tallyUnder s config x := by
  induction fuel generalizing x leaves with
  | zero => simp [transitiveLeaves] at h
  | succ fuel ih =>
      rw [transitiveLeaves] at h
      obtain ⟨outs, houts, h⟩ := Option.bind_eq_some_iff.mp h
      obtain rfl := Option.some.inj h
      rw [tally_flatten, tallyUnder_eq compareIds hkeyed hacyclic,
        mapM_eq_map houts (b := []), List.map_map]
      refine congrArg List.sum (List.map_congr_left fun child hchild => ?_)
      obtain ⟨out, hout⟩ := exists_of_mapM houts hchild
      rw [Function.comp_apply, hout, Option.getD_some, share]
      split at hout
      · obtain rfl := Option.some.inj hout
        rw [if_pos ‹_›]
      · rw [if_neg ‹_›]
        exact ih hout

omit hkeyed hacyclic in
/-- Two walks over the same children, one for the leaves and one for the nodes, add up
child by child. -/
theorem shares_add {cs : List ItemState} {g : ItemState → Tally}
    {leavesOf : ItemState → Option (List WpLeaf)}
    {nodesOf : List WpNode → ItemState → Option (List WpNode)}
    (h : ∀ child ∈ cs, ∀ leaves nodes nodes', leavesOf child = some leaves →
      nodesOf nodes child = some nodes' →
        tally leaves + countsOf nodes' = countsOf nodes + g child)
    {outs : List (List WpLeaf)} {nodes nodes' : List WpNode} (houts : cs.mapM leavesOf = some outs)
    (hnodes : cs.foldlM nodesOf nodes = some nodes') :
    tally outs.flatten + countsOf nodes' = countsOf nodes + (cs.map g).sum := by
  induction cs generalizing outs nodes with
  | nil =>
      obtain rfl : [] = outs := by simpa using houts
      obtain rfl : nodes = nodes' := by simpa using hnodes
      simp [add_comm]
  | cons child cs ih =>
      rw [List.mapM_cons] at houts
      obtain ⟨leaves, hleaves, houts⟩ := Option.bind_eq_some_iff.mp houts
      obtain ⟨outs', houts', houts⟩ := Option.bind_eq_some_iff.mp houts
      obtain rfl := Option.some.inj houts
      rw [List.foldlM_cons] at hnodes
      obtain ⟨between, hbetween, hnodes⟩ := Option.bind_eq_some_iff.mp hnodes
      have hrest := ih (fun c hc => h c (List.mem_cons_of_mem _ hc)) houts' hnodes
      have hchild := h child List.mem_cons_self _ _ _ hleaves hbetween
      calc tally (leaves :: outs').flatten + countsOf nodes'
          = tally leaves + (tally outs'.flatten + countsOf nodes') := by
            rw [List.flatten_cons, tally_append, add_assoc]
        _ = tally leaves + (countsOf between + (cs.map g).sum) := by rw [hrest]
        _ = countsOf nodes + g child + (cs.map g).sum := by rw [← add_assoc, hchild]
        _ = countsOf nodes + ((child :: cs).map g).sum := by
            rw [List.map_cons, List.sum_cons, add_assoc]

omit hkeyed hacyclic in
/-- No container lies below an item without children. -/
theorem collectSubWps_childless {fuel : Nat} {label : JsString} {x : ItemId}
    {nodes nodes' : List WpNode} (hnone : (childrenOf compareIds s (some x)).length = 0)
    (h : collectSubWps compareIds s config fuel label x nodes = some nodes') : nodes' = nodes := by
  cases fuel with
  | zero =>
      rw [collectSubWps] at h
      simp at h
  | succ fuel =>
      rw [collectSubWps, List.length_eq_zero_iff.mp hnone] at h
      exact (Option.some.inj h).symm

/-- The leaves right at a node and the nodes below it count the leaves below. -/
theorem counts_built (fuel : Nat) :
    (∀ x label leaves nodes nodes', directLeaves compareIds s config fuel x = some leaves →
      collectSubWps compareIds s config fuel label x nodes = some nodes' →
        tally leaves + countsOf nodes' = countsOf nodes + tallyUnder s config x) ∧
    ∀ wp label node, build compareIds s config fuel wp label = some node →
      node.counts = tallyUnder s config wp.id := by
  induction fuel with
  | zero =>
      refine ⟨fun x label leaves nodes nodes' h => ?_, fun wp label node h => absurd h build_zero⟩
      rw [directLeaves] at h
      simp at h
  | succ fuel ih =>
      obtain ⟨hwalks, hbuilds⟩ := ih
      refine ⟨fun x label leaves nodes nodes' hleaves hnodes => ?_, fun wp label node h => ?_⟩
      · rw [directLeaves] at hleaves
        obtain ⟨outs, houts, hleaves⟩ := Option.bind_eq_some_iff.mp hleaves
        obtain rfl := Option.some.inj hleaves
        rw [collectSubWps] at hnodes
        rw [tallyUnder_eq compareIds hkeyed hacyclic]
        refine shares_add (fun child hchild leaves nodes nodes' hleaves hnodes => ?_) houts hnodes
        cases hrole : isWp child with
        | true =>
            rw [hrole, if_pos rfl] at hleaves hnodes
            obtain rfl := Option.some.inj hleaves
            obtain ⟨node, hnode, hnodes⟩ := Option.bind_eq_some_iff.mp hnodes
            obtain rfl := Option.some.inj hnodes
            rw [countsOf_append, countsOf_cons, hbuilds _ _ _ hnode, share, if_neg (by simp [hrole])]
            simp
        | false =>
            rw [hrole, if_neg Bool.false_ne_true] at hleaves hnodes
            rw [share]
            split at hleaves
            · rename_i hnone
              obtain rfl := Option.some.inj hleaves
              rw [collectSubWps_childless hnone hnodes, if_pos ⟨by simp [hrole], hnone⟩, add_comm]
            · rename_i hsome
              rw [if_neg fun hleaf => hsome hleaf.2]
              exact hwalks _ _ _ _ _ hleaves hnodes
      · obtain ⟨leaves, children, hleaves, hchildren, rfl⟩ := build_eq_some.mp h
        simpa using hwalks _ _ _ _ _ hleaves hchildren

theorem counts_of_mem_forest {fuel : Nat} {forest : List WpNode}
    (h : computeWpTree compareIds s config fuel = some forest) {n : WpNode}
    (hn : n ∈ allNodes forest) :
    (∃ wp, s.items.get n.id = some wp) ∧
      n.counts = countOf s config {item | LeafUnder s (some n.id) item} := by
  obtain ⟨fuel', -, wp, hwp, label, hbuilt⟩ := built_of_mem_forest h hn
  have hid : n.id = wp.id := by
    cases fuel' with
    | zero => exact absurd hbuilt build_zero
    | succ fuel' =>
        obtain ⟨leaves, children, -, -, rfl⟩ := build_eq_some.mp hbuilt
        rfl
  rw [← tallyUnder_eq_countOf hkeyed, hid]
  refine ⟨⟨wp, (mem_values_iff_get hkeyed).mp (List.mem_of_mem_filter hwp)⟩, ?_⟩
  exact (counts_built hkeyed hacyclic fuel').2 wp label n hbuilt

end Below

/-! ## Group by group -/

mutual

/-- A node at its depth, and those below it. -/
def WpNode.nodesAt (depth : Nat) : WpNode → List (WpNode × Nat)
  | node@{ children, .. } => (node, depth) :: allNodesAt (depth + 1) children

/-- The nodes of a forest whose roots are at `depth`, each with its own. -/
def allNodesAt (depth : Nat) : List WpNode → List (WpNode × Nat)
  | [] => []
  | node :: rest => node.nodesAt depth ++ allNodesAt depth rest

end

theorem nodesAt_eq (depth : Nat) (node : WpNode) :
    node.nodesAt depth = (node, depth) :: allNodesAt (depth + 1) node.children := by
  cases node
  rw [WpNode.nodesAt]

theorem allNodesAt_eq (depth : Nat) (forest : List WpNode) :
    allNodesAt depth forest = forest.flatMap (·.nodesAt depth) := by
  induction forest with
  | nil => rw [allNodesAt, List.flatMap_nil]
  | cons node rest ih => rw [allNodesAt, List.flatMap_cons, ih]

theorem mem_nodes_of_mem_nodesAt {node : WpNode} {depth : Nat} {place : WpNode × Nat}
    (h : place ∈ node.nodesAt depth) : place.1 ∈ node.nodes := by
  induction node using forest_induction generalizing depth with
  | h node ih =>
      rw [nodesAt_eq, List.mem_cons, allNodesAt_eq, List.mem_flatMap] at h
      rcases h with rfl | ⟨child, hchild, h⟩
      · exact self_mem_nodes node
      · exact mem_nodes.mpr (.inr (mem_allNodes.mpr ⟨child, hchild, ih child hchild h⟩))

/-- What is to be grouped at a node. -/
def WpNode.selected (s : State) (place : WpNode × Nat) : Option (ItemState × JsString × Nat) :=
  (s.items.get place.1.id).map fun wp => (wp, place.1.label, place.2)

theorem visitAll_flatMap (s : State) (nodes : List WpNode) (depth : Nat) :
    visitAll s nodes depth = nodes.flatMap fun node => visit s node depth := by
  induction nodes with
  | nil => rw [visitAll, List.flatMap_nil]
  | cons node rest ih => rw [visitAll, ih, List.flatMap_cons]

theorem visit_eq (s : State) (node : WpNode) (depth : Nat) :
    visit s node depth = (node.nodesAt depth).filterMap (WpNode.selected s) := by
  induction node using forest_induction generalizing depth with
  | h node ih =>
      have hvisit : visit s node depth =
          ((s.items.get node.id).map fun wp => (wp, node.label, depth)).toList ++
            visitAll s node.children (depth + 1) := by
        cases node
        rw [visit]
      have hchildren : visitAll s node.children (depth + 1) =
          (allNodesAt (depth + 1) node.children).filterMap (WpNode.selected s) := by
        rw [visitAll_flatMap, allNodesAt_eq, List.filterMap_flatMap]
        exact List.flatMap_congr fun child hchild => ih child hchild (depth + 1)
      rw [hvisit, nodesAt_eq, hchildren, List.filterMap_cons, WpNode.selected]
      cases s.items.get node.id <;> rfl

theorem visitAll_eq (s : State) (forest : List WpNode) (depth : Nat) :
    visitAll s forest depth = (allNodesAt depth forest).filterMap (WpNode.selected s) := by
  rw [visitAll_flatMap, allNodesAt_eq, List.filterMap_flatMap]
  exact List.flatMap_congr fun node _ => visit_eq s node depth

/-- What a group shares with the node it is of, and what both count. -/
structure Agrees (s : State) (config : ReportConfig) (place : WpNode × Nat)
    (group : StatusGroup) : Prop where
  id : group.id = place.1.id
  label : group.label = place.1.label
  depth : group.depth = place.2
  counts : group.counts = place.1.counts
  pct : group.pct = place.1.pct
  counted : group.counts = countOf s config {item | LeafUnder s (some place.1.id) item}

/-- Node by node the forest and the groups at level `wp` say the same, and count every
leaf that descends from the node once. -/
theorem rollups_agree {log : List Event} (hacyclic : ∀ x, ¬ OnCycle (parentOf (fold log)) x)
    (compareIds : ItemId → ItemId → Ordering) (config : ReportConfig) :
    ∃ N, ∀ fuel ≥ N, ∃ forest groups,
      computeWpTree compareIds (fold log) config fuel = some forest ∧
        statusByLevel compareIds (fold log) config .wp fuel = some groups ∧
        List.Forall₂ (Agrees (fold log) config) (allNodesAt 0 forest) groups := by
  have hkeyed := (keyed_fold log).items
  obtain ⟨N, hN⟩ := computeWpTree_ends compareIds config hkeyed fun wp _ => hacyclic wp.id
  obtain ⟨N', hN'⟩ := statusByLevel_ends compareIds config hkeyed (fun wp _ => hacyclic wp.id) .wp
  refine ⟨N + N', fun fuel hfuel => ?_⟩
  obtain ⟨forest, hforest⟩ := Option.isSome_iff_exists.mp (hN fuel (by omega))
  obtain ⟨groups, hgroups⟩ := Option.isSome_iff_exists.mp (hN' fuel (by omega))
  refine ⟨forest, groups, hforest, hgroups, ?_⟩
  have hplaces : ∀ place ∈ allNodesAt 0 forest, place.1 ∈ allNodes forest := by
    intro place hplace
    rw [allNodesAt_eq, List.mem_flatMap] at hplace
    obtain ⟨node, hnode, hplace⟩ := hplace
    exact mem_allNodes.mpr ⟨node, hnode, mem_nodes_of_mem_nodesAt hplace⟩
  rw [statusByLevel, if_neg (by simp), hforest] at hgroups
  have hselected : (visitAll (fold log) forest 0).filter (fun n => StatusLevel.wp.selects n.2.2) =
      (allNodesAt 0 forest).filterMap (WpNode.selected (fold log)) := by
    rw [← visitAll_eq]
    exact List.filter_eq_self.mpr fun _ _ => rfl
  change (List.mapM _ (List.filter _ _)) = some groups at hgroups
  rw [hselected] at hgroups
  refine (forall₂_mapM_filterMap (P := fun place n => n.1.id = place.1.id ∧ n.2.1 = place.1.label ∧
    n.2.2 = place.2 ∧ place.1 ∈ allNodes forest) (fun place hplace => ?_) hgroups).imp
      fun place group h => ?_
  · obtain ⟨⟨wp, hwp⟩, -⟩ := counts_of_mem_forest hkeyed hacyclic hforest (hplaces place hplace)
    refine ⟨(wp, place.1.label, place.2), ?_, hkeyed _ wp hwp, rfl, rfl, hplaces place hplace⟩
    rw [WpNode.selected, hwp, Option.map_some]
  · obtain ⟨⟨wp, label, depth⟩, ⟨hid, hlabel, hdepth, hmem⟩, hgroup⟩ := h
    obtain ⟨leaves, hleaves, hgroup⟩ := Option.bind_eq_some_iff.mp hgroup
    obtain rfl := Option.some.inj hgroup
    obtain ⟨-, hcounts⟩ := counts_of_mem_forest hkeyed hacyclic hforest hmem
    have htally : tally leaves = place.1.counts := by
      rw [tally_transitiveLeaves hkeyed hacyclic hleaves, hcounts, ← tallyUnder_eq_countOf hkeyed]
      exact congrArg _ hid
    refine ⟨hid, hlabel, hdepth, htally, ?_, htally.trans hcounts⟩
    rw [(summed_of_mem_forest hforest hmem).pct, ← htally]

/-- Nested containers, one of them without a leaf, and leaves at both depths. -/
def nestedContainers : Schedule Unit :=
  createOf () 0 (js "wp") (some .workpackage) ++
    [callOf () (.createItem (samplePayload (js "w") (some .workpackage) (some (js "wp")))), .read (),
      .mint () (js "sub"), .append () (.nth 1),
      callOf () (.createItem (samplePayload (js "w") none (some (js "sub")))), .mint () (js "leaf"),
      .append () (.nth 2)] ++
    createOf () 3 (js "empty") (some .stream)

theorem rollups_agree_nestedContainers :
    ∃ s : FacadeSys Unit, (fold s.log).items.values.length = 4 ∧
      ∃ fuel forest groups,
        computeWpTree (fun _ _ => .eq) (fold s.log) ⟨js "commit", false⟩ fuel = some forest ∧
          statusByLevel (fun _ _ => .eq) (fold s.log) ⟨js "commit", false⟩ .wp fuel = some groups ∧
          List.Forall₂ (Agrees (fold s.log) ⟨js "commit", false⟩) (allNodesAt 0 forest) groups := by
  have hrun : outcome FitsHierarchy nestedContainers
      (fun log => (fold log).items.values.length) = some 4 := by
    decide +kernel
  obtain ⟨s, hreached, hs⟩ := reached_of_outcome hrun
  obtain ⟨N, hN⟩ := rollups_agree (hierarchyKept_reachable hreached).acyclic (fun _ _ => .eq)
    ⟨js "commit", false⟩
  exact ⟨s, hs, N, hN N le_rfl⟩

end H2a.Track
