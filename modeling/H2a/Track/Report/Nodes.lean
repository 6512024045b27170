import H2a.Track.Report.Traversals
import Mathlib.Algebra.BigOperators.Group.List.Basic
/-!
# The nodes of the work package forest

Every node of a forest was built on its own, so that what `build` says of one node
holds of all of them: its counts are those of the leaves in its tree.
-/

namespace H2a.Track

open H2a.Library H2a.Track.Model

/-! ## Tallies add up -/

attribute [ext] Tally

namespace Tally

instance : Add Tally := ⟨add⟩

instance : Zero Tally := ⟨zero⟩

@[simp] theorem done_add (a b : Tally) : (a + b).done = a.done + b.done := rfl

@[simp] theorem active_add (a b : Tally) : (a + b).active = a.active + b.active := rfl

@[simp] theorem dropped_add (a b : Tally) : (a + b).dropped = a.dropped + b.dropped := rfl

@[simp] theorem done_zero : (0 : Tally).done = 0 := rfl

@[simp] theorem active_zero : (0 : Tally).active = 0 := rfl

@[simp] theorem dropped_zero : (0 : Tally).dropped = 0 := rfl

instance : AddCommMonoid Tally where
  add_assoc a b c := Tally.ext (Nat.add_assoc ..) (Nat.add_assoc ..) (Nat.add_assoc ..)
  zero_add a := Tally.ext (Nat.zero_add _) (Nat.zero_add _) (Nat.zero_add _)
  add_zero a := Tally.ext (Nat.add_zero _) (Nat.add_zero _) (Nat.add_zero _)
  add_comm a b := Tally.ext (Nat.add_comm ..) (Nat.add_comm ..) (Nat.add_comm ..)
  nsmul := nsmulRec

theorem count_eq (t : Tally) (leaf : WpLeaf) : t.count leaf = t + zero.count leaf := by
  unfold count
  cases leaf.bucket <;> exact Tally.ext rfl rfl rfl

/-- How many leaves were counted. -/
def total (t : Tally) : Nat := t.active + t.dropped

theorem total_add (a b : Tally) : (a + b).total = a.total + b.total := by
  simp only [total, active_add, dropped_add]
  omega

theorem total_count (t : Tally) (leaf : WpLeaf) : (t.count leaf).total = t.total + 1 := by
  unfold count total
  cases leaf.bucket <;> simp only <;> omega

end Tally

theorem foldl_count (leaves : List WpLeaf) (t : Tally) :
    leaves.foldl Tally.count t = t + tally leaves := by
  unfold tally
  induction leaves generalizing t with
  | nil => exact (add_zero t).symm
  | cons leaf leaves ih =>
      rw [List.foldl_cons, List.foldl_cons, ih, ih (Tally.count .zero leaf), t.count_eq, add_assoc]

@[simp] theorem tally_nil : tally [] = 0 := rfl

theorem tally_cons (leaf : WpLeaf) (leaves : List WpLeaf) :
    tally (leaf :: leaves) = tally [leaf] + tally leaves :=
  foldl_count leaves _

theorem tally_append (leaves leaves' : List WpLeaf) :
    tally (leaves ++ leaves') = tally leaves + tally leaves' := by
  rw [tally, List.foldl_append, foldl_count]
  rfl

theorem total_tally (leaves : List WpLeaf) : (tally leaves).total = leaves.length := by
  induction leaves with
  | nil => rfl
  | cons leaf leaves ih =>
      rw [tally_cons, Tally.total_add, ih, List.length_cons, Nat.add_comm]
      exact congrArg _ (Tally.total_count .zero leaf)

/-- The counts of a list of nodes. -/
def countsOf (nodes : List WpNode) : Tally := (nodes.map (·.counts)).sum

@[simp] theorem countsOf_nil : countsOf [] = 0 := rfl

theorem countsOf_cons (node : WpNode) (nodes : List WpNode) :
    countsOf (node :: nodes) = node.counts + countsOf nodes := by
  simp [countsOf]

theorem countsOf_append (nodes nodes' : List WpNode) :
    countsOf (nodes ++ nodes') = countsOf nodes + countsOf nodes' := by
  simp [countsOf]

theorem foldl_counts (nodes : List WpNode) (t : Tally) :
    nodes.foldl (fun counts child => counts.add child.counts) t = t + countsOf nodes := by
  induction nodes generalizing t with
  | nil => exact (add_zero t).symm
  | cons node nodes ih =>
      rw [List.foldl_cons, ih, countsOf_cons, ← add_assoc]
      rfl

/-! ## Nodes -/

mutual

/-- A node and those below it. -/
def WpNode.nodes : WpNode → List WpNode
  | node@{ children, .. } => node :: allNodes children

/-- The nodes of a forest. -/
def allNodes : List WpNode → List WpNode
  | [] => []
  | node :: rest => node.nodes ++ allNodes rest

end

/-- The leaves in the tree of a node. -/
def WpNode.leavesBelow (node : WpNode) : List WpLeaf := node.nodes.flatMap (·.leaves)

theorem nodes_eq (node : WpNode) : node.nodes = node :: allNodes node.children := by
  cases node
  rw [WpNode.nodes]

theorem allNodes_eq (forest : List WpNode) : allNodes forest = forest.flatMap (·.nodes) := by
  induction forest with
  | nil => rw [allNodes, List.flatMap_nil]
  | cons node rest ih => rw [allNodes, List.flatMap_cons, ih]

theorem mem_nodes {node n : WpNode} :
    n ∈ node.nodes ↔ n = node ∨ n ∈ allNodes node.children := by
  rw [nodes_eq, List.mem_cons]

theorem mem_allNodes {forest : List WpNode} {n : WpNode} :
    n ∈ allNodes forest ↔ ∃ node ∈ forest, n ∈ node.nodes := by
  rw [allNodes_eq, List.mem_flatMap]

theorem self_mem_nodes (node : WpNode) : node ∈ node.nodes := mem_nodes.mpr (.inl rfl)

theorem allNodes_append (forest forest' : List WpNode) :
    allNodes (forest ++ forest') = allNodes forest ++ allNodes forest' := by
  rw [allNodes_eq, List.flatMap_append, ← allNodes_eq, ← allNodes_eq]

theorem leavesBelow_eq (node : WpNode) :
    node.leavesBelow = node.leaves ++ (allNodes node.children).flatMap (·.leaves) := by
  rw [WpNode.leavesBelow, nodes_eq, List.flatMap_cons]

mutual

/-- What holds of a node as soon as it holds of the nodes right below it holds of all. -/
theorem forest_induction {P : WpNode → Prop}
    (h : ∀ node, (∀ child ∈ node.children, P child) → P node) (node : WpNode) : P node := by
  cases node with
  | mk id title label code role counts pct leaves children terminal isPartial =>
      exact h _ (forest_induction_list h children)

theorem forest_induction_list {P : WpNode → Prop}
    (h : ∀ node, (∀ child ∈ node.children, P child) → P node) (nodes : List WpNode) :
    ∀ node ∈ nodes, P node := by
  cases nodes with
  | nil => simp
  | cons node rest =>
      intro n hn
      rcases List.mem_cons.mp hn with hself | hn
      · exact hself ▸ forest_induction h node
      · exact forest_induction_list h rest n hn

end

/-! ## What is built -/

section Built

variable {compareIds : ItemId → ItemId → Ordering} {s : State} {config : ReportConfig}

theorem build_eq_some {fuel : Nat} {wp : ItemState} {label : JsString} {node : WpNode} :
    build compareIds s config (fuel + 1) wp label = some node ↔
      ∃ leaves children, directLeaves compareIds s config fuel wp.id = some leaves ∧
        collectSubWps compareIds s config fuel label wp.id [] = some children ∧
        node = {
          id := wp.id
          title := wp.title
          label := label
          code := wp.code
          role := if wp.role = some .stream then wp.role else none
          counts := tally leaves + countsOf children
          pct := (tally leaves + countsOf children).pct
          leaves := leaves
          children := children
          terminal := wp.realization = .cancelled || wp.realization = .rejected } := by
  rw [build]
  simp only [bind, Option.bind_eq_some_iff, pure, Option.some.injEq, foldl_counts]
  refine ⟨fun h => ?_, fun h => ?_⟩
  · obtain ⟨leaves, hleaves, children, hchildren, h⟩ := h
    exact ⟨leaves, children, hleaves, hchildren, h.symm⟩
  · obtain ⟨leaves, children, hleaves, hchildren, h⟩ := h
    exact ⟨leaves, hleaves, children, hchildren, h.symm⟩

theorem build_zero {wp : ItemState} {label : JsString} {node : WpNode} :
    build compareIds s config 0 wp label ≠ some node := by
  rw [build]
  simp

/-- The items with a container role. -/
def containers (s : State) : List ItemState := s.items.values.filter isWp

theorem mem_containers_of_child {key : Option ItemId} {child : ItemState}
    (h : child ∈ childrenOf compareIds s key) (hrole : isWp child = true) :
    child ∈ containers s := by
  rw [childrenOf, mem_sortById] at h
  exact List.mem_filter.mpr ⟨List.mem_of_mem_filter h, hrole⟩

theorem mem_containers_of_root {root : ItemState} (h : root ∈ roots compareIds s) :
    root ∈ containers s := by
  rw [roots, mem_sortById, List.mem_filter, Bool.and_eq_true] at h
  exact List.mem_filter.mpr ⟨h.1, h.2.1⟩

/-- The nodes a walk adds were each built, with less fuel. -/
theorem built_of_collectSubWps {fuel : Nat} {label : JsString} {x : ItemId}
    {nodes nodes' : List WpNode}
    (h : collectSubWps compareIds s config fuel label x nodes = some nodes') :
    ∀ n ∈ nodes', n ∈ nodes ∨ ∃ fuel' < fuel, ∃ wp ∈ containers s, ∃ label',
      build compareIds s config fuel' wp label' = some n := by
  induction fuel generalizing x nodes nodes' with
  | zero =>
      rw [collectSubWps] at h
      simp at h
  | succ fuel ih =>
      rw [collectSubWps] at h
      refine foldlM_keeps (P := fun acc => ∀ n ∈ acc, n ∈ nodes ∨ ∃ fuel' < fuel + 1,
        ∃ wp ∈ containers s, ∃ label', build compareIds s config fuel' wp label' = some n)
        (fun child hchild acc acc' hacc hstep => ?_) (fun n hn => .inl hn) h
      intro n hn
      cases hrole : isWp child with
      | false =>
          rw [hrole, if_neg Bool.false_ne_true] at hstep
          rcases ih hstep n hn with hn | ⟨fuel', hlt, hbuilt⟩
          · exact hacc n hn
          · exact .inr ⟨fuel', by omega, hbuilt⟩
      | true =>
          rw [hrole, if_pos rfl] at hstep
          obtain ⟨node, hnode, hstep⟩ := Option.bind_eq_some_iff.mp hstep
          obtain rfl := Option.some.inj hstep
          rcases List.mem_append.mp hn with hn | hn
          · exact hacc n hn
          · obtain rfl := List.mem_singleton.mp hn
            exact .inr ⟨fuel, by omega, child, mem_containers_of_child hchild hrole, _, hnode⟩

/-- Every node in the tree of a node that was built was itself built. -/
theorem built_of_mem_nodes {fuel : Nat} {wp : ItemState} {label : JsString} {node : WpNode}
    (hwp : wp ∈ containers s) (h : build compareIds s config fuel wp label = some node) :
    ∀ n ∈ node.nodes, ∃ fuel' ≤ fuel, ∃ wp' ∈ containers s, ∃ label',
      build compareIds s config fuel' wp' label' = some n := by
  induction fuel using Nat.strong_induction_on generalizing wp label node with
  | _ fuel ih =>
      intro n hn
      rcases mem_nodes.mp hn with rfl | hn
      · exact ⟨fuel, le_rfl, wp, hwp, label, h⟩
      · cases fuel with
        | zero => exact absurd h build_zero
        | succ fuel =>
            obtain ⟨leaves, children, -, hchildren, rfl⟩ := build_eq_some.mp h
            obtain ⟨child, hchild, hn⟩ := mem_allNodes.mp hn
            rcases built_of_collectSubWps hchildren child hchild with hnil | hbuilt
            · simp at hnil
            · obtain ⟨fuel', hlt, wp', hwp', label', hbuilt⟩ := hbuilt
              obtain ⟨fuel'', hle, hn⟩ := ih fuel' (by omega) hwp' hbuilt n hn
              exact ⟨fuel'', by omega, hn⟩

theorem built_of_mem_forest {fuel : Nat} {forest : List WpNode}
    (h : computeWpTree compareIds s config fuel = some forest) {n : WpNode}
    (hn : n ∈ allNodes forest) :
    ∃ fuel' ≤ fuel, ∃ wp ∈ containers s, ∃ label,
      build compareIds s config fuel' wp label = some n := by
  obtain ⟨labels, -, hnodes⟩ := Option.bind_eq_some_iff.mp h
  obtain ⟨node, hnode, hn⟩ := mem_allNodes.mp hn
  obtain ⟨root, hmem, hroot⟩ := mem_of_mapM hnodes hnode
  exact built_of_mem_nodes (mem_containers_of_root (List.of_mem_zip hmem).1) hroot n hn

/-- The counts of a node are those of its leaves and of the nodes right below it. -/
structure WpNode.Summed (node : WpNode) : Prop where
  counts : node.counts = tally node.leaves + countsOf node.children
  pct : node.pct = node.counts.pct
  isPartial : node.isPartial = false

theorem summed_of_build {fuel : Nat} {wp : ItemState} {label : JsString} {node : WpNode}
    (h : build compareIds s config fuel wp label = some node) : node.Summed := by
  cases fuel with
  | zero => exact absurd h build_zero
  | succ fuel =>
      obtain ⟨leaves, children, -, -, rfl⟩ := build_eq_some.mp h
      exact ⟨rfl, rfl, rfl⟩

theorem summed_of_mem_forest {fuel : Nat} {forest : List WpNode}
    (h : computeWpTree compareIds s config fuel = some forest) {n : WpNode}
    (hn : n ∈ allNodes forest) : n.Summed := by
  obtain ⟨fuel', -, wp, -, label, hbuilt⟩ := built_of_mem_forest h hn
  exact summed_of_build hbuilt

end Built

/-- Where each node sums up what lies right below it, its counts are those of the
leaves of its tree. -/
theorem counts_eq_tally {node : WpNode} (h : ∀ n ∈ node.nodes, n.Summed) :
    node.counts = tally node.leavesBelow := by
  induction node using forest_induction with
  | h node ih =>
      have hchildren : ∀ nodes : List WpNode, (∀ child ∈ nodes, child ∈ node.children) →
          countsOf nodes = tally ((allNodes nodes).flatMap (·.leaves)) := by
        intro nodes hsub
        induction nodes with
        | nil => simp [allNodes]
        | cons child rest ihrest =>
            have hchild := hsub child List.mem_cons_self
            rw [countsOf_cons, allNodes, List.flatMap_append, tally_append,
              ihrest fun c hc => hsub c (List.mem_cons_of_mem _ hc),
              ih child hchild fun n hn => h n (mem_nodes.mpr
                (.inr (mem_allNodes.mpr ⟨child, hchild, hn⟩)))]
            rfl
      rw [(h node (self_mem_nodes node)).counts, leavesBelow_eq, tally_append,
        hchildren node.children fun _ => id]

end H2a.Track
