import H2a.Track.Report.Nodes
/-!
# The clip to a workspace

`packages/track/src/report/rollup.ts`, `clipWpTreeToWorkspace`: a forest with the
leaves of one workspace only.  A container whose tree has no leaf of it goes, also
when its tree has no leaf at all.
-/

namespace H2a.Track

open H2a.Library H2a.Library.Concurrent H2a.Track.Model

mutual

/-- A node with the leaves of `workspace`, if its tree has any. -/
def clipNode (workspace : JsString) : WpNode → Option WpNode
  | node@{ leaves, children, .. } =>
      let kept := leaves.filter fun l => l.workspace = workspace
      let clipped := clipWpTreeToWorkspace workspace children
      let counts := clipped.foldl (fun counts child => counts.add child.counts) (tally kept)
      let clippedTotal := counts.active + counts.dropped
      let fullTotal := node.counts.active + node.counts.dropped
      if clippedTotal = 0 then none
      else some {
        id := node.id
        title := node.title
        label := node.label
        code := node.code
        role := node.role
        counts := counts
        pct := counts.pct
        leaves := kept
        children := clipped
        terminal := node.terminal
        isPartial := clippedTotal < fullTotal }

/-- `tree.map(clipNode)` without the `null`s. -/
def clipWpTreeToWorkspace (workspace : JsString) : (tree : List WpNode) → List WpNode
  | [] => []
  | node :: rest => (clipNode workspace node).toList ++ clipWpTreeToWorkspace workspace rest

end

section Clip

variable {w : JsString}

theorem clipNode_eq (node : WpNode) :
    clipNode w node =
      let kept := node.leaves.filter fun l => l.workspace = w
      let clipped := clipWpTreeToWorkspace w node.children
      let counts := tally kept + countsOf clipped
      if counts.total = 0 then none
      else some { node with
        counts := counts
        pct := counts.pct
        leaves := kept
        children := clipped
        isPartial := counts.total < node.counts.total } := by
  cases node
  rw [clipNode]
  simp only [foldl_counts]
  rfl

theorem length_clip_le (forest : List WpNode) :
    (clipWpTreeToWorkspace w forest).length ≤ forest.length := by
  induction forest with
  | nil => simp [clipWpTreeToWorkspace]
  | cons node rest ih =>
      rw [clipWpTreeToWorkspace]
      cases clipNode w node with
      | none => simpa using Nat.le_succ_of_le ih
      | some clipped => simpa using ih

/-- A forest is clipped to itself tree by tree. -/
theorem clip_eq_self_iff (forest : List WpNode) :
    clipWpTreeToWorkspace w forest = forest ↔ ∀ node ∈ forest, clipNode w node = some node := by
  induction forest with
  | nil => simp [clipWpTreeToWorkspace]
  | cons node rest ih =>
      rw [clipWpTreeToWorkspace, List.forall_mem_cons, ← ih]
      cases hclip : clipNode w node with
      | none =>
          refine iff_of_false (fun h => ?_) (by simp)
          have hlength := congrArg List.length h
          have hle := length_clip_le (w := w) rest
          simp only [Option.toList_none, List.nil_append, List.length_cons] at hlength
          omega
      | some clipped => simp

/-- In a tree with leaves of one workspace only, what has no leaf is all that goes. -/
theorem clipNode_eq_self_iff {node : WpNode} (hsummed : ∀ n ∈ node.nodes, n.Summed)
    (hmono : ∀ leaf ∈ node.leavesBelow, leaf.workspace = w) :
    clipNode w node = some node ↔ ∀ n ∈ node.nodes, n.leavesBelow ≠ [] := by
  induction node using forest_induction with
  | h node ih =>
      have hself := hsummed node (self_mem_nodes node)
      have htotal : node.counts.total = node.leavesBelow.length := by
        rw [counts_eq_tally hsummed, total_tally]
      have hkept : node.leaves.filter (fun l => l.workspace = w) = node.leaves := by
        rw [List.filter_eq_self]
        intro leaf hleaf
        rw [leavesBelow_eq] at hmono
        exact decide_eq_true (hmono leaf (List.mem_append_left _ hleaf))
      have hbelow : ∀ child ∈ node.children, ∀ n ∈ child.nodes, n ∈ node.nodes := by
        intro child hchild n hn
        exact mem_nodes.mpr (.inr (mem_allNodes.mpr ⟨child, hchild, hn⟩))
      have hchildren : clipWpTreeToWorkspace w node.children = node.children ↔
          ∀ n ∈ allNodes node.children, n.leavesBelow ≠ [] := by
        have hchild : ∀ child ∈ node.children, clipNode w child = some child ↔
            ∀ n ∈ child.nodes, n.leavesBelow ≠ [] := by
          intro child hchild
          refine ih child hchild (fun n hn => hsummed n (hbelow child hchild n hn)) ?_
          intro leaf hleaf
          obtain ⟨n, hn, hleaf⟩ := List.mem_flatMap.mp hleaf
          exact hmono leaf (List.mem_flatMap.mpr ⟨n, hbelow child hchild n hn, hleaf⟩)
        rw [clip_eq_self_iff]
        refine ⟨fun h n hn => ?_, fun h child hmem => ?_⟩
        · obtain ⟨child, hmem, hn⟩ := mem_allNodes.mp hn
          exact (hchild child hmem).mp (h child hmem) n hn
        · exact (hchild child hmem).mpr fun n hn => h n (mem_allNodes.mpr ⟨child, hmem, hn⟩)
      have hnodes : (∀ n ∈ node.nodes, n.leavesBelow ≠ []) ↔
          node.leavesBelow ≠ [] ∧ ∀ n ∈ allNodes node.children, n.leavesBelow ≠ [] := by
        rw [nodes_eq, List.forall_mem_cons]
      rw [clipNode_eq, hkept, hnodes, ← hchildren]
      refine ⟨fun h => ?_, fun ⟨hleaf, hclip⟩ => ?_⟩
      · dsimp only at h
        split at h
        · simp at h
        · rename_i hzero
          have hsame := Option.some.inj h
          have hcounts := congrArg WpNode.counts hsame
          have hclip := congrArg WpNode.children hsame
          dsimp only at hcounts hclip
          rw [hcounts, htotal] at hzero
          exact ⟨fun hnil => hzero (by rw [hnil, List.length_nil]), hclip⟩
      · have hne : node.counts.total ≠ 0 := by
          rw [htotal]
          exact fun hzero => hleaf (List.length_eq_zero_iff.mp hzero)
        dsimp only
        rw [hclip, ← hself.counts, if_neg hne, ← hself.pct]
        have hclipped : decide (node.counts.total < node.counts.total) = node.isPartial := by
          rw [hself.isPartial]
          simp
        rw [hclipped]
        cases node
        rfl

end Clip

section Forest

variable {compareIds : ItemId → ItemId → Ordering} {s : State} {config : ReportConfig}
variable {fuel : Nat} {forest : List WpNode} {w : JsString}

/-- A forest of one workspace survives its clip exactly when every container in it has a
leaf below. -/
theorem clip_computed_eq_self_iff (h : computeWpTree compareIds s config fuel = some forest)
    (hmono : ∀ node ∈ forest, ∀ leaf ∈ node.leavesBelow, leaf.workspace = w) :
    clipWpTreeToWorkspace w forest = forest ↔
      ∀ node ∈ allNodes forest, node.leavesBelow ≠ [] := by
  rw [clip_eq_self_iff]
  have hnode : ∀ node ∈ forest, clipNode w node = some node ↔
      ∀ n ∈ node.nodes, n.leavesBelow ≠ [] := by
    intro node hnode
    refine clipNode_eq_self_iff (fun n hn => ?_) (hmono node hnode)
    exact summed_of_mem_forest h (mem_allNodes.mpr ⟨node, hnode, hn⟩)
  refine ⟨fun hclip n hn => ?_, fun hleaf node hmem => ?_⟩
  · obtain ⟨node, hmem, hn⟩ := mem_allNodes.mp hn
    exact (hnode node hmem).mp (hclip node hmem) n hn
  · exact (hnode node hmem).mpr fun n hn => hleaf n (mem_allNodes.mpr ⟨node, hmem, hn⟩)

/-- A container with an item under it stays as it is. -/
theorem clip_keeps_containerWithLeaf :
    ∃ s : FacadeSys Unit, Reaches (FacadeStep (fun e => e.id) fun _ _ _ => True) Sys.initial s ∧
      ∃ forest, computeWpTree (fun _ _ => .eq) (fold s.log) ⟨js "commit", false⟩ 4 = some forest ∧
        clipWpTreeToWorkspace (js "w") forest = forest := by
  have hrun : outcome (fun _ _ _ => True) (createOf () 0 (js "wp") (some .workpackage) ++
      [callOf () (.createItem (samplePayload (js "w") none (some (js "wp")))), .mint () (js "leaf"),
        .append () (.nth 1)])
      (fun log => (computeWpTree (fun _ _ => .eq) (fold log) ⟨js "commit", false⟩ 4).map
        fun forest => ((forest.flatMap (·.leavesBelow)).map (·.workspace),
          (allNodes forest).all (!·.leavesBelow.isEmpty))) = some (some ([js "w"], true)) := by
    decide +kernel
  obtain ⟨s, hreached, hs⟩ := reached_of_outcome hrun
  obtain ⟨forest, hforest, hs⟩ := Option.map_eq_some_iff.mp hs
  simp only [Prod.mk.injEq, List.all_eq_true] at hs
  obtain ⟨hworkspaces, hleaves⟩ := hs
  refine ⟨s, hreached, forest, hforest, ?_⟩
  apply (clip_computed_eq_self_iff hforest fun node hnode leaf hleaf => ?_).mpr
  · intro node hnode
    simpa using hleaves node hnode
  · have hmem : leaf.workspace ∈ (forest.flatMap (·.leavesBelow)).map (·.workspace) :=
      List.mem_map_of_mem (List.mem_flatMap.mpr ⟨node, hnode, hleaf⟩)
    rw [hworkspaces] at hmem
    exact List.mem_singleton.mp hmem

/-- A container without a leaf goes from the forest of its own workspace. -/
theorem clip_prunes_emptyContainer :
    ∃ s : FacadeSys Unit, Reaches (FacadeStep (fun e => e.id) fun _ _ _ => True) Sys.initial s ∧
      ∃ forest, computeWpTree (fun _ _ => .eq) (fold s.log) ⟨js "commit", false⟩ 4 = some forest ∧
        (∀ node ∈ forest, ∀ leaf ∈ node.leavesBelow, leaf.workspace = js "w") ∧
        clipWpTreeToWorkspace (js "w") forest ≠ forest := by
  have hrun : outcome (fun _ _ _ => True) (createOf () 0 (js "wp") (some .workpackage))
      (fun log => (computeWpTree (fun _ _ => .eq) (fold log) ⟨js "commit", false⟩ 4).map
        fun forest => (forest.length, forest.flatMap (·.leavesBelow),
          (clipWpTreeToWorkspace (js "w") forest).length)) = some (some (1, [], 0)) := by
    decide +kernel
  obtain ⟨s, hreached, hs⟩ := reached_of_outcome hrun
  obtain ⟨forest, hforest, hs⟩ := Option.map_eq_some_iff.mp hs
  simp only [Prod.mk.injEq, List.flatMap_eq_nil_iff] at hs
  obtain ⟨hlength, hleaves, hclip⟩ := hs
  refine ⟨s, hreached, forest, hforest, fun node hnode => by simp [hleaves node hnode], ?_⟩
  intro heq
  rw [heq, hlength] at hclip
  simp at hclip

end Forest

end H2a.Track
