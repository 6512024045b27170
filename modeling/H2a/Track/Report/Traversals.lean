import H2a.Library.Chain
import H2a.Track.Facade.Alone
import H2a.Track.Facade.Hierarchy
import H2a.Track.Report.Rollup
/-!
# The traversals of the item tree

Nothing but the guards of the facade keeps `parentId` free of cycles, and a log that
was raced or merged may hold one.  This says which cycles the walks up and the walks
down survive.
-/

namespace H2a.Track

open H2a.Library H2a.Library.Program H2a.Library.Concurrent H2a.Track.Model
open H2a.Library.Chain (Follows OnCycle Ends ascend)
open H2a.Track.Facade (parentOf walkAncestors ancestryWalk guardCycle)
open H2a.Track.Events (Sha256)

/-- Run with no other writer about, the program comes to its end or throws. -/
def Halts {α : Type} (contentHashOf : EventData → Sha256) (p : Prog α) (w : FacadeWorld) : Prop :=
  (p.run (perform contentHashOf) w).1 ≠ .diverges

instance {α : Type} (contentHashOf : EventData → Sha256) (p : Prog α) (w : FacadeWorld) :
    Decidable (Halts contentHashOf p w) :=
  match h : (p.run (perform contentHashOf) w).1 with
  | .returned _ | .thrown _ => .isTrue fun hdiverges => by simp [h] at hdiverges
  | .diverges => .isFalse fun hhalts => hhalts h

/-- Every walk along `parentId` ends, whatever it is called with. -/
structure TraversalsTerminate (contentHashOf : EventData → Sha256) (log : List Event) : Prop where
  reparentItem : ∀ (facade : Facade) itemId parentId (w : FacadeWorld), w.log = log →
    Halts contentHashOf (facade.reparentItem itemId parentId) w
  restructureReparent : ∀ (facade : Facade) itemId parentId planHash restructureRef
    (w : FacadeWorld), w.log = log →
      Halts contentHashOf (facade.restructureReparent itemId parentId planHash restructureRef) w
  computeWpTree : ∀ compareIds config, ∃ fuel,
    (computeWpTree compareIds (fold log) config fuel).isSome
  statusByLevel : ∀ compareIds config level, ∃ fuel,
    (statusByLevel compareIds (fold log) config level fuel).isSome

/-- A cycle is of containers or of none, and an item may nest by role under one whose
chain of parents runs into a cycle only if it lies on that chain itself. -/
structure CyclesHarmless (s : State) : Prop where
  uniform : ∀ x y item item', OnCycle (parentOf s) x → Follows (parentOf s) x y →
    s.items.get x = some item → s.items.get y = some item' → isWp item = isWp item'
  closed : ∀ x p c item parent, s.items.get x = some item → s.items.get p = some parent → p ≠ x →
    assertRoleNesting item.role parent.role x p = .ok () → Follows (parentOf s) p c →
      OnCycle (parentOf s) c → Follows (parentOf s) p x

/-! ## The walk up -/

section Ancestry

variable {s : State} {x p : ItemId}

theorem walkAncestors_eq_endless_iff {fuel : Nat} {cursor : ItemId} :
    walkAncestors s x fuel (some cursor) = .endless ↔
      ascend (parentOf s) fuel cursor ≠ none ∧
        ∀ n < fuel, ascend (parentOf s) n cursor ≠ some x := by
  induction fuel generalizing cursor with
  | zero => simp [walkAncestors, ascend]
  | succ fuel ih =>
      rw [walkAncestors]
      by_cases hcursor : cursor = x
      · rw [if_pos hcursor]
        refine ⟨fun h => by simp at h, fun h => ?_⟩
        exact absurd (congrArg some hcursor) (h.2 0 (Nat.succ_pos fuel))
      · rw [if_neg hcursor]
        cases hparent : parentOf s cursor with
        | none => simp [walkAncestors, ascend, hparent]
        | some q =>
            rw [ih]
            simp only [ascend, hparent, Option.bind_some]
            refine and_congr_right fun _ => ⟨fun h n hn => ?_, fun h n hn => ?_⟩
            · cases n with
              | zero => simpa [ascend] using hcursor
              | succ n => simpa [ascend, hparent] using h n (by omega)
            · simpa [ascend, hparent] using h (n + 1) (by omega)

theorem parentOf_key (h : (parentOf s x).isSome) : x ∈ s.items.entries.map Prod.fst := by
  obtain ⟨p, hp⟩ := Option.isSome_iff_exists.mp h
  obtain ⟨item, hitem, -⟩ := parentOf_eq_some.mp hp
  exact List.mem_map.mpr ⟨(x, item), (JsMap.mem_entries_iff _ _ _).mpr hitem, rfl⟩

theorem finite_parents : {x | (parentOf s x).isSome}.Finite :=
  (s.items.entries.map Prod.fst).finite_toSet.subset fun _ hx => parentOf_key hx

/-- What each item needs of its children one step earlier holds in the long run off the
cycles. -/
theorem eventually_below {P : Nat → ItemId → Prop} (h : ¬ OnCycle (parentOf s) x)
    (hstep : ∀ n x, (∀ child, parentOf s child = some x → P n child) → P (n + 1) x) :
    ∃ N, ∀ n ≥ N, P n x :=
  Chain.eventually_of_acc (fun _ => parentOf_key) hstep
    (Chain.acc_back_of_not_onCycle finite_parents h)

/-- The walk up does not end where it runs into a cycle off the item it looks for. -/
theorem ancestryWalk_eq_endless_iff :
    ancestryWalk s x p = .endless ↔ ¬ Ends (parentOf s) p ∧ ¬ Follows (parentOf s) p x := by
  rw [ancestryWalk, walkAncestors_eq_endless_iff]
  refine ⟨fun ⟨hends, hfollows⟩ => ⟨fun h => ?_, fun h => ?_⟩, fun ⟨hends, hfollows⟩ => ?_⟩
  · obtain ⟨n, hn, hle, -⟩ := Chain.exists_ascend_le (fun _ => parentOf_key)
      (P := (· = none)) h.exists_ascend
    rw [List.length_map] at hle
    obtain ⟨m, hm⟩ := Nat.exists_eq_add_of_le hle
    rw [hm, Chain.ascend_add, hn] at hends
    exact hends rfl
  · obtain ⟨n, hn, -, hle⟩ := Chain.exists_ascend_le (fun _ => parentOf_key)
      (P := (· = some x)) h.exists_ascend
    have hlt := hle (by simp [hn])
    rw [List.length_map] at hlt
    exact hfollows n (by omega) hn
  · refine ⟨fun h => hends (Chain.ends_of_ascend h), fun n _ h => ?_⟩
    exact hfollows (Chain.follows_of_ascend h)

/-- An ancestry with a cycle is one that does not end. -/
theorem not_ends_iff : ¬ Ends (parentOf s) p ↔
    ∃ c, Follows (parentOf s) p c ∧ OnCycle (parentOf s) c := by
  refine ⟨fun h => ?_, fun ⟨c, hfollows, hcycle⟩ => Chain.not_ends_of_cycle hfollows hcycle⟩
  by_contra hnone
  push Not at hnone
  exact h (Chain.ends_of_not_onCycle finite_parents hnone)

end Ancestry

/-! ## The commands that walk up -/

section Rules

variable {contentHashOf : EventData → Sha256} {w : FacadeWorld} {α β : Type}

theorem halts_state {f : State → Prog β} :
    Halts contentHashOf (Prog.state >>= f) w ↔ Halts contentHashOf (f (fold w.log)) w :=
  Iff.rfl

theorem halts_require {x : Option α} {message : String} {f : α → Prog β} :
    Halts contentHashOf (Prog.require x message >>= f) w ↔
      ∀ a, x = some a → Halts contentHashOf (f a) w := by
  cases x with
  | none => simp [Halts, Prog.require, Prog.throwDomain, run_bind, Program.run, Outcome.andThen]
  | some a =>
      simp only [Option.some.injEq, forall_eq']
      exact Iff.rfl

theorem halts_ensure {condition : Prop} [Decidable condition] {message : String}
    {f : Unit → Prog β} :
    Halts contentHashOf (Prog.ensure condition message >>= f) w ↔
      (condition → Halts contentHashOf (f ()) w) := by
  by_cases h : condition
  · simp only [Prog.ensure, h, if_true, forall_const]
    exact Iff.rfl
  · simp [Halts, Prog.ensure, h, Prog.throwDomain, run_bind, Program.run, Outcome.andThen]

theorem halts_check {x : Except String α} {f : α → Prog β} :
    Halts contentHashOf (Prog.check x >>= f) w ↔
      ∀ a, x = .ok a → Halts contentHashOf (f a) w := by
  cases x with
  | ok a =>
      simp only [Except.ok.injEq, forall_eq']
      exact Iff.rfl
  | error e =>
      simp [Halts, Prog.check, Except.mapError, Program.ofExcept, run_bind, Program.run,
        Outcome.andThen]

end Rules

section Commands

variable {contentHashOf : EventData → Sha256} {facade : Facade} {w : FacadeWorld}
variable {itemId parentId : ItemId}

theorem emit_halts {x : ItemId} {body : EventBody} :
    Halts contentHashOf (do let _ ← facade.emit .item x body) w := by
  unfold Halts
  rw [run_bind]
  simp only [Facade.emit, Facade.emitBatch, Prog.append, Program.run]
  cases perform contentHashOf w.log (facade.emission [⟨.item, x, body⟩]) (w.choices 0) with
  | mk result log =>
      cases result <;> simp [Program.run, Outcome.andThen, Pure.pure]

/-- The guarded move ends unless the walk does not. -/
theorem halts_guardCycle {s : State} {body : EventBody} :
    Halts contentHashOf (do
        guardCycle s itemId parentId
        let _ ← facade.emit .item itemId body) w ↔
      ancestryWalk s itemId parentId ≠ .endless := by
  cases hwalk : ancestryWalk s itemId parentId with
  | clear =>
      simp only [guardCycle, hwalk]
      exact iff_of_true emit_halts (by simp)
  | reached =>
      simp [Halts, guardCycle, hwalk, Prog.throwDomain, run_bind, Program.run, Outcome.andThen]
  | endless => simp [Halts, guardCycle, hwalk, run_bind, Program.run, Outcome.andThen]

theorem halts_restructureReparent {planHash : JsString} {restructureRef : Option JsString} :
    Halts contentHashOf (facade.restructureReparent itemId parentId planHash restructureRef) w ↔
      ∀ item, (fold w.log).items.get itemId = some item → parentId ≠ itemId →
        ∀ parent, (fold w.log).items.get parentId = some parent →
          assertRoleNesting item.role parent.role itemId parentId = .ok () →
            ancestryWalk (fold w.log) itemId parentId ≠ .endless := by
  simp only [Facade.restructureReparent, halts_state, halts_require, halts_ensure, halts_check,
    halts_guardCycle]
  exact ⟨fun h item hitem hne parent hparent => h item hitem hne parent hparent (),
    fun h item hitem hne parent hparent _ => h item hitem hne parent hparent⟩

/-- `reparentItem` makes no walk that `restructureReparent` does not make. -/
theorem halts_reparentItem {parentId : Option ItemId}
    (h : ∀ p ∈ parentId, ∀ item, (fold w.log).items.get itemId = some item → p ≠ itemId →
      ∀ parent, (fold w.log).items.get p = some parent →
        assertRoleNesting item.role parent.role itemId p = .ok () →
          ancestryWalk (fold w.log) itemId p ≠ .endless) :
    Halts contentHashOf (facade.reparentItem itemId parentId) w := by
  cases parentId with
  | none =>
      simp only [Facade.reparentItem, halts_state, halts_require]
      exact fun _ _ => emit_halts
  | some p =>
      simp only [Facade.reparentItem, halts_state, halts_require, halts_ensure, halts_check,
        halts_guardCycle]
      exact fun item hitem hne parent hparent _ _ hnesting =>
        h p rfl item hitem hne parent hparent hnesting

end Commands

/-! ## The walks down -/

section Children

variable {compareIds : ItemId → ItemId → Ordering} {s : State} {key : Option ItemId}
variable {child : ItemState}

theorem mem_sortById {items : List ItemState} :
    child ∈ sortById compareIds items ↔ child ∈ items :=
  List.mem_mergeSort

variable (hkeyed : ∀ x item, s.items.get x = some item → item.id = x)

include hkeyed

theorem mem_values_iff_get : child ∈ s.items.values ↔ s.items.get child.id = some child :=
  s.items.mem_values_iff_get hkeyed

theorem mem_childrenOf : child ∈ childrenOf compareIds s key ↔
    s.items.get child.id = some child ∧ child.parentId = key := by
  rw [childrenOf, mem_sortById, List.mem_filter, mem_values_iff_get hkeyed, decide_eq_true_eq]

theorem parentOf_child {x : ItemId} (h : child ∈ childrenOf compareIds s (some x)) :
    parentOf s child.id = some x := by
  obtain ⟨hitem, hparent⟩ := (mem_childrenOf hkeyed).mp h
  exact parentOf_eq_some.mpr ⟨child, hitem, hparent⟩

theorem mem_roots : child ∈ roots compareIds s ↔ s.items.get child.id = some child ∧
    isWp child = true ∧ ∀ p ∈ child.parentId, ∀ parent, s.items.get p = some parent →
      isWp parent = false := by
  rw [roots, mem_sortById, List.mem_filter, mem_values_iff_get hkeyed]
  refine and_congr_right fun _ => ?_
  cases hparent : child.parentId with
  | none => simp
  | some p =>
      cases hitem : s.items.get p with
      | none => simp [hitem]
      | some parent => simp [hitem]

end Children

section Visit

variable {s : State}

theorem visitAll_append (nodes nodes' : List WpNode) (depth : Nat) :
    visitAll s (nodes ++ nodes') depth = visitAll s nodes depth ++ visitAll s nodes' depth := by
  induction nodes with
  | nil => rfl
  | cons node nodes ih => rw [List.cons_append, visitAll, visitAll, ih, List.append_assoc]

theorem mem_visitAll {nodes : List WpNode} {depth : Nat} {n : ItemState × JsString × Nat} :
    n ∈ visitAll s nodes depth ↔ ∃ node ∈ nodes, n ∈ visit s node depth := by
  induction nodes with
  | nil => simp [visitAll]
  | cons node nodes ih => simp [visitAll, ih]

mutual

theorem mem_of_visit (node : WpNode) (depth : Nat) (n : ItemState × JsString × Nat)
    (h : n ∈ visit s node depth) : n.1 ∈ s.items.values := by
  obtain ⟨id, _, label, _, _, _, _, _, children, _, _⟩ := node
  rw [visit, List.mem_append] at h
  rcases h with hself | hbelow
  · obtain ⟨item, hitem, rfl⟩ := by simpa using hself
    exact (JsMap.mem_values_iff _ _).mpr ⟨id, hitem⟩
  · exact mem_of_visitAll children (depth + 1) n hbelow

theorem mem_of_visitAll (nodes : List WpNode) (depth : Nat) (n : ItemState × JsString × Nat)
    (h : n ∈ visitAll s nodes depth) : n.1 ∈ s.items.values := by
  cases nodes with
  | nil => simp [visitAll] at h
  | cons node rest =>
      rw [visitAll, List.mem_append] at h
      rcases h with hnode | hrest
      · exact mem_of_visit node depth n hnode
      · exact mem_of_visitAll rest depth n hrest

end

end Visit

/-! A traversal that enters a cycle stays on it. -/

section Cycles

variable {compareIds : ItemId → ItemId → Ordering} {s : State} {config : ReportConfig}
variable (hkeyed : ∀ x item, s.items.get x = some item → item.id = x)

include hkeyed

/-- An item on a cycle has a child on it. -/
theorem exists_child_onCycle {x : ItemId} (h : OnCycle (parentOf s) x) :
    ∃ child ∈ childrenOf compareIds s (some x), OnCycle (parentOf s) child.id := by
  obtain ⟨c, hxc, hc⟩ := Relation.TransGen.tail'_iff.mp h
  obtain ⟨item, hitem, hparent⟩ := parentOf_eq_some.mp hc
  obtain rfl := hkeyed c item hitem
  exact ⟨item, (mem_childrenOf hkeyed).mpr ⟨hitem, hparent⟩, (h.follows hxc).1⟩

theorem collectSubWps_onCycle (fuel : Nat) :
    (∀ x label children, OnCycle (parentOf s) x →
      collectSubWps compareIds s config fuel label x children = none) ∧
    ∀ wp label, OnCycle (parentOf s) wp.id → build compareIds s config fuel wp label = none := by
  induction fuel with
  | zero => exact ⟨fun _ _ _ _ => by rw [collectSubWps], fun _ _ _ => by rw [build]⟩
  | succ fuel ih =>
      obtain ⟨hcollect, hbuild⟩ := ih
      refine ⟨fun x label children hx => ?_, fun wp label hwp => ?_⟩
      · obtain ⟨child, hchild, hcycle⟩ := exists_child_onCycle hkeyed hx
        rw [collectSubWps]
        refine foldlM_eq_none hchild (fun children => ?_) children
        cases hrole : isWp child with
        | true => simp [hbuild _ _ hcycle]
        | false => simp [hcollect _ _ _ hcycle]
      · rw [build]
        cases directLeaves compareIds s config fuel wp.id with
        | none => rfl
        | some leaves => simp [hcollect _ _ _ hwp]

/-- The nodes of a forest that was built lie on no cycle. -/
theorem visit_off_cycles (fuel : Nat) :
    (∀ wp label node, build compareIds s config fuel wp label = some node →
      ∀ depth, ∀ n ∈ visit s node depth, ¬ OnCycle (parentOf s) n.1.id) ∧
    ∀ x label children children', collectSubWps compareIds s config fuel label x children =
        some children' →
      (∀ depth, ∀ n ∈ visitAll s children depth, ¬ OnCycle (parentOf s) n.1.id) →
        ∀ depth, ∀ n ∈ visitAll s children' depth, ¬ OnCycle (parentOf s) n.1.id := by
  induction fuel with
  | zero =>
      refine ⟨fun _ _ _ h => ?_, fun _ _ _ _ h => ?_⟩
      · rw [build] at h
        simp at h
      · rw [collectSubWps] at h
        simp at h
  | succ fuel ih =>
      obtain ⟨hbuild, hcollect⟩ := ih
      refine ⟨fun wp label node h => ?_, fun x label children children' h hbefore => ?_⟩
      · have hwp : ¬ OnCycle (parentOf s) wp.id := by
          intro hcycle
          rw [(collectSubWps_onCycle hkeyed (fuel + 1)).2 wp label hcycle] at h
          simp at h
        rw [build] at h
        obtain ⟨leaves, -, h⟩ := Option.bind_eq_some_iff.mp h
        obtain ⟨children, hchildren, h⟩ := Option.bind_eq_some_iff.mp h
        obtain rfl := Option.some.inj h
        intro depth n hn
        rw [visit, List.mem_append] at hn
        rcases hn with hself | hbelow
        · obtain ⟨item, hitem, rfl⟩ := by simpa using hself
          rwa [hkeyed _ _ hitem]
        · exact hcollect _ _ _ _ hchildren (by simp [visitAll]) _ n hbelow
      · rw [collectSubWps] at h
        refine foldlM_keeps (P := fun children => ∀ depth, ∀ n ∈ visitAll s children depth,
          ¬ OnCycle (parentOf s) n.1.id) (fun child _ acc acc' hacc hstep => ?_) hbefore h
        cases hrole : isWp child with
        | false =>
            rw [hrole, if_neg Bool.false_ne_true] at hstep
            exact hcollect _ _ _ _ hstep hacc
        | true =>
            rw [hrole, if_pos rfl] at hstep
            obtain ⟨node, hnode, hstep⟩ := Option.bind_eq_some_iff.mp hstep
            obtain rfl := Option.some.inj hstep
            intro depth n hn
            rw [visitAll_append, List.mem_append] at hn
            rcases hn with hn | hn
            · exact hacc depth n hn
            · exact hbuild _ _ _ hnode depth n (by simpa [visitAll] using hn)

theorem visitAll_off_cycles {fuel : Nat} {forest : List WpNode}
    (h : computeWpTree compareIds s config fuel = some forest) :
    ∀ depth, ∀ n ∈ visitAll s forest depth, ¬ OnCycle (parentOf s) n.1.id := by
  obtain ⟨labels, -, h⟩ := Option.bind_eq_some_iff.mp h
  intro depth n hn
  obtain ⟨node, hnode, hn⟩ := mem_visitAll.mp hn
  obtain ⟨root, -, hroot⟩ := mem_of_mapM h hnode
  exact (visit_off_cycles hkeyed fuel).1 root.1 root.2 node hroot depth n hn

end Cycles

/-! Off the cycles every traversal ends. -/

section Ends

variable (compareIds : ItemId → ItemId → Ordering) {s : State} (config : ReportConfig)
variable (hkeyed : ∀ x item, s.items.get x = some item → item.id = x)

include hkeyed

theorem directLeaves_ends {x : ItemId} (h : ¬ OnCycle (parentOf s) x) :
    ∃ N, ∀ fuel ≥ N, (directLeaves compareIds s config fuel x).isSome := by
  refine eventually_below (P := fun fuel x => (directLeaves compareIds s config fuel x).isSome)
    h fun fuel x ih => ?_
  rw [directLeaves]
  refine mapM_flatten_isSome fun child hchild => ?_
  split
  · rfl
  · split
    · rfl
    · exact ih child.id (parentOf_child hkeyed hchild)

theorem transitiveLeaves_ends {x : ItemId} (h : ¬ OnCycle (parentOf s) x) :
    ∃ N, ∀ fuel ≥ N, (transitiveLeaves compareIds s config fuel x).isSome := by
  refine eventually_below (P := fun fuel x => (transitiveLeaves compareIds s config fuel x).isSome)
    h fun fuel x ih => ?_
  rw [transitiveLeaves]
  refine mapM_flatten_isSome fun child hchild => ?_
  split
  · rfl
  · exact ih child.id (parentOf_child hkeyed hchild)

/-- The items without a parent lead to no cycle. -/
theorem walkLeaves_ends : ∃ N, ∀ fuel ≥ N, ∀ depth,
    (walkLeaves compareIds s config fuel none depth).isSome := by
  have hbelow : ∀ child ∈ childrenOf compareIds s none, ∃ N, ∀ fuel ≥ N, ∀ depth,
      (walkLeaves compareIds s config fuel (some child.id) depth).isSome := by
    intro child hchild
    have hoff : ¬ OnCycle (parentOf s) child.id := by
      intro hcycle
      obtain ⟨q, hq, -⟩ := Relation.TransGen.head'_iff.mp hcycle
      obtain ⟨hitem, hnone⟩ := (mem_childrenOf hkeyed).mp hchild
      simp [parentOf, hitem, hnone] at hq
    refine eventually_below (P := fun fuel x => ∀ depth,
      (walkLeaves compareIds s config fuel (some x) depth).isSome) hoff fun fuel x ih depth => ?_
    rw [walkLeaves]
    refine mapM_flatten_isSome fun child hchild => ?_
    split
    · exact ih child.id (parentOf_child hkeyed hchild) _
    · split
      · rfl
      · exact ih child.id (parentOf_child hkeyed hchild) _
  obtain ⟨N, hN⟩ := exists_bound hbelow
  refine ⟨N + 1, fun fuel hfuel depth => ?_⟩
  obtain ⟨m, rfl⟩ : ∃ m, fuel = m + 1 := ⟨fuel - 1, by omega⟩
  rw [walkLeaves]
  refine mapM_flatten_isSome fun child hchild => ?_
  split
  · exact hN m (by omega) child hchild _
  · split
    · rfl
    · exact hN m (by omega) child hchild _

omit hkeyed in
theorem build_isSome {fuel : Nat} {wp : ItemState} {label : JsString}
    (hleaves : (directLeaves compareIds s config fuel wp.id).isSome)
    (hchildren : (collectSubWps compareIds s config fuel label wp.id []).isSome) :
    (build compareIds s config (fuel + 1) wp label).isSome := by
  obtain ⟨leaves, hleaves⟩ := Option.isSome_iff_exists.mp hleaves
  obtain ⟨children, hchildren⟩ := Option.isSome_iff_exists.mp hchildren
  simp [build, hleaves, hchildren]

/-- A node takes as many calls as two to each level below it. -/
theorem build_ends {wp : ItemState}
    (h : ¬ OnCycle (parentOf s) wp.id) :
    ∃ N, ∀ fuel ≥ N, ∀ label, (build compareIds s config fuel wp label).isSome := by
  obtain ⟨N, hN⟩ := eventually_below (P := fun n x =>
    ∀ fuel ≥ 2 * n, (directLeaves compareIds s config fuel x).isSome ∧
      ∀ label children, (collectSubWps compareIds s config fuel label x children).isSome)
    h fun n x ih fuel hfuel => by
      obtain ⟨m, rfl⟩ : ∃ m, fuel = m + 2 := ⟨fuel - 2, by omega⟩
      refine ⟨?_, fun label children => ?_⟩
      · rw [directLeaves]
        refine mapM_flatten_isSome fun child hchild => ?_
        split
        · rfl
        · split
          · rfl
          · exact (ih child.id (parentOf_child hkeyed hchild) (m + 1) (by omega)).1
      · rw [collectSubWps]
        refine foldlM_isSome (fun child hchild children => ?_) children
        have hbelow := ih child.id (parentOf_child hkeyed hchild)
        split
        · obtain ⟨hleaves, hnodes⟩ := hbelow m (by omega)
          exact bind_pure_isSome (build_isSome compareIds config hleaves (hnodes _ []))
        · exact (hbelow (m + 1) (by omega)).2 label children
  refine ⟨2 * N + 1, fun fuel hfuel label => ?_⟩
  obtain ⟨m, rfl⟩ : ∃ m, fuel = m + 1 := ⟨fuel - 1, by omega⟩
  obtain ⟨hleaves, hchildren⟩ := hN N le_rfl m (by omega)
  exact build_isSome compareIds config hleaves (hchildren label [])

omit hkeyed

theorem skipClaimed_ends {claimed : List Nat} {fuel : Nat} (h : claimed.length < fuel)
    (counter : Nat) : (skipClaimed claimed fuel counter).isSome := by
  have hall : ∀ fuel counter, skipClaimed claimed fuel counter = none →
      ∀ i < fuel, counter + i ∈ claimed := by
    intro fuel
    induction fuel with
    | zero => simp
    | succ fuel ih =>
        intro counter hnone i hi
        rw [skipClaimed] at hnone
        split at hnone
        · cases i with
          | zero => assumption
          | succ i =>
              have := ih (counter + 1) hnone i (by omega)
              rwa [Nat.add_right_comm] at this
        · simp at hnone
  by_contra hnone
  rw [Bool.not_eq_true, Option.isSome_eq_false_iff, Option.isNone_iff_eq_none] at hnone
  have hsub : (List.range fuel).map (counter + ·) ⊆ claimed := by
    intro n hn
    obtain ⟨i, hi, rfl⟩ := List.mem_map.mp hn
    exact hall fuel counter hnone i (List.mem_range.mp hi)
  have hnodup : ((List.range fuel).map (counter + ·)).Nodup :=
    List.nodup_range.map fun i j hij => by simpa using hij
  have hle := (hnodup.subperm hsub).length_le
  simp only [List.length_map, List.length_range] at hle
  omega

theorem rootLabels_ends {fuel : Nat} (hstream : (claimed s (js "S")).length < fuel)
    (hwp : (claimed s (js "WP")).length < fuel) (wpCounter streamCounter : Nat)
    (items : List ItemState) :
    (rootLabels s fuel wpCounter streamCounter items).isSome := by
  induction items generalizing wpCounter streamCounter with
  | nil => rfl
  | cons r rest ih =>
      rw [rootLabels]
      split
      · exact bind_pure_isSome (ih wpCounter streamCounter)
      · obtain ⟨n, hn⟩ := Option.isSome_iff_exists.mp (skipClaimed_ends hstream streamCounter)
        rw [hn]
        exact bind_pure_isSome (ih wpCounter (n + 1))
      · obtain ⟨n, hn⟩ := Option.isSome_iff_exists.mp (skipClaimed_ends hwp wpCounter)
        rw [hn]
        exact bind_pure_isSome (ih (n + 1) streamCounter)

theorem rootLabels_length {fuel wpCounter streamCounter : Nat} {items : List ItemState}
    {labels : List JsString} (h : rootLabels s fuel wpCounter streamCounter items = some labels) :
    labels.length = items.length := by
  induction items generalizing wpCounter streamCounter labels with
  | nil =>
      obtain rfl := Option.some.inj h
      rfl
  | cons r rest ih =>
      rw [rootLabels] at h
      split at h
      · obtain ⟨labels, hlabels, h⟩ := Option.bind_eq_some_iff.mp h
        obtain rfl := Option.some.inj h
        simp [ih hlabels]
      · obtain ⟨n, -, h⟩ := Option.bind_eq_some_iff.mp h
        obtain ⟨labels, hlabels, h⟩ := Option.bind_eq_some_iff.mp h
        obtain rfl := Option.some.inj h
        simp [ih hlabels]
      · obtain ⟨n, -, h⟩ := Option.bind_eq_some_iff.mp h
        obtain ⟨labels, hlabels, h⟩ := Option.bind_eq_some_iff.mp h
        obtain rfl := Option.some.inj h
        simp [ih hlabels]

include hkeyed

/-- The forest is built where no root lies on a cycle. -/
theorem computeWpTree_ends (h : ∀ wp ∈ roots compareIds s, ¬ OnCycle (parentOf s) wp.id) :
    ∃ N, ∀ fuel ≥ N, (computeWpTree compareIds s config fuel).isSome := by
  obtain ⟨N, hN⟩ := exists_bound (P := fun fuel wp => ∀ label,
    (build compareIds s config fuel wp label).isSome)
    fun wp hwp => build_ends compareIds config hkeyed (h wp hwp)
  refine ⟨N + (claimed s (js "S")).length + (claimed s (js "WP")).length + 1, fun fuel hfuel => ?_⟩
  obtain ⟨labels, hlabels⟩ := Option.isSome_iff_exists.mp
    (@rootLabels_ends s fuel (by omega) (by omega) 1 1 (roots compareIds s))
  rw [computeWpTree, hlabels]
  refine mapM_isSome fun root hroot => ?_
  exact hN fuel (by omega) root.1 (List.of_mem_zip hroot).1 root.2

theorem statusByLevel_ends (h : ∀ wp ∈ roots compareIds s, ¬ OnCycle (parentOf s) wp.id)
    (level : StatusLevel) :
    ∃ N, ∀ fuel ≥ N, (statusByLevel compareIds s config level fuel).isSome := by
  obtain ⟨N, hN⟩ := walkLeaves_ends compareIds config hkeyed
  obtain ⟨N', hN'⟩ := computeWpTree_ends compareIds config hkeyed h
  have hleaves : ∀ item ∈ s.items.values, ∃ N, ∀ fuel ≥ N, ¬ OnCycle (parentOf s) item.id →
      (transitiveLeaves compareIds s config fuel item.id).isSome := by
    intro item _
    by_cases hcycle : OnCycle (parentOf s) item.id
    · exact ⟨0, fun fuel _ hoff => absurd hcycle hoff⟩
    · obtain ⟨N, hN⟩ := transitiveLeaves_ends compareIds config hkeyed hcycle
      exact ⟨N, fun fuel hfuel _ => hN fuel hfuel⟩
  obtain ⟨N'', hN''⟩ := exists_bound hleaves
  refine ⟨N + N' + N'', fun fuel hfuel => ?_⟩
  rw [statusByLevel]
  split
  · exact hN fuel (by omega) 0
  · obtain ⟨forest, hforest⟩ := Option.isSome_iff_exists.mp (hN' fuel (by omega))
    rw [hforest]
    refine mapM_isSome fun n hn => ?_
    have hvisited := List.mem_of_mem_filter hn
    have hoff := visitAll_off_cycles hkeyed hforest 0 n hvisited
    obtain ⟨leaves, hleaves⟩ := Option.isSome_iff_exists.mp
      (hN'' fuel (by omega) n.1 (mem_of_visitAll forest 0 n hvisited) hoff)
    simp [groupOf, hleaves]

end Ends

/-! ## Which cycles do harm -/

section Harmless

variable {contentHashOf : EventData → Sha256} {log : List Event}

/-- Between a container and an item that is none, a chain of parents has a container
whose parent is none. -/
theorem exists_top {s : State} {x y : ItemId} {item item' : ItemState}
    (h : Follows (parentOf s) x y) (hitem : s.items.get x = some item) (hwp : isWp item = true)
    (hitem' : s.items.get y = some item') (hleaf : isWp item' = false) :
    ∃ z top p parent, Follows (parentOf s) x z ∧ s.items.get z = some top ∧ isWp top = true ∧
      top.parentId = some p ∧ s.items.get p = some parent ∧ isWp parent = false := by
  induction h generalizing item' with
  | refl => simp [Option.some.inj (hitem.symm.trans hitem'), hleaf] at hwp
  | @tail z y hxz hzy ih =>
      obtain ⟨top, htop, hparent⟩ := parentOf_eq_some.mp hzy
      cases hrole : isWp top with
      | true => exact ⟨z, top, y, item', hxz, htop, hrole, hparent, hitem', hleaf⟩
      | false => exact ih htop hrole

/-- A cycle that holds both has a root of the forest on it, and is never left. -/
theorem uniform_of_terminate (h : TraversalsTerminate contentHashOf log) {x y : ItemId}
    {item item' : ItemState} (hx : OnCycle (parentOf (fold log)) x)
    (hxy : Follows (parentOf (fold log)) x y) (hitem : (fold log).items.get x = some item)
    (hitem' : (fold log).items.get y = some item') (hwp : isWp item = true) :
    isWp item' = true := by
  cases hleaf : isWp item' with
  | true => rfl
  | false =>
      exfalso
      have hkeyed := (keyed_fold log).items
      obtain ⟨z, top, p, parent, hxz, htop, hrole, hparent, hp, hparentLeaf⟩ :=
        exists_top hxy hitem hwp hitem' hleaf
      obtain rfl := hkeyed z top htop
      have hroot : top ∈ roots (fun _ _ => .eq) (fold log) := by
        refine (mem_roots hkeyed).mpr ⟨htop, hrole, fun q hq parent' hparent' => ?_⟩
        obtain rfl := Option.some.inj (hparent.symm.trans hq)
        obtain rfl := Option.some.inj (hp.symm.trans hparent')
        exact hparentLeaf
      obtain ⟨fuel, hfuel⟩ := h.computeWpTree (fun _ _ => .eq) ⟨js "commit", false⟩
      obtain ⟨forest, hforest⟩ := Option.isSome_iff_exists.mp hfuel
      obtain ⟨labels, hlabels, hnodes⟩ := Option.bind_eq_some_iff.mp hforest
      obtain ⟨label, hmem⟩ := exists_mem_zip (rootLabels_length hlabels) hroot
      have hnone := mapM_eq_none (f := fun root : ItemState × JsString =>
        build (fun _ _ => .eq) (fold log) ⟨js "commit", false⟩ fuel root.1 root.2) hmem
        ((collectSubWps_onCycle hkeyed fuel).2 top label (hx.follows hxz).1)
      rw [hnodes] at hnone
      simp at hnone

theorem cyclesHarmless_of_terminate (h : TraversalsTerminate contentHashOf log) :
    CyclesHarmless (fold log) where
  uniform x y item item' hx hxy hitem hitem' := by
    obtain ⟨hy, hyx⟩ := hx.follows hxy
    cases hwp : isWp item with
    | true => exact (uniform_of_terminate h hx hxy hitem hitem' hwp).symm
    | false =>
        cases hwp' : isWp item' with
        | true => simpa [hwp] using uniform_of_terminate h hy hyx hitem' hitem hwp'
        | false => rfl
  closed x p c item parent hitem hparent hne hnesting hpc hc := by
    have hhalts := h.restructureReparent .plain x p (js "plan") none (worldOf log) rfl
    have hends := halts_restructureReparent.mp hhalts item hitem hne parent hparent hnesting
    by_contra hfollows
    exact hends (ancestryWalk_eq_endless_iff.mpr ⟨not_ends_iff.mpr ⟨c, hpc, hc⟩, hfollows⟩)

theorem walk_ends_of_harmless (h : CyclesHarmless (fold log)) {x p : ItemId}
    {item parent : ItemState} (hitem : (fold log).items.get x = some item) (hne : p ≠ x)
    (hparent : (fold log).items.get p = some parent)
    (hnesting : assertRoleNesting item.role parent.role x p = .ok ()) :
    ancestryWalk (fold log) x p ≠ .endless := by
  intro hwalk
  obtain ⟨hends, hfollows⟩ := ancestryWalk_eq_endless_iff.mp hwalk
  obtain ⟨c, hpc, hc⟩ := not_ends_iff.mp hends
  exact hfollows (h.closed x p c item parent hitem hparent hne hnesting hpc hc)

/-- The parent of a root is no container, so that a root lies on no uniform cycle. -/
theorem root_off_cycles (h : CyclesHarmless (fold log)) {compareIds : ItemId → ItemId → Ordering}
    {wp : ItemState} (hwp : wp ∈ roots compareIds (fold log)) :
    ¬ OnCycle (parentOf (fold log)) wp.id := by
  intro hcycle
  obtain ⟨hitem, hrole, hparents⟩ := (mem_roots (keyed_fold log).items).mp hwp
  obtain ⟨p, hp, hback⟩ := Relation.TransGen.head'_iff.mp hcycle
  obtain ⟨item, hitem', hparent⟩ := parentOf_eq_some.mp hp
  obtain rfl := Option.some.inj (hitem.symm.trans hitem')
  -- the parent lies on the cycle and has a parent too
  obtain ⟨q, hq, -⟩ := Relation.TransGen.head'_iff.mp (hcycle.parent hp)
  obtain ⟨parent, hparentItem, -⟩ := parentOf_eq_some.mp hq
  have hsame := h.uniform wp.id p wp parent hcycle (.single hp) hitem hparentItem
  simp [hrole, hparents p hparent parent hparentItem] at hsame

/-- The traversals end for every argument exactly on the logs whose cycles are harmless. -/
theorem traversals_terminate_iff :
    TraversalsTerminate contentHashOf log ↔ CyclesHarmless (fold log) := by
  refine ⟨cyclesHarmless_of_terminate, fun h => ⟨?_, ?_, ?_, ?_⟩⟩
  · rintro facade itemId parentId w rfl
    exact halts_reparentItem fun p _ item hitem hne parent hparent hnesting =>
      walk_ends_of_harmless h hitem hne hparent hnesting
  · rintro facade itemId parentId planHash restructureRef w rfl
    exact halts_restructureReparent.mpr fun item hitem hne parent hparent hnesting =>
      walk_ends_of_harmless h hitem hne hparent hnesting
  · intro compareIds config
    obtain ⟨N, hN⟩ := computeWpTree_ends compareIds config (keyed_fold log).items fun wp =>
      root_off_cycles h
    exact ⟨N, hN N le_rfl⟩
  · intro compareIds config level
    obtain ⟨N, hN⟩ := statusByLevel_ends compareIds config (keyed_fold log).items
      (fun wp => root_off_cycles h) level
    exact ⟨N, hN N le_rfl⟩

/-- Two processes each move one of two items under the other, and there is a third. -/
def cycleBeside : Schedule Bool :=
  createOf false 0 (js "x") none ++ createOf false 1 (js "y") none ++
    createOf false 2 (js "z") none ++
    [callOf false (.reparentItem (js "x") (some (js "y"))), .read false,
      callOf true (.reparentItem (js "y") (some (js "x"))), .read true,
      .append false (.nth 3), .append true (.nth 4)]

/-- The log is accepted, and moving the third item under one of the two never ends. -/
theorem endless_cycleBeside :
    ∃ s : FacadeSys Bool, Reaches (FacadeStep (fun e => e.id) fun _ _ _ => True) Sys.initial s ∧
      (Events.validate (fun e => e.id) s.log none).ok = true ∧
        ¬ Halts (fun e => e.id) (Facade.plain.reparentItem (js "z") (some (js "x")))
          (worldOf s.log) := by
  have hrun : outcome (fun _ _ _ => True) cycleBeside (fun log =>
      ((Events.validate (fun e => e.id) log none).ok,
        decide (Halts (fun e => e.id) (Facade.plain.reparentItem (js "z") (some (js "x")))
          (worldOf log)))) = some (true, false) := by
    decide +kernel
  obtain ⟨s, hreached, hs⟩ := reached_of_outcome hrun
  rw [Prod.mk.injEq, decide_eq_false_iff_not] at hs
  exact ⟨s, hreached, hs⟩

end Harmless

end H2a.Track
