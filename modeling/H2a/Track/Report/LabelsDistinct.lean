import H2a.Track.Report.Labels
/-!
# Labels tell containers apart

The label of a node spells its place.  Ordinals and numbers are told from one another,
so that two nodes have the same label only through a code: one that stands at two
places, or one that spells the place of a container without a code.
-/

namespace H2a.Track

open H2a.Library H2a.Library.Concurrent H2a.Track.Model

/-- The node at a place of a forest. -/
def nodeAt (forest : List WpNode) : (place : List Nat) → Option WpNode
  | [] => none
  | [i] => forest[i]?
  | i :: j :: place => (nodeAt forest (j :: place)).bind fun parent => parent.children[i]?

/-- No two nodes have the same label. -/
def LabelsDistinct (forest : List WpNode) : Prop :=
  ∀ place place' node node', nodeAt forest place = some node → nodeAt forest place' = some node' →
    node.label = node'.label → place = place'

/-! ## The nodes below a node -/

section Built

variable {compareIds : ItemId → ItemId → Ordering} {s : State} {config : ReportConfig}

/-- The node of a container at an ordinal below a label. -/
def BuiltAt (compareIds : ItemId → ItemId → Ordering) (s : State) (config : ReportConfig)
    (label : JsString) (at_ : ItemState × Nat) (node : WpNode) : Prop :=
  ∃ fuel, build compareIds s config fuel at_.1 (at_.1.code.getD (dotted label at_.2)) = some node

/-- The walk adds the nodes of the containers below, numbered on from those there are. -/
theorem collectSubWps_built {fuel : Nat} {label : JsString} {x : ItemId}
    {nodes nodes' : List WpNode}
    (h : collectSubWps compareIds s config fuel label x nodes = some nodes') :
    ∃ wps new, containersBelow compareIds s fuel x = some wps ∧ nodes' = nodes ++ new ∧
      List.Forall₂ (BuiltAt compareIds s config label) (wps.zipIdx nodes.length) new := by
  induction fuel generalizing x nodes nodes' with
  | zero =>
      rw [collectSubWps] at h
      simp at h
  | succ fuel ih =>
      rw [collectSubWps] at h
      rw [containersBelow]
      have hlist : ∀ (cs : List ItemState) (nodes nodes' : List WpNode),
          cs.foldlM (fun children child =>
            if isWp child then do
              let ordinal := js (toString (children.length + 1))
              let node ← build compareIds s config fuel child
                (child.code.getD (label ++ js "." ++ ordinal))
              return children ++ [node]
            else collectSubWps compareIds s config fuel label child.id children) nodes =
              some nodes' →
          ∃ out new, (cs.mapM fun child =>
              if isWp child then some [child] else containersBelow compareIds s fuel child.id) =
                some out ∧ nodes' = nodes ++ new ∧
            List.Forall₂ (BuiltAt compareIds s config label) (out.flatten.zipIdx nodes.length)
              new := by
        intro cs
        induction cs with
        | nil =>
            intro nodes nodes' hnodes
            obtain rfl : nodes = nodes' := by simpa using hnodes
            exact ⟨[], [], rfl, by simp, .nil⟩
        | cons child cs ihcs =>
            intro nodes nodes' hnodes
            rw [List.foldlM_cons] at hnodes
            obtain ⟨between, hbetween, hnodes⟩ := Option.bind_eq_some_iff.mp hnodes
            obtain ⟨out, new, hout, rfl, hnew⟩ := ihcs between nodes' hnodes
            have hchild : ∃ wps added, (if isWp child then some [child]
                else containersBelow compareIds s fuel child.id) = some wps ∧
                between = nodes ++ added ∧
                List.Forall₂ (BuiltAt compareIds s config label) (wps.zipIdx nodes.length)
                  added := by
              cases hrole : isWp child with
              | true =>
                  rw [hrole, if_pos rfl] at hbetween
                  obtain ⟨node, hnode, hbetween⟩ := Option.bind_eq_some_iff.mp hbetween
                  obtain rfl := Option.some.inj hbetween
                  exact ⟨[child], [node], rfl, rfl, .cons ⟨fuel, hnode⟩ .nil⟩
              | false =>
                  rw [hrole, if_neg Bool.false_ne_true] at hbetween
                  exact ih hbetween
            obtain ⟨wps, added, hwps, rfl, hadded⟩ := hchild
            refine ⟨wps :: out, added ++ new, ?_, by rw [List.append_assoc], ?_⟩
            · rw [List.mapM_cons, hwps, hout]
              rfl
            · have hlength : added.length = wps.length := by
                rw [← hadded.length_eq, List.length_zipIdx]
              rw [List.flatten_cons, List.zipIdx_append, ← hlength, ← List.length_append]
              exact List.rel_append hadded hnew
      obtain ⟨out, new, hout, rfl, hnew⟩ := hlist _ _ _ h
      exact ⟨out.flatten, new, by rw [hout]; rfl, rfl, hnew⟩

/-- The children of a node are those of the containers below its own. -/
theorem children_of_build {fuel : Nat} {wp : ItemState} {label : JsString} {node : WpNode}
    (h : build compareIds s config fuel wp label = some node) :
    ∃ fuel' wps, containersBelow compareIds s fuel' wp.id = some wps ∧
      List.Forall₂ (BuiltAt compareIds s config label) wps.zipIdx node.children := by
  cases fuel with
  | zero => exact absurd h build_zero
  | succ fuel =>
      obtain ⟨leaves, children, -, hchildren, rfl⟩ := build_eq_some.mp h
      obtain ⟨wps, new, hwps, rfl, hnew⟩ := collectSubWps_built hchildren
      exact ⟨fuel, wps, hwps, hnew⟩

theorem label_of_build {fuel : Nat} {wp : ItemState} {label : JsString} {node : WpNode}
    (h : build compareIds s config fuel wp label = some node) : node.label = label := by
  cases fuel with
  | zero => exact absurd h build_zero
  | succ fuel =>
      obtain ⟨leaves, children, -, -, rfl⟩ := build_eq_some.mp h
      rfl

end Built

/-! ## The numbers of the roots -/

section Numbers

variable {s : State} {class_ : JsString}

theorem skipClaimed_eq_some {claimed : List Nat} {fuel counter n : Nat}
    (h : skipClaimed claimed fuel counter = some n) :
    counter ≤ n ∧ n ∉ claimed ∧ ∀ m, counter ≤ m → m < n → m ∈ claimed := by
  induction fuel generalizing counter with
  | zero => simp [skipClaimed] at h
  | succ fuel ih =>
      rw [skipClaimed] at h
      split at h
      · rename_i hclaimed
        obtain ⟨hle, hfree, hbetween⟩ := ih h
        refine ⟨by omega, hfree, fun m hm hlt => ?_⟩
        rcases Nat.eq_or_lt_of_le hm with rfl | hm
        · exact hclaimed
        · exact hbetween m hm hlt
      · rename_i hfree
        obtain rfl := Option.some.inj h
        exact ⟨le_rfl, hfree, fun m hm hlt => by omega⟩

theorem freeBetween_split {first middle last : Nat} (hfirst : first ≤ middle + 1)
    (hlast : middle ≤ last) : freeBetween s class_ first last =
      freeBetween s class_ first middle + freeBetween s class_ (middle + 1) last := by
  unfold freeBetween
  obtain ⟨m, rfl⟩ := Nat.exists_eq_add_of_le hlast
  have hstart : first + (middle + 1 - first) = middle + 1 := by omega
  have hlength : middle + m + 1 - first = middle + 1 - first + (middle + m + 1 - (middle + 1)) := by
    omega
  rw [← List.countP_append, hlength, ← List.range'_append_1, hstart]

theorem freeBetween_self {n : Nat} (h : n ∉ claimed s class_) : freeBetween s class_ n n = 1 := by
  have hone : n + 1 - n = 1 := by omega
  simp [freeBetween, hone, h]

/-- What is skipped counts for nothing. -/
theorem freeBetween_skipped {fuel counter n last : Nat}
    (h : skipClaimed (claimed s class_) fuel counter = some n) (hlast : n ≤ last) :
    freeBetween s class_ counter last = 1 + freeBetween s class_ (n + 1) last := by
  obtain ⟨hle, hfree, hbetween⟩ := skipClaimed_eq_some h
  have hskipped : freeBetween s class_ counter n = 1 := by
    rcases Nat.eq_or_lt_of_le hle with rfl | hlt
    · exact freeBetween_self hfree
    · obtain ⟨m, rfl⟩ : ∃ m, n = m + 1 := ⟨n - 1, by omega⟩
      have hzero : freeBetween s class_ counter m = 0 := by
        rw [freeBetween, List.countP_eq_zero]
        intro k hk
        obtain ⟨hk, hk'⟩ := List.mem_range'_1.mp hk
        simp [hbetween k hk (by omega)]
      rw [freeBetween_split (Nat.le_of_lt hlt) (Nat.le_succ m), hzero, freeBetween_self hfree]
  rw [freeBetween_split (Nat.le_succ_of_le hle) hlast, hskipped]

/-- The counter of a class. -/
def counterOf (class_ : JsString) (wpCounter streamCounter : Nat) : Nat :=
  if class_ = js "S" then streamCounter else wpCounter

theorem uncoded_cons (class_ : JsString) (root : ItemState) (roots : List ItemState) :
    uncoded class_ (root :: roots) =
      (if root.code = none ∧ classOf root = class_ then 1 else 0) + uncoded class_ roots := by
  rw [uncoded, List.countP_cons, Nat.add_comm]
  simp [uncoded]

theorem classOf_eq (root : ItemState) : classOf root = js "S" ∨ classOf root = js "WP" := by
  unfold classOf
  split
  · exact .inl rfl
  · exact .inr rfl

/-- A root takes its code, or the next free number of its class. -/
theorem rootLabels_cons {fuel wpCounter streamCounter : Nat} {root : ItemState}
    {rest : List ItemState} {labels : List JsString}
    (h : rootLabels s fuel wpCounter streamCounter (root :: rest) = some labels) :
    (∃ code labels', root.code = some code ∧
      rootLabels s fuel wpCounter streamCounter rest = some labels' ∧ labels = code :: labels') ∨
    (root.code = none ∧ ∃ n labels' wpCounter' streamCounter',
      skipClaimed (claimed s (classOf root)) fuel
        (counterOf (classOf root) wpCounter streamCounter) = some n ∧
      rootLabels s fuel wpCounter' streamCounter' rest = some labels' ∧
      labels = (classOf root ++ js (toString n)) :: labels' ∧
      ∀ other : ItemState, counterOf (classOf other) wpCounter' streamCounter' =
        if classOf other = classOf root then n + 1
        else counterOf (classOf other) wpCounter streamCounter) := by
  have hne : js "WP" ≠ js "S" := by decide
  rw [rootLabels] at h
  split at h
  · rename_i code hcode
    obtain ⟨labels', hlabels', h⟩ := Option.bind_eq_some_iff.mp h
    exact .inl ⟨code, labels', hcode, hlabels', (Option.some.inj h).symm⟩
  · rename_i hcode hrole
    have hclass : classOf root = js "S" := if_pos hrole
    obtain ⟨n, hn, h⟩ := Option.bind_eq_some_iff.mp h
    obtain ⟨labels', hlabels', h⟩ := Option.bind_eq_some_iff.mp h
    refine .inr ⟨hcode, n, labels', wpCounter, n + 1, ?_, hlabels', ?_, fun other => ?_⟩
    · rw [hclass]
      exact hn
    · rw [hclass]
      exact (Option.some.inj h).symm
    · rw [hclass, counterOf, counterOf]
      split <;> rfl
  · rename_i hcode hrole
    have hclass : classOf root = js "WP" := if_neg hrole
    obtain ⟨n, hn, h⟩ := Option.bind_eq_some_iff.mp h
    obtain ⟨labels', hlabels', h⟩ := Option.bind_eq_some_iff.mp h
    refine .inr ⟨hcode, n, labels', n + 1, streamCounter, ?_, hlabels', ?_, fun other => ?_⟩
    · rw [hclass, counterOf, if_neg hne]
      exact hn
    · rw [hclass]
      exact (Option.some.inj h).symm
    · rw [hclass, counterOf, counterOf]
      rcases classOf_eq other with heq | heq <;> simp [heq, hne, hne.symm]

/-- The label of each root, by the counter of its class. -/
theorem rootLabels_spec {fuel wpCounter streamCounter : Nat} {items : List ItemState}
    {labels : List JsString} (h : rootLabels s fuel wpCounter streamCounter items = some labels)
    (i : Nat) (root : ItemState) (hroot : items[i]? = some root) :
    (∀ code, root.code = some code → labels[i]? = some code) ∧
    (root.code = none → ∃ n, labels[i]? = some (classOf root ++ js (toString n)) ∧
      n ∉ claimed s (classOf root) ∧ counterOf (classOf root) wpCounter streamCounter ≤ n ∧
      freeBetween s (classOf root) (counterOf (classOf root) wpCounter streamCounter) n =
        uncoded (classOf root) (items.take (i + 1))) := by
  induction items generalizing wpCounter streamCounter labels i with
  | nil => simp at hroot
  | cons first rest ih =>
      rcases rootLabels_cons h with ⟨code, labels', hcode, hlabels', rfl⟩ |
        ⟨hcode, n, labels', wpCounter', streamCounter', hskip, hlabels', rfl, hcounter⟩
      · cases i with
        | zero =>
            obtain rfl := Option.some.inj hroot
            simp [hcode]
        | succ i =>
            have hrest := ih hlabels' i hroot
            rw [List.take_succ_cons, uncoded_cons, if_neg (by simp [hcode]), Nat.zero_add]
            exact hrest
      · cases i with
        | zero =>
            obtain rfl := Option.some.inj hroot
            obtain ⟨hle, hfree, -⟩ := skipClaimed_eq_some hskip
            refine ⟨by simp [hcode], fun _ => ⟨n, rfl, hfree, hle, ?_⟩⟩
            rw [freeBetween_skipped hskip le_rfl, List.take_succ_cons, uncoded_cons,
              if_pos ⟨hcode, rfl⟩]
            simp [freeBetween, uncoded]
        | succ i =>
            obtain ⟨hcoded, hnumbered⟩ := ih hlabels' i hroot
            refine ⟨hcoded, fun hnone => ?_⟩
            obtain ⟨k, hlabel, hfree, hle, hcount⟩ := hnumbered hnone
            refine ⟨k, hlabel, hfree, ?_, ?_⟩
            · rw [hcounter] at hle
              split at hle
              · rename_i hclass
                have := (skipClaimed_eq_some hskip).1
                rw [hclass]
                omega
              · exact hle
            · rw [List.take_succ_cons, uncoded_cons, ← hcount, hcounter]
              by_cases hclass : classOf root = classOf first
              · rw [hcounter, if_pos hclass] at hle
                rw [if_pos hclass, if_pos ⟨hcode, hclass.symm⟩, hclass]
                exact freeBetween_skipped hskip (by omega)
              · rw [if_neg hclass, if_neg fun h => hclass h.2.symm, Nat.zero_add]

variable {compareIds : ItemId → ItemId → Ordering} {i i' n n' : Nat} {root root' : ItemState}

/-- A number of a class belongs to one rank. -/
theorem free_unique {rank : Nat} (h : n ∉ claimed s class_) (h' : n' ∉ claimed s class_)
    (hrank : freeBetween s class_ 1 n = rank) (hrank' : freeBetween s class_ 1 n' = rank) :
    n = n' := by
  have hlt : ∀ {m m' : Nat}, m' ∉ claimed s class_ → m < m' →
      freeBetween s class_ 1 m < freeBetween s class_ 1 m' := by
    intro m m' hfree hlt
    obtain ⟨k, rfl⟩ : ∃ k, m' = k + 1 := ⟨m' - 1, by omega⟩
    have hself := freeBetween_self hfree
    have hlast : freeBetween s class_ (m + 1) (k + 1) =
        freeBetween s class_ (m + 1) k + freeBetween s class_ (k + 1) (k + 1) :=
      freeBetween_split (by omega) (Nat.le_succ k)
    rw [freeBetween_split (by omega) (Nat.le_of_lt hlt), hlast, hself]
    omega
  rcases Nat.lt_trichotomy n n' with hn | hn | hn
  · have := hlt h' hn
    omega
  · exact hn
  · have := hlt h hn
    omega

theorem RootNumber.unique (h : RootNumber compareIds s i root n)
    (h' : RootNumber compareIds s i root n') : n = n' :=
  free_unique h.free h'.free h.rank h'.rank

/-- Two roots of a class have different numbers. -/
theorem RootNumber.index (h : RootNumber compareIds s i root n)
    (h' : RootNumber compareIds s i' root' n) (hclass : classOf root = classOf root')
    (hroot : (roots compareIds s)[i]? = some root) (hroot' : (roots compareIds s)[i']? = some root')
    (hcode : root.code = none) (hcode' : root'.code = none) : i = i' := by
  have hlt : ∀ {j j' : Nat} {r : ItemState}, (roots compareIds s)[j']? = some r → r.code = none →
      classOf r = classOf root → j < j' →
        uncoded (classOf root) ((roots compareIds s).take (j + 1)) <
          uncoded (classOf root) ((roots compareIds s).take (j' + 1)) := by
    intro j j' r hr hnone hsame hjj'
    have hsplit : (roots compareIds s).take (j' + 1) = (roots compareIds s).take j' ++ [r] := by
      rw [List.take_add_one, hr]
      rfl
    have hone : uncoded (classOf root) [r] = 1 := by simp [uncoded, hnone, hsame]
    have hprefix : (roots compareIds s).take (j + 1) <+: (roots compareIds s).take j' :=
      List.take_prefix_take_left (by omega)
    have hle := hprefix.sublist.countP_le (p := fun r => r.code.isNone && classOf r = classOf root)
    rw [hsplit, uncoded, uncoded, List.countP_append]
    rw [uncoded] at hone
    omega
  have hrank := h.rank
  have hrank' := h'.rank
  rw [← hclass, hrank] at hrank'
  rcases Nat.lt_trichotomy i i' with hi | hi | hi
  · have := hlt hroot' hcode' hclass.symm hi
    omega
  · exact hi
  · have := hlt hroot hcode rfl hi
    omega

end Numbers

/-! ## Texts -/

section Texts

theorem dotted_units (text : JsString) (i : Nat) :
    (dotted text i).units = text.units ++ 0x2E :: decimalUnits (i + 1) := by
  have hdot : (js ".").units = [0x2E] := by decide
  rw [dotted, js_toString, JsString.append_units, JsString.append_units, hdot, List.append_assoc,
    List.singleton_append]

theorem dotted_inj {text text' : JsString} {i i' : Nat} (h : dotted text i = dotted text' i') :
    text = text' ∧ i = i' := by
  have hunits := congrArg JsString.units h
  rw [dotted_units, dotted_units] at hunits
  obtain ⟨htext, hi⟩ := append_decimalUnits_inj (by decide) hunits
  exact ⟨JsString.ext_units htext, by omega⟩

/-- A class ends in a letter, which is what the number stands after. -/
theorem classOf_units (root : ItemState) : (classOf root = js "S" ∧ (classOf root).units = [0x53]) ∨
    (classOf root = js "WP" ∧ (classOf root).units = [0x57, 0x50]) := by
  rcases classOf_eq root with h | h
  · exact .inl ⟨h, by rw [h]; decide⟩
  · exact .inr ⟨h, by rw [h]; decide⟩

theorem number_inj {root root' : ItemState} {n n' : Nat}
    (h : classOf root ++ js (toString n) = classOf root' ++ js (toString n')) :
    classOf root = classOf root' ∧ n = n' := by
  have hunits := congrArg JsString.units h
  rw [js_toString, js_toString, JsString.append_units, JsString.append_units] at hunits
  rcases classOf_units root with ⟨hclass, hu⟩ | ⟨hclass, hu⟩ <;>
    rcases classOf_units root' with ⟨hclass', hu'⟩ | ⟨hclass', hu'⟩ <;> rw [hu, hu'] at hunits
  · exact ⟨hclass.trans hclass'.symm,
      (@append_decimalUnits_inj [] [] _ _ _ (by decide) hunits).2⟩
  · simp at hunits
  · simp at hunits
  · exact ⟨hclass.trans hclass'.symm,
      (@append_decimalUnits_inj [0x57] [0x57] _ _ _ (by decide) hunits).2⟩

/-- A number has no dot. -/
theorem number_ne_dotted {root : ItemState} {n i : Nat} {text : JsString} :
    classOf root ++ js (toString n) ≠ dotted text i := by
  intro h
  have hmem : (0x2E : UInt16) ∈ (classOf root ++ js (toString n)).units := by
    rw [h, dotted_units]
    simp
  rw [js_toString, JsString.append_units, List.mem_append] at hmem
  rcases hmem with hmem | hmem
  · rcases classOf_units root with ⟨-, hu⟩ | ⟨-, hu⟩ <;> rw [hu] at hmem <;> simp at hmem
  · exact absurd (isDigitUnit_decimalUnits n _ hmem) (by decide)

/-- A number of a class is a code that claims it. -/
theorem claimedOrdinal_number (class_ : JsString) (n : Nat) :
    claimedOrdinal class_ (class_ ++ js (toString n)) = some n := by
  have hdigits := isDigitUnit_decimalUnits n
  have hbounds : ∀ u ∈ decimalUnits n, 0x30 ≤ u.toNat ∧ u.toNat ≤ 0x39 := by
    intro u hu
    have hdigit := hdigits u hu
    simpa [isDigitUnit] using hdigit
  have hfold : ∀ (us : List UInt16) (m : Nat), (∀ u ∈ us, 0x30 ≤ u.toNat ∧ u.toNat ≤ 0x39) →
      us.foldl (fun n u => n * 10 + (u - 0x30).toNat) m =
        us.foldl (fun n u => 10 * n + (u.toNat - 0x30)) m := by
    intro us
    induction us with
    | nil => simp
    | cons u us ih =>
        intro m hus
        have hsub : (u - 0x30).toNat = u.toNat - 0x30 :=
          UInt16.toNat_sub_of_le _ _ (by
            have := (hus u List.mem_cons_self).1
            exact UInt16.le_iff_toNat_le.mpr this)
        rw [List.foldl_cons, List.foldl_cons, hsub, Nat.mul_comm m 10]
        exact ih _ fun v hv => hus v (List.mem_cons_of_mem _ hv)
  have hall : (decimalUnits n).all (fun u => 0x30 ≤ u && u ≤ 0x39) = true := by
    rw [List.all_eq_true]
    intro u hu
    obtain ⟨hlow, hhigh⟩ := hbounds u hu
    simp [UInt16.le_iff_toNat_le, hlow, hhigh]
  have hvalue := decimalValue_decimalUnits n
  rw [decimalValue] at hvalue
  rw [claimedOrdinal, js_toString, JsString.slice_append, JsString.startsWith_append]
  dsimp only
  rw [hall, hfold _ _ hbounds, hvalue]
  simp [decimalUnits_ne_nil]

end Texts

/-! ## The forest and its places -/

section Forest

variable {compareIds : ItemId → ItemId → Ordering} {s : State} {config : ReportConfig}
variable {fuel : Nat} {forest : List WpNode}

/-- The node of a root. -/
theorem forest_getElem? (h : computeWpTree compareIds s config fuel = some forest) (i : Nat) :
    ((roots compareIds s)[i]? = none ∧ forest[i]? = none) ∨
    ∃ root node, (roots compareIds s)[i]? = some root ∧ forest[i]? = some node ∧
      build compareIds s config fuel root node.label = some node ∧
      (∀ code, root.code = some code → node.label = code) ∧
      (root.code = none → ∃ n, node.label = classOf root ++ js (toString n) ∧
        RootNumber compareIds s i root n) := by
  obtain ⟨labels, hlabels, hnodes⟩ := Option.bind_eq_some_iff.mp h
  have hlength := rootLabels_length hlabels
  rcases forall₂_getElem? (mapM_forall₂ hnodes) i with ⟨hnone, hnone'⟩ |
    ⟨⟨root, label⟩, node, hzip, hnode, hbuild⟩
  · refine .inl ⟨?_, hnone'⟩
    rw [List.getElem?_eq_none_iff, List.length_zip] at hnone
    rw [List.getElem?_eq_none_iff]
    omega
  · obtain ⟨hroot, hlabel⟩ := List.getElem?_zip_eq_some.mp hzip
    obtain rfl := label_of_build hbuild
    obtain ⟨hcoded, hnumbered⟩ := rootLabels_spec hlabels i root hroot
    refine .inr ⟨root, node, hroot, hnode, hbuild, fun code hcode => ?_, fun hnone => ?_⟩
    · exact Option.some.inj (hlabel.symm.trans (hcoded code hcode))
    · obtain ⟨n, hn, hfree, -, hrank⟩ := hnumbered hnone
      have hcounter : counterOf (classOf root) 1 1 = 1 := by
        unfold counterOf
        split <;> rfl
      rw [hcounter] at hrank
      exact ⟨n, Option.some.inj (hlabel.symm.trans hn), hfree, hrank⟩

/-- The label of a node spells its place. -/
theorem nodeAt_spec (h : computeWpTree compareIds s config fuel = some forest) {place : List Nat}
    {node : WpNode} (hnode : nodeAt forest place = some node) :
    ∃ wp fuel', Stands compareIds s wp place ∧
      build compareIds s config fuel' wp node.label = some node ∧
      Spells compareIds s node.label place := by
  induction place generalizing node with
  | nil => simp [nodeAt] at hnode
  | cons i place ih =>
      cases place with
      | nil =>
          rw [nodeAt] at hnode
          rcases forest_getElem? h i with ⟨-, hnone⟩ |
            ⟨root, node', hroot, hnode', hbuild, hcoded, hnumbered⟩
          · simp [hnone] at hnode
          · obtain rfl := Option.some.inj (hnode.symm.trans hnode')
            have hstands : Stands compareIds s root [i] := .root hroot
            refine ⟨root, fuel, hstands, hbuild, ?_⟩
            cases hcode : root.code with
            | some code =>
                rw [hcoded code hcode]
                exact .code hstands hcode
            | none =>
                obtain ⟨n, hlabel, hnumber⟩ := hnumbered hcode
                rw [hlabel]
                exact .number hroot hcode hnumber
      | cons j place =>
          rw [nodeAt] at hnode
          obtain ⟨parent, hparent, hnode⟩ := Option.bind_eq_some_iff.mp hnode
          obtain ⟨pw, fuel', hstands, hbuild, hspells⟩ := ih hparent
          obtain ⟨fuel'', wps, hwps, hchildren⟩ := children_of_build hbuild
          rcases forall₂_getElem? hchildren i with ⟨-, hnone⟩ |
            ⟨at_, node', hat, hnode', fuel₃, hbuilt⟩
          · simp [hnone] at hnode
          · obtain rfl := Option.some.inj (hnode.symm.trans hnode')
            rw [List.getElem?_zipIdx, Option.map_eq_some_iff] at hat
            obtain ⟨wp, hwp, rfl⟩ := hat
            have hlabel := label_of_build hbuilt
            rw [← hlabel] at hbuilt
            have hstandsChild : Stands compareIds s wp (i :: j :: place) := .under hstands hwps hwp
            refine ⟨wp, fuel₃, hstandsChild, hbuilt, ?_⟩
            rw [hlabel, Nat.zero_add]
            cases hcode : wp.code with
            | some code => exact .code hstandsChild hcode
            | none => exact .ordinal hspells hstandsChild hcode

/-- Where a container stands there is a node. -/
theorem nodeAt_of_stands (h : computeWpTree compareIds s config fuel = some forest)
    {place : List Nat} {wp : ItemState} (hwp : Stands compareIds s wp place) :
    ∃ node, nodeAt forest place = some node := by
  induction hwp with
  | @root i wp hroot =>
      rcases forest_getElem? h i with ⟨hnone, -⟩ | ⟨root, node, -, hnode, -⟩
      · simp [hnone] at hroot
      · exact ⟨node, hnode⟩
  | @under i place parent fuel' wps wp hparent hbelow hwp ih =>
      obtain ⟨parentNode, hparentNode⟩ := ih
      obtain ⟨pw, fuel'', hstands, hbuild, -⟩ := nodeAt_spec h hparentNode
      obtain rfl := hparent.unique hstands
      obtain ⟨fuel₃, wps', hwps', hchildren⟩ := children_of_build hbuild
      obtain rfl := containersBelow_unique hbelow hwps'
      rcases forall₂_getElem? hchildren i with ⟨hnone, -⟩ | ⟨-, node, -, hnode, -⟩
      · rw [List.getElem?_zipIdx, hwp] at hnone
        simp at hnone
      · obtain ⟨j, place, rfl⟩ := List.exists_cons_of_ne_nil hparent.place_ne_nil
        exact ⟨node, by rw [nodeAt, hparentNode, Option.bind_some, hnode]⟩

theorem mem_containersBelow {fuel : Nat} {x : ItemId} {wps : List ItemState} {wp : ItemState}
    (h : containersBelow compareIds s fuel x = some wps) (hwp : wp ∈ wps) : wp ∈ containers s := by
  induction fuel generalizing x wps with
  | zero => simp [containersBelow] at h
  | succ fuel ih =>
      rw [containersBelow] at h
      obtain ⟨out, hout, h⟩ := Option.bind_eq_some_iff.mp h
      obtain rfl := Option.some.inj h
      obtain ⟨found, hfound, hwp⟩ := List.mem_flatten.mp hwp
      obtain ⟨child, hchild, hstep⟩ := mem_of_mapM hout hfound
      split at hstep
      · rename_i hrole
        obtain rfl := Option.some.inj hstep
        obtain rfl := List.mem_singleton.mp hwp
        exact mem_containers_of_child hchild hrole
      · exact ih hstep hwp

theorem Stands.mem_containers {wp : ItemState} {place : List Nat}
    (h : Stands compareIds s wp place) : wp ∈ containers s := by
  cases h with
  | root hroot => exact mem_containers_of_root (List.mem_of_getElem? hroot)
  | under _ hbelow hwp => exact mem_containersBelow hbelow (List.mem_of_getElem? hwp)

theorem Spells.place_ne_nil {text : JsString} {place : List Nat}
    (h : Spells compareIds s text place) : place ≠ [] := by
  cases h with
  | code hwp => exact hwp.place_ne_nil
  | number => simp
  | ordinal => simp

/-- A place is spelled by one text. -/
theorem Spells.unique {text text' : JsString} {place : List Nat}
    (h : Spells compareIds s text place) (h' : Spells compareIds s text' place) : text = text' := by
  induction h generalizing text' with
  | code hwp hcode =>
      cases h' with
      | code hwp' hcode' =>
          obtain rfl := hwp.unique hwp'
          exact Option.some.inj (hcode.symm.trans hcode')
      | number hroot' hcode' _ =>
          obtain rfl := hwp.unique (.root hroot')
          simp [hcode'] at hcode
      | ordinal _ hwp' hcode' =>
          obtain rfl := hwp.unique hwp'
          simp [hcode'] at hcode
  | number hroot hcode hnumber =>
      cases h' with
      | code hwp' hcode' =>
          obtain rfl := hwp'.unique (.root hroot)
          simp [hcode'] at hcode
      | number hroot' _ hnumber' =>
          obtain rfl := Option.some.inj (hroot.symm.trans hroot')
          rw [hnumber.unique hnumber']
      | ordinal htext' => exact absurd rfl htext'.place_ne_nil
  | ordinal htext hwp hcode ih =>
      cases h' with
      | code hwp' hcode' =>
          obtain rfl := hwp.unique hwp'
          simp [hcode'] at hcode
      | number => exact absurd rfl htext.place_ne_nil
      | ordinal htext' => rw [ih htext']

/-! ## Which labels meet -/

section Apart

variable (hkeyed : ∀ x item, s.items.get x = some item → item.id = x)

omit config fuel forest in
/-- A code of the form of a number claims it. -/
theorem code_ne_number {wp root : ItemState} {place : List Nat} {i n : Nat}
    (hwp : Stands compareIds s wp place) (hnumber : RootNumber compareIds s i root n) :
    wp.code ≠ some (classOf root ++ js (toString n)) := by
  intro hcode
  refine hnumber.free (List.mem_filterMap.mpr ⟨wp, hwp.mem_containers, ?_⟩)
  rw [hcode, Option.bind_some, claimedOrdinal_number]

include hkeyed

/-- Where codes are apart, a text spells one place. -/
theorem Spells.place_unique (hunique : CodesUnique s) (hapart : CodesApart compareIds s)
    {text : JsString} {place place' : List Nat} (h : Spells compareIds s text place)
    (h' : Spells compareIds s text place') : place = place' := by
  have hsame : ∀ {wp wp' : ItemState} {code : JsString}, wp ∈ containers s → wp' ∈ containers s →
      wp.code = some code → wp'.code = some code → wp = wp' := by
    intro wp wp' code hwp hwp' hcode hcode'
    obtain ⟨hmem, hrole⟩ := List.mem_filter.mp hwp
    obtain ⟨hmem', hrole'⟩ := List.mem_filter.mp hwp'
    have hget := (mem_values_iff_get hkeyed).mp hmem
    have hget' := (mem_values_iff_get hkeyed).mp hmem'
    have hid := hunique wp.id wp'.id wp wp' hget hget' hrole hrole' (by simp [hcode])
      (hcode.trans hcode'.symm)
    rw [hid, hget'] at hget
    exact (Option.some.inj hget).symm
  induction h generalizing place' with
  | code hwp hcode =>
      cases h' with
      | code hwp' hcode' =>
          obtain rfl := hsame hwp.mem_containers hwp'.mem_containers hcode hcode'
          exact hapart.once _ _ _ hwp hwp' (by simp [hcode])
      | number _ _ hnumber' => exact absurd hcode (code_ne_number hwp hnumber')
      | ordinal htext' hwp' hcode' =>
          exact absurd hcode (hapart.undotted _ _ _ _ htext' hwp' hcode' _ _ hwp)
  | @number i root n hroot hcode hnumber =>
      generalize htext : classOf root ++ js (toString n) = text at h'
      cases h' with
      | code hwp' hcode' => exact absurd (htext ▸ hcode') (code_ne_number hwp' hnumber)
      | number hroot' hcode' hnumber' =>
          obtain ⟨hclass, rfl⟩ := number_inj htext
          rw [hnumber.index hnumber' hclass hroot hroot' hcode hcode']
      | ordinal => exact absurd htext number_ne_dotted
  | @ordinal text place i wp htext hwp hcode ih =>
      generalize heq : dotted text i = text' at h'
      cases h' with
      | code hwp' hcode' =>
          exact absurd (heq ▸ hcode') (hapart.undotted _ _ _ _ htext hwp hcode _ _ hwp')
      | number => exact absurd heq.symm number_ne_dotted
      | ordinal htext' =>
          obtain ⟨rfl, rfl⟩ := dotted_inj heq
          rw [ih htext']

end Apart

end Forest

/-- With unique codes, the labels of a forest are pairwise distinct exactly when no
container with a code stands at two places and no code spells the place of a container
without one. -/
theorem labels_distinct_iff {compareIds : ItemId → ItemId → Ordering} {log : List Event}
    {config : ReportConfig} {fuel : Nat} {forest : List WpNode} (hunique : CodesUnique (fold log))
    (h : computeWpTree compareIds (fold log) config fuel = some forest) :
    LabelsDistinct forest ↔ CodesApart compareIds (fold log) := by
  have hkeyed := (keyed_fold log).items
  have hspells : ∀ {text place}, Spells compareIds (fold log) text place → ∀ {wp},
      Stands compareIds (fold log) wp place →
        ∃ node, nodeAt forest place = some node ∧ node.label = text := by
    intro text place htext wp hwp
    obtain ⟨node, hnode⟩ := nodeAt_of_stands h hwp
    obtain ⟨-, -, -, -, hlabel⟩ := nodeAt_spec h hnode
    exact ⟨node, hnode, hlabel.unique htext⟩
  refine ⟨fun hdistinct => ⟨?_, ?_⟩, fun hapart place place' node node' hnode hnode' hlabel => ?_⟩
  · intro wp place place' hwp hwp' hcode
    obtain ⟨code, hcode⟩ := Option.ne_none_iff_exists'.mp hcode
    obtain ⟨node, hnode, hlabel⟩ := hspells (.code hwp hcode) hwp
    obtain ⟨node', hnode', hlabel'⟩ := hspells (.code hwp' hcode) hwp'
    exact hdistinct _ _ _ _ hnode hnode' (hlabel.trans hlabel'.symm)
  · intro text place i wp htext hwp hcode wp' place' hwp' hcode'
    obtain ⟨node, hnode, hlabel⟩ := hspells (.ordinal htext hwp hcode) hwp
    obtain ⟨node', hnode', hlabel'⟩ := hspells (.code hwp' hcode') hwp'
    obtain rfl := hdistinct _ _ _ _ hnode hnode' (hlabel.trans hlabel'.symm)
    obtain rfl := hwp.unique hwp'
    simp [hcode'] at hcode
  · obtain ⟨-, -, -, -, hspelled⟩ := nodeAt_spec h hnode
    obtain ⟨-, -, -, -, hspelled'⟩ := nodeAt_spec h hnode'
    rw [← hlabel] at hspelled'
    exact hspelled.place_unique hkeyed hunique hapart hspelled'

/-- A container under another. -/
def nestedPair : Schedule Unit :=
  createOf () 0 (js "a") (some .workpackage) ++
    [callOf () (.createItem (samplePayload (js "w") (some .workpackage) (some (js "a")))), .read (),
      .mint () (js "b"), .append () (.nth 1)]

theorem labels_distinct_nestedPair :
    ∃ s : FacadeSys Unit, Reaches (FacadeStep (fun e => e.id) fun _ _ _ => True) Sys.initial s ∧
      ∃ forest, computeWpTree (fun _ _ => .eq) (fold s.log) ⟨js "commit", false⟩ 4 = some forest ∧
        (nodeAt forest [0, 0]).map (·.label) = some (js "WP1.1") ∧ LabelsDistinct forest := by
  have hrun : outcome (fun _ _ _ => True) nestedPair (fun log =>
      ((fold log).items.values.map (·.code),
        (computeWpTree (fun _ _ => .eq) (fold log) ⟨js "commit", false⟩ 4).map fun forest =>
          (nodeAt forest [0, 0]).map (·.label))) =
      some ([none, none], some (some (js "WP1.1"))) := by
    decide +kernel
  obtain ⟨s, hreached, hs⟩ := reached_of_outcome hrun
  rw [Prod.mk.injEq] at hs
  obtain ⟨forest, hforest, hlabel⟩ := Option.map_eq_some_iff.mp hs.2
  have hcodes : ∀ item ∈ (fold s.log).items.values, item.code = none := by
    intro item hitem
    have hmem := List.mem_map_of_mem (f := (·.code)) hitem
    rw [hs.1] at hmem
    simpa using hmem
  have hstands : ∀ wp place, Stands (fun _ _ => .eq) (fold s.log) wp place → wp.code = none :=
    fun wp place hwp => hcodes wp (List.mem_of_mem_filter hwp.mem_containers)
  refine ⟨s, hreached, forest, hforest, hlabel, (labels_distinct_iff ?_ hforest).mpr ⟨?_, ?_⟩⟩
  · intro x y a b ha _ _ _ hcode
    exact absurd (hcodes a ((JsMap.mem_values_iff _ _).mpr ⟨x, ha⟩)) hcode
  · exact fun wp place place' hwp _ hcode => absurd (hstands wp place hwp) hcode
  · intro text place i wp _ _ _ wp' place' hwp'
    simp [hstands wp' place' hwp']

/-- And a third under it, with the code `WP1.1`. -/
def dottedCode : Schedule Unit :=
  nestedPair ++
    [callOf () (.createItem (samplePayload (js "w") (some .workpackage) (some (js "b")))), .read (),
      .mint () (js "c"), .append () (.nth 2),
      callOf () (.assignCode (js "c") (js "WP1.1") none), .read (), .append () (.nth 3)]

/-- The code is accepted, and is the label of two nodes. -/
theorem labels_meet_dottedCode :
    ∃ s : FacadeSys Unit, Reaches (FacadeStep (fun e => e.id) fun _ _ _ => True) Sys.initial s ∧
      CodesUnique (fold s.log) ∧
      ∃ forest, computeWpTree (fun _ _ => .eq) (fold s.log) ⟨js "commit", false⟩ 6 = some forest ∧
        ¬ LabelsDistinct forest := by
  have hrun : outcome (fun _ _ _ => True) dottedCode (fun log =>
      ((fold log).items.values.map fun item => (item.id, item.code),
        (computeWpTree (fun _ _ => .eq) (fold log) ⟨js "commit", false⟩ 6).map fun forest =>
          ((nodeAt forest [0, 0]).map (·.label), (nodeAt forest [0, 0, 0]).map (·.label)))) =
      some ([(js "a", none), (js "b", none), (js "c", some (js "WP1.1"))],
        some (some (js "WP1.1"), some (js "WP1.1"))) := by
    decide +kernel
  obtain ⟨s, hreached, hs⟩ := reached_of_outcome hrun
  rw [Prod.mk.injEq] at hs
  obtain ⟨forest, hforest, hlabels⟩ := Option.map_eq_some_iff.mp hs.2
  rw [Prod.mk.injEq] at hlabels
  refine ⟨s, hreached, fun x y a b ha hb _ _ hcode heq => ?_, forest, hforest, fun hdistinct => ?_⟩
  · have hid : ∀ item ∈ (fold s.log).items.values, item.code ≠ none → item.id = js "c" := by
      intro item hitem hcode
      have hmem := List.mem_map_of_mem (f := fun item => (item.id, item.code)) hitem
      rw [hs.1] at hmem
      simp only [List.mem_cons, Prod.mk.injEq, List.not_mem_nil, or_false] at hmem
      rcases hmem with ⟨-, hnone⟩ | ⟨-, hnone⟩ | ⟨hid, -⟩
      · exact absurd hnone hcode
      · exact absurd hnone hcode
      · exact hid
    have ha' := hid a ((JsMap.mem_values_iff _ _).mpr ⟨x, ha⟩) hcode
    have hb' := hid b ((JsMap.mem_values_iff _ _).mpr ⟨y, hb⟩) (heq ▸ hcode)
    have hkeyed := (keyed_fold s.log).items
    rw [← hkeyed x a ha, ← hkeyed y b hb, ha', hb']
  · obtain ⟨node, hnode, hlabel⟩ := Option.map_eq_some_iff.mp hlabels.1
    obtain ⟨node', hnode', hlabel'⟩ := Option.map_eq_some_iff.mp hlabels.2
    have hsame := hdistinct _ _ _ _ hnode hnode' (hlabel.trans hlabel'.symm)
    simp at hsame

end H2a.Track
