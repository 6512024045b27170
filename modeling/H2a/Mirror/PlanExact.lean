import H2a.Mirror.DroppedPaths
/-!
# One plan, and its report

What a plan of the mirror makes of any record: it has the fields of the plan alone, the plan applied
again changes nothing, and what the report says of it is exact, when these hold of the nested plans.
-/

namespace H2a.Mirror

open H2a.Library

variable {N : Type}

/-! ## One plan -/

theorem mem_planned {plan : MirrorPlan N} {record : Json N} {m : JsString × Json N} :
    m ∈ (plan.filterMap fun (field, step) =>
        (planned step (record.get field)).map fun value => (field, value)) ↔
      ∃ step, (m.1, step) ∈ plan ∧ planned step (record.get m.1) = some m.2 := by
  rw [List.mem_filterMap]
  constructor
  · rintro ⟨⟨field, step⟩, hmem, hvalue⟩
    obtain ⟨value, hplanned, rfl⟩ := Option.map_eq_some_iff.mp hvalue
    exact ⟨step, hmem, hplanned⟩
  · rintro ⟨step, hmem, hplanned⟩
    exact ⟨(m.1, step), hmem, Option.map_eq_some_iff.mpr ⟨m.2, hplanned, rfl⟩⟩

theorem applyPlan_eq (plan : MirrorPlan N) (record : Json N) :
    ∃ out, applyPlan plan record = .obj out ∧ ((plan.map Prod.fst).Nodup →
      (out.map Prod.fst).Nodup) ∧ ∀ m, m ∈ out ↔
        ∃ step, (m.1, step) ∈ plan ∧ planned step (record.get m.1) = some m.2 := by
  refine ⟨_, rfl, fun hnodup => ?_, fun m => mem_planned⟩
  have hsub : ∀ plan : MirrorPlan N, ((plan.filterMap fun (field, step) =>
      (planned step (record.get field)).map fun value => (field, value)).map Prod.fst).Sublist
        (plan.map Prod.fst) := by
    intro plan
    induction plan with
    | nil => exact List.Sublist.refl _
    | cons p plan ih =>
        rw [List.filterMap_cons, List.map_cons]
        cases hplanned : planned p.2 (record.get p.1) with
        | none =>
            simp only [hplanned, Option.map_none]
            exact ih.cons _
        | some value =>
            simp only [hplanned, Option.map_some, List.map_cons]
            exact ih.cons_cons _
  exact (hsub plan).nodup hnodup

variable {plan : MirrorPlan N}

theorem get_applyPlan (hnodup : (plan.map Prod.fst).Nodup) {field : JsString}
    {step : MirrorFieldPlan N} (h : (field, step) ∈ plan) (record : Json N) :
    (applyPlan plan record).get field = planned step (record.get field) := by
  obtain ⟨out, hout, hkeys, hmem⟩ := applyPlan_eq plan record
  rw [hout]
  apply Option.ext
  intro value
  constructor
  · intro hvalue
    obtain ⟨step', hstep', hplanned⟩ := (hmem _).mp (mem_of_lookupMember hvalue)
    have hsame : (field, step') = (field, step) :=
      List.inj_on_of_nodup_map hnodup hstep' h rfl
    cases hsame
    exact hplanned
  · intro hplanned
    exact lookupMember_of_mem (hkeys hnodup) ((hmem (field, value)).mpr ⟨step, h, hplanned⟩)

theorem applyPlan_congr {record record' : Json N}
    (h : ∀ p ∈ plan, planned p.2 (record.get p.1) = planned p.2 (record'.get p.1)) :
    applyPlan plan record = applyPlan plan record' := by
  apply congrArg Json.obj
  apply List.filterMap_congr
  rintro ⟨field, step⟩ hp
  exact congrArg (Option.map fun value => (field, value)) (h (field, step) hp)

/-- A step made again changes nothing, when its nested plan does not. -/
theorem planned_planned {step : MirrorFieldPlan N} {value : Option (Json N)}
    (h : ∀ fn x, step = .narrow fn → value = some x → fn (fn x) = fn x) :
    planned step (planned step value) = planned step value := by
  cases value with
  | none => cases step <;> rfl
  | some x =>
      cases step with
      | withhold => rfl
      | narrow fn => exact congrArg some (h fn x rfl rfl)
      | send =>
          by_cases hsend : isSendableAtRuntime x = true
          · simp only [planned, hsend, if_true]
          · simp only [planned, hsend, if_false, Bool.false_eq_true]

/-- A plan applied again changes nothing, when its nested plans do not. -/
theorem applyPlan_idem (hnodup : (plan.map Prod.fst).Nodup) {record : Json N}
    (hnarrow : ∀ field fn, (field, .narrow fn) ∈ plan → ∀ x, record.get field = some x →
      fn (fn x) = fn x) :
    applyPlan plan (applyPlan plan record) = applyPlan plan record := by
  apply applyPlan_congr
  rintro ⟨field, step⟩ hp
  rw [get_applyPlan hnodup hp]
  exact planned_planned fun fn x hstep hx => hnarrow field fn (hstep ▸ hp) x hx

/-- A value with the fields of a plan alone: those that are sent are primitives or arrays of
primitives. -/
def ConfinedTo (plan : MirrorPlan N) (nested : JsString → Json N → Prop) (v : Json N) : Prop :=
  ∃ members, v = .obj members ∧ (members.map Prod.fst).Nodup ∧ ∀ m ∈ members,
    ((m.1, .send) ∈ plan ∧ isSendableAtRuntime m.2 = true) ∨
      (∃ fn, (m.1, .narrow fn) ∈ plan) ∧ nested m.1 m.2

theorem applyPlan_confined (hnodup : (plan.map Prod.fst).Nodup) {nested : JsString → Json N → Prop}
    {record : Json N} (hnested : ∀ field fn, (field, .narrow fn) ∈ plan → ∀ x,
      record.get field = some x → nested field (fn x)) :
    ConfinedTo plan nested (applyPlan plan record) := by
  obtain ⟨out, hout, hkeys, hmem⟩ := applyPlan_eq plan record
  refine ⟨out, hout, hkeys hnodup, fun m hm => ?_⟩
  obtain ⟨step, hstep, hplanned⟩ := (hmem m).mp hm
  cases hx : record.get m.1 with
  | none =>
      rw [hx] at hplanned
      cases step <;> cases hplanned
  | some x =>
      rw [hx] at hplanned
      cases step with
      | withhold => cases hplanned
      | narrow fn =>
          have hvalue : fn x = m.2 := Option.some.inj hplanned
          exact Or.inr ⟨⟨fn, hstep⟩, hvalue ▸ hnested m.1 fn hstep x hx⟩
      | send =>
          dsimp only [planned] at hplanned
          split at hplanned
          case isTrue hsend =>
            cases hplanned
            exact Or.inl ⟨hstep, hsend⟩
          case isFalse => cases hplanned

theorem distinct_of_sendable {v : Json N} (h : isSendableAtRuntime v = true) : v.Distinct := by
  have hprimitive : ∀ {v : Json N}, isPrimitive v = true → v.Distinct := by
    intro v hv
    cases v with
    | arr => cases hv
    | obj => cases hv
    | _ => trivial
  cases v with
  | arr elements =>
      rw [Json.distinct_arr]
      exact fun e he => hprimitive (List.all_eq_true.mp h e he)
  | _ => exact hprimitive h

theorem ConfinedTo.distinct {nested : JsString → Json N → Prop} {v : Json N}
    (h : ConfinedTo plan nested v) (hnested : ∀ k w, nested k w → w.Distinct) : v.Distinct := by
  obtain ⟨members, rfl, hnodup, hmembers⟩ := h
  refine (Json.distinct_obj members).mpr ⟨hnodup, fun m hm => ?_⟩
  rcases hmembers m hm with ⟨-, hsend⟩ | ⟨-, hvalue⟩
  · exact distinct_of_sendable hsend
  · exact hnested m.1 m.2 hvalue

/-! ## The report on one plan -/

/-- No member that is not null has a name that every object inherits. -/
def NoInheritedNames : Json N → Prop
  | .obj members => ∀ m ∈ members, m.2 ≠ .null → m.1 ∉ prototypeNames
  | _ => True

/-- What is reported of a value at a path, it does lose. -/
def ReportedExactly (before after : Json N) : Prop :=
  ∀ path : JsString, path.units ≠ [] →
    (droppedKeyPaths before (.value after) path = [] ↔ PathsKept before after)

theorem ReportedExactly.refl {v : Json N} (h : v.Distinct) : ReportedExactly v v :=
  fun path _ => iff_of_true (droppedKeyPaths_self h path) (PathsKept.refl v)

theorem reported_obj {members out : List (JsString × Json N)} {path : JsString}
    (hnodup : (members.map Prod.fst).Nodup) (hnames : NoInheritedNames (.obj members))
    (hkeys : ∀ m ∈ members, ∀ w, lookupMember m.1 out = some w → m.1.units ≠ [])
    (hout : ∀ m ∈ members, ∀ w, lookupMember m.1 out = some w → ReportedExactly m.2 w) :
    droppedKeyPaths (.obj members) (.value (.obj out)) path = [] ↔
      PathsKept (.obj members) (.obj out) := by
  have hplain : isPlainObject (.value (.obj out) : Found N) = true := rfl
  rw [droppedKeyPaths, if_pos hplain, droppedMembers_eq_nil_iff, pathsKept_obj hnodup]
  refine forall₃_congr fun m hm hne => ?_
  cases hlookup : lookupMember m.1 out with
  | none =>
      have hin : keyIn m.1 (.value (.obj out) : Found N) = false := by
        rw [keyIn, hasMember, hlookup, Option.isSome_none, Bool.false_or]
        exact Bool.eq_false_iff.mpr fun h => hnames m hm hne (List.contains_iff_mem.mp h)
      rw [hin, Json.get, hlookup]
      simp
  | some w =>
      have hin : keyIn m.1 (.value (.obj out) : Found N) = true := by
        rw [keyIn, hasMember, hlookup]
        rfl
      have hpath : (if path.units.isEmpty then m.1 else path ++ js "." ++ m.1).units ≠ [] := by
        split
        · exact hkeys m hm w hlookup
        · rw [JsString.append_units]
          exact List.append_ne_nil_of_right_ne_nil _ (hkeys m hm w hlookup)
      rw [hin, foundUnder, hlookup, Json.get, hlookup]
      dsimp only
      rw [hout m hm w hlookup _ hpath]
      simp

/-- Each field has a name and occurs once. -/
def HasFields (plan : MirrorPlan N) : Prop :=
  (plan.map Prod.fst).Nodup ∧ ∀ field ∈ plan.map Prod.fst, field.units ≠ []

/-- A plan is reported exactly, when its nested plans are; `out` may have more fields than the
record. -/
theorem reported_plan (hfields : HasFields plan)
    {members out : List (JsString × Json N)} (hdistinct : (Json.obj members).Distinct)
    (hnames : NoInheritedNames (.obj members))
    (hnested : ∀ field fn, (field, .narrow fn) ∈ plan → ∀ x,
      (Json.obj members).get field = some x → ReportedExactly x (fn x))
    (hout : ∀ m ∈ members, lookupMember m.1 out = (applyPlan plan (.obj members)).get m.1)
    (path : JsString) : droppedKeyPaths (.obj members) (.value (.obj out)) path = [] ↔
      PathsKept (.obj members) (.obj out) := by
  obtain ⟨hkeys, hvalues⟩ := (Json.distinct_obj members).mp hdistinct
  obtain ⟨planOut, hplan, -, hmem⟩ := applyPlan_eq plan (.obj members)
  have hstep : ∀ m ∈ members, ∀ w, lookupMember m.1 out = some w →
      ∃ step, (m.1, step) ∈ plan ∧ planned step (some m.2) = some w := by
    intro m hm w hw
    rw [hout m hm, hplan] at hw
    obtain ⟨step, hstep, hplanned⟩ := (hmem _).mp (mem_of_lookupMember hw)
    have hget : (Json.obj members).get m.1 = some m.2 := lookupMember_of_mem hkeys hm
    exact ⟨step, hstep, hget ▸ hplanned⟩
  refine reported_obj hkeys hnames (fun m hm w hw => ?_) fun m hm w hw => ?_
  · obtain ⟨step, hstep, -⟩ := hstep m hm w hw
    exact hfields.2 _ (List.mem_map_of_mem hstep)
  · obtain ⟨step, hstep, hplanned⟩ := hstep m hm w hw
    cases step with
    | withhold => cases hplanned
    | narrow fn =>
        have hvalue : fn m.2 = w := Option.some.inj hplanned
        exact hvalue ▸ hnested m.1 fn hstep m.2 (lookupMember_of_mem hkeys hm)
    | send =>
        dsimp only [planned] at hplanned
        split at hplanned
        case isTrue =>
          cases hplanned
          exact ReportedExactly.refl (hvalues m hm)
        case isFalse => cases hplanned

/-- A plan without nested plans. -/
def IsFlat (plan : MirrorPlan N) : Prop :=
  HasFields plan ∧ ∀ field fn, (field, .narrow fn) ∉ plan

/-- A field that a nested plan rebuilds: an array in its place loses an element. -/
def IsObjectField (v : Json N) : Prop :=
  NoInheritedNames v ∧ ∀ elements, v = .arr elements → ∃ e ∈ elements, e ≠ .null

theorem reported_array_as_object {elements : List (Json N)}
    {members : List (JsString × Json N)} (h : ∃ e ∈ elements, e ≠ .null) :
    ReportedExactly (.arr elements) (.obj members) := by
  intro path hpath
  refine iff_of_false (wholePath_ne_nil hpath) fun hkept => ?_
  obtain ⟨e, he, hne⟩ := h
  exact hne ((pathsKept_of_no_array fun _ => rfl).mp hkept e he)

theorem IsFlat.reported (hflat : IsFlat plan) {v : Json N} (hdistinct : v.Distinct)
    (hfield : IsObjectField v) : ReportedExactly v (applyPlan plan v) := by
  cases v with
  | arr elements => exact reported_array_as_object (hfield.2 elements rfl)
  | obj members =>
      intro path _
      exact reported_plan hflat.1 hdistinct hfield.1
        (fun field fn hmem => absurd hmem (hflat.2 field fn)) (fun _ _ => rfl) path
  | _ =>
      intro path _
      exact iff_of_true rfl (pathsKept_of_childless fun step => by cases step <;> rfl)

theorem IsFlat.idem (hflat : IsFlat plan) (v : Json N) :
    applyPlan plan (applyPlan plan v) = applyPlan plan v :=
  applyPlan_idem hflat.1.1 fun field fn hmem => absurd hmem (hflat.2 field fn)

/-- What a plan without nested plans builds. -/
def IsFlatRecord (plan : MirrorPlan N) (v : Json N) : Prop := ConfinedTo plan (fun _ _ => False) v

theorem IsFlat.confined (hflat : IsFlat plan) (v : Json N) :
    IsFlatRecord plan (applyPlan plan v) :=
  applyPlan_confined hflat.1.1 fun field fn hmem => absurd hmem (hflat.2 field fn)

theorem hasFields_workspacePlan : HasFields (workspacePlan : MirrorPlan N) := by
  simp only [HasFields, workspacePlan, List.map_cons, List.map_nil]
  decide

theorem isFlat_workspacePlan : IsFlat (workspacePlan : MirrorPlan N) :=
  ⟨hasFields_workspacePlan, by simp [workspacePlan]⟩

theorem hasFields_versionPlan : HasFields (versionPlan : MirrorPlan N) := by
  simp only [HasFields, versionPlan, List.map_cons, List.map_nil]
  decide

theorem isFlat_versionPlan : IsFlat (versionPlan : MirrorPlan N) :=
  ⟨hasFields_versionPlan, by simp [versionPlan]⟩

theorem hasFields_interestsPlan : HasFields (interestsPlan : MirrorPlan N) := by
  simp only [HasFields, interestsPlan, List.map_cons, List.map_nil]
  decide

theorem isFlat_interestsPlan : IsFlat (interestsPlan : MirrorPlan N) :=
  ⟨hasFields_interestsPlan, by simp [interestsPlan]⟩

theorem hasFields_endpointPlan : HasFields (endpointPlan : MirrorPlan N) := by
  simp only [HasFields, endpointPlan, List.map_cons, List.map_nil]
  decide

theorem isFlat_endpointPlan : IsFlat (endpointPlan : MirrorPlan N) :=
  ⟨hasFields_endpointPlan, by simp [endpointPlan]⟩

theorem hasFields_subagentPlan : HasFields (subagentPlan : MirrorPlan N) := by
  simp only [HasFields, subagentPlan, List.map_cons, List.map_nil]
  decide

theorem isFlat_subagentPlan : IsFlat (subagentPlan : MirrorPlan N) :=
  ⟨hasFields_subagentPlan, by simp [subagentPlan]⟩

end H2a.Mirror
