import H2a.Mirror.PlanExact
/-!
# Narrowed records

The narrowing of registrations, presence records and subagent bindings: it is confined, narrowing
again changes nothing exactly when every network endpoint has a plain `uri`, and the report is empty
exactly when every key path is kept, of records without inherited names (`narrowing_exact`).
-/

namespace H2a.Mirror

open H2a.Library

variable {N : Type}

/-! ## Endpoints -/

section Endpoints

variable {urlProtocol : Option (Json N) → Option JsString}

/-- Whether a `uri` is of a network scheme. -/
def isNetworkUri (urlProtocol : Option (Json N) → Option JsString) (uri : Option (Json N)) : Bool :=
  (urlProtocol uri).any mirrorableEndpointSchemes.contains

/-- Endpoints with the fields of their plan, of network schemes. -/
def AreEndpoints (urlProtocol : Option (Json N) → Option JsString) (v : Json N) : Prop :=
  ∃ endpoints, v = .arr endpoints ∧ ∀ e ∈ endpoints, IsFlatRecord endpointPlan e ∧
    ∀ uri, e.get (js "uri") = some uri → isNetworkUri urlProtocol (some uri) = true

/-- Every network endpoint has a `uri` that is sent. -/
def HavePlainUris (urlProtocol : Option (Json N) → Option JsString) (endpoints : Json N) : Prop :=
  ∀ elements, endpoints = .arr elements → ∀ e ∈ elements,
    isNetworkUri urlProtocol (e.get (js "uri")) = true →
      ∃ uri, e.get (js "uri") = some uri ∧ isSendableAtRuntime uri = true

/-- Endpoints whose loss shows: a last element that is not null, or a member. -/
def IsEndpointsField (v : Json N) : Prop :=
  (∀ members, v = .obj members → ∃ m ∈ members, m.2 ≠ .null) ∧
    ∀ elements, v = .arr elements →
      elements.getLast? ≠ some .null ∧ ∀ e ∈ elements, NoInheritedNames e

theorem sanitizeEndpoints_arr (elements : List (Json N)) :
    sanitizeEndpointsForMirror urlProtocol (.arr elements) = .arr ((elements.filter fun e =>
      isNetworkUri urlProtocol (e.get (js "uri"))).map (applyPlan endpointPlan)) := rfl

theorem sanitizeEndpoints_eq (v : Json N) :
    ∃ elements, sanitizeEndpointsForMirror urlProtocol v = .arr elements := by
  cases v with
  | arr elements => exact ⟨_, rfl⟩
  | _ => exact ⟨[], rfl⟩

theorem mem_uri_endpointPlan : ((js "uri", .send) : JsString × MirrorFieldPlan N) ∈ endpointPlan :=
  List.mem_cons_of_mem _ List.mem_cons_self

theorem get_uri_applyPlan (e : Json N) : (applyPlan endpointPlan e).get (js "uri") =
    (e.get (js "uri")).filter isSendableAtRuntime := by
  rw [get_applyPlan hasFields_endpointPlan.1 mem_uri_endpointPlan]
  cases e.get (js "uri") with
  | none => rfl
  | some uri => exact (Option.filter_some ..).symm

theorem sanitizeEndpoints_confined (v : Json N) :
    AreEndpoints urlProtocol (sanitizeEndpointsForMirror urlProtocol v) := by
  cases v with
  | arr elements =>
      refine ⟨_, sanitizeEndpoints_arr elements, fun e he => ?_⟩
      obtain ⟨source, hsource, rfl⟩ := List.mem_map.mp he
      refine ⟨isFlat_endpointPlan.confined source, fun uri huri => ?_⟩
      rw [get_uri_applyPlan, Option.filter_eq_some_iff] at huri
      have hnetwork := (List.mem_filter.mp hsource).2
      rw [huri.1] at hnetwork
      exact hnetwork
  | _ => exact ⟨[], rfl, fun _ he => absurd he List.not_mem_nil⟩

theorem AreEndpoints.distinct {v : Json N} (h : AreEndpoints urlProtocol v) : v.Distinct := by
  obtain ⟨endpoints, rfl, hall⟩ := h
  rw [Json.distinct_arr]
  exact fun e he => (hall e he).1.distinct fun _ _ hfalse => hfalse.elim

/-- Endpoints sanitized again keep those that have a `uri`. -/
theorem sanitizeEndpoints_again (hurl : urlProtocol none = none) (v : Json N) :
    sanitizeEndpointsForMirror urlProtocol (sanitizeEndpointsForMirror urlProtocol v) =
        sanitizeEndpointsForMirror urlProtocol v ↔ HavePlainUris urlProtocol v := by
  cases v with
  | arr elements =>
      have hnone : isNetworkUri urlProtocol none = false := by
        rw [isNetworkUri, hurl]
        rfl
      have hkept : ∀ e : Json N, isNetworkUri urlProtocol (e.get (js "uri")) = true →
          (isNetworkUri urlProtocol ((applyPlan endpointPlan e).get (js "uri")) = true ↔
            ∃ uri, e.get (js "uri") = some uri ∧ isSendableAtRuntime uri = true) := by
        intro e he
        rw [get_uri_applyPlan]
        cases huri : e.get (js "uri") with
        | none =>
            rw [huri, hnone] at he
            cases he
        | some uri =>
            by_cases hsend : isSendableAtRuntime uri = true
            · rw [Option.filter_some, if_pos hsend, ← huri]
              exact iff_of_true he ⟨uri, huri, hsend⟩
            · rw [Option.filter_some, if_neg hsend, hnone]
              refine iff_of_false Bool.false_ne_true ?_
              rintro ⟨uri', hsame, hsend'⟩
              cases hsame
              exact hsend hsend'
      rw [sanitizeEndpoints_arr, sanitizeEndpoints_arr]
      generalize hfiltered : (elements.filter fun e =>
        isNetworkUri urlProtocol (e.get (js "uri"))) = network
      have hnetwork : ∀ e, e ∈ network ↔
          e ∈ elements ∧ isNetworkUri urlProtocol (e.get (js "uri")) = true := by
        intro e
        rw [← hfiltered, List.mem_filter]
      constructor
      · intro h elements' hsame e he huri
        cases hsame
        have hlength := congrArg List.length (Json.arr.inj h)
        rw [List.length_map] at hlength
        have hall := List.length_filter_eq_length_iff.mp hlength
        exact (hkept e huri).mp
          (hall _ (List.mem_map_of_mem ((hnetwork e).mpr ⟨he, huri⟩)))
      · intro h
        have hall : ∀ e ∈ network.map (applyPlan endpointPlan),
            isNetworkUri urlProtocol (e.get (js "uri")) = true := by
          intro e he
          obtain ⟨source, hsource, rfl⟩ := List.mem_map.mp he
          obtain ⟨hmem, huri⟩ := (hnetwork source).mp hsource
          exact (hkept source huri).mpr (h elements rfl source hmem huri)
        rw [List.filter_eq_self.mpr hall, List.map_map]
        apply congrArg Json.arr
        apply List.map_congr_left
        exact fun e _ => isFlat_endpointPlan.idem e
  | _ =>
      refine iff_of_true rfl fun elements hsame => ?_
      cases hsame

theorem obj_of_network (hurl : urlProtocol none = none) {e : Json N}
    (h : isNetworkUri urlProtocol (e.get (js "uri")) = true) : ∃ members, e = .obj members := by
  cases e with
  | obj members => exact ⟨members, rfl⟩
  | _ =>
      have hnone : isNetworkUri urlProtocol none = true := h
      rw [isNetworkUri, hurl] at hnone
      cases hnone

/-- Where an element is lost, the last one is. -/
theorem not_pathsKept_of_shorter {elements kept : List (Json N)}
    (hlast : elements.getLast? ≠ some .null) (h : kept.length < elements.length) :
    ¬PathsKept (.arr elements) (.arr kept) := by
  intro hkept
  have hpos : elements.length - 1 < elements.length := by omega
  have hget := List.getElem?_eq_getElem hpos
  have hne : elements[elements.length - 1] ≠ .null := by
    intro hnull
    rw [List.getLast?_eq_getElem?, hget, hnull] at hlast
    exact hlast rfl
  obtain ⟨w, hw, -⟩ := pathsKept_arr.mp hkept _ _ hget hne
  have hnone : kept[elements.length - 1]? = none := List.getElem?_eq_none (by omega)
  cases hnone.symm.trans hw

/-- What is reported of endpoints is exact. -/
theorem sanitizeEndpoints_reported (hurl : urlProtocol none = none) {v : Json N}
    (hdistinct : v.Distinct) (hfield : IsEndpointsField v) :
    ReportedExactly v (sanitizeEndpointsForMirror urlProtocol v) := by
  intro path hpath
  cases v with
  | arr elements =>
      obtain ⟨hlast, hnames⟩ := hfield.2 elements rfl
      rw [Json.distinct_arr] at hdistinct
      rw [sanitizeEndpoints_arr, droppedKeyPaths]
      by_cases hall : ∀ e ∈ elements, isNetworkUri urlProtocol (e.get (js "uri")) = true
      · rw [List.filter_eq_self.mpr hall, List.length_map, if_neg (Nat.lt_irrefl _),
          List.nil_append, droppedElements_eq_nil_iff, pathsKept_arr]
        · constructor
          · intro h i v hv _
            refine ⟨applyPlan endpointPlan v, ?_, h i v _ hv ?_⟩
            · rw [child, List.getElem?_map, hv]
              rfl
            · rw [List.getElem?_map, hv]
              rfl
          · intro h i v w hv hw
            obtain ⟨members, rfl⟩ := obj_of_network hurl (hall v (List.mem_of_getElem? hv))
            obtain ⟨w', hw', hkept⟩ := h i _ hv (by simp)
            cases hw.symm.trans hw'
            exact hkept
        · intro i v w hv hw
          have hmem := List.mem_of_getElem? hv
          obtain ⟨members, rfl⟩ := obj_of_network hurl (hall v hmem)
          rw [List.getElem?_map, hv] at hw
          cases hw
          exact isFlat_endpointPlan.reported (hdistinct _ hmem)
            ⟨hnames _ hmem, fun _ hsame => by cases hsame⟩
      · have hshorter : ((elements.filter fun e => isNetworkUri urlProtocol
            (e.get (js "uri"))).map (applyPlan endpointPlan)).length < elements.length := by
          rw [List.length_map]
          refine lt_of_le_of_ne (List.length_filter_le _ _) fun heq => hall ?_
          exact List.length_filter_eq_length_iff.mp heq
        rw [if_pos hshorter]
        exact iff_of_false (List.append_ne_nil_of_left_ne_nil (List.cons_ne_nil _ _) _)
          (not_pathsKept_of_shorter hlast hshorter)
  | obj members =>
      refine iff_of_false (wholePath_ne_nil hpath) fun hkept => ?_
      obtain ⟨m, hm, hne⟩ := hfield.1 members rfl
      obtain ⟨w, hw, -⟩ :=
        (pathsKept_obj ((Json.distinct_obj members).mp hdistinct).1).mp hkept m hm hne
      cases hw
  | _ => exact iff_of_true rfl (pathsKept_of_childless fun step => by cases step <;> rfl)

end Endpoints

/-! ## Records -/

/-- A record that the report can be asked of: an array has no key path. -/
def IsRecordShape (v : Json N) : Prop :=
  NoInheritedNames v ∧ ∀ elements, v = .arr elements → ∀ e ∈ elements, e = .null

/-- The report on a record of which a plan, and more fields, are built. -/
theorem reported_record {plan : MirrorPlan N} (hfields : HasFields plan) {record : Json N}
    {out : List (JsString × Json N)} (hdistinct : record.Distinct) (hshape : IsRecordShape record)
    (hnested : ∀ field fn, (field, .narrow fn) ∈ plan → ∀ x, record.get field = some x →
      ReportedExactly x (fn x))
    (hout : ∀ k x, record.get k = some x → lookupMember k out = (applyPlan plan record).get k) :
    droppedKeyPaths record (.value (.obj out)) ⟨[]⟩ = [] ↔ PathsKept record (.obj out) := by
  cases record with
  | arr elements =>
      have hkept : PathsKept (.arr elements) (.obj out) :=
        (pathsKept_of_no_array fun _ => rfl).mpr (hshape.2 elements rfl)
      exact iff_of_true rfl hkept
  | obj members =>
      have hkeys := ((Json.distinct_obj members).mp hdistinct).1
      exact reported_plan hfields hdistinct hshape.1 hnested
        (fun m hm => hout m.1 m.2 (lookupMember_of_mem hkeys hm)) _
  | _ => exact iff_of_true rfl (pathsKept_of_childless fun step => by cases step <;> rfl)

/-- Nothing is dropped where every member is found again. -/
theorem dropped_of_members {members out : List (JsString × Json N)}
    (hdistinct : (Json.obj members).Distinct)
    (h : ∀ m ∈ members, lookupMember m.1 out = some m.2) (path : JsString) :
    droppedKeyPaths (.obj members) (.value (.obj out)) path = [] := by
  obtain ⟨-, hvalues⟩ := (Json.distinct_obj members).mp hdistinct
  have hplain : isPlainObject (.value (.obj out) : Found N) = true := rfl
  rw [droppedKeyPaths, if_pos hplain, droppedMembers_eq_nil_iff]
  intro m hm _
  constructor
  · rw [keyIn, hasMember, h m hm]
    rfl
  · rw [foundUnder, h m hm]
    exact droppedKeyPaths_self (hvalues m hm) _

section Presence

/-- The fields of a presence record that have plans of their own. -/
def presenceNested (k : JsString) (v : Json N) : Prop :=
  k = js "interests" ∧ IsFlatRecord interestsPlan v ∨ k = js "version" ∧ IsFlatRecord versionPlan v ∨
    k = js "workspace" ∧ IsFlatRecord workspacePlan v

theorem hasFields_presencePlan : HasFields (presencePlan : MirrorPlan N) := by
  simp only [HasFields, presencePlan, List.map_cons, List.map_nil]
  decide

theorem narrow_presencePlan {field : JsString} {fn : Json N → Json N}
    (h : (field, .narrow fn) ∈ presencePlan) :
    field = js "interests" ∧ fn = applyPlan interestsPlan ∨
      field = js "version" ∧ fn = applyPlan versionPlan ∨
        field = js "workspace" ∧ fn = applyPlan workspacePlan := by
  simpa [presencePlan] using h

/-- A presence record whose report is exact. -/
def IsPresenceShape (record : Json N) : Prop :=
  IsRecordShape record ∧ ∀ k ∈ [js "interests", js "version", js "workspace"], ∀ x,
    record.get k = some x → IsObjectField x

end Presence

section Registration

variable (urlProtocol : Option (Json N) → Option JsString)

/-- The fields of a registration that have plans of their own. -/
def registrationNested (k : JsString) (v : Json N) : Prop :=
  k = js "endpoints" ∧ AreEndpoints urlProtocol v ∨
    k = js "workspace" ∧ IsFlatRecord workspacePlan v

theorem hasFields_registrationPlan : HasFields (registrationPlan urlProtocol) := by
  simp only [HasFields, registrationPlan, List.map_cons, List.map_nil]
  decide

variable {urlProtocol}

theorem narrow_registrationPlan {field : JsString} {fn : Json N → Json N}
    (h : (field, .narrow fn) ∈ registrationPlan urlProtocol) :
    field = js "endpoints" ∧ fn = sanitizeEndpointsForMirror urlProtocol ∨
      field = js "workspace" ∧ fn = applyPlan workspacePlan := by
  simpa [registrationPlan] using h

/-- A registration whose report is exact. -/
def IsRegistrationShape (record : Json N) : Prop :=
  IsRecordShape record ∧ (∀ x, record.get (js "endpoints") = some x → IsEndpointsField x) ∧
    ∀ x, record.get (js "workspace") = some x → IsObjectField x

/-- The endpoints of the narrowed registration. -/
def narrowedEndpoints (urlProtocol : Option (Json N) → Option JsString) (record : Json N) :
    Json N :=
  (record.get (js "endpoints")).elim (.arr []) (sanitizeEndpointsForMirror urlProtocol)

variable (urlProtocol)

theorem mem_endpoints_registrationPlan :
    (js "endpoints", .narrow (sanitizeEndpointsForMirror urlProtocol)) ∈
      registrationPlan urlProtocol := by
  simp [registrationPlan]

theorem get_endpoints_applyPlan (record : Json N) :
    (applyPlan (registrationPlan urlProtocol) record).get (js "endpoints") =
      (record.get (js "endpoints")).map (sanitizeEndpointsForMirror urlProtocol) := by
  rw [get_applyPlan (hasFields_registrationPlan urlProtocol).1 (mem_endpoints_registrationPlan _)]
  cases record.get (js "endpoints") <;> rfl

/-- What a narrowed registration holds under each key. -/
theorem narrowRegistration_eq (record : Json N) : ∃ out,
    narrowIngestedRegistration urlProtocol record = .obj out ∧ (out.map Prod.fst).Nodup ∧
      ∀ k, lookupMember k out = if k = js "endpoints" then some (narrowedEndpoints urlProtocol record)
        else (applyPlan (registrationPlan urlProtocol) record).get k := by
  obtain ⟨planOut, hplan, hkeys, -⟩ := applyPlan_eq (registrationPlan urlProtocol) record
  have hnodup := hkeys (hasFields_registrationPlan urlProtocol).1
  have hget : ∀ k, (applyPlan (registrationPlan urlProtocol) record).get k =
      lookupMember k planOut := by
    intro k
    rw [hplan]
    rfl
  have hendpoints := get_endpoints_applyPlan urlProtocol record
  rw [hget] at hendpoints
  refine ⟨_, by rw [narrowIngestedRegistration, hplan], ?_, fun k => ?_⟩
  · split
    · exact hnodup
    case isFalse hhas =>
      rw [hasMember, Option.not_isSome_iff_eq_none] at hhas
      rw [List.map_append, List.nodup_append]
      refine ⟨hnodup, List.nodup_singleton _, ?_⟩
      rintro k hk _ hone rfl
      have hsame : k = js "endpoints" := List.mem_singleton.mp hone
      exact lookupMember_eq_none.mp hhas (hsame ▸ hk)
  · rw [hget]
    split
    case isTrue hhas =>
      split
      case isTrue hk =>
        rw [hasMember, hendpoints, Option.isSome_map] at hhas
        obtain ⟨x, hx⟩ := Option.isSome_iff_exists.mp hhas
        rw [hk, hendpoints, narrowedEndpoints, hx]
        rfl
      case isFalse => rfl
    case isFalse hhas =>
      rw [hasMember, Option.not_isSome_iff_eq_none] at hhas
      rw [lookupMember_append]
      split
      case isTrue hk =>
        rw [hhas] at hendpoints
        rw [hk, hhas, narrowedEndpoints, Option.map_eq_none_iff.mp hendpoints.symm]
        rfl
      case isFalse hk =>
        rw [lookupMember, if_neg (Ne.symm hk), lookupMember, Option.or_none]

theorem narrowRegistration_confined (record : Json N) :
    ConfinedTo (registrationPlan urlProtocol) (registrationNested urlProtocol)
      (narrowIngestedRegistration urlProtocol record) := by
  have hplan : ConfinedTo (registrationPlan urlProtocol) (registrationNested urlProtocol)
      (applyPlan (registrationPlan urlProtocol) record) := by
    refine applyPlan_confined (hasFields_registrationPlan urlProtocol).1 fun field fn hmem x _ => ?_
    rcases narrow_registrationPlan hmem with ⟨hfield, rfl⟩ | ⟨hfield, rfl⟩
    · exact Or.inl ⟨hfield, sanitizeEndpoints_confined x⟩
    · exact Or.inr ⟨hfield, isFlat_workspacePlan.confined x⟩
  obtain ⟨planOut, hplanOut, -, hmembers⟩ := hplan
  obtain ⟨out, hout, hnodup, hget⟩ := narrowRegistration_eq urlProtocol record
  refine ⟨out, hout, hnodup, fun m hm => ?_⟩
  have hvalue := lookupMember_of_mem hnodup hm
  rw [hget] at hvalue
  split at hvalue
  case isTrue hfield =>
    refine Or.inr ⟨⟨_, hfield ▸ mem_endpoints_registrationPlan urlProtocol⟩, Or.inl ⟨hfield, ?_⟩⟩
    rw [← Option.some.inj hvalue, narrowedEndpoints]
    cases record.get (js "endpoints") with
    | none => exact ⟨[], rfl, fun _ he => absurd he List.not_mem_nil⟩
    | some x => exact sanitizeEndpoints_confined x
  case isFalse =>
    rw [hplanOut] at hvalue
    exact hmembers m (mem_of_lookupMember hvalue)

/-- A field that is not `endpoints` is the same after narrowing again. -/
theorem get_narrowRegistration_again (record : Json N) {k : JsString} (hk : k ≠ js "endpoints") :
    (applyPlan (registrationPlan urlProtocol)
        (narrowIngestedRegistration urlProtocol record)).get k =
      (narrowIngestedRegistration urlProtocol record).get k := by
  have hnodup := (hasFields_registrationPlan urlProtocol).1
  obtain ⟨out, hout, -, hget⟩ := narrowRegistration_eq urlProtocol record
  have hone : (narrowIngestedRegistration urlProtocol record).get k =
      (applyPlan (registrationPlan urlProtocol) record).get k := by
    rw [hout]
    exact (hget k).trans (if_neg hk)
  by_cases hmem : ∃ step, (k, step) ∈ registrationPlan urlProtocol
  · obtain ⟨step, hstep⟩ := hmem
    rw [get_applyPlan hnodup hstep, hone, get_applyPlan hnodup hstep]
    refine planned_planned fun fn x hnarrow _ => ?_
    rcases narrow_registrationPlan (hnarrow ▸ hstep) with ⟨hfield, -⟩ | ⟨-, rfl⟩
    · exact absurd hfield hk
    · exact isFlat_workspacePlan.idem x
  · have hnone : ∀ source : Json N,
        (applyPlan (registrationPlan urlProtocol) source).get k = none := by
      intro source
      obtain ⟨planOut, hplan, -, hmembers⟩ := applyPlan_eq (registrationPlan urlProtocol) source
      rw [hplan]
      refine lookupMember_eq_none.mpr fun hkey => hmem ?_
      obtain ⟨m, hm, rfl⟩ := List.mem_map.mp hkey
      obtain ⟨step, hstep, -⟩ := (hmembers m).mp hm
      exact ⟨step, hstep⟩
    rw [hone, hnone, hnone]

end Registration

/-! ## The three narrowings -/

/-- The same value under every key. -/
def SameRecord (v w : Json N) : Prop := ∀ k, v.get k = w.get k

/-- Narrowing a narrowed record gives an equal record, and drops no key path. -/
def StaysNarrow (narrow : Json N → Json N) (record : Json N) : Prop :=
  SameRecord (narrow (narrow record)) (narrow record) ∧
    droppedKeyPaths (narrow record) (.value (narrow (narrow record))) ⟨[]⟩ = []

/-- Nothing is reported dropped exactly when every key path is kept. -/
def ReportExact (narrow : Json N → Json N) (record : Json N) : Prop :=
  droppedKeyPaths record (.value (narrow record)) ⟨[]⟩ = [] ↔ PathsKept record (narrow record)

section Records

variable {urlProtocol : Option (Json N) → Option JsString}

theorem narrowRegistration_stays (hurl : urlProtocol none = none) (record : Json N) :
    StaysNarrow (narrowIngestedRegistration urlProtocol) record ↔
      ∀ x, record.get (js "endpoints") = some x → HavePlainUris urlProtocol x := by
  obtain ⟨out, hout, hnodup, hget⟩ := narrowRegistration_eq urlProtocol record
  obtain ⟨again, hagain, -, hgetAgain⟩ := narrowRegistration_eq urlProtocol
    (narrowIngestedRegistration urlProtocol record)
  have hsame : ∀ k, k ≠ js "endpoints" → lookupMember k again = lookupMember k out := by
    intro k hk
    have hkept := get_narrowRegistration_again urlProtocol record hk
    rw [hgetAgain, if_neg hk, hkept, hout]
    rfl
  have hendpoints : lookupMember (js "endpoints") again = some (sanitizeEndpointsForMirror
      urlProtocol (narrowedEndpoints urlProtocol record)) := by
    rw [hgetAgain, if_pos rfl, narrowedEndpoints, hout, Json.get, hget, if_pos rfl]
    rfl
  have hiff : sanitizeEndpointsForMirror urlProtocol (narrowedEndpoints urlProtocol record) =
      narrowedEndpoints urlProtocol record ↔
        ∀ x, record.get (js "endpoints") = some x → HavePlainUris urlProtocol x := by
    rw [narrowedEndpoints]
    cases record.get (js "endpoints") with
    | none => exact iff_of_true rfl fun x hx => by cases hx
    | some x =>
        rw [Option.elim_some, sanitizeEndpoints_again hurl]
        exact ⟨fun h x' hx' => Option.some.inj hx' ▸ h, fun h => h x rfl⟩
  rw [StaysNarrow, SameRecord, hagain, hout, ← hiff]
  constructor
  · rintro ⟨hall, -⟩
    have hone : lookupMember (js "endpoints") again = lookupMember (js "endpoints") out := hall _
    rw [hendpoints, hget, if_pos rfl] at hone
    exact Option.some.inj hone
  · intro hstays
    have hall : ∀ k, lookupMember k again = lookupMember k out := by
      intro k
      by_cases hk : k = js "endpoints"
      · rw [hk, hendpoints, hget, if_pos rfl, hstays]
      · exact hsame k hk
    have hdistinct : (Json.obj out).Distinct := by
      rw [← hout]
      refine (narrowRegistration_confined urlProtocol record).distinct fun k w hnested => ?_
      rcases hnested with ⟨-, hw⟩ | ⟨-, hw⟩
      · exact hw.distinct
      · exact hw.distinct fun _ _ hfalse => hfalse.elim
    exact ⟨hall, dropped_of_members hdistinct
      (fun m hm => (hall m.1).trans (lookupMember_of_mem hnodup hm)) _⟩

/-- A member of a value with each key once is one too. -/
theorem distinct_of_get {record x : Json N} {k : JsString} (h : record.Distinct)
    (hx : record.get k = some x) : x.Distinct := by
  cases record with
  | obj members => exact ((Json.distinct_obj members).mp h).2 (k, x) (mem_of_lookupMember hx)
  | _ => cases hx

theorem narrowRegistration_reported (hurl : urlProtocol none = none) {record : Json N}
    (hdistinct : record.Distinct) (hshape : IsRegistrationShape record) :
    ReportExact (narrowIngestedRegistration urlProtocol) record := by
  obtain ⟨out, hout, -, hget⟩ := narrowRegistration_eq urlProtocol record
  rw [ReportExact, hout]
  refine reported_record (hasFields_registrationPlan urlProtocol) hdistinct hshape.1 ?_ ?_
  · intro field fn hmem x hx
    rcases narrow_registrationPlan hmem with ⟨rfl, rfl⟩ | ⟨rfl, rfl⟩
    · exact sanitizeEndpoints_reported hurl (distinct_of_get hdistinct hx) (hshape.2.1 x hx)
    · exact isFlat_workspacePlan.reported (distinct_of_get hdistinct hx) (hshape.2.2 x hx)
  · intro k x hx
    rw [hget]
    split
    case isTrue hk =>
      rw [hk] at hx ⊢
      rw [get_endpoints_applyPlan, narrowedEndpoints, hx]
      rfl
    case isFalse => rfl

/-- A narrowing that is one plan stays narrow, when its nested plans do. -/
theorem stays_of_plan {plan : MirrorPlan N} {nested : JsString → Json N → Prop}
    (hfields : HasFields plan) (hnarrow : ∀ field fn, (field, .narrow fn) ∈ plan → ∀ x,
      fn (fn x) = fn x ∧ nested field (fn x)) (hdistinct : ∀ k w, nested k w → w.Distinct)
    (record : Json N) : StaysNarrow (applyPlan plan) record := by
  have hagain : applyPlan plan (applyPlan plan record) = applyPlan plan record :=
    applyPlan_idem hfields.1 fun field fn hmem x _ => (hnarrow field fn hmem x).1
  have hconfined : ConfinedTo plan nested (applyPlan plan record) :=
    applyPlan_confined hfields.1 fun field fn hmem x _ => (hnarrow field fn hmem x).2
  rw [StaysNarrow, hagain]
  exact ⟨fun _ => rfl, droppedKeyPaths_self (hconfined.distinct hdistinct) _⟩

theorem narrow_presence {field : JsString} {fn : Json N → Json N}
    (h : (field, .narrow fn) ∈ presencePlan) (x : Json N) :
    fn (fn x) = fn x ∧ presenceNested field (fn x) := by
  rcases narrow_presencePlan h with ⟨rfl, rfl⟩ | ⟨rfl, rfl⟩ | ⟨rfl, rfl⟩
  · exact ⟨isFlat_interestsPlan.idem x, Or.inl ⟨rfl, isFlat_interestsPlan.confined x⟩⟩
  · exact ⟨isFlat_versionPlan.idem x, Or.inr (Or.inl ⟨rfl, isFlat_versionPlan.confined x⟩)⟩
  · exact ⟨isFlat_workspacePlan.idem x, Or.inr (Or.inr ⟨rfl, isFlat_workspacePlan.confined x⟩)⟩

theorem presenceNested_distinct {k : JsString} {w : Json N} (h : presenceNested k w) :
    w.Distinct := by
  rcases h with ⟨-, hw⟩ | ⟨-, hw⟩ | ⟨-, hw⟩ <;> exact hw.distinct fun _ _ hfalse => hfalse.elim

theorem narrowPresence_reported {record : Json N} (hdistinct : record.Distinct)
    (hshape : IsPresenceShape record) : ReportExact narrowIngestedPresence record := by
  refine reported_record hasFields_presencePlan hdistinct hshape.1 ?_ fun _ _ _ => rfl
  intro field fn hmem x hx
  have hx' := distinct_of_get hdistinct hx
  rcases narrow_presencePlan hmem with ⟨rfl, rfl⟩ | ⟨rfl, rfl⟩ | ⟨rfl, rfl⟩
  · exact isFlat_interestsPlan.reported hx' (hshape.2 _ (by simp) x hx)
  · exact isFlat_versionPlan.reported hx' (hshape.2 _ (by simp) x hx)
  · exact isFlat_workspacePlan.reported hx' (hshape.2 _ (by simp) x hx)

theorem narrowSubagent_reported {record : Json N} (hdistinct : record.Distinct)
    (hshape : IsRecordShape record) : ReportExact narrowIngestedSubagent record :=
  reported_record hasFields_subagentPlan hdistinct hshape
    (fun field fn hmem => absurd hmem (isFlat_subagentPlan.2 field fn)) fun _ _ _ => rfl

/-- Narrowing is confined for every record, and stays as it is: of registrations, exactly when every
network endpoint has a plain `uri`.  The report is exact for records without inherited names whose
nested fields are of the kind their plans build. -/
theorem narrowing_exact (hurl : urlProtocol none = none) {record : Json N}
    (hdistinct : record.Distinct) :
    (ConfinedTo (registrationPlan urlProtocol) (registrationNested urlProtocol)
        (narrowIngestedRegistration urlProtocol record) ∧
      (StaysNarrow (narrowIngestedRegistration urlProtocol) record ↔
        ∀ x, record.get (js "endpoints") = some x → HavePlainUris urlProtocol x) ∧
      (IsRegistrationShape record →
        ReportExact (narrowIngestedRegistration urlProtocol) record)) ∧
    (ConfinedTo presencePlan presenceNested (narrowIngestedPresence record) ∧
      StaysNarrow narrowIngestedPresence record ∧
      (IsPresenceShape record → ReportExact narrowIngestedPresence record)) ∧
    IsFlatRecord subagentPlan (narrowIngestedSubagent record) ∧
      StaysNarrow narrowIngestedSubagent record ∧
      (IsRecordShape record → ReportExact narrowIngestedSubagent record) := by
  refine ⟨⟨narrowRegistration_confined urlProtocol record, narrowRegistration_stays hurl record,
    narrowRegistration_reported hurl hdistinct⟩, ⟨?_, ?_, narrowPresence_reported hdistinct⟩,
    isFlat_subagentPlan.confined record, ?_, narrowSubagent_reported hdistinct⟩
  · exact applyPlan_confined hasFields_presencePlan.1
      fun field fn hmem x _ => (narrow_presence hmem x).2
  · exact stays_of_plan hasFields_presencePlan (fun field fn hmem x => narrow_presence hmem x)
      (fun _ _ => presenceNested_distinct) record
  · exact @stays_of_plan N _ (fun _ _ => False) hasFields_subagentPlan
      (fun field fn hmem => absurd hmem (isFlat_subagentPlan.2 field fn))
      (fun _ _ hfalse => hfalse.elim) record

end Records

/-! ## Two records -/

/-- `new URL(uri).protocol`, of the addresses of one host. -/
def exampleUrlProtocol : Option (Json Int) → Option JsString
  | some (.str uri) => if uri.startsWith (js "https://h2a.example/") then some (js "https:") else none
  | _ => none

/-- A registration with a command line, which no plan has. -/
def exampleRegistration : Json Int :=
  .obj [(js "instance", .str (js "codex:worker")), (js "pid", .num 7),
    (js "endpoints", .arr [.obj [(js "kind", .str (js "remote")),
      (js "uri", .str (js "https://h2a.example/drive"))]])]

theorem narrowing_exact_registration :
    StaysNarrow (narrowIngestedRegistration exampleUrlProtocol) exampleRegistration ∧
      ¬PathsKept exampleRegistration
        (narrowIngestedRegistration exampleUrlProtocol exampleRegistration) := by
  have hdistinct : exampleRegistration.Distinct :=
    ⟨by decide, trivial, trivial, ⟨⟨by decide, trivial, trivial, trivial⟩, trivial⟩, trivial⟩
  have hplain : ∀ x, exampleRegistration.get (js "endpoints") = some x →
      HavePlainUris exampleUrlProtocol x := by
    rintro _ ⟨⟩ _ ⟨⟩ e he -
    rw [List.mem_singleton] at he
    subst he
    exact ⟨_, rfl, rfl⟩
  have hshape : IsRegistrationShape exampleRegistration := by
    refine ⟨⟨fun m hm _ => ?_, fun _ hsame => by cases hsame⟩, ?_, fun _ hx => by cases hx⟩
    · simp only [List.mem_cons, List.not_mem_nil, or_false] at hm
      rcases hm with rfl | rfl | rfl <;> decide
    · rintro _ ⟨⟩
      refine ⟨fun _ hsame => (by cases hsame), ?_⟩
      rintro _ ⟨⟩
      refine ⟨by simp, fun e he => ?_⟩
      rw [List.mem_singleton] at he
      subst he
      intro m hm _
      simp only [List.mem_cons, List.not_mem_nil, or_false] at hm
      rcases hm with rfl | rfl <;> decide
  obtain ⟨⟨-, hstays, hreport⟩, -⟩ :=
    @narrowing_exact _ exampleUrlProtocol rfl _ hdistinct
  refine ⟨hstays.mpr hplain, mt (hreport hshape).mpr ?_⟩
  decide

/-- A binding with a member that the plan does not have. -/
def exampleBinding : Json Int :=
  .obj [(js "id", .str (js "sub:1")), (js "toString", .str (js "x"))]

/-- The member is lost and nothing is reported. -/
theorem narrowing_unreported :
    ¬∀ record : Json Int, record.Distinct → ReportExact narrowIngestedSubagent record := by
  intro h
  have hdistinct : exampleBinding.Distinct := ⟨by decide, trivial, trivial, trivial⟩
  have hkept := (h exampleBinding hdistinct).mp rfl
  have hlost := hkept [.key (js "toString")] (.str (js "x")) rfl (by simp)
  exact absurd hlost (by decide)

end H2a.Mirror
