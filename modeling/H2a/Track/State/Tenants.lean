import H2a.Track.State.Ids
/-!
# Tenants

Items, decisions and demands belong to the workspace they were created in, blockers,
criteria and amendments to that of their item.  `tenant` is what a state holds of one
workspace; events that stay `Within` another workspace leave it as it is.
-/

namespace H2a.Track

open H2a.Library H2a.Track.Model

/-! ## What creation fixes, between two logs -/

/-- What stays of an entity from its creation on. -/
structure Birth (β : Type) where
  of : State → JsString → Option β
  created : ∀ log x b, of (rawFold log) x = some b → x ∈ createdIn log
  step : ∀ s e x, x ∉ e.creates → of (applyEvent s e) x = of s x

namespace Birth

variable {V β : Type}

/-- The birth of the entities of one collection. -/
def ofMap (get : State → JsString → Option V) (birth : V → β)
    (hcreated : ∀ log x v, get (rawFold log) x = some v → x ∈ createdIn log)
    (hkeeps : ∀ {s : State} {e : EventData} {x v}, get s x = some v → x ∉ e.creates →
      ∃ v', get (applyEvent s e) x = some v' ∧ birth v' = birth v)
    (hstep : ∀ {s : State} {e : EventData} {x v'}, get (applyEvent s e) x = some v' →
      x ∈ e.creates ∨ ∃ v, get s x = some v ∧ birth v' = birth v) : Birth β where
  of s x := (get s x).map birth
  created log x b h := by
    obtain ⟨v, hv, -⟩ := Option.map_eq_some_iff.mp h
    exact hcreated log x v hv
  step s e x hx := by
    cases hbefore : get s x with
    | some v =>
        obtain ⟨v', hv', hbirth⟩ := hkeeps hbefore hx
        rw [hv', Option.map_some, Option.map_some, hbirth]
    | none =>
        rw [Option.map_none, Option.map_eq_none_iff, Option.eq_none_iff_forall_ne_some]
        intro v' hv'
        rcases hstep hv' with hcreates | ⟨v, hv, -⟩
        · exact hx hcreates
        · rw [hbefore] at hv
          cases hv

def items : Birth (ItemId × JsString × Option DemandId) :=
  ofMap (fun s x => s.items.get x) itemBirth
    (fun log x item h => ((known_rawFold log).items x item h).2) item_keeps fun h => by
      rcases item_step h with ⟨payload, hbody, rfl, -⟩ | hkept
      · exact .inl (by simp [EventData.creates, EventBody.creates, hbody])
      · exact .inr hkept

def decisions : Birth (ItemId × JsString × Gate × List ItemId) :=
  ofMap (fun s x => s.decisions.get x) decisionBirth
    (fun log x decision h => ((known_rawFold log).decisions x decision h).2.1) decision_keeps
    fun h => by
      rcases decision_step h with ⟨payload, hbody, rfl, -⟩ | hkept
      · exact .inl (by simp [EventData.creates, EventBody.creates, hbody])
      · exact .inr hkept

def blockers : Birth (BlockerId × ItemId × BlockerKind × Option ItemId) :=
  ofMap (fun s x => s.blockers.get x) blockerBirth
    (fun log x blocker h => ((known_rawFold log).blockers x blocker h).2) blocker_keeps
    fun h => by
      rcases blocker_step h with ⟨payload, hbody, rfl, -⟩ | hkept
      · exact .inl (by simp [EventData.creates, EventBody.creates, hbody])
      · exact .inr hkept

def criteria : Birth (JsString × ItemId) :=
  ofMap (fun s x => s.criteria.get x) criterionBirth
    (fun log x criterion h => ((known_rawFold log).criteria x criterion h).2.1) criterion_keeps
    fun h => by
      rcases criterion_step h with ⟨statement, hbody, -⟩ | hkept
      · exact .inl (by simp [EventData.creates, EventBody.creates, hbody])
      · exact .inr hkept

def demands : Birth (DemandId × JsString) :=
  ofMap (fun s x => s.demands.get x) demandBirth
    (fun log x demand h => ((known_rawFold log).demands x demand h).2) demand_keeps
    fun h => by
      rcases demand_step h with ⟨payload, workspace, hbody, rfl, -⟩ | hkept
      · exact .inl (by simp [EventData.creates, EventBody.creates, hbody])
      · exact .inr hkept

variable {base log : List Event} {x : JsString}

/-- Between two logs a birth is the same, unless it is between them that it took place. -/
theorem settled (birth : Birth β) (hfresh : Fresh log) (hbase : base <+: log)
    (hx : x ∈ createdIn log → x ∈ createdIn base) :
    birth.of (rawFold log) x = birth.of (rawFold base) x := by
  by_cases hcreated : x ∈ createdIn base
  · exact hfresh.persists hbase hcreated (P := fun s => birth.of s x = birth.of (rawFold base) x)
      (fun s e hnot hs => (birth.step s e x hnot).trans hs) rfl
  · have hnone : ∀ log', x ∉ createdIn log' → birth.of (rawFold log') x = none := by
      intro log' hnot
      rw [Option.eq_none_iff_forall_ne_some]
      exact fun b hb => hnot (birth.created log' x b hb)
    rw [hnone log fun h => hcreated (hx h), hnone base hcreated]

end Birth

/-- The target of a blocker was published with it. -/
theorem blocker_target (log : List Event) : ∀ x blocker,
    (rawFold log).blockers.get x = some blocker → blocker.targetId ∈ published log := by
  refine replay_keeps (P := fun s => ∀ x blocker, s.blockers.get x = some blocker →
    blocker.targetId ∈ published log) ?_ fun x blocker h => by cases h
  intro s e he hs x blocker' hblocker'
  obtain ⟨ev, hev, rfl⟩ := List.mem_map.mp he
  rcases blocker_step hblocker' with ⟨payload, hbody, -, rfl⟩ | ⟨blocker, hblocker, hbirth⟩
  · refine List.mem_flatMap.mpr ⟨ev, hev, ?_⟩
    simp [EventData.ids, EventBody.ids, hbody, blockerOfOpened]
  · simp only [blockerBirth, Prod.mk.injEq] at hbirth
    rw [hbirth.2.1]
    exact hs x blocker hblocker

/-! ## Workspaces -/

def itemWorkspace (s : State) (itemId : ItemId) : Option JsString :=
  (s.items.get itemId).map (·.workspace)

def decisionWorkspace (s : State) (decisionId : ItemId) : Option JsString :=
  (s.decisions.get decisionId).map (·.workspace)

def criterionWorkspace (s : State) (criterionId : JsString) : Option JsString :=
  (s.criteria.get criterionId).bind fun criterion => itemWorkspace s criterion.itemId

def demandWorkspace (s : State) (demandId : DemandId) : Option JsString :=
  (s.demands.get demandId).map (·.workspace)

/-- What a state holds of a workspace. -/
@[ext] structure Tenant where
  items : ItemId → Option ItemState
  decisions : ItemId → Option DecisionState
  demands : DemandId → Option DemandState
  blockers : BlockerId → Option BlockerState
  criteria : JsString → Option CriterionState
  specAmendments : ItemId → Option (List SpecAmendment)

/-- Evidence and verification runs are not in it: their ids are their callers'. -/
def tenant (workspace : JsString) (s : State) : Tenant where
  items x := (s.items.get x).filter (·.workspace = workspace)
  decisions x := (s.decisions.get x).filter (·.workspace = workspace)
  demands x := (s.demands.get x).filter (·.workspace = workspace)
  -- whether a blocker is open may hang on an item of another workspace
  blockers x := ((s.blockers.get x).filter (itemWorkspace s ·.targetId = some workspace)).map
    ({ · with open_ := false })
  criteria x := (s.criteria.get x).filter (itemWorkspace s ·.itemId = some workspace)
  specAmendments x :=
    if itemWorkspace s x = some workspace then s.specAmendments.get x else none

theorem tenant_fold (workspace : JsString) (log : List Event) :
    tenant workspace (fold log) = tenant workspace (rawFold log) := by
  ext1 <;> try rfl
  funext x
  dsimp only [tenant]
  rw [fold_blockers]
  cases (rawFold log).blockers.get x with
  | none => rfl
  | some blocker =>
      rw [Option.map_some, Option.filter_some, Option.filter_some]
      by_cases hplace : itemWorkspace (rawFold log) blocker.targetId = some workspace
      · have hfold : itemWorkspace (fold log) blocker.targetId = some workspace := hplace
        simp [hplace, hfold]
      · have hfold : itemWorkspace (fold log) blocker.targetId ≠ some workspace := hplace
        simp [hplace, hfold]

/-- Nothing, or something of the workspace. -/
def Contains (workspace : JsString) (found : Option JsString) : Prop :=
  ∀ w, found = some w → w = workspace

/-- What an event on the aggregate `x` touches of state `s` is in the workspace. -/
def Within (workspace : JsString) (s : State) (x : Ulid) (body : EventBody) : Prop :=
  match body with
  | .itemCreated payload => payload.workspace = workspace
  | .decisionCreated payload => payload.workspace = workspace ∧
      ∀ target ∈ payload.targets, Contains workspace (itemWorkspace s target)
  | .demandRaised _ w => w = workspace
  | .blockerOpened payload => Contains workspace (itemWorkspace s payload.targetId)
  | .blockerResolved _ _ _ => ∀ blocker, s.blockers.get x = some blocker →
      Contains workspace (itemWorkspace s blocker.targetId)
  | .decisionOutcome _ => ∀ decision, s.decisions.get x = some decision →
      decision.workspace = workspace ∧
        ∀ target ∈ decision.targets, Contains workspace (itemWorkspace s target)
  | .dossierRevised _ | .decisionOptionSelected _ | .decisionArtifactAdded _ =>
      Contains workspace (decisionWorkspace s x)
  | .decisionDisposition itemId _ _ _ => Contains workspace (itemWorkspace s itemId)
  | .specAmended payload => Contains workspace (itemWorkspace s payload.itemId)
  | .acceptanceWaived criterionId _ _ => Contains workspace (criterionWorkspace s criterionId)
  | .realizationTransition _ _ =>
      Contains workspace ((itemWorkspace s x).or (decisionWorkspace s x))
  | .demandQualifyingStarted _ _ | .demandAgreed _ _ _ _ | .demandDisposition _ _ _ _ _ _ =>
      Contains workspace (demandWorkspace s x)
  | .evidenceLinked _ _ _ _ | .acceptanceRun _ _ | .verificationRecorded _
  | .branchImported _ _ _ _ => True
  | _ => Contains workspace (itemWorkspace s x)

/-- There is nothing of the id yet. -/
structure Unborn (s : State) (x : JsString) : Prop where
  items : s.items.get x = none
  decisions : s.decisions.get x = none
  demands : s.demands.get x = none
  blockers : s.blockers.get x = none
  criteria : s.criteria.get x = none

theorem unborn_of_not_mem {log : List Event} {x : JsString} (h : x ∉ createdIn log) :
    Unborn (rawFold log) x := by
  have hknown := known_rawFold log
  constructor <;> rw [Option.eq_none_iff_forall_ne_some]
  · exact fun item hitem => h (hknown.items x item hitem).2
  · exact fun decision hdecision => h (hknown.decisions x decision hdecision).2.1
  · exact fun demand hdemand => h (hknown.demands x demand hdemand).2
  · exact fun blocker hblocker => h (hknown.blockers x blocker hblocker).2
  · exact fun criterion hcriterion => h (hknown.criteria x criterion hcriterion).2.1

/-! ## An event within a workspace -/

section Step

variable {workspace other : JsString} {s : State} {e : EventData}

theorem Contains.map {α : Type} {f : α → JsString} {found : Option α} {a : α}
    (h : Contains workspace (found.map f)) (ha : found = some a) : f a = workspace :=
  h (f a) (by rw [ha, Option.map_some])

theorem contains_map {α : Type} {f : α → JsString} {found : Option α}
    (h : ∀ a, found = some a → f a = workspace) : Contains workspace (found.map f) := by
  intro w hw
  obtain ⟨a, ha, rfl⟩ := Option.map_eq_some_iff.mp hw
  exact h a ha

theorem contains_none : Contains workspace none := fun _ hw => by cases hw

theorem Contains.ne_some {found : Option JsString} (h : Contains workspace found)
    (hne : other ≠ workspace) : found ≠ some other :=
  fun hother => hne (h other hother)

theorem Contains.filter {α : Type} {f : α → JsString} {found : Option α}
    (h : Contains workspace (found.map f)) (hne : other ≠ workspace) :
    found.filter (f · = other) = none := by
  rw [Option.filter_eq_none_iff]
  intro a ha
  have hother := hne
  rw [← h.map ha] at hother
  simpa using hother.symm

theorem filter_of_contains {α : Type} {place : α → Option JsString} {found : Option α}
    (h : ∀ a, found = some a → Contains workspace (place a)) (hne : other ≠ workspace) :
    found.filter (place · = some other) = none := by
  rw [Option.filter_eq_none_iff]
  intro a ha
  simpa using (h a ha).ne_some hne

theorem contains_of_bind {α : Type} {place : α → Option JsString} {found : Option α}
    (h : Contains workspace (found.bind place)) :
    ∀ a, found = some a → Contains workspace (place a) := by
  intro a ha
  rwa [ha, Option.bind_some] at h

/-- No event takes an item away. -/
theorem itemWorkspace_eq_none {x : ItemId} (h : itemWorkspace (applyEvent s e) x = none) :
    itemWorkspace s x = none := by
  rw [itemWorkspace, Option.map_eq_none_iff] at h ⊢
  rw [items_applyEvent] at h
  unfold itemAt at h
  split at h
  · split at h
    · cases h
    · exact h
  · split at h
    · exact h
    · split at h
      · exact Option.map_eq_none_iff.mp h
      · exact h
  · split at h
    · exact Option.map_eq_none_iff.mp h
    · exact h
  · split at h
    · exact Option.map_eq_none_iff.mp h
    · exact h

theorem Within.created (h : Within workspace s e.aggregateId e.body) {payload : ItemCreatedPayload}
    (hbody : e.body = .itemCreated payload) : payload.workspace = workspace := by
  rw [hbody] at h
  exact h

/-- An event within a workspace brings nothing under an id that was not there. -/
theorem Within.item (h : Within workspace s e.aggregateId e.body) {x : ItemId}
    (hx : Contains workspace (itemWorkspace s x)) :
    Contains workspace (itemWorkspace (applyEvent s e) x) := by
  apply contains_map
  intro item' hitem'
  rcases item_step hitem' with ⟨payload, hbody, -, rfl⟩ | ⟨item, hitem, hbirth⟩
  · exact h.created hbody
  · simp only [itemBirth, Prod.mk.injEq] at hbirth
    rw [hbirth.2.1]
    exact hx.map hitem

theorem Within.decision (h : Within workspace s e.aggregateId e.body) {x : ItemId}
    (hx : Contains workspace (decisionWorkspace s x)) :
    Contains workspace (decisionWorkspace (applyEvent s e) x) := by
  apply contains_map
  intro decision' hdecision'
  rcases decision_step hdecision' with ⟨payload, hbody, -, rfl⟩ | ⟨decision, hdecision, hbirth⟩
  · rw [hbody] at h
    exact h.1
  · simp only [decisionBirth, Prod.mk.injEq] at hbirth
    rw [hbirth.2.1]
    exact hx.map hdecision

theorem Within.demand (h : Within workspace s e.aggregateId e.body) {x : DemandId}
    (hx : Contains workspace (demandWorkspace s x)) :
    Contains workspace (demandWorkspace (applyEvent s e) x) := by
  apply contains_map
  intro demand' hdemand'
  rcases demand_step hdemand' with ⟨payload, w, hbody, -, rfl⟩ | ⟨demand, hdemand, hbirth⟩
  · rw [hbody] at h
    exact h
  · simp only [demandBirth, Prod.mk.injEq] at hbirth
    rw [hbirth.2]
    exact hx.map hdemand

theorem Within.blocker (h : Within workspace s e.aggregateId e.body) {x : BlockerId}
    (hx : ∀ blocker, s.blockers.get x = some blocker →
      Contains workspace (itemWorkspace s blocker.targetId)) :
    ∀ blocker, (applyEvent s e).blockers.get x = some blocker →
      Contains workspace (itemWorkspace (applyEvent s e) blocker.targetId) := by
  intro blocker' hblocker'
  rcases blocker_step hblocker' with ⟨payload, hbody, -, rfl⟩ | ⟨blocker, hblocker, hbirth⟩
  · have htarget := h
    rw [hbody] at htarget
    exact h.item htarget
  · simp only [blockerBirth, Prod.mk.injEq] at hbirth
    rw [hbirth.2.1]
    exact h.item (hx blocker hblocker)

theorem Within.criterion (h : Within workspace s e.aggregateId e.body) {x : JsString}
    (hx : Contains workspace (criterionWorkspace s x)) :
    Contains workspace (criterionWorkspace (applyEvent s e) x) := by
  intro w hw
  obtain ⟨criterion', hcriterion', hw⟩ := Option.bind_eq_some_iff.mp hw
  rcases criterion_step hcriterion' with ⟨statement, hbody, rfl⟩ |
    ⟨criterion, hcriterion, hbirth⟩
  · have hitem := h
    rw [hbody] at hitem
    exact h.item hitem w hw
  · simp only [criterionBirth, Prod.mk.injEq] at hbirth
    rw [hbirth.2] at hw
    refine h.item (fun w' hw' => hx w' ?_) w hw
    rw [criterionWorkspace, hcriterion, Option.bind_some, hw']

/-- A decision of the workspace all of whose targets are in it. -/
theorem Within.outcome (h : Within workspace s e.aggregateId e.body) {x : ItemId}
    (hx : ∀ decision, s.decisions.get x = some decision → decision.workspace = workspace ∧
      ∀ target ∈ decision.targets, Contains workspace (itemWorkspace s target)) :
    ∀ decision, (applyEvent s e).decisions.get x = some decision →
      decision.workspace = workspace ∧
        ∀ target ∈ decision.targets, Contains workspace (itemWorkspace (applyEvent s e) target) := by
  intro decision' hdecision'
  rcases decision_step hdecision' with ⟨payload, hbody, -, rfl⟩ | ⟨decision, hdecision, hbirth⟩
  · have hcreated := h
    rw [hbody] at hcreated
    exact ⟨hcreated.1, fun target htarget => h.item (hcreated.2 target htarget)⟩
  · simp only [decisionBirth, Prod.mk.injEq] at hbirth
    rw [hbirth.2.1, hbirth.2.2.2]
    obtain ⟨hworkspace, htargets⟩ := hx decision hdecision
    exact ⟨hworkspace, fun target htarget => h.item (htargets target htarget)⟩

/-- What was within the workspace is so after another event that was. -/
theorem Within.keeps (h : Within workspace s e.aggregateId e.body) {x : Ulid} {body : EventBody}
    (hx : Within workspace s x body) : Within workspace (applyEvent s e) x body := by
  cases body with
  | itemCreated _ | demandRaised _ _ => exact hx
  | decisionCreated payload =>
      exact ⟨hx.1, fun target htarget => h.item (hx.2 target htarget)⟩
  | decisionOutcome dest => exact h.outcome hx
  | blockerResolved _ _ _ => exact h.blocker hx
  | dossierRevised _ | decisionOptionSelected _ | decisionArtifactAdded _ => exact h.decision hx
  | acceptanceWaived _ _ _ => exact h.criterion hx
  | demandQualifyingStarted _ _ | demandAgreed _ _ _ _ | demandDisposition _ _ _ _ _ _ =>
      exact h.demand hx
  | realizationTransition dest cause =>
      intro w hw
      cases hafter : itemWorkspace (applyEvent s e) x with
      | some w' =>
          rw [hafter, Option.some_or, Option.some.injEq] at hw
          have hbefore : Contains workspace (itemWorkspace s x) := by
            intro w'' hw''
            apply hx w''
            rw [hw'', Option.some_or]
          exact h.item hbefore w (hw ▸ hafter)
      | none =>
          rw [hafter, Option.none_or] at hw
          refine h.decision (fun w' hw' => hx w' ?_) w hw
          rw [itemWorkspace_eq_none hafter, Option.none_or, hw']
  | evidenceLinked _ _ _ _ | acceptanceRun _ _ | verificationRecorded _ | branchImported _ _ _ _ =>
      trivial
  | _ => exact h.item hx

/-! ## The other workspaces -/

/-- The item of an id is as it was, or it is of the workspace. -/
theorem Within.items (h : Within workspace s e.aggregateId e.body)
    (hnew : ∀ x ∈ e.creates, Unborn s x) (x : ItemId) :
    (applyEvent s e).items.get x = s.items.get x ∨ Contains workspace (itemWorkspace s x) := by
  rw [items_applyEvent]
  unfold itemAt
  cases hbody : e.body with
  | itemCreated payload =>
      dsimp only
      split
      · rename_i hx
        have hunborn : Unborn s x :=
          hnew x (by simp [EventData.creates, EventBody.creates, hbody, hx])
        exact .inr (by rw [itemWorkspace, hunborn.items]; exact contains_none)
      · exact .inl rfl
  | decisionOutcome dest =>
      rw [hbody] at h
      dsimp only
      split
      · exact .inl rfl
      · rename_i decision hdecision
        split
        · rename_i hsettled
          exact .inr ((h decision hdecision).2 x hsettled.2)
        · exact .inl rfl
  | decisionDisposition itemId gate disposition reason =>
      rw [hbody] at h
      dsimp only
      split
      · rename_i hx
        exact .inr (hx ▸ h)
      · exact .inl rfl
  | realizationTransition dest cause =>
      rw [hbody] at h
      dsimp only
      split
      · rename_i hx
        subst hx
        cases hitem : s.items.get e.aggregateId with
        | none => exact .inl rfl
        | some item =>
            refine .inr fun w hw => h w ?_
            rw [hw, Option.some_or]
      · exact .inl rfl
  | itemReportUpdated _ | itemLinkAdded _ | itemReparented _ _ _ | scopeDeclared _
  | itemCodeAssigned _ | itemRaciAssigned _ | itemRoleChanged _ | specTransition _
  | realizationReopened _ _ | realizationAnchored _ _ _ | priorityAssessed _ =>
      rw [hbody] at h
      dsimp only
      split
      · rename_i hx
        exact .inr (hx ▸ h)
      · exact .inl rfl
  | _ =>
      left
      dsimp only
      split
      · have hedit : itemEdit e = id := by
          funext item
          simp [itemEdit, hbody]
        rw [hedit, Option.map_id_fun, id_eq]
      · rfl

theorem Within.decisions (h : Within workspace s e.aggregateId e.body)
    (hnew : ∀ x ∈ e.creates, Unborn s x) (x : ItemId) :
    (applyEvent s e).decisions.get x = s.decisions.get x ∨
      Contains workspace (decisionWorkspace s x) := by
  rw [decisions_applyEvent]
  unfold decisionAt
  split
  · rename_i hx
    subst hx
    cases hbody : e.body with
    | decisionCreated payload =>
        have hunborn : Unborn s e.aggregateId :=
          hnew _ (by simp [EventData.creates, EventBody.creates, hbody])
        exact .inr (by rw [decisionWorkspace, hunborn.decisions]; exact contains_none)
    | decisionOutcome dest =>
        rw [hbody] at h
        exact .inr (contains_map fun decision hdecision => (h decision hdecision).1)
    | dossierRevised _ | decisionOptionSelected _ | decisionArtifactAdded _ =>
        rw [hbody] at h
        exact .inr h
    | realizationTransition dest cause =>
        rw [hbody] at h
        cases hitem : s.items.get e.aggregateId with
        | none => exact .inr fun w hw => h w (by rw [itemWorkspace, hitem]; exact hw)
        | some item =>
            -- the realization is the item's
            have hhas : s.items.has e.aggregateId = true := (JsMap.has_iff _ _).mpr ⟨item, hitem⟩
            have hedit : decisionEdit true e = id := by
              funext decision
              simp [decisionEdit, hbody]
            exact .inl (by simp [hhas, hedit])
    | _ =>
        have hedit : decisionEdit (s.items.has e.aggregateId) e = id := by
          funext decision
          simp [decisionEdit, hbody]
        exact .inl (by simp [hedit])
  · exact .inl rfl

theorem Within.demands (h : Within workspace s e.aggregateId e.body)
    (hnew : ∀ x ∈ e.creates, Unborn s x) (x : DemandId) :
    (applyEvent s e).demands.get x = s.demands.get x ∨
      Contains workspace (demandWorkspace s x) := by
  rw [demands_applyEvent]
  unfold demandAt
  split
  · rename_i hx
    subst hx
    cases hbody : e.body with
    | demandRaised payload w =>
        have hunborn : Unborn s e.aggregateId :=
          hnew _ (by simp [EventData.creates, EventBody.creates, hbody])
        exact .inr (by rw [demandWorkspace, hunborn.demands]; exact contains_none)
    | demandQualifyingStarted _ _ | demandAgreed _ _ _ _ | demandDisposition _ _ _ _ _ _ =>
        rw [hbody] at h
        exact .inr h
    | _ =>
        have hedit : demandEdit e = id := by
          funext demand
          simp [demandEdit, hbody]
        exact .inl (by simp [hedit])
  · exact .inl rfl

/-- What belongs to another workspace is the same items as before. -/
theorem Within.itemWorkspace_iff (h : Within workspace s e.aggregateId e.body)
    (hnew : ∀ x ∈ e.creates, Unborn s x) (hne : other ≠ workspace) (x : ItemId) :
    itemWorkspace (applyEvent s e) x = some other ↔ itemWorkspace s x = some other := by
  rcases h.items hnew x with hsame | hbefore
  · rw [itemWorkspace, hsame, itemWorkspace]
  · exact iff_of_false ((h.item hbefore).ne_some hne) (hbefore.ne_some hne)

theorem Within.blockers (h : Within workspace s e.aggregateId e.body)
    (hnew : ∀ x ∈ e.creates, Unborn s x) (x : BlockerId) :
    (applyEvent s e).blockers.get x = s.blockers.get x ∨ ∀ blocker,
      s.blockers.get x = some blocker → Contains workspace (itemWorkspace s blocker.targetId) := by
  rw [blockers_applyEvent]
  unfold blockerAt
  cases hbody : e.body with
  | blockerOpened payload =>
      dsimp only
      split
      · rename_i hx
        have hunborn : Unborn s x :=
          hnew x (by simp [EventData.creates, EventBody.creates, hbody, hx])
        exact .inr fun blocker hblocker => by rw [hunborn.blockers] at hblocker; cases hblocker
      · exact .inl rfl
  | blockerResolved blockerId decisionId engagementRef =>
      rw [hbody] at h
      dsimp only
      split
      · rename_i hx
        exact .inr (hx ▸ h)
      · exact .inl rfl
  | _ => exact .inl rfl

theorem Within.criteria (h : Within workspace s e.aggregateId e.body)
    (hnew : ∀ x ∈ e.creates, Unborn s x) (x : JsString) :
    (applyEvent s e).criteria.get x = s.criteria.get x ∨
      Contains workspace (criterionWorkspace s x) := by
  rw [criteria_applyEvent]
  unfold criterionAt
  cases hbody : e.body with
  | criterionAdded criterionId statement =>
      dsimp only
      split
      · rename_i hx
        have hunborn : Unborn s x :=
          hnew x (by simp [EventData.creates, EventBody.creates, hbody, hx])
        exact .inr (by rw [criterionWorkspace, hunborn.criteria]; exact contains_none)
      · exact .inl rfl
  | acceptanceWaived criterionId reason by_ =>
      rw [hbody] at h
      dsimp only
      split
      · rename_i hx
        exact .inr (hx ▸ h)
      · exact .inl rfl
  | _ => exact .inl rfl

theorem Within.specAmendments (h : Within workspace s e.aggregateId e.body)
    (hnew : ∀ x ∈ e.creates, Unborn s x) (hne : other ≠ workspace) (x : ItemId) :
    (tenant other (applyEvent s e)).specAmendments x = (tenant other s).specAmendments x := by
  simp only [tenant, h.itemWorkspace_iff hnew hne]
  split
  · rename_i hother
    rw [specAmendments_applyEvent]
    cases hbody : e.body with
    | specAmended payload =>
        rw [hbody] at h
        have hx : x ≠ payload.itemId := by
          intro hx
          exact h.ne_some hne (hx ▸ hother)
        simp [amendmentsAt, hbody, hx]
    | _ => simp [amendmentsAt, hbody]
  · rfl

/-- An event within a workspace leaves every other one as it is. -/
theorem Within.tenant (h : Within workspace s e.aggregateId e.body)
    (hnew : ∀ x ∈ e.creates, Unborn s x) (hne : other ≠ workspace) :
    tenant other (applyEvent s e) = tenant other s := by
  ext1
  · funext x
    dsimp only [Track.tenant]
    rcases h.items hnew x with hsame | hbefore
    · rw [hsame]
    · exact ((h.item hbefore).filter hne).trans (hbefore.filter hne).symm
  · funext x
    dsimp only [Track.tenant]
    rcases h.decisions hnew x with hsame | hbefore
    · rw [hsame]
    · exact ((h.decision hbefore).filter hne).trans (hbefore.filter hne).symm
  · funext x
    dsimp only [Track.tenant]
    rcases h.demands hnew x with hsame | hbefore
    · rw [hsame]
    · exact ((h.demand hbefore).filter hne).trans (hbefore.filter hne).symm
  · funext x
    dsimp only [Track.tenant]
    rcases h.blockers hnew x with hsame | hbefore
    · simp only [hsame, h.itemWorkspace_iff hnew hne]
    · rw [filter_of_contains hbefore hne, filter_of_contains (h.blocker hbefore) hne]
  · funext x
    dsimp only [Track.tenant]
    rcases h.criteria hnew x with hsame | hbefore
    · simp only [hsame, h.itemWorkspace_iff hnew hne]
    · rw [filter_of_contains (contains_of_bind hbefore) hne,
        filter_of_contains (contains_of_bind (h.criterion hbefore)) hne]
  · exact funext (h.specAmendments hnew hne)

end Step

end H2a.Track
