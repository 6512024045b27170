import H2a.Track.State.Keys
/-!
# Ids

The ids a log publishes and the ones it creates.  Where nothing is created twice,
what an entity was created with it keeps: an item its workspace, a decision its
targets, a blocker its target, a criterion its item.
-/

namespace H2a.Track.Model

open H2a.Library

/-! ## What an event publishes and creates -/

/-- The ids in the payload of an event. -/
def EventBody.ids (body : EventBody) : List JsString :=
  match body with
  | .itemCreated payload => payload.parentId.toList ++ payload.demandId.toList
  | .itemReparented parentId _ _ => parentId.toList
  | .specAmended payload => payload.itemId :: payload.decisionId.toList
  | .realizationTransition _ cause => cause.toList
  | .realizationReopened itemId _ => itemId.toList
  | .realizationAnchored itemId _ _ => [itemId]
  | .decisionCreated payload => payload.targets ++ payload.parentId.toList
  | .decisionDisposition itemId _ _ _ => [itemId]
  | .criterionAdded criterionId _ => [criterionId]
  | .evidenceLinked evidenceId criterionId _ _ => [evidenceId, criterionId]
  | .acceptanceRun evidenceId _ => [evidenceId]
  | .acceptanceWaived criterionId _ _ => [criterionId]
  | .verificationRecorded payload => payload.runId :: payload.wpRef.toList
  | .blockerOpened payload => payload.blockerId :: payload.targetId :: payload.ref.toList
  | .blockerResolved blockerId decisionId _ => blockerId :: decisionId.toList
  | .priorityAssessed assessment => [assessment.itemId]
  | .demandRaised payload _ => payload.concerns.toList
  | .demandAgreed _ itemIds _ _ => itemIds.getD []
  | .demandDisposition _ _ _ duplicateOf _ _ => (duplicateOf.map (·.id)).toList
  | .specStarted itemId _ _ _ => [itemId]
  | .specAbandoned itemId _ _ _ => [itemId]
  | _ => []

/-- The parent a new item is given. -/
def EventBody.parents (body : EventBody) : List ItemId :=
  match body with
  | .itemCreated payload => payload.parentId.toList
  | _ => []

/-- The parent an event gives to an item. -/
def EventBody.parentsSet (body : EventBody) : List ItemId :=
  match body with
  | .itemCreated payload => payload.parentId.toList
  | .itemReparented parentId _ _ => parentId.toList
  | _ => []

/-- The key of the entity an event creates; evidence and runs may be keyed by
their caller and are left out. -/
def EventBody.creates (body : EventBody) (aggregateId : Ulid) : List JsString :=
  match body with
  | .itemCreated _ | .decisionCreated _ | .blockerOpened _ | .demandRaised _ _ => [aggregateId]
  | .criterionAdded criterionId _ => [criterionId]
  | _ => []

def EventData.ids (e : EventData) : List JsString := e.aggregateId :: e.body.ids

def EventData.creates (e : EventData) : List JsString := e.body.creates e.aggregateId

theorem EventData.creates_sub (e : EventData) : ∀ x ∈ e.creates, x ∈ e.ids := by
  intro x hx
  unfold EventData.creates EventBody.creates at hx
  unfold EventData.ids EventBody.ids
  cases hbody : e.body <;> rw [hbody] at hx <;> simp_all

end H2a.Track.Model

namespace H2a.Track

open H2a.Library H2a.Track.Model

def published (log : List Event) : List JsString := log.flatMap fun e => e.core.ids

def createdIn (log : List Event) : List JsString := log.flatMap fun e => e.core.creates

/-- Nothing is created twice. -/
def Fresh (log : List Event) : Prop := (createdIn log).Nodup

@[simp] theorem published_append (log log' : List Event) :
    published (log ++ log') = published log ++ published log' := by
  simp [published]

@[simp] theorem createdIn_append (log log' : List Event) :
    createdIn (log ++ log') = createdIn log ++ createdIn log' := by
  simp [createdIn]

theorem createdIn_sub (log : List Event) : ∀ x ∈ createdIn log, x ∈ published log := by
  intro x hx
  obtain ⟨e, he, hx⟩ := List.mem_flatMap.mp hx
  exact List.mem_flatMap.mpr ⟨e, he, e.core.creates_sub x hx⟩

theorem published_mono {view log : List Event} (h : view <+: log) {x : JsString}
    (hx : x ∈ published view) : x ∈ published log := by
  obtain ⟨rest, rfl⟩ := h
  rw [published_append]
  exact List.mem_append_left _ hx

/-! ## Replay -/

/-- The cores of a log. -/
def cores (log : List Event) : List EventData := log.map (·.core)

@[simp] theorem replay_nil (s : State) : replay s [] = s := rfl

@[simp] theorem replay_cons (s : State) (e : EventData) (rest : List EventData) :
    replay s (e :: rest) = replay (applyEvent s e) rest := rfl

theorem replay_append (s : State) (xs ys : List EventData) :
    replay s (xs ++ ys) = replay (replay s xs) ys := by
  simp [replay]

theorem replay_keeps {P : State → Prop} {es : List EventData}
    (hstep : ∀ s, ∀ e ∈ es, P s → P (applyEvent s e)) {s : State} (hs : P s) :
    P (replay s es) := by
  induction es generalizing s with
  | nil => exact hs
  | cons e rest ih =>
      refine ih (fun s' e' he' => hstep s' e' (List.mem_cons_of_mem _ he')) ?_
      exact hstep s e List.mem_cons_self hs

/-- The state a log leaves, but for the openness of its blockers. -/
def rawFold (log : List Event) : State := replay emptyState (cores log)

theorem rawFold_append (log events : List Event) :
    rawFold (log ++ events) = replay (rawFold log) (cores events) := by
  simp [rawFold, cores, replay_append]

theorem rawFold_concat (pre : List Event) (ev : Event) :
    rawFold (pre ++ [ev]) = applyEvent (rawFold pre) ev.core := rawFold_append pre [ev]

/-- What every event of a batch keeps, after what came before it, the batch keeps. -/
theorem keeps_along {P : List Event → Prop} {log events : List Event} (h : P log)
    (hstep : ∀ pre ev post, events = pre ++ ev :: post → P (log ++ pre) →
      P (log ++ pre ++ [ev])) : P (log ++ events) := by
  induction events generalizing log with
  | nil => simpa using h
  | cons ev rest ih =>
      have hfirst : P (log ++ [ev]) := by simpa using hstep [] ev rest rfl (by simpa using h)
      have hrest := ih hfirst fun pre ev' post hsplit hpre => by
        simpa using hstep (ev :: pre) ev' post (by rw [hsplit]; rfl) (by simpa using hpre)
      simpa using hrest

@[simp] theorem fold_items (log : List Event) : (fold log).items = (rawFold log).items := rfl
@[simp] theorem fold_decisions (log : List Event) :
    (fold log).decisions = (rawFold log).decisions := rfl
@[simp] theorem fold_criteria (log : List Event) :
    (fold log).criteria = (rawFold log).criteria := rfl
@[simp] theorem fold_evidence (log : List Event) :
    (fold log).evidence = (rawFold log).evidence := rfl
@[simp] theorem fold_verificationRuns (log : List Event) :
    (fold log).verificationRuns = (rawFold log).verificationRuns := rfl
@[simp] theorem fold_specAmendments (log : List Event) :
    (fold log).specAmendments = (rawFold log).specAmendments := rfl
@[simp] theorem fold_demands (log : List Event) : (fold log).demands = (rawFold log).demands := rfl

theorem fold_blockers (log : List Event) (x : BlockerId) :
    (fold log).blockers.get x = ((rawFold log).blockers.get x).map fun blocker =>
      { blocker with open_ := isOpen blocker (rawFold log).items } := by
  simp [fold, State.settle, rawFold, cores]

/-! ## What creation fixes -/

/-- What an item is created with and keeps. -/
def itemBirth (item : ItemState) : ItemId × JsString × Option DemandId :=
  (item.id, item.workspace, item.demandId)

def decisionBirth (decision : DecisionState) : ItemId × JsString × Gate × List ItemId :=
  (decision.id, decision.workspace, decision.decisionKind, decision.targets)

def blockerBirth (blocker : BlockerState) : BlockerId × ItemId × BlockerKind × Option ItemId :=
  (blocker.id, blocker.targetId, blocker.kind, blocker.ref)

def criterionBirth (criterion : CriterionState) : JsString × ItemId :=
  (criterion.id, criterion.itemId)

def demandBirth (demand : DemandState) : DemandId × JsString := (demand.id, demand.workspace)

@[simp] theorem itemBirth_dispose (item : ItemState) (gate : Gate) (d : Disposition) :
    itemBirth (dispose item gate d) = itemBirth item := rfl

@[simp] theorem itemBirth_itemEdit (e : EventData) (item : ItemState) :
    itemBirth (itemEdit e item) = itemBirth item := by
  unfold itemEdit
  split <;> try rfl
  · unfold addLink
    split <;> rfl
  · unfold reopen
    split
    · split <;> rfl
    · rfl

@[simp] theorem decisionBirth_decisionEdit (hasItem : Bool) (e : EventData)
    (decision : DecisionState) :
    decisionBirth (decisionEdit hasItem e decision) = decisionBirth decision := by
  unfold decisionEdit
  split <;> try rfl
  split <;> rfl

@[simp] theorem demandBirth_demandEdit (e : EventData) (demand : DemandState) :
    demandBirth (demandEdit e demand) = demandBirth demand := by
  unfold demandEdit
  split <;> try rfl
  unfold disposeDemand
  split <;> rfl

/-- An item after an event is new, or was there with the same birth. -/
theorem item_step {s : State} {e : EventData} {x : ItemId} {item' : ItemState}
    (h : (applyEvent s e).items.get x = some item') :
    (∃ payload, e.body = .itemCreated payload ∧ x = e.aggregateId ∧
      item' = itemOfCreated x payload) ∨
    ∃ item, s.items.get x = some item ∧ itemBirth item' = itemBirth item := by
  rw [items_applyEvent] at h
  unfold itemAt at h
  split at h
  · rename_i payload hbody
    split at h
    · rename_i hx
      subst hx
      exact .inl ⟨payload, hbody, rfl, (Option.some.inj h).symm⟩
    · exact .inr ⟨item', h, rfl⟩
  · split at h
    · exact .inr ⟨item', h, rfl⟩
    · split at h
      · obtain ⟨item, hitem, rfl⟩ := Option.map_eq_some_iff.mp h
        exact .inr ⟨item, hitem, rfl⟩
      · exact .inr ⟨item', h, rfl⟩
  · split at h
    · obtain ⟨item, hitem, rfl⟩ := Option.map_eq_some_iff.mp h
      exact .inr ⟨item, hitem, rfl⟩
    · exact .inr ⟨item', h, rfl⟩
  · split at h
    · obtain ⟨item, hitem, rfl⟩ := Option.map_eq_some_iff.mp h
      exact .inr ⟨item, hitem, itemBirth_itemEdit e item⟩
    · exact .inr ⟨item', h, rfl⟩

theorem item_keeps {s : State} {e : EventData} {x : ItemId} {item : ItemState}
    (h : s.items.get x = some item) (hx : x ∉ e.creates) :
    ∃ item', (applyEvent s e).items.get x = some item' ∧ itemBirth item' = itemBirth item := by
  rw [items_applyEvent]
  unfold itemAt
  split
  · rename_i payload hbody
    have hne : x ≠ e.aggregateId := by simpa [EventData.creates, EventBody.creates, hbody] using hx
    exact ⟨item, by rw [if_neg hne, h], rfl⟩
  · split
    · exact ⟨item, h, rfl⟩
    · split
      · refine ⟨_, by rw [h, Option.map_some], ?_⟩
        rfl
      · exact ⟨item, h, rfl⟩
  · split
    · refine ⟨_, by rw [h, Option.map_some], ?_⟩
      rfl
    · exact ⟨item, h, rfl⟩
  · split
    · exact ⟨_, by rw [h, Option.map_some], itemBirth_itemEdit e item⟩
    · exact ⟨item, h, rfl⟩

theorem decision_step {s : State} {e : EventData} {x : ItemId} {decision' : DecisionState}
    (h : (applyEvent s e).decisions.get x = some decision') :
    (∃ payload, e.body = .decisionCreated payload ∧ x = e.aggregateId ∧
      decision' = decisionOfCreated x payload) ∨
    ∃ decision, s.decisions.get x = some decision ∧
      decisionBirth decision' = decisionBirth decision := by
  rw [decisions_applyEvent] at h
  unfold decisionAt at h
  split at h
  · rename_i hx
    split at h
    · rename_i payload hbody
      subst hx
      exact .inl ⟨payload, hbody, rfl, (Option.some.inj h).symm⟩
    · obtain ⟨decision, hdecision, rfl⟩ := Option.map_eq_some_iff.mp h
      exact .inr ⟨decision, hdecision, decisionBirth_decisionEdit _ e decision⟩
  · exact .inr ⟨decision', h, rfl⟩

theorem decision_keeps {s : State} {e : EventData} {x : ItemId} {decision : DecisionState}
    (h : s.decisions.get x = some decision) (hx : x ∉ e.creates) :
    ∃ decision', (applyEvent s e).decisions.get x = some decision' ∧
      decisionBirth decision' = decisionBirth decision := by
  rw [decisions_applyEvent]
  unfold decisionAt
  split
  · rename_i hxe
    split
    · rename_i payload hbody
      simp [EventData.creates, EventBody.creates, hbody, hxe] at hx
    · exact ⟨_, by rw [h, Option.map_some], decisionBirth_decisionEdit _ e decision⟩
  · exact ⟨decision, h, rfl⟩

theorem blocker_step {s : State} {e : EventData} {x : BlockerId} {blocker' : BlockerState}
    (h : (applyEvent s e).blockers.get x = some blocker') :
    (∃ payload, e.body = .blockerOpened payload ∧ x = e.aggregateId ∧
      blocker' = blockerOfOpened x payload e.at_) ∨
    ∃ blocker, s.blockers.get x = some blocker ∧
      blockerBirth blocker' = blockerBirth blocker := by
  rw [blockers_applyEvent] at h
  unfold blockerAt at h
  split at h
  · rename_i payload hbody
    split at h
    · rename_i hx
      subst hx
      exact .inl ⟨payload, hbody, rfl, (Option.some.inj h).symm⟩
    · exact .inr ⟨blocker', h, rfl⟩
  · split at h
    · obtain ⟨blocker, hblocker, rfl⟩ := Option.map_eq_some_iff.mp h
      exact .inr ⟨blocker, hblocker, rfl⟩
    · exact .inr ⟨blocker', h, rfl⟩
  · exact .inr ⟨blocker', h, rfl⟩

theorem blocker_keeps {s : State} {e : EventData} {x : BlockerId} {blocker : BlockerState}
    (h : s.blockers.get x = some blocker) (hx : x ∉ e.creates) :
    ∃ blocker', (applyEvent s e).blockers.get x = some blocker' ∧
      blockerBirth blocker' = blockerBirth blocker := by
  rw [blockers_applyEvent]
  unfold blockerAt
  split
  · rename_i payload hbody
    have hne : x ≠ e.aggregateId := by simpa [EventData.creates, EventBody.creates, hbody] using hx
    exact ⟨blocker, by rw [if_neg hne, h], rfl⟩
  · split
    · refine ⟨_, by rw [h, Option.map_some], ?_⟩
      rfl
    · exact ⟨blocker, h, rfl⟩
  · exact ⟨blocker, h, rfl⟩

theorem criterion_step {s : State} {e : EventData} {x : JsString} {criterion' : CriterionState}
    (h : (applyEvent s e).criteria.get x = some criterion') :
    (∃ statement, e.body = .criterionAdded x statement ∧
      criterion' = ⟨x, e.aggregateId, statement, none⟩) ∨
    ∃ criterion, s.criteria.get x = some criterion ∧
      criterionBirth criterion' = criterionBirth criterion := by
  rw [criteria_applyEvent] at h
  unfold criterionAt at h
  split at h
  · rename_i criterionId statement hbody
    split at h
    · rename_i hx
      subst hx
      exact .inl ⟨statement, hbody, (Option.some.inj h).symm⟩
    · exact .inr ⟨criterion', h, rfl⟩
  · split at h
    · obtain ⟨criterion, hcriterion, rfl⟩ := Option.map_eq_some_iff.mp h
      exact .inr ⟨criterion, hcriterion, rfl⟩
    · exact .inr ⟨criterion', h, rfl⟩
  · exact .inr ⟨criterion', h, rfl⟩

theorem criterion_keeps {s : State} {e : EventData} {x : JsString} {criterion : CriterionState}
    (h : s.criteria.get x = some criterion) (hx : x ∉ e.creates) :
    ∃ criterion', (applyEvent s e).criteria.get x = some criterion' ∧
      criterionBirth criterion' = criterionBirth criterion := by
  rw [criteria_applyEvent]
  unfold criterionAt
  split
  · rename_i criterionId statement hbody
    have hne : x ≠ criterionId := by simpa [EventData.creates, EventBody.creates, hbody] using hx
    exact ⟨criterion, by rw [if_neg hne, h], rfl⟩
  · split
    · refine ⟨_, by rw [h, Option.map_some], ?_⟩
      rfl
    · exact ⟨criterion, h, rfl⟩
  · exact ⟨criterion, h, rfl⟩

theorem demand_step {s : State} {e : EventData} {x : DemandId} {demand' : DemandState}
    (h : (applyEvent s e).demands.get x = some demand') :
    (∃ payload workspace, e.body = .demandRaised payload workspace ∧ x = e.aggregateId ∧
      demand' = demandOfRaised x payload workspace) ∨
    ∃ demand, s.demands.get x = some demand ∧ demandBirth demand' = demandBirth demand := by
  rw [demands_applyEvent] at h
  unfold demandAt at h
  split at h
  · rename_i hx
    split at h
    · rename_i payload workspace hbody
      subst hx
      exact .inl ⟨payload, workspace, hbody, rfl, (Option.some.inj h).symm⟩
    · obtain ⟨demand, hdemand, rfl⟩ := Option.map_eq_some_iff.mp h
      exact .inr ⟨demand, hdemand, demandBirth_demandEdit e demand⟩
  · exact .inr ⟨demand', h, rfl⟩

theorem demand_keeps {s : State} {e : EventData} {x : DemandId} {demand : DemandState}
    (h : s.demands.get x = some demand) (hx : x ∉ e.creates) :
    ∃ demand', (applyEvent s e).demands.get x = some demand' ∧
      demandBirth demand' = demandBirth demand := by
  rw [demands_applyEvent]
  unfold demandAt
  split
  · rename_i hxe
    split
    · rename_i payload workspace hbody
      simp [EventData.creates, EventBody.creates, hbody, hxe] at hx
    · exact ⟨_, by rw [h, Option.map_some], demandBirth_demandEdit e demand⟩
  · exact ⟨demand, h, rfl⟩

/-! ## Along a log -/

/-- Whatever a state holds stands under its own id, an id it was created with or
one that was published. -/
structure Known (created ids : JsString → Prop) (s : State) : Prop where
  items : ∀ x item, s.items.get x = some item → item.id = x ∧ created x
  decisions : ∀ x decision, s.decisions.get x = some decision →
    decision.id = x ∧ created x ∧ ∀ target ∈ decision.targets, ids target
  blockers : ∀ x blocker, s.blockers.get x = some blocker → blocker.id = x ∧ created x
  criteria : ∀ x criterion, s.criteria.get x = some criterion →
    criterion.id = x ∧ created x ∧ ids criterion.itemId
  evidence : ∀ x evidence, s.evidence.get x = some evidence → evidence.id = x ∧ ids x
  demands : ∀ x demand, s.demands.get x = some demand → demand.id = x ∧ created x

theorem known_empty (created ids : JsString → Prop) : Known created ids emptyState := by
  constructor <;> simp [emptyState]

theorem Known.applyEvent {created ids : JsString → Prop} {s : State} {e : EventData}
    (h : Known created ids s) (hcreates : ∀ x ∈ e.creates, created x)
    (hids : ∀ x ∈ e.ids, ids x) : Known created ids (applyEvent s e) where
  items x item' hx := by
    rcases item_step hx with ⟨payload, hbody, rfl, rfl⟩ | ⟨item, hitem, hbirth⟩
    · exact ⟨rfl, hcreates _ (by simp [EventData.creates, EventBody.creates, hbody])⟩
    · simp only [itemBirth, Prod.mk.injEq] at hbirth
      rw [hbirth.1]
      exact h.items x item hitem
  decisions x decision' hx := by
    rcases decision_step hx with ⟨payload, hbody, rfl, rfl⟩ | ⟨decision, hdecision, hbirth⟩
    · refine ⟨rfl, hcreates _ (by simp [EventData.creates, EventBody.creates, hbody]), ?_⟩
      intro target htarget
      refine hids _ ?_
      simp only [EventData.ids, EventBody.ids, hbody, List.mem_cons, List.mem_append]
      exact .inr (.inl htarget)
    · simp only [decisionBirth, Prod.mk.injEq] at hbirth
      rw [hbirth.1, hbirth.2.2.2]
      exact h.decisions x decision hdecision
  blockers x blocker' hx := by
    rcases blocker_step hx with ⟨payload, hbody, rfl, rfl⟩ | ⟨blocker, hblocker, hbirth⟩
    · exact ⟨rfl, hcreates _ (by simp [EventData.creates, EventBody.creates, hbody])⟩
    · simp only [blockerBirth, Prod.mk.injEq] at hbirth
      rw [hbirth.1]
      exact h.blockers x blocker hblocker
  criteria x criterion' hx := by
    rcases criterion_step hx with ⟨statement, hbody, rfl⟩ | ⟨criterion, hcriterion, hbirth⟩
    · refine ⟨rfl, hcreates _ (by simp [EventData.creates, EventBody.creates, hbody]), ?_⟩
      exact hids _ List.mem_cons_self
    · simp only [criterionBirth, Prod.mk.injEq] at hbirth
      rw [hbirth.1, hbirth.2]
      exact h.criteria x criterion hcriterion
  evidence x evidence' hx := by
    rw [evidence_applyEvent] at hx
    unfold evidenceAt at hx
    split at hx
    · rename_i evidenceId criterionId kind locator hbody
      split at hx
      · rename_i hxe
        obtain rfl := Option.some.inj hx
        refine ⟨hxe.symm, hids _ ?_⟩
        simp [EventData.ids, EventBody.ids, hbody, hxe]
      · exact h.evidence x evidence' hx
    · split at hx
      · obtain ⟨evidence, hevidence, rfl⟩ := Option.map_eq_some_iff.mp hx
        exact h.evidence x evidence hevidence
      · exact h.evidence x evidence' hx
    · exact h.evidence x evidence' hx
  demands x demand' hx := by
    rcases demand_step hx with ⟨payload, workspace, hbody, rfl, rfl⟩ | ⟨demand, hdemand, hbirth⟩
    · exact ⟨rfl, hcreates _ (by simp [EventData.creates, EventBody.creates, hbody])⟩
    · simp only [demandBirth, Prod.mk.injEq] at hbirth
      rw [hbirth.1]
      exact h.demands x demand hdemand

theorem known_rawFold (log : List Event) :
    Known (· ∈ createdIn log) (· ∈ published log) (rawFold log) := by
  refine replay_keeps (P := Known _ _) ?_ (known_empty _ _)
  intro s e he hs
  obtain ⟨ev, hev, rfl⟩ := List.mem_map.mp he
  exact hs.applyEvent (fun x hx => List.mem_flatMap.mpr ⟨ev, hev, hx⟩)
    (fun x hx => List.mem_flatMap.mpr ⟨ev, hev, hx⟩)

theorem known_fold (log : List Event) :
    Known (· ∈ createdIn log) (· ∈ published log) (fold log) := by
  have h := known_rawFold log
  refine ⟨h.items, h.decisions, ?_, h.criteria, h.evidence, h.demands⟩
  intro x blocker hx
  rw [fold_blockers] at hx
  obtain ⟨raw, hraw, rfl⟩ := Option.map_eq_some_iff.mp hx
  exact h.blockers x raw hraw

/-- Every collection is keyed by what its values say of themselves. -/
structure Keyed (s : State) : Prop where
  items : ∀ x item, s.items.get x = some item → item.id = x
  decisions : ∀ x decision, s.decisions.get x = some decision → decision.id = x
  blockers : ∀ x blocker, s.blockers.get x = some blocker → blocker.id = x
  criteria : ∀ x criterion, s.criteria.get x = some criterion → criterion.id = x
  evidence : ∀ x evidence, s.evidence.get x = some evidence → evidence.id = x
  verificationRuns : ∀ x run, s.verificationRuns.get x = some run → run.runId = x
  specAmendments : ∀ x list, s.specAmendments.get x = some list →
    ∀ amendment ∈ list, amendment.itemId = x
  demands : ∀ x demand, s.demands.get x = some demand → demand.id = x

/-- The two collections whose keys come from a payload. -/
structure KeyedByPayload (s : State) : Prop where
  verificationRuns : ∀ x run, s.verificationRuns.get x = some run → run.runId = x
  specAmendments : ∀ x list, s.specAmendments.get x = some list →
    ∀ amendment ∈ list, amendment.itemId = x

theorem keyedByPayload_empty : KeyedByPayload emptyState := by
  constructor
  · intro x run hrun
    cases hrun
  · intro x list hlist
    cases hlist

theorem KeyedByPayload.applyEvent {s : State} (h : KeyedByPayload s) (e : EventData) :
    KeyedByPayload (applyEvent s e) where
  verificationRuns x run hrun := by
    rw [verificationRuns_applyEvent, runAt] at hrun
    split at hrun
    · split at hrun
      · rename_i hx
        rw [← Option.some.inj hrun]
        exact hx.symm
      · exact h.verificationRuns x run hrun
    · exact h.verificationRuns x run hrun
  specAmendments x list hlist := by
    rw [specAmendments_applyEvent, amendmentsAt] at hlist
    split at hlist
    · split at hlist
      · rename_i payload _ hx
        intro amendment hmem
        rw [← Option.some.inj hlist] at hmem
        rcases List.mem_append.mp hmem with hold | hnew
        · cases hbefore : s.specAmendments.get x with
          | none => simp [hbefore] at hold
          | some before =>
              rw [hbefore, Option.getD_some] at hold
              exact h.specAmendments x before hbefore amendment hold
        · rw [List.mem_singleton.mp hnew]
          exact hx.symm
      · exact h.specAmendments x list hlist
    · exact h.specAmendments x list hlist

theorem keyed_fold (log : List Event) : Keyed (fold log) where
  items x item hitem := ((known_fold log).items x item hitem).1
  decisions x decision hdecision := ((known_fold log).decisions x decision hdecision).1
  blockers x blocker hblocker := ((known_fold log).blockers x blocker hblocker).1
  criteria x criterion hcriterion := ((known_fold log).criteria x criterion hcriterion).1
  evidence x evidence hevidence := ((known_fold log).evidence x evidence hevidence).1
  verificationRuns := by
    have hraw : KeyedByPayload (rawFold log) :=
      replay_keeps (fun _ e _ hs => hs.applyEvent e) keyedByPayload_empty
    exact hraw.verificationRuns
  specAmendments := by
    have hraw : KeyedByPayload (rawFold log) :=
      replay_keeps (fun _ e _ hs => hs.applyEvent e) keyedByPayload_empty
    exact hraw.specAmendments
  demands x demand hdemand := ((known_fold log).demands x demand hdemand).1

section Persist

variable {view log : List Event} {x : JsString}

/-- What is created in a part of a log is not created in the rest of it. -/
theorem Fresh.not_creates {rest : List Event} (hfresh : Fresh (view ++ rest))
    (hx : x ∈ createdIn view) : ∀ e ∈ cores rest, x ∉ e.creates := by
  intro e he hmem
  obtain ⟨ev, hev, rfl⟩ := List.mem_map.mp he
  unfold Fresh at hfresh
  rw [createdIn_append, List.nodup_append] at hfresh
  exact hfresh.2.2 x hx x (List.mem_flatMap.mpr ⟨ev, hev, hmem⟩) rfl

theorem Fresh.of_prefix (hfresh : Fresh log) (hview : view <+: log) : Fresh view := by
  obtain ⟨rest, rfl⟩ := hview
  unfold Fresh at hfresh
  rw [createdIn_append, List.nodup_append] at hfresh
  exact hfresh.1

/-- A part of the state that no event but a creation of `x` gives up is still there. -/
theorem Fresh.persists {P : State → Prop} (hfresh : Fresh log) (hview : view <+: log)
    (hx : x ∈ createdIn view) (hstep : ∀ s e, x ∉ e.creates → P s → P (applyEvent s e))
    (h : P (rawFold view)) : P (rawFold log) := by
  obtain ⟨rest, rfl⟩ := hview
  rw [rawFold_append]
  exact replay_keeps (fun s e he hs => hstep s e (hfresh.not_creates hx e he) hs) h

theorem item_persists (hfresh : Fresh log) (hview : view <+: log) {item : ItemState}
    (h : (fold view).items.get x = some item) :
    ∃ item', (fold log).items.get x = some item' ∧ itemBirth item' = itemBirth item := by
  refine hfresh.persists hview ((known_fold view).items x item h).2
    (P := fun s => ∃ item', s.items.get x = some item' ∧ itemBirth item' = itemBirth item)
    (fun s e hx ⟨item', hitem', hbirth⟩ => ?_) ⟨item, h, rfl⟩
  obtain ⟨item'', hitem'', hbirth'⟩ := item_keeps hitem' hx
  exact ⟨item'', hitem'', hbirth'.trans hbirth⟩

theorem decision_persists (hfresh : Fresh log) (hview : view <+: log) {decision : DecisionState}
    (h : (fold view).decisions.get x = some decision) :
    ∃ decision', (fold log).decisions.get x = some decision' ∧
      decisionBirth decision' = decisionBirth decision := by
  refine hfresh.persists hview ((known_fold view).decisions x decision h).2.1
    (P := fun s => ∃ decision', s.decisions.get x = some decision' ∧
      decisionBirth decision' = decisionBirth decision)
    (fun s e hx ⟨decision', hdecision', hbirth⟩ => ?_) ⟨decision, h, rfl⟩
  obtain ⟨decision'', hdecision'', hbirth'⟩ := decision_keeps hdecision' hx
  exact ⟨decision'', hdecision'', hbirth'.trans hbirth⟩

theorem blocker_persists (hfresh : Fresh log) (hview : view <+: log) {blocker : BlockerState}
    (h : (rawFold view).blockers.get x = some blocker) :
    ∃ blocker', (rawFold log).blockers.get x = some blocker' ∧
      blockerBirth blocker' = blockerBirth blocker := by
  refine hfresh.persists hview ((known_rawFold view).blockers x blocker h).2
    (P := fun s => ∃ blocker', s.blockers.get x = some blocker' ∧
      blockerBirth blocker' = blockerBirth blocker)
    (fun s e hx ⟨blocker', hblocker', hbirth⟩ => ?_) ⟨blocker, h, rfl⟩
  obtain ⟨blocker'', hblocker'', hbirth'⟩ := blocker_keeps hblocker' hx
  exact ⟨blocker'', hblocker'', hbirth'.trans hbirth⟩

theorem criterion_persists (hfresh : Fresh log) (hview : view <+: log) {criterion : CriterionState}
    (h : (fold view).criteria.get x = some criterion) :
    ∃ criterion', (fold log).criteria.get x = some criterion' ∧
      criterionBirth criterion' = criterionBirth criterion := by
  refine hfresh.persists hview ((known_fold view).criteria x criterion h).2.1
    (P := fun s => ∃ criterion', s.criteria.get x = some criterion' ∧
      criterionBirth criterion' = criterionBirth criterion)
    (fun s e hx ⟨criterion', hcriterion', hbirth⟩ => ?_) ⟨criterion, h, rfl⟩
  obtain ⟨criterion'', hcriterion'', hbirth'⟩ := criterion_keeps hcriterion' hx
  exact ⟨criterion'', hcriterion'', hbirth'.trans hbirth⟩

theorem demand_persists (hfresh : Fresh log) (hview : view <+: log) {demand : DemandState}
    (h : (fold view).demands.get x = some demand) :
    ∃ demand', (fold log).demands.get x = some demand' ∧
      demandBirth demand' = demandBirth demand := by
  refine hfresh.persists hview ((known_fold view).demands x demand h).2
    (P := fun s => ∃ demand', s.demands.get x = some demand' ∧
      demandBirth demand' = demandBirth demand)
    (fun s e hx ⟨demand', hdemand', hbirth⟩ => ?_) ⟨demand, h, rfl⟩
  obtain ⟨demand'', hdemand'', hbirth'⟩ := demand_keeps hdemand' hx
  exact ⟨demand'', hdemand'', hbirth'.trans hbirth⟩

end Persist

end H2a.Track
