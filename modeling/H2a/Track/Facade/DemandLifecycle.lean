import H2a.Track.Facade.Reachable
import Mathlib.Data.List.Chain
/-!
# The demand lifecycle

Whatever races with what, the statuses of a demand are a path of
`DEMAND_TRANSITIONS` from `raised`, and a demand that is agreed has its items.
The recheck under the lock sees the log the event lands on.
-/

namespace H2a.Track

open H2a.Library H2a.Library.Program H2a.Library.Concurrent H2a.Track.Model
open H2a.Track.Events (Sha256)

/-- The status an event gives the demand it is addressed to. -/
def statusOf (body : EventBody) : Option DemandStatus :=
  match body with
  | .demandRaised _ _ => some .raised
  | .demandQualifyingStarted _ _ => some .qualifying
  | .demandAgreed _ _ _ _ => some .agreed
  | .demandDisposition outcome _ _ _ _ _ => some outcome.status
  | _ => none

/-- The statuses of a demand, as the log has them one after the other. -/
def statusSequence (demandId : DemandId) (log : List Event) : List DemandStatus :=
  log.filterMap fun ev => if ev.core.aggregateId = demandId then statusOf ev.core.body else none

/-- A path of `DEMAND_TRANSITIONS` starting at `raised`. -/
structure LifecyclePath (statuses : List DemandStatus) : Prop where
  start : ∀ first ∈ statuses.head?, first = .raised
  path : statuses.IsChain fun current dest => dest ∈ DEMAND_TRANSITIONS current

/-- The `demand.agreed` events of a demand. -/
def agreedEvents (demandId : DemandId) (log : List Event) : List Event :=
  log.filter fun ev => ev.core.aggregateId = demandId ∧ statusOf ev.core.body = some .agreed

/-- The items a demand was promoted into are there, in its workspace and of it. -/
def Promoted (s : State) (demandId : DemandId) (demand : DemandState) : Prop :=
  ∃ itemIds, demand.itemIds = some itemIds ∧ ∀ itemId ∈ itemIds,
    ∃ item, s.items.get itemId = some item ∧ item.workspace = demand.workspace ∧
      item.demandId = some demandId

/-! ## What lands of a demand -/

/-- An event that gives a demand a status on `log`, with what follows it in its
batch: the recheck has passed on this log. -/
inductive DemandStep (log : List Event) : Event → List Event → Prop
  | raised {ev payload workspace} (hbody : ev.core.body = .demandRaised payload workspace)
      (hnew : (fold log).demands.get ev.core.aggregateId = none) : DemandStep log ev []
  | claimed {ev handler leaseId demand}
      (hbody : ev.core.body = .demandQualifyingStarted handler leaseId)
      (hdemand : (fold log).demands.get ev.core.aggregateId = some demand)
      (hmove : .qualifying ∈ DEMAND_TRANSITIONS demand.status) : DemandStep log ev []
  | agreed {ev rest handler itemIds qualification leaseId demand}
      (hbody : ev.core.body = .demandAgreed handler (some itemIds) qualification leaseId)
      (hdemand : (fold log).demands.get ev.core.aggregateId = some demand)
      (hmove : .agreed ∈ DEMAND_TRANSITIONS demand.status)
      (hitems : ∀ itemId ∈ itemIds, ∃ created ∈ rest, created.core.aggregateId = itemId ∧
        ∃ payload, created.core.body = .itemCreated payload ∧
          payload.workspace = demand.workspace ∧ payload.demandId = some ev.core.aggregateId)
      (hrest : ∀ created ∈ rest, statusOf created.core.body = none) : DemandStep log ev rest
  | disposed {ev outcome handler reason duplicateOf parkedUntil leaseId demand}
      (hbody : ev.core.body =
        .demandDisposition outcome handler reason duplicateOf parkedUntil leaseId)
      (hdemand : (fold log).demands.get ev.core.aggregateId = some demand)
      (hmove : outcome.status ∈ DEMAND_TRANSITIONS demand.status)
      (hcontained : outcome = .duplicate →
        Facade.assertDuplicateContainment demand duplicateOf (fold log) = .ok ()) :
      DemandStep log ev []

section Lands

variable {ok : List Event → Call → Emission → Prop} {log view : List Event} {c : Call}
variable {minted : List JsString} {e : Emission} {events : List Event}

theorem recheckDemand_ok {demandId : DemandId} {dest : DemandStatus} {inputs : List EventInput}
    (h : Facade.recheckDemand demandId dest inputs log = .ok ()) :
    ∃ demand, (fold log).demands.get demandId = some demand ∧
      dest ∈ DEMAND_TRANSITIONS demand.status := by
  unfold Facade.recheckDemand at h
  obtain ⟨demand, hmoves, -⟩ := bind_eq_ok_iff.mp h
  exact ⟨demand, assertDemandMoves_ok hmoves⟩

theorem recheckDisposition_ok {demandId : DemandId} {outcome : DispositionOutcome}
    {duplicateOf : Option DemandRef} {inputs : List EventInput}
    (h : Facade.recheckDisposition demandId outcome duplicateOf inputs log = .ok ()) :
    ∃ demand, (fold log).demands.get demandId = some demand ∧
      outcome.status ∈ DEMAND_TRANSITIONS demand.status ∧ (outcome = .duplicate →
        Facade.assertDuplicateContainment demand duplicateOf (fold log) = .ok ()) := by
  unfold Facade.recheckDisposition at h
  obtain ⟨demand, hmoves, hdisposable⟩ := bind_eq_ok_iff.mp h
  obtain ⟨hdemand, hmove⟩ := assertDemandMoves_ok hmoves
  refine ⟨demand, hdemand, hmove, fun hduplicate => ?_⟩
  simpa [Facade.assertDisposable, hduplicate] using hdisposable

/-- The persisted forms of a batch of promotions. -/
theorem persisted_promotions {demand : DemandState} {demandId : DemandId} {itemIds : List ItemId}
    {items : List Facade.PromotedItem} (hlength : itemIds.length = items.length)
    (h : List.Forall₂ (PersistedAs e)
      (List.zipWith (Facade.promotion demand demandId) itemIds items) events) :
    (∀ ev ∈ events, statusOf ev.core.body = none) ∧ ∀ itemId ∈ itemIds,
      ∃ ev ∈ events, ev.core.aggregateId = itemId ∧ ∃ payload, ev.core.body = .itemCreated payload ∧
        payload.workspace = demand.workspace ∧ payload.demandId = some demandId := by
  induction itemIds generalizing items events with
  | nil =>
      rw [List.zipWith_nil_left, List.forall₂_nil_left_iff] at h
      subst h
      simp
  | cons itemId rest ih =>
      cases items with
      | nil => simp at hlength
      | cons item items =>
          rw [List.zipWith_cons_cons] at h
          obtain ⟨ev, tail, hev, htail, rfl⟩ := List.forall₂_cons_left_iff.mp h
          obtain ⟨hnone, hall⟩ := ih (by simpa using hlength) htail
          have hbody := hev.body_of rfl (by simp [Facade.promotion])
          refine ⟨fun ev' hev' => ?_, fun itemId' hmem => ?_⟩
          · rcases List.mem_cons.mp hev' with rfl | hev'
            · rw [hbody]
              rfl
            · exact hnone ev' hev'
          · rcases List.mem_cons.mp hmem with rfl | hmem
            · exact ⟨ev, List.mem_cons_self, hev.aggregateId, _, hbody, rfl, rfl⟩
            · obtain ⟨ev', hev', hfound⟩ := hall itemId' hmem
              exact ⟨ev', List.mem_cons_of_mem _ hev', hfound⟩

theorem statusOf_outcomeParts {s : State} {decision : DecisionState} {dest : Outcome} :
    ∀ part ∈ Facade.outcomeParts s decision dest, statusOf part.body = none := by
  intro part hpart
  rcases mem_outcomeParts hpart with rfl | ⟨-, target, -, blocker, -, rfl⟩ |
    ⟨-, target, -, -, -, -, rfl⟩ <;> rfl

/-- An event that is emitted alone and gives a demand a status raises it. -/
theorem Single.raised {s : State} {clientToken : Option JsString} {part : EventPart}
    (h : Single s minted clientToken part) {status : DemandStatus}
    (hstatus : statusOf part.body = some status) :
    ∃ payload workspace, part.body = .demandRaised payload workspace := by
  unfold Single at h
  unfold statusOf at hstatus
  split at hstatus
  case h_1 payload workspace hbody => exact ⟨payload, workspace, hbody⟩
  case h_5 => cases hstatus
  all_goals
    rename_i hbody
    rw [hbody] at h
    exact h.elim

/-- What lands gives one demand a status, under its recheck, or none. -/
theorem Lands.demand (hfresh : Fresh log) (h : Lands ok log c view minted e events) :
    (∀ ev ∈ events, statusOf ev.core.body = none) ∨
      ∃ ev rest, events = ev :: rest ∧ DemandStep log ev rest := by
  have hnone : (∀ part ∈ e.parts, statusOf part.body = none) →
      ∀ ev ∈ events, statusOf ev.core.body = none := by
    intro hparts ev hev
    obtain ⟨part, hpart, hpersisted⟩ := persisted_mem h.events hev
    have hpart' := hparts part hpart
    rcases hpersisted.body_eq with heq | ⟨p, p', -, hev', -⟩
    · rw [heq]
      exact hpart'
    · rw [hev']
      rfl
  have hpersisted := h.events
  cases h.requests.issued with
  | @single part hparts hpart =>
      cases hstatus : statusOf part.body with
      | none => exact .inl (hnone (by simp [hparts, hstatus]))
      | some status =>
          obtain ⟨payload, workspace, hbody⟩ := hpart.raised hstatus
          rw [hparts] at hpersisted
          obtain ⟨ev, rfl, hev⟩ := persisted_singleton hpersisted
          simp only [Single, hbody] at hpart
          refine .inr ⟨ev, [], rfl, .raised (hev.body_of hbody (by simp)) ?_⟩
          rw [hev.aggregateId]
          cases hget : (fold log).demands.get part.aggregateId with
          | none => rfl
          | some demand => exact ((h.fresh _ hpart.2).1 (demand_published hget)).elim
  | codeAssigned hparts => exact .inl (hnone (by simp [hparts, statusOf]))
  | claimed hparts hrecheck =>
      rw [hparts] at hpersisted
      obtain ⟨ev, rfl, hev⟩ := persisted_singleton hpersisted
      obtain ⟨inputs, hok⟩ := h.recheck _ hrecheck
      obtain ⟨demand, hdemand, hmove⟩ := recheckDemand_ok hok
      refine .inr ⟨ev, [], rfl, .claimed (hev.body_of rfl (by simp)) ?_ hmove⟩
      rw [hev.aggregateId]
      exact hdemand
  | @agreed demandId seen handler itemIds items qualification leaseId hseen hlength hnodup hminted
      hparts hrecheck =>
      rw [hparts] at hpersisted
      obtain ⟨ev, rest, hev, hrest, rfl⟩ := List.forall₂_cons_left_iff.mp hpersisted
      obtain ⟨inputs, hok⟩ := h.recheck _ hrecheck
      obtain ⟨demand, hdemand, hmove⟩ := recheckDemand_ok hok
      -- the demand the command saw was of the same workspace
      obtain ⟨demand', hdemand', hbirth⟩ := demand_persists hfresh h.sees hseen
      obtain rfl := Option.some.inj (hdemand.symm.trans hdemand')
      simp only [demandBirth, Prod.mk.injEq] at hbirth
      obtain ⟨hnostatus, hitems⟩ := persisted_promotions hlength hrest
      refine .inr ⟨ev, rest, rfl, .agreed (hev.body_of rfl (by simp)) ?_ hmove ?_ hnostatus⟩
      · rw [hev.aggregateId]
        exact hdemand
      · intro itemId hmem
        obtain ⟨created, hcreated, hid, payload, hbody, hworkspace, hdemandId⟩ := hitems itemId hmem
        rw [hev.aggregateId]
        exact ⟨created, hcreated, hid, payload, hbody, hworkspace.trans hbirth.2.symm, hdemandId⟩
  | disposed hparts hrecheck =>
      rw [hparts] at hpersisted
      obtain ⟨ev, rfl, hev⟩ := persisted_singleton hpersisted
      obtain ⟨inputs, hok⟩ := h.recheck _ hrecheck
      obtain ⟨demand, hdemand, hmove, hcontained⟩ := recheckDisposition_ok hok
      refine .inr ⟨ev, [], rfl, .disposed (hev.body_of rfl (by simp)) ?_ hmove hcontained⟩
      rw [hev.aggregateId]
      exact hdemand
  | decisionCreated hnodup hlength hminted htargets hknown hparts =>
      refine .inl (hnone fun part hpart => ?_)
      rw [hparts] at hpart
      rcases List.mem_cons.mp hpart with rfl | hpart
      · rfl
      · obtain ⟨blockerId, -, target, -, rfl⟩ := exists_of_mem_zipWith hpart
        rfl
  | deferred hdecision hmove hparts =>
      exact .inl (hnone fun part hpart => statusOf_outcomeParts part (hparts ▸ hpart))
  | settled hsettled hdecision hmove hparts =>
      refine .inl (hnone fun part hpart => ?_)
      rw [hparts] at hpart
      rcases List.mem_cons.mp hpart with rfl | hpart
      · rfl
      · exact statusOf_outcomeParts part hpart
  | externalResolved hparts =>
      refine .inl (hnone fun part hpart => ?_)
      rw [hparts] at hpart
      obtain ⟨b, -, rfl⟩ := List.mem_map.mp hpart
      rfl
  | consolidated hknown hparts =>
      refine .inl (hnone fun part hpart => ?_)
      rw [hparts] at hpart
      obtain ⟨itemId, -, hpart⟩ := List.mem_flatMap.mp hpart
      rcases consolidateItem_part hpart with rfl | ⟨c, -, ev, -, run, -, -, rfl⟩ <;> rfl
  | reported hview hparts =>
      refine .inl (hnone fun part hpart => ?_)
      obtain ⟨-, evidenceId, run, evidence, criterion, hbody, -⟩ := hparts part hpart
      rw [hbody]
      rfl

end Lands

/-! ## The state of a demand -/

theorem demands_of_no_status {s : State} {e : EventData} (h : statusOf e.body = none)
    (x : DemandId) : (applyEvent s e).demands.get x = s.demands.get x := by
  rw [demands_applyEvent]
  unfold demandAt
  split
  · have hedit : ∀ demand, demandEdit e demand = demand := by
      intro demand
      unfold demandEdit
      split <;> simp_all [statusOf]
    split
    · simp_all [statusOf]
    · rw [funext hedit, Option.map_id']
  · rfl

theorem replay_demands {s : State} {events : List Event}
    (h : ∀ ev ∈ events, statusOf ev.core.body = none) (x : DemandId) :
    (replay s (cores events)).demands.get x = s.demands.get x := by
  refine replay_keeps (P := fun t => t.demands.get x = s.demands.get x) ?_ rfl
  intro t core hcore ht
  obtain ⟨ev, hev, rfl⟩ := List.mem_map.mp hcore
  rw [demands_of_no_status (h ev hev), ht]

/-- A move of a demand is recorded in its status. -/
theorem status_step {s : State} {e : EventData} {demand : DemandState} {status : DemandStatus}
    (hdemand : s.demands.get e.aggregateId = some demand) (hstatus : statusOf e.body = some status)
    (hmove : ∀ payload workspace, e.body ≠ .demandRaised payload workspace) :
    (applyEvent s e).demands.get e.aggregateId = some (demandEdit e demand) ∧
      (demandEdit e demand).status = status := by
  constructor
  · rw [demands_applyEvent]
    unfold demandAt
    rw [if_pos rfl]
    split
    · rename_i payload workspace hbody
      exact (hmove payload workspace hbody).elim
    · rw [hdemand, Option.map_some]
  · unfold demandEdit
    cases hbody : e.body <;> rw [hbody] at hstatus <;> simp_all [statusOf]
    rename_i outcome _ _ _ _ _
    cases outcome <;> simp_all [disposeDemand, DispositionOutcome.status]

/-- What a demand step does to the demands: its own is raised or moved, the others
stay. -/
theorem DemandStep.demands {log : List Event} {ev : Event} {rest : List Event}
    (h : DemandStep log ev rest) :
    ∃ demand status, statusOf ev.core.body = some status ∧ demand.status = status ∧
      (∀ x, (rawFold (log ++ ev :: rest)).demands.get x =
        if x = ev.core.aggregateId then some demand else (rawFold log).demands.get x) ∧
      ((status = .raised ∧ demand.duplicateOf = none ∧
          (rawFold log).demands.get ev.core.aggregateId = none) ∨
        ∃ before, (rawFold log).demands.get ev.core.aggregateId = some before ∧
          status ∈ DEMAND_TRANSITIONS before.status ∧ demand = demandEdit ev.core before) := by
  have hrest : ∀ created ∈ rest, statusOf created.core.body = none := by
    cases h with
    | agreed hbody hdemand hmove hitems hrest => exact hrest
    | _ => simp
  have hother : ∀ x, x ≠ ev.core.aggregateId →
      (applyEvent (rawFold log) ev.core).demands.get x = (rawFold log).demands.get x := by
    intro x hx
    rw [demands_applyEvent]
    exact if_neg hx
  have hfold : ∀ x, (rawFold (log ++ ev :: rest)).demands.get x =
      (applyEvent (rawFold log) ev.core).demands.get x := by
    intro x
    rw [rawFold_append]
    exact replay_demands hrest x
  have hset : ∀ demand, (applyEvent (rawFold log) ev.core).demands.get ev.core.aggregateId =
      some demand → ∀ x, (rawFold (log ++ ev :: rest)).demands.get x =
        if x = ev.core.aggregateId then some demand else (rawFold log).demands.get x := by
    intro demand hdemand x
    rw [hfold]
    split
    · rename_i hx
      rw [hx, hdemand]
    · rename_i hx
      exact hother x hx
  -- the three moves differ in nothing but the event
  have hmoves : ∀ {before status}, (rawFold log).demands.get ev.core.aggregateId = some before →
      status ∈ DEMAND_TRANSITIONS before.status → statusOf ev.core.body = some status →
      (∀ payload workspace, ev.core.body ≠ .demandRaised payload workspace) →
      ∃ demand status, statusOf ev.core.body = some status ∧ demand.status = status ∧
        (∀ x, (rawFold (log ++ ev :: rest)).demands.get x =
          if x = ev.core.aggregateId then some demand else (rawFold log).demands.get x) ∧
        ((status = .raised ∧ demand.duplicateOf = none ∧
            (rawFold log).demands.get ev.core.aggregateId = none) ∨
          ∃ before, (rawFold log).demands.get ev.core.aggregateId = some before ∧
            status ∈ DEMAND_TRANSITIONS before.status ∧ demand = demandEdit ev.core before) := by
    intro before status hbefore hmove hstatus hbody
    obtain ⟨hget, hnew⟩ := status_step hbefore hstatus hbody
    exact ⟨_, status, hstatus, hnew, hset _ hget, .inr ⟨before, hbefore, hmove, rfl⟩⟩
  cases h with
  | @raised payload workspace hbody hnew =>
      have hget : (applyEvent (rawFold log) ev.core).demands.get ev.core.aggregateId =
          some (demandOfRaised ev.core.aggregateId payload workspace) := by
        simp [demands_applyEvent, demandAt, hbody]
      exact ⟨_, .raised, by simp [hbody, statusOf], rfl, hset _ hget, .inl ⟨rfl, rfl, hnew⟩⟩
  | claimed hbody hdemand hmove =>
      exact hmoves hdemand hmove (by simp [hbody, statusOf]) (by simp [hbody])
  | agreed hbody hdemand hmove hitems hrest =>
      exact hmoves hdemand hmove (by simp [hbody, statusOf]) (by simp [hbody])
  | disposed hbody hdemand hmove hcontained =>
      exact hmoves hdemand hmove (by simp [hbody, statusOf]) (by simp [hbody])

/-! ## The invariant -/

/-- The lifecycle of every demand, in the log and in the state. -/
structure DemandsInOrder (log : List Event) : Prop where
  path : ∀ demandId, LifecyclePath (statusSequence demandId log)
  last : ∀ demandId, ((rawFold log).demands.get demandId).map (·.status) =
    (statusSequence demandId log).getLast?
  promoted : ∀ demandId demand, (rawFold log).demands.get demandId = some demand →
    demand.status = .agreed → Promoted (rawFold log) demandId demand

theorem LifecyclePath.concat {statuses : List DemandStatus} {dest : DemandStatus}
    (h : LifecyclePath statuses) (hstart : statuses = [] → dest = .raised)
    (hmove : ∀ last ∈ statuses.getLast?, dest ∈ DEMAND_TRANSITIONS last) :
    LifecyclePath (statuses ++ [dest]) where
  start := by
    cases statuses with
    | nil => simpa using hstart rfl
    | cons first rest => simpa using h.start
  path := by
    rw [List.isChain_append]
    refine ⟨h.path, List.isChain_singleton dest, ?_⟩
    intro last hlast next hnext
    obtain rfl : dest = next := by simpa using hnext
    exact hmove last hlast

theorem Promoted.persists {log events : List Event} (hfresh : Fresh (log ++ events))
    {demandId : DemandId} {demand : DemandState} (h : Promoted (rawFold log) demandId demand) :
    Promoted (rawFold (log ++ events)) demandId demand := by
  obtain ⟨itemIds, hitemIds, hall⟩ := h
  refine ⟨itemIds, hitemIds, fun itemId hmem => ?_⟩
  obtain ⟨item, hitem, hworkspace, hdemandId⟩ := hall itemId hmem
  obtain ⟨item', hitem', hbirth⟩ := item_persists hfresh (List.prefix_append log events) hitem
  simp only [itemBirth, Prod.mk.injEq] at hbirth
  exact ⟨item', hitem', hbirth.2.1.trans hworkspace, hbirth.2.2.trans hdemandId⟩

theorem statusSequence_append (demandId : DemandId) (log events : List Event) :
    statusSequence demandId (log ++ events) =
      statusSequence demandId log ++ statusSequence demandId events :=
  List.filterMap_append

theorem statusSequence_none {demandId : DemandId} {events : List Event}
    (h : ∀ ev ∈ events, statusOf ev.core.body = none) : statusSequence demandId events = [] := by
  refine List.filterMap_eq_nil_iff.mpr fun ev hev => ?_
  rw [h ev hev, ite_self]

/-- The items of a promotion are created in its batch. -/
theorem promoted_agreed {log rest : List Event} {ev : Event}
    (hfresh : Fresh (log ++ ev :: rest)) {demandId : DemandId} {workspace : JsString}
    {itemId : ItemId} (h : ∃ created ∈ rest, created.core.aggregateId = itemId ∧
      ∃ payload, created.core.body = .itemCreated payload ∧ payload.workspace = workspace ∧
        payload.demandId = some demandId) :
    ∃ item, (rawFold (log ++ ev :: rest)).items.get itemId = some item ∧
      item.workspace = workspace ∧ item.demandId = some demandId := by
  obtain ⟨created, hcreated, rfl, payload, hbody, hworkspace, hdemandId⟩ := h
  obtain ⟨before, after, rfl⟩ := List.append_of_mem hcreated
  have hsplit : log ++ ev :: (before ++ created :: after) =
      (log ++ ev :: before ++ [created]) ++ after := by simp
  have hnew : (rawFold (log ++ ev :: before ++ [created])).items.get created.core.aggregateId =
      some (itemOfCreated created.core.aggregateId payload) := by
    rw [rawFold_append]
    simp [cores, items_applyEvent, itemAt, hbody]
  rw [hsplit] at hfresh ⊢
  obtain ⟨item, hitem, hbirth⟩ := item_persists hfresh (List.prefix_append _ after) hnew
  simp only [itemBirth, Prod.mk.injEq] at hbirth
  exact ⟨item, hitem, hbirth.2.1.trans hworkspace, hbirth.2.2.trans hdemandId⟩

theorem DemandsInOrder.lands {ok : List Event → Call → Emission → Prop} {log view : List Event}
    {c : Call} {minted : List JsString} {e : Emission} {events : List Event} (hfresh : Fresh log)
    (h : DemandsInOrder log) (hlands : Lands ok log c view minted e events) :
    DemandsInOrder (log ++ events) := by
  have hfresh' := hlands.fresh_append hfresh
  rcases hlands.demand hfresh with hnone | ⟨ev, rest, rfl, hstep⟩
  · have hdemands := fun x => replay_demands (s := rawFold log) hnone x
    refine ⟨fun x => ?_, fun x => ?_, fun x demand hdemand hagreed => ?_⟩
    · rw [statusSequence_append, statusSequence_none hnone, List.append_nil]
      exact h.path x
    · rw [statusSequence_append, statusSequence_none hnone, List.append_nil, rawFold_append,
        hdemands]
      exact h.last x
    · rw [rawFold_append, hdemands] at hdemand
      exact (h.promoted x demand hdemand hagreed).persists hfresh'
  · obtain ⟨demand, status, hstatus, rfl, hdemands, hmove⟩ := hstep.demands
    have hrest : ∀ x, statusSequence x (ev :: rest) =
        if ev.core.aggregateId = x then [demand.status] else [] := by
      intro x
      have hnone : statusSequence x rest = [] := by
        cases hstep with
        | agreed hbody hdemand hmove hitems hrest => exact statusSequence_none hrest
        | _ => rfl
      unfold statusSequence at hnone ⊢
      rw [List.filterMap_cons, hnone]
      split <;> simp_all
    refine ⟨fun x => ?_, fun x => ?_, fun x demand' hdemand' hagreed => ?_⟩
    · rw [statusSequence_append, hrest]
      split
      · rename_i hx
        subst hx
        refine (h.path _).concat ?_ ?_
        · intro hnil
          have hlast := h.last ev.core.aggregateId
          rcases hmove with ⟨hraised, -, -⟩ | ⟨before, hbefore, -, -⟩
          · exact hraised
          · rw [hbefore, hnil] at hlast
            simp at hlast
        · intro last hlast
          rw [← h.last] at hlast
          rcases hmove with ⟨-, -, hnew⟩ | ⟨before, hbefore, hmove, -⟩
          · rw [hnew] at hlast
            simp at hlast
          · rw [hbefore] at hlast
            obtain rfl : before.status = last := by simpa using hlast
            exact hmove
      · rw [List.append_nil]
        exact h.path x
    · rw [statusSequence_append, hrest, hdemands]
      by_cases hx : x = ev.core.aggregateId
      · simp [hx]
      · rw [if_neg hx, if_neg (Ne.symm hx), List.append_nil]
        exact h.last x
    · rw [hdemands] at hdemand'
      split at hdemand'
      · rename_i hx
        obtain rfl := Option.some.inj hdemand'
        rw [hagreed] at hstatus
        subst hx
        cases hstep with
        | raised hbody => simp [hbody, statusOf] at hstatus
        | claimed hbody => simp [hbody, statusOf] at hstatus
        | @disposed outcome _ _ _ _ _ _ hbody =>
            cases outcome <;> simp [hbody, statusOf, DispositionOutcome.status] at hstatus
        | @agreed _ _ itemIds _ _ before hbody hbefore _ hitems _ =>
            rcases hmove with ⟨-, -, hnew⟩ | ⟨before', hbefore', -, rfl⟩
            · rw [fold_demands, hnew] at hbefore
              simp at hbefore
            · obtain rfl := Option.some.inj (hbefore.symm.trans hbefore')
              refine ⟨itemIds, by simp [demandEdit, hbody], fun itemId hmem => ?_⟩
              have hworkspace : (demandEdit ev.core before).workspace = before.workspace := by
                simp [demandEdit, hbody]
              rw [hworkspace]
              exact promoted_agreed hfresh' (hitems itemId hmem)
      · exact (h.promoted x demand' hdemand' hagreed).persists hfresh'

/-! ## Every log reached -/

/-- Nothing follows `agreed`, so a path has it at most once. -/
theorem LifecyclePath.count_agreed {statuses : List DemandStatus} (h : LifecyclePath statuses) :
    statuses.count .agreed ≤ 1 := by
  have hchain := h.path
  clear h
  induction statuses with
  | nil => simp
  | cons first rest ih =>
      cases rest with
      | nil => exact List.count_le_length.trans (by simp)
      | cons second rest =>
          rw [List.isChain_cons_cons] at hchain
          have hfirst : first ≠ .agreed := by
            rintro rfl
            simp [DEMAND_TRANSITIONS] at hchain
          rw [List.count_cons_of_ne hfirst]
          exact ih hchain.2

theorem length_agreedEvents (demandId : DemandId) (log : List Event) :
    (agreedEvents demandId log).length = (statusSequence demandId log).count .agreed := by
  unfold agreedEvents statusSequence
  rw [List.count_filterMap, List.countP_eq_length_filter]
  congr 2
  funext ev
  by_cases hid : ev.core.aggregateId = demandId <;> simp [hid, Bool.beq_eq_decide_eq]

/-- In every log reached, the statuses of every demand are a path from `raised`, it
is agreed at most once, and once agreed it has its items. -/
theorem demand_lifecycle {P : Type} [DecidableEq P] {contentHashOf : EventData → Sha256}
    {s : FacadeSys P}
    (hrun : Reaches (FacadeStep contentHashOf fun _ _ _ => True) Sys.initial s)
    (demandId : DemandId) :
    LifecyclePath (statusSequence demandId s.log) ∧
      (agreedEvents demandId s.log).length ≤ 1 ∧
      ∀ demand, (fold s.log).demands.get demandId = some demand → demand.status = .agreed →
        Promoted (fold s.log) demandId demand := by
  have h : DemandsInOrder s.log := by
    refine (reachable_invariant (G := DemandsInOrder) ?_ ?_ hrun).2
    · refine ⟨fun _ => ⟨by simp [statusSequence], List.isChain_nil⟩, fun _ => rfl, ?_⟩
      intro x demand hdemand
      simp [rawFold, cores, emptyState] at hdemand
    · exact fun hfresh h hlands => h.lands hfresh hlands
  refine ⟨h.path demandId, ?_, h.promoted demandId⟩
  rw [length_agreedEvents]
  exact (h.path demandId).count_agreed

/-- One process promotes a demand while another is about to park it: the parking is
refused under the lock. -/
def promotionRace : Schedule Bool :=
  claimOf false 0 (js "d") (js "w") ++
    [callOf true (.disposeDemand (js "d") .parked none (js "later") none none none), .read true,
      callOf false (.agreeDemand (js "d") none [⟨js "sample", none, none, none⟩] none none),
      .read false, .mint false (js "x"), .append false (.nth 2), .append true (.nth 3)]

theorem demand_lifecycle_promotionRace :
    ∃ s : FacadeSys Bool,
      statusSequence (js "d") s.log = [.raised, .qualifying, .agreed] ∧
      ((fold s.log).demands.get (js "d")).map (·.itemIds) = some (some [js "x"]) ∧
      LifecyclePath (statusSequence (js "d") s.log) ∧
      (agreedEvents (js "d") s.log).length ≤ 1 ∧
      ∀ demand, (fold s.log).demands.get (js "d") = some demand → demand.status = .agreed →
        Promoted (fold s.log) (js "d") demand := by
  have hrun : outcome (fun _ _ _ => True) promotionRace
      (fun log => (statusSequence (js "d") log,
        ((fold log).demands.get (js "d")).map (·.itemIds))) =
      some ([.raised, .qualifying, .agreed], some (some [js "x"])) := by
    decide +kernel
  obtain ⟨s, hreached, hs⟩ := reached_of_outcome hrun
  rw [Prod.mk.injEq] at hs
  exact ⟨s, hs.1, hs.2, demand_lifecycle hreached (js "d")⟩

end H2a.Track
