import H2a.Track.Facade.Reachable
import Mathlib.Data.List.Find
/-!
# Decision gates

A decision blocker is open while its decision is pending or deferred, and the one
a decision opens on each of its targets is closed by its settlement.  Commands run
one after the other, so what a settlement has read is what it lands on.
-/

namespace H2a.Track

open H2a.Library H2a.Library.Program H2a.Library.Concurrent H2a.Track.Model
open H2a.Track.Facade (openDecisionBlocker)
open H2a.Track.Events (Sha256)

/-- The gate of a decision on a target: the first decision blocker it has there. -/
def gateOf (s : State) (decisionId targetId : ItemId) : Option BlockerState :=
  s.blockers.values.find? fun b =>
    b.kind = .decision && b.ref = some decisionId && b.targetId = targetId

/-- The decision blockers of a state and what they wait for. -/
structure GatesKept (s : State) : Prop where
  /-- a decision blocker names a decision, and is open until that is settled -/
  waiting : ∀ x blocker, s.blockers.get x = some blocker → blocker.kind = .decision →
    ∃ decisionId decision, blocker.ref = some decisionId ∧
      s.decisions.get decisionId = some decision ∧
        (isSettled decision.outcome = false → blocker.open_ = true)
  /-- the gate on a declared target is open exactly until then -/
  declared : ∀ decisionId decision, s.decisions.get decisionId = some decision →
    ∀ target ∈ decision.targets, ∃ blocker, gateOf s decisionId target = some blocker ∧
      (blocker.open_ = true ↔ isSettled decision.outcome = false)

/-! ## Blockers in their order -/

/-- What every blocker was opened with, in that order. -/
def births (s : State) : List (BlockerId × ItemId × BlockerKind × Option ItemId) :=
  s.blockers.values.map blockerBirth

section Births

variable {s : State} {e : EventData}

/-- Blockers are only ever added, at the end. -/
theorem births_applyEvent
    (hnew : ∀ payload, e.body = .blockerOpened payload → s.blockers.get e.aggregateId = none) :
    births (applyEvent s e) = births s ++
      match e.body with
      | .blockerOpened payload => [blockerBirth (blockerOfOpened e.aggregateId payload e.at_)]
      | _ => [] := by
  unfold births
  cases hbody : e.body with
  | blockerOpened payload =>
      simp only [applyEvent, hbody]
      rw [JsMap.values_set_of_absent (hnew payload hbody), List.map_append]
      rfl
  | blockerResolved blockerId decisionId engagementRef =>
      simp only [applyEvent, hbody, List.append_nil]
      exact JsMap.map_values_modify _ _ fun _ => rfl
  | decisionOutcome dest =>
      simp [(applyEvent_rest s e (.inl ⟨dest, hbody⟩)).1]
  | realizationTransition dest cause =>
      simp [(applyEvent_rest s e (.inr ⟨dest, cause, hbody⟩)).1]
  | _ => simp [applyEvent, hbody, State.modifyItem, State.modifyDecision, State.modifyDemand]

theorem gateOf_id (decisionId target : ItemId) : (gateOf s decisionId target).map (·.id) =
    ((births s).find? fun b => b.2 = (target, .decision, some decisionId)).map Prod.fst := by
  unfold births gateOf
  rw [List.find?_map, Option.map_map]
  congr 1
  congr 1
  funext b
  rw [Bool.eq_iff_iff]
  simp only [blockerBirth, Bool.and_eq_true, decide_eq_true_eq, Function.comp_apply, Prod.mk.injEq]
  tauto

theorem mem_births {x : BlockerId} {blocker : BlockerState}
    (h : s.blockers.get x = some blocker) : blockerBirth blocker ∈ births s :=
  List.mem_map_of_mem ((JsMap.mem_values_iff _ _).mpr ⟨x, h⟩)

/-- The gate is still the first one after an event. -/
theorem gateOf_applyEvent
    (hnew : ∀ payload, e.body = .blockerOpened payload → s.blockers.get e.aggregateId = none)
    {decisionId target : ItemId} {x : BlockerId}
    (h : (gateOf s decisionId target).map (·.id) = some x) :
    (gateOf (applyEvent s e) decisionId target).map (·.id) = some x := by
  rw [gateOf_id] at h ⊢
  obtain ⟨birth, hbirth, rfl⟩ := Option.map_eq_some_iff.mp h
  rw [births_applyEvent hnew, List.find?_append, hbirth]
  rfl

end Births

/-! ## One event -/

/-- An event keeps a decision, and changes its outcome only as it says. -/
theorem decision_outcome {s : State} {e : EventData} {d : ItemId} {decision : DecisionState}
    (h : s.decisions.get d = some decision)
    (hnew : ∀ payload, e.body = .decisionCreated payload → d ≠ e.aggregateId) :
    ∃ decision', (applyEvent s e).decisions.get d = some decision' ∧
      decision'.targets = decision.targets ∧ (decision'.outcome = decision.outcome ∨
        e.aggregateId = d ∧ e.body = .decisionOutcome decision'.outcome) := by
  rw [decisions_applyEvent]
  unfold decisionAt
  by_cases hd : d = e.aggregateId
  · rw [if_pos hd, h]
    cases hbody : e.body with
    | decisionCreated payload => exact (hnew payload hbody hd).elim
    | decisionOutcome dest =>
        exact ⟨_, rfl, by simp [decisionEdit, hbody], .inr ⟨hd.symm, by simp [decisionEdit, hbody]⟩⟩
    | _ =>
        have hbirth := decisionBirth_decisionEdit (s.items.has d) e decision
        simp only [decisionBirth, Prod.mk.injEq] at hbirth
        refine ⟨_, rfl, hbirth.2.2.2, .inl ?_⟩
        simp only [decisionEdit, hbody]
        try split <;> rfl
  · rw [if_neg hd]
    exact ⟨decision, h, rfl, .inl rfl⟩

/-- A decision blocker names a decision, and is resolved only when that is settled. -/
def Waiting (s : State) : Prop :=
  ∀ x blocker, s.blockers.get x = some blocker → blocker.kind = .decision →
    ∃ d decision, blocker.ref = some d ∧ s.decisions.get d = some decision ∧
      (blocker.resolvedByEvent = true → isSettled decision.outcome = true)

/-- The gates of one decision stand on its targets, resolved if it is settled. -/
def DeclaredAt (s : State) (d : ItemId) : Prop :=
  ∀ decision, s.decisions.get d = some decision → ∀ target ∈ decision.targets,
    ∃ x, (gateOf s d target).map (·.id) = some x ∧
      (isSettled decision.outcome = true →
        ∃ blocker, s.blockers.get x = some blocker ∧ blocker.resolvedByEvent = true)

/-- What keeps decision blockers waiting: they are opened on a decision, resolved
when it is settled, and a settlement is not taken back. -/
structure KeepsWaiting (s : State) (e : EventData) : Prop where
  opened : ∀ payload, e.body = .blockerOpened payload → payload.kind = .decision →
    ∃ d decision, payload.ref = some d ∧ s.decisions.get d = some decision
  resolved : ∀ blockerId decisionId engagementRef,
    e.body = .blockerResolved blockerId decisionId engagementRef → ∀ blocker,
      s.blockers.get e.aggregateId = some blocker → blocker.kind = .decision →
        ∃ d decision, blocker.ref = some d ∧ s.decisions.get d = some decision ∧
          isSettled decision.outcome = true
  outcome : ∀ dest, e.body = .decisionOutcome dest → isSettled dest = false → ∀ decision,
    s.decisions.get e.aggregateId = some decision → isSettled decision.outcome = false

section Event

variable {pre post : List Event} {ev : Event}

/-- What an event creates was not there before. -/
theorem Fresh.absent (hfresh : Fresh (pre ++ ev :: post)) {x : JsString}
    (hx : x ∈ ev.core.creates) : x ∉ createdIn pre :=
  fun hpre => hfresh.not_creates hpre ev.core (by simp [cores]) hx

theorem Fresh.new_blocker (hfresh : Fresh (pre ++ ev :: post)) (payload : BlockerOpenedPayload)
    (hbody : ev.core.body = .blockerOpened payload) :
    (rawFold pre).blockers.get ev.core.aggregateId = none := by
  cases hget : (rawFold pre).blockers.get ev.core.aggregateId with
  | none => rfl
  | some blocker =>
      refine (hfresh.absent ?_ ((known_rawFold pre).blockers _ blocker hget).2).elim
      simp [EventData.creates, EventBody.creates, hbody]

theorem Fresh.new_decision (hfresh : Fresh (pre ++ ev :: post)) {d : ItemId}
    {decision : DecisionState} (h : (rawFold pre).decisions.get d = some decision)
    (payload : DecisionCreatedPayload) (hbody : ev.core.body = .decisionCreated payload) :
    d ≠ ev.core.aggregateId := by
  rintro rfl
  refine hfresh.absent ?_ ((known_rawFold pre).decisions _ decision h).2.1
  simp [EventData.creates, EventBody.creates, hbody]

theorem Waiting.step (hfresh : Fresh (pre ++ ev :: post)) (h : Waiting (rawFold pre))
    (hkeeps : KeepsWaiting (rawFold pre) ev.core) : Waiting (rawFold (pre ++ [ev])) := by
  rw [rawFold_concat]
  intro x blocker hx hkind
  have hkept : ∀ before d, blocker.ref = some d → (rawFold pre).decisions.get d = some before →
      (blocker.resolvedByEvent = true → isSettled before.outcome = true) →
      ∃ d decision, blocker.ref = some d ∧
        (applyEvent (rawFold pre) ev.core).decisions.get d = some decision ∧
        (blocker.resolvedByEvent = true → isSettled decision.outcome = true) := by
    intro before d href hbefore hsettled
    obtain ⟨decision, hdecision, -, houtcome⟩ := decision_outcome hbefore (hfresh.new_decision hbefore)
    refine ⟨d, decision, href, hdecision, fun hresolved => ?_⟩
    rcases houtcome with heq | ⟨rfl, hbody⟩
    · rw [heq]
      exact hsettled hresolved
    · by_contra hopen
      rw [Bool.not_eq_true] at hopen
      have hbefore' := hkeeps.outcome _ hbody hopen before hbefore
      rw [hsettled hresolved] at hbefore'
      simp at hbefore'
  rw [blockers_applyEvent] at hx
  unfold blockerAt at hx
  split at hx
  · rename_i payload hbody
    split at hx
    · obtain rfl := Option.some.inj hx
      obtain ⟨d, before, href, hbefore⟩ := hkeeps.opened payload hbody hkind
      exact hkept before d href hbefore (by simp [blockerOfOpened])
    · obtain ⟨d, before, href, hbefore, hsettled⟩ := h x blocker hx hkind
      exact hkept before d href hbefore hsettled
  · rename_i hbody
    split at hx
    · rename_i hself
      obtain ⟨old, hold, rfl⟩ := Option.map_eq_some_iff.mp hx
      obtain ⟨d, before, href, hbefore, hsettled⟩ :=
        hkeeps.resolved _ _ _ hbody old (hself ▸ hold) hkind
      exact hkept before d href hbefore fun _ => hsettled
    · obtain ⟨d, before, href, hbefore, hsettled⟩ := h x blocker hx hkind
      exact hkept before d href hbefore hsettled
  · obtain ⟨d, before, href, hbefore, hsettled⟩ := h x blocker hx hkind
    exact hkept before d href hbefore hsettled

/-- A resolved blocker stays resolved. -/
theorem resolved_step (hfresh : Fresh (pre ++ ev :: post)) {x : BlockerId}
    (h : ∃ blocker, (rawFold pre).blockers.get x = some blocker ∧
      blocker.resolvedByEvent = true) :
    ∃ blocker, (rawFold (pre ++ [ev])).blockers.get x = some blocker ∧
      blocker.resolvedByEvent = true := by
  obtain ⟨blocker, hget, hresolved⟩ := h
  rw [rawFold_concat, blockers_applyEvent]
  unfold blockerAt
  split
  · rename_i payload hbody
    split
    · rename_i hself
      rw [hself, hfresh.new_blocker payload hbody] at hget
      simp at hget
    · exact ⟨blocker, hget, hresolved⟩
  · split
    · exact ⟨_, by rw [hget, Option.map_some], rfl⟩
    · exact ⟨blocker, hget, hresolved⟩
  · exact ⟨blocker, hget, hresolved⟩

/-- The gates of a decision stay as they are, unless it is created or settled. -/
theorem DeclaredAt.step (hfresh : Fresh (pre ++ ev :: post)) {d : ItemId}
    (h : DeclaredAt (rawFold pre) d)
    (hcreated : ∀ payload, ev.core.body = .decisionCreated payload → d ≠ ev.core.aggregateId)
    (houtcome : ∀ dest, ev.core.body = .decisionOutcome dest → ev.core.aggregateId = d →
      isSettled dest = false) : DeclaredAt (rawFold (pre ++ [ev])) d := by
  intro decision hdecision target htarget
  have hgate : ∀ {x}, (gateOf (rawFold pre) d target).map (·.id) = some x →
      (gateOf (rawFold (pre ++ [ev])) d target).map (·.id) = some x := by
    intro x hx
    rw [rawFold_concat]
    exact gateOf_applyEvent hfresh.new_blocker hx
  cases hbefore : (rawFold pre).decisions.get d with
  | none =>
      rw [rawFold_concat] at hdecision
      rcases decision_step hdecision with ⟨payload, hbody, hself, -⟩ | ⟨before, hget, -⟩
      · exact (hcreated payload hbody hself).elim
      · rw [hbefore] at hget
        simp at hget
  | some before =>
      obtain ⟨after, hafter, htargets, hchange⟩ := decision_outcome hbefore hcreated
      rw [rawFold_concat] at hdecision
      obtain rfl := Option.some.inj (hafter.symm.trans hdecision)
      obtain ⟨x, hx, hsettled⟩ := h before hbefore target (htargets ▸ htarget)
      refine ⟨x, hgate hx, fun hnow => ?_⟩
      rcases hchange with heq | ⟨hself, hbody⟩
      · exact resolved_step hfresh (hsettled (heq ▸ hnow))
      · rw [houtcome _ hbody hself] at hnow
        simp at hnow

end Event

theorem resolved_persists {log events : List Event} (hfresh : Fresh (log ++ events))
    {x : BlockerId} (h : ∃ blocker, (rawFold log).blockers.get x = some blocker ∧
      blocker.resolvedByEvent = true) :
    ∃ blocker, (rawFold (log ++ events)).blockers.get x = some blocker ∧
      blocker.resolvedByEvent = true := by
  refine keeps_along (P := fun log => ∃ blocker, (rawFold log).blockers.get x = some blocker ∧
    blocker.resolvedByEvent = true) h fun pre ev post hsplit hpre => ?_
  rw [hsplit, ← List.append_assoc] at hfresh
  exact resolved_step hfresh hpre

theorem gateOf_persists {log events : List Event} (hfresh : Fresh (log ++ events))
    {d target : ItemId} {x : BlockerId}
    (h : (gateOf (rawFold log) d target).map (·.id) = some x) :
    (gateOf (rawFold (log ++ events)) d target).map (·.id) = some x := by
  refine keeps_along (P := fun log => (gateOf (rawFold log) d target).map (·.id) = some x) h
    fun pre ev post hsplit hpre => ?_
  rw [hsplit, ← List.append_assoc] at hfresh
  rw [rawFold_concat]
  exact gateOf_applyEvent hfresh.new_blocker hpre

/-! ## What lands -/

/-- The gates of a log. -/
structure GatesInOrder (log : List Event) : Prop where
  waiting : Waiting (rawFold log)
  declared : ∀ d, DeclaredAt (rawFold log) d

/-- An event that creates no decision and settles none. -/
theorem GatesInOrder.event {log post : List Event} {ev : Event}
    (hfresh : Fresh (log ++ ev :: post)) (h : GatesInOrder log)
    (hkeeps : KeepsWaiting (rawFold log) ev.core)
    (hcreated : ∀ payload, ev.core.body ≠ .decisionCreated payload)
    (houtcome : ∀ dest, ev.core.body = .decisionOutcome dest → isSettled dest = false) :
    GatesInOrder (log ++ [ev]) := by
  refine ⟨h.waiting.step hfresh hkeeps, fun d => ?_⟩
  exact (h.declared d).step hfresh (fun payload hbody => (hcreated payload hbody).elim)
    fun dest hbody _ => houtcome dest hbody

theorem unsettled_of_move {current dest : Outcome}
    (h : assertOutcomeTransition current dest = .ok ()) : isSettled current = false := by
  cases current with
  | go => simp [assertOutcomeTransition, OUTCOME_TRANSITIONS] at h
  | noGo => simp [assertOutcomeTransition, OUTCOME_TRANSITIONS] at h
  | _ => rfl

/-- A body that opens or resolves no blocker, and creates or settles no decision. -/
def Quiet (body : EventBody) : Prop :=
  match body with
  | .blockerOpened _ | .blockerResolved _ _ _ | .decisionOutcome _ | .decisionCreated _ => False
  | _ => True

theorem Quiet.keepsWaiting {s : State} {e : EventData} (h : Quiet e.body) : KeepsWaiting s e where
  opened payload hbody := by simp [Quiet, hbody] at h
  resolved _ _ _ hbody := by simp [Quiet, hbody] at h
  outcome dest hbody := by simp [Quiet, hbody] at h

theorem Quiet.persisted {e : Emission} {part : EventPart} {ev : Event} (h : Quiet part.body)
    (hev : PersistedAs e part ev) : Quiet ev.core.body := by
  rcases hev.body_eq with heq | ⟨p, p', -, hbody, -⟩
  · rw [heq]
    exact h
  · rw [hbody]
    trivial

section Lands

variable {ok : List Event → Call → Emission → Prop} {log : List Event} {c : Call}
variable {minted : List JsString} {e : Emission} {events : List Event}

/-- One event of the facade keeps decision blockers waiting. -/
theorem keepsWaiting_single {clientToken : Option JsString} {part : EventPart} {ev : Event}
    (hpart : Single (fold log) minted clientToken part) (hev : PersistedAs e part ev) :
    KeepsWaiting (rawFold log) ev.core where
  opened payload hbody hkind := by
    have hbody' := hev.part_body hbody (by simp)
    simp only [Single, hbody'] at hpart
    obtain ⟨-, -, -, -, href⟩ := hpart
    have hany := href hkind
    cases hd : payload.ref with
    | none => simp [hd] at hany
    | some d =>
        rw [hd, Option.any_some] at hany
        obtain ⟨decision, hdecision⟩ := (JsMap.has_iff _ _).mp hany
        exact ⟨d, decision, rfl, hdecision⟩
  resolved blockerId decisionId engagementRef hbody blocker hget hkind := by
    have hbody' := hev.part_body hbody (by simp)
    simp only [Single, hbody'] at hpart
    obtain ⟨-, -, -, found, hfound, hother⟩ := hpart
    rw [hev.aggregateId] at hget
    rw [fold_blockers, hget, Option.map_some, Option.some.injEq] at hfound
    rw [← hfound] at hother
    exact (hother hkind).elim
  outcome dest hbody := by
    have hbody' := hev.part_body hbody (by simp)
    simp [Single, hbody'] at hpart

/-- While a decision is open, so are all its blockers: a settlement finds the gate. -/
theorem openDecisionBlocker_gate {d target : ItemId} {decision : DecisionState}
    (h : Waiting (rawFold log)) (hdecision : (rawFold log).decisions.get d = some decision)
    (hopen : isSettled decision.outcome = false) :
    openDecisionBlocker (fold log) d target = gateOf (fold log) d target := by
  refine List.find?_congr fun b hb => ?_
  by_cases hgate : b.kind = .decision ∧ b.ref = some d
  · obtain ⟨x, hx⟩ := (JsMap.mem_values_iff _ _).mp hb
    rw [fold_blockers] at hx
    obtain ⟨raw, hraw, rfl⟩ := Option.map_eq_some_iff.mp hx
    obtain ⟨d', decision', href, hdecision', hsettled⟩ := h x raw hraw hgate.1
    obtain rfl := Option.some.inj (href.symm.trans hgate.2)
    obtain rfl := Option.some.inj (hdecision'.symm.trans hdecision)
    have hunresolved : raw.resolvedByEvent = false := by
      by_contra hresolved
      rw [hsettled (by simpa using hresolved)] at hopen
      simp at hopen
    have hbopen : isOpen raw (rawFold log).items = true := by
      have hkind : raw.kind = .decision := hgate.1
      simp [isOpen, hunresolved, href, hkind]
    simp [hbopen]
  · rcases not_and_or.mp hgate with hkind | href
    · simp [hkind]
    · simp [href]

theorem births_fold (log : List Event) : births (fold log) = births (rawFold log) := by
  simp [births, fold, State.settle, rawFold, cores, JsMap.values, JsMap.mapValues,
    Function.comp_def, blockerBirth]

theorem gateOf_fold (d target : ItemId) : (gateOf (fold log) d target).map (·.id) =
    (gateOf (rawFold log) d target).map (·.id) := by
  rw [gateOf_id, gateOf_id, births_fold]

/-- A blocker seen in a state is what it was opened as. -/
theorem birth_persists {pre : List Event} (hfresh : Fresh (log ++ pre)) {b blocker : BlockerState}
    (hb : b ∈ (fold log).blockers.values)
    (hget : (rawFold (log ++ pre)).blockers.get b.id = some blocker) :
    blockerBirth blocker = blockerBirth b := by
  have hfound := (blocker_published hb).1
  rw [fold_blockers] at hfound
  obtain ⟨raw, hraw, heq⟩ := Option.map_eq_some_iff.mp hfound
  obtain ⟨blocker', hblocker', hbirth⟩ :=
    blocker_persists hfresh (List.prefix_append log pre) hraw
  obtain rfl := Option.some.inj (hblocker'.symm.trans hget)
  rw [hbirth, ← heq]
  rfl

/-- The gates of a log in the middle of a batch: those of the decision the batch is
about are not yet as they should be. -/
structure GatesBetween (log : List Event) (d : ItemId) (targets : List ItemId)
    (settled : Bool) : Prop where
  waiting : Waiting (rawFold log)
  others : ∀ d', d' ≠ d → DeclaredAt (rawFold log) d'
  decision : ∃ decision, (rawFold log).decisions.get d = some decision ∧
    decision.targets = targets ∧ isSettled decision.outcome = settled

theorem GatesBetween.step {pre post : List Event} {ev : Event} {d : ItemId}
    {targets : List ItemId} {settled : Bool} (hfresh : Fresh (pre ++ ev :: post))
    (h : GatesBetween pre d targets settled) (hkeeps : KeepsWaiting (rawFold pre) ev.core)
    (hcreated : ∀ payload, ev.core.body ≠ .decisionCreated payload)
    (houtcome : ∀ dest, ev.core.body ≠ .decisionOutcome dest) :
    GatesBetween (pre ++ [ev]) d targets settled := by
  refine ⟨h.waiting.step hfresh hkeeps, fun d' hd' => ?_, ?_⟩
  · exact (h.others d' hd').step hfresh (fun payload hbody => (hcreated payload hbody).elim)
      fun dest hbody => (houtcome dest hbody).elim
  · obtain ⟨decision, hdecision, htargets, hsettled⟩ := h.decision
    obtain ⟨after, hafter, hkept, heq | ⟨-, hbody⟩⟩ :=
      decision_outcome hdecision (hfresh.new_decision hdecision)
    · exact ⟨after, by rw [rawFold_concat, hafter], hkept.trans htargets, heq ▸ hsettled⟩
    · exact (houtcome _ hbody).elim

/-- In the end they are. -/
theorem GatesBetween.close {log : List Event} {d : ItemId} {targets : List ItemId}
    {settled : Bool} (h : GatesBetween log d targets settled)
    (hgates : ∀ target ∈ targets, ∃ x, (gateOf (rawFold log) d target).map (·.id) = some x ∧
      (settled = true → ∃ blocker, (rawFold log).blockers.get x = some blocker ∧
        blocker.resolvedByEvent = true)) : GatesInOrder log := by
  refine ⟨h.waiting, fun d' => ?_⟩
  by_cases hd : d' = d
  · subst hd
    intro decision hdecision target htarget
    obtain ⟨found, hfound, rfl, rfl⟩ := h.decision
    obtain rfl := Option.some.inj (hfound.symm.trans hdecision)
    exact hgates target htarget
  · exact h.others d' hd

/-- A decision blocker opened in a log stands for a gate. -/
theorem gateOf_opened {pre post : List Event} {ev : Event} {d target : ItemId}
    {payload : BlockerOpenedPayload} (hfresh : Fresh (pre ++ ev :: post))
    (hbody : ev.core.body = .blockerOpened payload) (hkind : payload.kind = .decision)
    (href : payload.ref = some d) (htarget : payload.targetId = target) :
    ∃ x, (gateOf (rawFold (pre ++ ev :: post)) d target).map (·.id) = some x := by
  have hsplit : pre ++ ev :: post = (pre ++ [ev]) ++ post := by simp
  rw [hsplit] at hfresh ⊢
  have hnew : (rawFold (pre ++ [ev])).blockers.get ev.core.aggregateId =
      some (blockerOfOpened ev.core.aggregateId payload ev.core.at_) := by
    rw [rawFold_concat, blockers_applyEvent]
    simp [blockerAt, hbody]
  obtain ⟨blocker, hblocker, hbirth⟩ := blocker_persists hfresh (List.prefix_append _ _) hnew
  have hmem := mem_births hblocker
  rw [gateOf_id]
  have hfind : ((births (rawFold (pre ++ [ev] ++ post))).find? fun b =>
      b.2 = (target, .decision, some d)).isSome = true := by
    rw [List.find?_isSome]
    refine ⟨_, hmem, ?_⟩
    rw [hbirth]
    simp [blockerBirth, blockerOfOpened, hkind, href, htarget]
  obtain ⟨birth, hfound⟩ := Option.isSome_iff_exists.mp hfind
  exact ⟨birth.1, by rw [hfound, Option.map_some]⟩

theorem exists_mem_zipWith {α β γ : Type} {f : α → β → γ} {as : List α} {bs : List β}
    (hlength : as.length = bs.length) {b : β} (hb : b ∈ bs) :
    ∃ a ∈ as, f a b ∈ List.zipWith f as bs := by
  induction as generalizing bs with
  | nil =>
      obtain rfl := List.length_eq_zero_iff.mp hlength.symm
      simp at hb
  | cons a rest ih =>
      cases bs with
      | nil => simp at hb
      | cons b' bs =>
          rcases List.mem_cons.mp hb with rfl | hb
          · exact ⟨a, by simp, by simp⟩
          · obtain ⟨a', ha', hmem⟩ := ih (by simpa using hlength) hb
            exact ⟨a', List.mem_cons_of_mem _ ha', List.mem_cons_of_mem _ hmem⟩

theorem persisted_decisionBlocker {decisionId target : ItemId} {gate : Gate}
    {blockerId : BlockerId} {ev : Event}
    (h : PersistedAs e (Facade.decisionBlocker decisionId gate blockerId target) ev) :
    ∃ payload, ev.core.body = .blockerOpened payload ∧ payload.kind = .decision ∧
      payload.ref = some decisionId ∧ payload.targetId = target :=
  ⟨_, h.body_of rfl (by simp), rfl, rfl, rfl⟩

/-- The blockers a new decision opens are its gates. -/
theorem GatesInOrder.created {created : Event} {rest : List Event}
    {input : DecisionCreatedPayload} {decisionId : ItemId} {blockerIds : List BlockerId}
    (hfresh : Fresh (log ++ created :: rest)) (h : GatesInOrder log)
    (hlength : blockerIds.length = input.targets.length)
    (hcreated : PersistedAs e ⟨.decision, decisionId, .decisionCreated input⟩ created)
    (hrest : List.Forall₂ (PersistedAs e) (List.zipWith
      (Facade.decisionBlocker decisionId input.decisionKind) blockerIds input.targets) rest) :
    GatesInOrder (log ++ created :: rest) := by
  have hbody := hcreated.body_of rfl (by simp)
  have hself : created.core.aggregateId = decisionId := hcreated.aggregateId
  -- the decision itself
  have hfirst : GatesBetween (log ++ [created]) decisionId input.targets false := by
    refine ⟨h.waiting.step hfresh ⟨by simp [hbody], by simp [hbody], by simp [hbody]⟩, ?_, ?_⟩
    · intro d hd
      exact (h.declared d).step hfresh (fun _ _ => hself ▸ hd) (by simp [hbody])
    · refine ⟨decisionOfCreated decisionId input, ?_, rfl, rfl⟩
      rw [rawFold_concat, decisions_applyEvent]
      simp [decisionAt, hbody, hself]
  -- and its blockers, one after the other
  have hsplit : log ++ created :: rest = (log ++ [created]) ++ rest := by simp
  rw [hsplit] at hfresh ⊢
  have hlast : GatesBetween (log ++ [created] ++ rest) decisionId input.targets false := by
    refine keeps_along (P := fun log => GatesBetween log decisionId input.targets false) hfirst ?_
    intro pre ev post hev hpre
    obtain ⟨part, hpart, hpersisted⟩ := persisted_mem hrest (hev ▸ List.mem_append_right _ List.mem_cons_self : ev ∈ _)
    obtain ⟨blockerId, -, target, -, rfl⟩ := exists_of_mem_zipWith hpart
    obtain ⟨payload, hbody, -, href, -⟩ := persisted_decisionBlocker hpersisted
    rw [hev, ← List.append_assoc] at hfresh
    refine hpre.step hfresh ⟨?_, by simp [hbody], by simp [hbody]⟩ (by simp [hbody])
      (by simp [hbody])
    intro payload' hpayload _
    rw [hbody] at hpayload
    obtain rfl := EventBody.blockerOpened.inj hpayload
    obtain ⟨decision, hget, -⟩ := hpre.decision
    exact ⟨decisionId, decision, href, hget⟩
  refine hlast.close fun target htarget => ?_
  obtain ⟨blockerId, -, hmem⟩ := exists_mem_zipWith (f := Facade.decisionBlocker decisionId
    input.decisionKind) hlength htarget
  obtain ⟨ev, hev, hpersisted⟩ := persisted_part hrest hmem
  obtain ⟨pre, post, rfl⟩ := List.append_of_mem hev
  rw [← List.append_assoc] at hfresh ⊢
  obtain ⟨payload, hbody, hkind, href, hon⟩ := persisted_decisionBlocker hpersisted
  obtain ⟨x, hx⟩ := gateOf_opened hfresh hbody hkind href hon
  exact ⟨x, hx, by simp⟩

/-- A settlement closes the gates of its decision. -/
theorem GatesInOrder.settled {selected outcome : Event} {rest : List Event}
    {decisionId : ItemId} {decision : DecisionState} {optionId : JsString} {dest : Outcome}
    (hfresh : Fresh (log ++ selected :: outcome :: rest)) (h : GatesInOrder log)
    (hdecision : (fold log).decisions.get decisionId = some decision)
    (hopen : isSettled decision.outcome = false) (hsettled : isSettled dest = true)
    (hselected : PersistedAs e ⟨.decision, decisionId, .decisionOptionSelected optionId⟩ selected)
    (houtcome : PersistedAs e ⟨.decision, decision.id, .decisionOutcome dest⟩ outcome)
    (hrest : List.Forall₂ (PersistedAs e) (decision.targets.flatMap
      (Facade.settleTarget (fold log) decision.id dest)) rest) :
    GatesInOrder (log ++ selected :: outcome :: rest) := by
  have hid := ((known_fold log).decisions decisionId decision hdecision).1
  rw [hid] at houtcome hrest
  rw [fold_decisions] at hdecision
  have hbody : selected.core.body = .decisionOptionSelected optionId :=
    hselected.body_of rfl (by simp)
  have hbody' : outcome.core.body = .decisionOutcome dest := houtcome.body_of rfl (by simp)
  have hself : outcome.core.aggregateId = decisionId := houtcome.aggregateId
  -- the option
  have hfirst : GatesInOrder (log ++ [selected]) :=
    h.event hfresh (Quiet.keepsWaiting (by simp [Quiet, hbody])) (by simp [hbody]) (by simp [hbody])
  obtain ⟨found, hfound, htargets, -⟩ :=
    decision_outcome hdecision (e := selected.core) (by simp [hbody])
  -- the outcome
  have hsplit : log ++ selected :: outcome :: rest = log ++ [selected] ++ outcome :: rest := by simp
  have hfresh' := hfresh
  rw [hsplit] at hfresh'
  have hsecond : GatesBetween (log ++ [selected] ++ [outcome]) decisionId decision.targets true := by
    refine ⟨hfirst.waiting.step hfresh' ⟨by simp [hbody'], by simp [hbody'], ?_⟩, ?_, ?_⟩
    · intro dest' hdest hopen
      rw [hbody'] at hdest
      obtain rfl := EventBody.decisionOutcome.inj hdest
      simp [hsettled] at hopen
    · intro d hd
      refine (hfirst.declared d).step hfresh' (by simp [hbody']) fun _ _ heq => ?_
      exact (hd (heq.symm.trans hself)).elim
    · refine ⟨{ found with outcome := dest }, ?_, htargets, hsettled⟩
      rw [rawFold_concat, decisions_applyEvent, decisionAt, if_pos hself.symm, rawFold_concat]
      simp only [hbody']
      rw [hfound, Option.map_some]
      simp [decisionEdit, hbody']
  -- what it does to the targets
  have hsplit' : log ++ selected :: outcome :: rest = log ++ [selected] ++ [outcome] ++ rest := by
    simp
  rw [hsplit'] at hfresh ⊢
  have hlast : GatesBetween (log ++ [selected] ++ [outcome] ++ rest) decisionId decision.targets
      true := by
    refine keeps_along (P := fun log => GatesBetween log decisionId decision.targets true) hsecond ?_
    intro pre ev post hev hpre
    obtain ⟨part, hpart, hpersisted⟩ := persisted_mem hrest (hev ▸ List.mem_append_right _ List.mem_cons_self : ev ∈ _)
    obtain ⟨target, -, hpart⟩ := List.mem_flatMap.mp hpart
    rw [hev, ← List.append_assoc] at hfresh
    rcases mem_settleTarget hpart with ⟨blocker, hblocker, rfl⟩ | ⟨-, item, -, -, rfl⟩
    · have hbody : ev.core.body = .blockerResolved blocker.id (some decisionId) none :=
        hpersisted.body_of rfl (by simp)
      refine hpre.step hfresh ⟨by simp [hbody], ?_, by simp [hbody]⟩ (by simp [hbody])
        (by simp [hbody])
      intro _ _ _ _ found hget _
      have hfresh' := hfresh.of_prefix (List.prefix_append _ _)
      simp only [List.append_assoc] at hfresh' hget
      have hseen := openDecisionBlocker_some hblocker
      have hbirth := birth_persists hfresh' hseen.1 (hpersisted.aggregateId ▸ hget)
      simp only [blockerBirth, Prod.mk.injEq] at hbirth
      obtain ⟨settled, hsettled, -, houtcome⟩ := hpre.decision
      simp only [List.append_assoc] at hsettled
      exact ⟨decisionId, settled, hbirth.2.2.2.trans hseen.2.2.1, by simpa using hsettled, houtcome⟩
    · have hbody : ev.core.body = .realizationTransition .rejected (some decisionId) :=
        hpersisted.body_of rfl (by simp)
      exact hpre.step hfresh (Quiet.keepsWaiting (by simp [Quiet, hbody])) (by simp [hbody])
        (by simp [hbody])
  refine hlast.close fun target htarget => ?_
  obtain ⟨x, hx, -⟩ := h.declared decisionId decision hdecision target htarget
  have hlog : log ++ [selected] ++ [outcome] ++ rest = log ++ ([selected] ++ [outcome] ++ rest) := by
    simp
  refine ⟨x, hlog ▸ gateOf_persists (hlog ▸ hfresh) hx, fun _ => ?_⟩
  -- the settlement has found the gate
  have hgate : (gateOf (fold log) decisionId target).map (·.id) = _ := gateOf_fold _ _
  rw [hx] at hgate
  obtain ⟨blocker, hblocker, rfl⟩ := Option.map_eq_some_iff.mp hgate
  have hseen := openDecisionBlocker_gate h.waiting hdecision hopen ▸ hblocker
  have hpart : ⟨.blocker, blocker.id, .blockerResolved blocker.id (some decisionId) none⟩ ∈
      decision.targets.flatMap (Facade.settleTarget (fold log) decisionId dest) := by
    refine List.mem_flatMap.mpr ⟨target, htarget, ?_⟩
    simp [Facade.settleTarget, hseen]
  obtain ⟨ev, hev, hpersisted⟩ := persisted_part hrest hpart
  have hresolve : ev.core.body = .blockerResolved blocker.id (some decisionId) none :=
    hpersisted.body_of rfl (by simp)
  obtain ⟨pre, post, rfl⟩ := List.append_of_mem hev
  have hend : log ++ [selected] ++ [outcome] ++ (pre ++ ev :: post) =
      log ++ ([selected] ++ [outcome] ++ pre) ++ [ev] ++ post := by simp
  rw [hend] at hfresh ⊢
  have hbefore := hfresh.of_prefix (List.prefix_append _ _)
  have hthere := (blocker_published (openDecisionBlocker_some hseen).1).1
  rw [fold_blockers] at hthere
  obtain ⟨raw, hraw, -⟩ := Option.map_eq_some_iff.mp hthere
  obtain ⟨found', hfound', -⟩ := blocker_persists
    (hbefore.of_prefix (List.prefix_append _ _)) (List.prefix_append log _) hraw
  refine resolved_persists hfresh ⟨{ found' with
    resolvedByEvent := true, resolvedAt := some ev.core.at_ }, ?_, rfl⟩
  rw [rawFold_concat, blockers_applyEvent]
  simp only [blockerAt, hresolve]
  rw [if_pos hpersisted.aggregateId.symm, hfound', Option.map_some]

theorem GatesInOrder.lands (hfresh : Fresh log) (h : GatesInOrder log)
    (hlands : Lands ok log c log minted e events) : GatesInOrder (log ++ events) := by
  have hfresh' := hlands.fresh_append hfresh
  have hpersisted := hlands.events
  have hquiet : (∀ part ∈ e.parts, Quiet part.body) → GatesInOrder (log ++ events) := by
    intro hparts
    have hall : ∀ ev ∈ events, Quiet ev.core.body := by
      intro ev hev
      obtain ⟨part, hpart, hpersisted⟩ := persisted_mem hpersisted hev
      exact (hparts part hpart).persisted hpersisted
    refine keeps_along h fun pre ev post hsplit hpre => ?_
    have hev := hall ev (by simp [hsplit])
    rw [hsplit, ← List.append_assoc] at hfresh'
    refine hpre.event hfresh' hev.keepsWaiting (fun payload hbody => ?_) fun dest hbody => ?_
    · simp [Quiet, hbody] at hev
    · simp [Quiet, hbody] at hev
  cases hlands.requests.issued with
  | @single part hparts hpart hparents =>
      rw [hparts] at hpersisted
      obtain ⟨ev, rfl, hev⟩ := persisted_singleton hpersisted
      refine h.event hfresh' (keepsWaiting_single hpart hev) (fun payload hbody => ?_)
        fun dest hbody => ?_
      · simp [Single, hev.part_body hbody (by simp)] at hpart
      · simp [Single, hev.part_body hbody (by simp)] at hpart
  | @deferred decisionId decision hdecision hmove hparts =>
      have hone : e.parts = [⟨.decision, decision.id, .decisionOutcome .deferred⟩] := hparts
      rw [hone] at hpersisted
      obtain ⟨ev, rfl, hev⟩ := persisted_singleton hpersisted
      have hbody := hev.body_of rfl (by simp)
      have hid := ((known_fold log).decisions decisionId decision hdecision).1
      refine h.event hfresh' ⟨by simp [hbody], by simp [hbody], ?_⟩ (by simp [hbody]) ?_
      · intro dest _ _ found hfound
        rw [hev.aggregateId, hid] at hfound
        obtain rfl := Option.some.inj (hdecision.symm.trans hfound)
        exact unsettled_of_move hmove
      · intro dest hdest
        rw [hbody] at hdest
        obtain rfl := EventBody.decisionOutcome.inj hdest
        rfl
  | settled hsettled hdecision hmove hparts =>
      rw [hparts] at hpersisted
      obtain ⟨selected, tail, hselected, htail, rfl⟩ := List.forall₂_cons_left_iff.mp hpersisted
      unfold Facade.outcomeParts at htail
      rw [if_pos hsettled] at htail
      obtain ⟨outcome, rest, houtcome, hrest, rfl⟩ := List.forall₂_cons_left_iff.mp htail
      exact h.settled hfresh' hdecision (unsettled_of_move hmove) hsettled hselected houtcome hrest
  | decisionCreated hnodup hlength hminted htargets hknown hparts =>
      rw [hparts] at hpersisted
      obtain ⟨created, rest, hcreated, hrest, rfl⟩ := List.forall₂_cons_left_iff.mp hpersisted
      exact h.created hfresh' hlength hcreated hrest
  | externalResolved hparts =>
      refine keeps_along h fun pre ev post hsplit hpre => ?_
      obtain ⟨part, hpart, hev⟩ := persisted_mem hpersisted (hsplit ▸ List.mem_append_right _ List.mem_cons_self : ev ∈ _)
      rw [hparts] at hpart
      obtain ⟨b, hb, rfl⟩ := List.mem_map.mp hpart
      have hbody := hev.body_of rfl (by simp)
      rw [hsplit, ← List.append_assoc] at hfresh'
      refine hpre.event hfresh' ⟨by simp [hbody], ?_, by simp [hbody]⟩ (by simp [hbody])
        (by simp [hbody])
      -- the blocker is a dependency, and stays one
      intro _ _ _ _ blocker hget hkind
      rw [Facade.externalBlockers, List.mem_filter] at hb
      have hbirth := birth_persists (hfresh'.of_prefix (List.prefix_append _ _)) hb.1
        (hev.aggregateId ▸ hget)
      simp only [blockerBirth, Prod.mk.injEq] at hbirth
      simp [← hbirth.2.2.1, hkind] at hb
  | codeAssigned hparts => exact hquiet (by simp [hparts, Quiet])
  | claimed hparts => exact hquiet (by simp [hparts, Quiet])
  | disposed hparts => exact hquiet (by simp [hparts, Quiet])
  | agreed hdemand hlength hnodup hminted hparts =>
      refine hquiet fun part hpart => ?_
      rw [hparts] at hpart
      rcases List.mem_cons.mp hpart with rfl | hpart
      · trivial
      · obtain ⟨itemId, -, item, -, rfl⟩ := exists_of_mem_zipWith hpart
        trivial
  | consolidated hknown hparts =>
      refine hquiet fun part hpart => ?_
      rw [hparts] at hpart
      obtain ⟨itemId, -, hpart⟩ := List.mem_flatMap.mp hpart
      rcases consolidateItem_part hpart with rfl | ⟨c, -, ev, -, run, -, -, rfl⟩ <;> trivial
  | reported hview hparts =>
      refine hquiet fun part hpart => ?_
      obtain ⟨-, evidenceId, run, evidence, criterion, hbody, -⟩ := hparts part hpart
      simp [Quiet, hbody]

end Lands

/-! ## Every state reached -/

theorem GatesInOrder.kept {log : List Event} (h : GatesInOrder log) : GatesKept (fold log) := by
  have hwaiting : ∀ x blocker, (fold log).blockers.get x = some blocker →
      blocker.kind = .decision → ∃ d decision, blocker.ref = some d ∧
        (fold log).decisions.get d = some decision ∧
        (isSettled decision.outcome = false → blocker.open_ = true) := by
    intro x blocker hget hkind
    rw [fold_blockers] at hget
    obtain ⟨raw, hraw, rfl⟩ := Option.map_eq_some_iff.mp hget
    obtain ⟨d, decision, href, hdecision, hsettled⟩ := h.waiting x raw hraw hkind
    refine ⟨d, decision, href, hdecision, fun hopen => ?_⟩
    have hunresolved : raw.resolvedByEvent = false := by
      by_contra hresolved
      rw [hsettled (by simpa using hresolved)] at hopen
      simp at hopen
    have hkind' : raw.kind = .decision := hkind
    simp [isOpen, hunresolved, href, hkind']
  refine ⟨hwaiting, fun d decision hdecision target htarget => ?_⟩
  obtain ⟨x, hx, hsettled⟩ := h.declared d decision hdecision target htarget
  rw [← gateOf_fold] at hx
  obtain ⟨blocker, hblocker, rfl⟩ := Option.map_eq_some_iff.mp hx
  refine ⟨blocker, hblocker, ?_⟩
  have hmatch := List.find?_some hblocker
  simp only [Bool.and_eq_true, decide_eq_true_eq] at hmatch
  have hget := (blocker_published (List.mem_of_find?_eq_some hblocker)).1
  constructor
  · intro hopen
    by_contra hsettle
    obtain ⟨raw, hraw, hresolved⟩ := hsettled (by simpa using hsettle)
    rw [fold_blockers, hraw, Option.map_some, Option.some.injEq] at hget
    rw [← hget] at hopen
    simp [isOpen, hresolved] at hopen
  · intro hopen
    obtain ⟨d', decision', href, hdecision', hwait⟩ := hwaiting _ blocker hget hmatch.1.1
    obtain rfl := Option.some.inj (href.symm.trans hmatch.1.2)
    obtain rfl := Option.some.inj (hdecision'.symm.trans hdecision)
    exact hwait hopen

end H2a.Track
