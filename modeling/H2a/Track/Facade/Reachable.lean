import H2a.Track.Facade.KeepsAcceptance
/-!
# Any number of `Track` instances

Commands of any number of instances in different processes, their unlocked reads
and locked appends in any order.  `reachable_invariant` is the rule by which
every claim about the logs they reach is proved: whatever lands on a log was
issued on a part of it, with ids that are new to it.
-/

namespace H2a.Track

open H2a.Library H2a.Library.Program H2a.Library.Concurrent H2a.Track.Model
open H2a.Track.Events (Sha256)

/-! ## What an append creates -/

section Creates

variable {view log : List Event} {minted : List JsString} {e : Emission} {part : EventPart}

def EventPart.creates (part : EventPart) : List JsString := part.body.creates part.aggregateId

theorem EventBody.materialize_ids {body body' : EventBody} (h : body.materialize = .ok body') :
    body'.ids = body.ids ∨ ∃ p p', body = .priorityAssessed p ∧ body' = .priorityAssessed p' := by
  rcases EventBody.materialize_eq h with rfl | h
  · exact .inl rfl
  · exact .inr h

theorem PriorityAssessment.materialize_itemId {p p' : PriorityAssessment}
    (h : p.materialize = .ok p') : p'.itemId = p.itemId := by
  simp only [PriorityAssessment.materialize, bind_eq_ok_iff, pure_eq_ok, Except.ok.injEq] at h
  obtain ⟨_, -, _, -, _, -, _, -, _, -, rfl⟩ := h
  rfl

/-- What is persisted of a part is the part, but for the numbers of a priority. -/
theorem PersistedAs.body_eq {ev : Event} (h : PersistedAs e part ev) :
    ev.core.body = part.body ∨ ∃ p p', part.body = .priorityAssessed p ∧
      ev.core.body = .priorityAssessed p' ∧ p'.itemId = p.itemId := by
  rcases EventBody.materialize_eq h.body with heq | ⟨p, p', hpart, hev⟩
  · exact .inl heq
  · refine .inr ⟨p, p', hpart, hev, ?_⟩
    have hmat := h.body
    rw [hpart, hev] at hmat
    simp only [EventBody.materialize, bind_eq_ok_iff, pure_eq_ok, Except.ok.injEq,
      EventBody.priorityAssessed.injEq] at hmat
    obtain ⟨q, hq, rfl⟩ := hmat
    exact PriorityAssessment.materialize_itemId hq

theorem PersistedAs.creates {ev : Event} (h : PersistedAs e part ev) :
    ev.core.creates = part.creates := by
  unfold EventData.creates EventPart.creates
  rw [h.aggregateId]
  rcases h.body_eq with heq | ⟨p, p', hpart, hev, -⟩
  · rw [heq]
  · rw [hpart, hev]
    rfl

theorem PersistedAs.ids {ev : Event} (h : PersistedAs e part ev) : ev.core.ids = part.ids := by
  unfold EventData.ids EventPart.ids
  rw [h.aggregateId]
  rcases h.body_eq with heq | ⟨p, p', hpart, hev, hitem⟩
  · rw [heq]
  · simp only [hpart, hev, EventBody.ids, hitem]

theorem persisted_creates {parts : List EventPart} {events : List Event}
    (h : List.Forall₂ (PersistedAs e) parts events) :
    createdIn events = parts.flatMap (·.creates) := by
  induction h with
  | nil => rfl
  | cons hpart _ ih => simp only [createdIn, List.flatMap_cons, hpart.creates] at ih ⊢; rw [ih]

theorem persisted_ids {parts : List EventPart} {events : List Event}
    (h : List.Forall₂ (PersistedAs e) parts events) {x : JsString} (hx : x ∈ published events) :
    ∃ part ∈ parts, x ∈ part.ids := by
  induction h with
  | nil => simp [published] at hx
  | @cons part ev parts events hpart _ ih =>
      simp only [published, List.flatMap_cons, List.mem_append] at hx
      rcases hx with hx | hx
      · exact ⟨part, List.mem_cons_self, hpart.ids ▸ hx⟩
      · obtain ⟨part', hmem, hx⟩ := ih hx
        exact ⟨part', List.mem_cons_of_mem _ hmem, hx⟩

theorem creates_promotions {demand : DemandState} {demandId : DemandId} {itemIds : List ItemId}
    {items : List Facade.PromotedItem} (hlength : itemIds.length = items.length) :
    (List.zipWith (Facade.promotion demand demandId) itemIds items).flatMap (·.creates) =
      itemIds := by
  induction itemIds generalizing items with
  | nil => rfl
  | cons itemId rest ih =>
      cases items with
      | nil => simp at hlength
      | cons item items =>
          rw [List.zipWith_cons_cons, List.flatMap_cons, ih (by simpa using hlength)]
          rfl

theorem creates_blockers {decisionId : ItemId} {gate : Gate} {blockerIds : List BlockerId}
    {targets : List ItemId} (hlength : blockerIds.length = targets.length) :
    (List.zipWith (Facade.decisionBlocker decisionId gate) blockerIds targets).flatMap
      (·.creates) = blockerIds := by
  induction blockerIds generalizing targets with
  | nil => rfl
  | cons blockerId rest ih =>
      cases targets with
      | nil => simp at hlength
      | cons target targets =>
          rw [List.zipWith_cons_cons, List.flatMap_cons, ih (by simpa using hlength)]
          rfl

theorem creates_outcomeParts (s : State) (decision : DecisionState) (dest : Outcome) :
    (Facade.outcomeParts s decision dest).flatMap (·.creates) = [] := by
  rw [List.flatMap_eq_nil_iff]
  intro part hpart
  rcases mem_outcomeParts hpart with rfl | ⟨-, target, -, blocker, -, rfl⟩ |
    ⟨-, target, -, -, -, -, rfl⟩ <;> rfl

theorem Single.creates {s : State} {clientToken : Option JsString}
    (h : Single s minted clientToken part) :
    part.creates.Nodup ∧ ∀ x ∈ part.creates, x ∈ minted := by
  unfold EventPart.creates EventBody.creates
  unfold Single at h
  split
  case h_1 payload hbody =>
    rw [hbody] at h
    simpa using h.2.1
  case h_2 payload hbody =>
    rw [hbody] at h
    exact h.elim
  case h_3 payload hbody =>
    rw [hbody] at h
    simpa using h.2.1
  case h_4 hbody =>
    rw [hbody] at h
    simpa using h.2
  case h_5 criterionId _ hbody =>
    rw [hbody] at h
    simpa using h.2.1
  case h_6 => simp

/-- What an append creates is newly minted, and nothing twice. -/
theorem Issued.creates {names : List JsString} (h : Issued names view minted e) :
    (e.parts.flatMap (·.creates)).Nodup ∧ ∀ x ∈ e.parts.flatMap (·.creates), x ∈ minted := by
  have hnone : e.parts.flatMap (·.creates) = [] →
      (e.parts.flatMap (·.creates)).Nodup ∧ ∀ x ∈ e.parts.flatMap (·.creates), x ∈ minted := by
    intro hnil
    simp [hnil]
  cases h with
  | single hparts hpart =>
      rw [hparts, List.flatMap_cons, List.flatMap_nil, List.append_nil]
      exact hpart.creates
  | codeAssigned hparts => exact hnone (by rw [hparts]; rfl)
  | claimed hparts => exact hnone (by rw [hparts]; rfl)
  | disposed hparts => exact hnone (by rw [hparts]; rfl)
  | agreed hdemand hlength hnodup hminted hparts =>
      rw [hparts, List.flatMap_cons, creates_promotions hlength]
      exact ⟨hnodup, hminted⟩
  | decisionCreated hnodup hlength hminted htargets hknown hparts =>
      rw [hparts, List.flatMap_cons, creates_blockers hlength]
      exact ⟨hnodup, hminted⟩
  | deferred hdecision hmove hparts =>
      exact hnone (by rw [hparts]; exact creates_outcomeParts _ _ _)
  | settled hsettled hdecision hmove hparts =>
      refine hnone ?_
      rw [hparts, List.flatMap_cons, creates_outcomeParts]
      rfl
  | externalResolved hparts =>
      refine hnone ?_
      rw [hparts, List.flatMap_eq_nil_iff]
      intro part hpart
      obtain ⟨b, -, rfl⟩ := List.mem_map.mp hpart
      rfl
  | consolidated hknown hparts =>
      refine hnone ?_
      rw [hparts, List.flatMap_eq_nil_iff]
      intro part hpart
      obtain ⟨itemId, -, hpart⟩ := List.mem_flatMap.mp hpart
      rcases consolidateItem_part hpart with rfl | ⟨c, -, ev, -, run, -, -, rfl⟩ <;> rfl
  | reported hview hparts =>
      refine hnone ?_
      rw [List.flatMap_eq_nil_iff]
      intro part hpart
      obtain ⟨-, evidenceId, run, evidence, criterion, hbody, -⟩ := hparts part hpart
      simp [EventPart.creates, EventBody.creates, hbody]

/-- What is known of an event that is emitted with others, or with a recheck of a
demand. -/
def Joint (part : EventPart) : Prop :=
  match part.body with
  | .itemCreated payload => payload.parentId = none ∧ payload.role = none
  | .realizationTransition dest _ => dest = .rejected
  | .demandQualifyingStarted _ _ | .demandAgreed _ _ _ _ | .demandDisposition _ _ _ _ _ _
  | .decisionCreated _ | .blockerOpened _ | .decisionOutcome _ | .decisionOptionSelected _
  | .blockerResolved _ _ _ | .realizationAnchored _ _ _ | .acceptanceRun _ _ => True
  | _ => False

theorem joint_outcomeParts {s : State} {decision : DecisionState} {dest : Outcome} :
    ∀ part ∈ Facade.outcomeParts s decision dest, Joint part := by
  intro part hpart
  rcases mem_outcomeParts hpart with rfl | ⟨-, target, -, blocker, -, rfl⟩ |
    ⟨-, target, -, -, -, -, rfl⟩
  · trivial
  · trivial
  · rfl

/-- A command emits one event it has checked on its own, or a code it will check
again, or events that need none of these checks. -/
theorem Issued.parts {names : List JsString} (h : Issued names view minted e) :
    (∃ part, e.parts = [part] ∧ Single (fold view) minted e.clientToken part ∧
        ∀ p ∈ part.body.parents, p ∈ published view ∨ p ∈ names) ∨
      (∃ itemId code, e.parts = [⟨.item, itemId, .itemCodeAssigned code⟩] ∧
        e.recheck = some fun _ existing => Facade.assertCodeUnique itemId code (fold existing)) ∨
      ∀ part ∈ e.parts, Joint part := by
  cases h with
  | single hparts hpart hparents => exact .inl ⟨_, hparts, hpart, hparents⟩
  | codeAssigned hparts hitem hrole hrecheck => exact .inr (.inl ⟨_, _, hparts, hrecheck⟩)
  | claimed hparts => exact .inr (.inr (by simp [hparts, Joint]))
  | disposed hparts => exact .inr (.inr (by simp [hparts, Joint]))
  | agreed hdemand hlength hnodup hminted hparts =>
      refine .inr (.inr fun part hpart => ?_)
      rw [hparts] at hpart
      rcases List.mem_cons.mp hpart with rfl | hpart
      · trivial
      · obtain ⟨itemId, -, item, -, rfl⟩ := exists_of_mem_zipWith hpart
        exact ⟨rfl, rfl⟩
  | decisionCreated hnodup hlength hminted htargets hknown hparts =>
      refine .inr (.inr fun part hpart => ?_)
      rw [hparts] at hpart
      rcases List.mem_cons.mp hpart with rfl | hpart
      · trivial
      · obtain ⟨blockerId, -, target, -, rfl⟩ := exists_of_mem_zipWith hpart
        trivial
  | deferred hdecision hmove hparts => exact .inr (.inr (hparts ▸ joint_outcomeParts))
  | settled hsettled hdecision hmove hparts =>
      refine .inr (.inr fun part hpart => ?_)
      rw [hparts] at hpart
      rcases List.mem_cons.mp hpart with rfl | hpart
      · trivial
      · exact joint_outcomeParts part hpart
  | externalResolved hparts =>
      refine .inr (.inr fun part hpart => ?_)
      rw [hparts] at hpart
      obtain ⟨b, -, rfl⟩ := List.mem_map.mp hpart
      trivial
  | consolidated hknown hparts =>
      refine .inr (.inr fun part hpart => ?_)
      rw [hparts] at hpart
      obtain ⟨itemId, -, hpart⟩ := List.mem_flatMap.mp hpart
      rcases consolidateItem_part hpart with rfl | ⟨c, -, ev, -, run, -, -, rfl⟩ <;> trivial
  | reported hview hparts =>
      refine .inr (.inr fun part hpart => ?_)
      obtain ⟨-, evidenceId, run, evidence, criterion, hbody, -⟩ := hparts part hpart
      simp [Joint, hbody]

/-- Every event of a batch is the persisted form of a part of it. -/
theorem persisted_mem {parts : List EventPart} {events : List Event}
    (h : List.Forall₂ (PersistedAs e) parts events) {ev : Event} (hev : ev ∈ events) :
    ∃ part ∈ parts, PersistedAs e part ev := by
  induction h with
  | nil => simp at hev
  | @cons part ev' parts events hpart _ ih =>
      rcases List.mem_cons.mp hev with rfl | hev
      · exact ⟨part, List.mem_cons_self, hpart⟩
      · obtain ⟨part', hmem, hpersisted⟩ := ih hev
        exact ⟨part', List.mem_cons_of_mem _ hmem, hpersisted⟩

/-- And every part of a batch is persisted. -/
theorem persisted_part {parts : List EventPart} {events : List Event}
    (h : List.Forall₂ (PersistedAs e) parts events) (hpart : part ∈ parts) :
    ∃ ev ∈ events, PersistedAs e part ev := by
  induction h with
  | nil => simp at hpart
  | @cons part' ev parts events hev _ ih =>
      rcases List.mem_cons.mp hpart with rfl | hpart
      · exact ⟨ev, List.mem_cons_self, hev⟩
      · obtain ⟨ev', hmem, hpersisted⟩ := ih hpart
        exact ⟨ev', List.mem_cons_of_mem _ hmem, hpersisted⟩

theorem persisted_singleton {events : List Event}
    (h : List.Forall₂ (PersistedAs e) [part] events) :
    ∃ ev, events = [ev] ∧ PersistedAs e part ev := by
  obtain ⟨ev, rest, hpart, hrest, rfl⟩ := List.forall₂_cons_left_iff.mp h
  rw [List.forall₂_nil_left_iff.mp hrest]
  exact ⟨ev, rfl, hpart⟩

theorem PersistedAs.body_of {ev : Event} {body : EventBody} (h : PersistedAs e part ev)
    (hbody : part.body = body) (hkind : ∀ p, body ≠ .priorityAssessed p) :
    ev.core.body = body := by
  rcases h.body_eq with heq | ⟨p, p', hpart, -, -⟩
  · exact heq.trans hbody
  · exact (hkind p (hbody.symm.trans hpart)).elim

/-- A persisted event of any kind but an assessment is of the part's kind. -/
theorem PersistedAs.part_body {ev : Event} {body : EventBody} (h : PersistedAs e part ev)
    (hbody : ev.core.body = body) (hkind : ∀ p, body ≠ .priorityAssessed p) :
    part.body = body := by
  rcases h.body_eq with heq | ⟨p, p', -, hev, -⟩
  · exact heq.symm.trans hbody
  · exact (hkind p' (hbody.symm.trans hev)).elim

end Creates

/-! ## The system -/

section System

variable {P : Type}

/-- Any number of processes, each running one command after another. -/
abbrev FacadeSys (P : Type) :=
  Sys P Call Event Emission JsString Query Query.Answer TrackError Unit

/-- `events` land on `log`: what call `c` has issued on a part of it. -/
structure Lands (ok : List Event → Call → Emission → Prop) (log : List Event) (c : Call)
    (view : List Event) (minted : List JsString) (e : Emission) (events : List Event) : Prop where
  sees : view <+: log
  requests : Requests (c.command.stamp c.facade) c.names view minted e
  ok : ok log c e
  fresh : ∀ x ∈ minted, x ∉ published log ∧ x ∉ c.names
  events : List.Forall₂ (PersistedAs e) e.parts events
  recheck : ∀ hook, e.recheck = some hook → ∃ inputs, hook inputs log = .ok ()

variable {ok : List Event → Call → Emission → Prop} {log : List Event} {c : Call}
variable {view : List Event} {minted : List JsString} {e : Emission} {events : List Event}

theorem Lands.fresh_append (h : Lands ok log c view minted e events) (hfresh : Fresh log) :
    Fresh (log ++ events) := by
  obtain ⟨hnodup, hminted⟩ := h.requests.issued.creates
  unfold Fresh
  rw [createdIn_append, List.nodup_append, persisted_creates h.events]
  refine ⟨hfresh, hnodup, ?_⟩
  rintro x hx y hy rfl
  exact (h.fresh x (hminted x hy)).1 (createdIn_sub log x hx)

/-- An append publishes nothing but ids its call had named, minted or seen. -/
theorem perform_publishes {contentHashOf : EventData → Sha256} {facade : Facade}
    {names : List JsString} {stamp : Stamp} {x : JsString} (hview : view <+: log)
    (hrequest : Requests facade names view minted e)
    (hx : x ∈ published (perform contentHashOf log e stamp).2) :
    x ∈ published log ∨ x ∈ minted ∨ x ∈ names := by
  rcases hperform : perform contentHashOf log e stamp with ⟨result, log'⟩
  rw [hperform] at hx
  cases result with
  | error error => exact .inl (perform_error hperform ▸ hx)
  | ok events =>
      cases perform_done hperform with
      | deduped => exact .inl hx
      | retried => exact .inl hx
      | written hevents =>
          rw [published_append, List.mem_append] at hx
          rcases hx with hx | hx
          · exact .inl hx
          · obtain ⟨part, hpart, hx⟩ := persisted_ids hevents hx
            rcases hrequest.ids part hpart x hx with hseen | hrest
            · exact .inl (published_mono hview hseen)
            · exact .inr hrest

/-- An append only ever adds to the log. -/
theorem perform_extends {contentHashOf : EventData → Sha256} (log : List Event) (e : Emission)
    (stamp : Stamp) : log <+: (perform contentHashOf log e stamp).2 := by
  rcases hperform : perform contentHashOf log e stamp with ⟨result, log'⟩
  cases result with
  | error error => exact perform_error hperform ▸ List.prefix_refl _
  | ok events => exact (perform_done hperform).extends

/-- The facade keeps to its discipline: `alone` a process sees the log as it is. -/
theorem facade_discipline {contentHashOf : EventData → Sha256} {G : List Event → Prop}
    (hnil : G [])
    (hkeep : ∀ {log c view minted e events}, Fresh log → G log →
      (Subsingleton P → view = log) → Lands ok log c view minted e events →
        G (log ++ events)) :
    Discipline Call.prog Call.names published (perform contentHashOf) P
      (fun _ view log => view <+: log ∧ (Subsingleton P → view = log)) Done
      (fun c => Requests (c.command.stamp c.facade) c.names) ok
      (fun log _ => Fresh log ∧ G log) where
  refl c log := ⟨List.prefix_refl log, fun _ => rfl⟩
  sat c log := Sat.narrow (fun _ _ h => h.1) (c.command.keeps fun _ hx => hx)
  done h := perform_done h
  good_nil := ⟨List.nodup_nil, hnil⟩
  publish _ hview hrequest hx := perform_publishes hview.1 hrequest hx
  keep {log history c view minted e stamp} hgood hview hrequest hok _ hfresh := by
    rcases hperform : perform contentHashOf log e stamp with ⟨result, log'⟩
    cases result with
    | error error => exact perform_error hperform ▸ hgood
    | ok events =>
        cases perform_done hperform with
        | deduped => exact hgood
        | retried => exact hgood
        | written hevents _ hrecheck =>
            by_cases hnil : events = []
            · simpa [hnil] using hgood
            have hok := hok (by rw [hperform]; simpa using hnil)
            have hlands : Lands ok log c view minted e events :=
              ⟨hview.1, hrequest, hok, hfresh, hevents, fun hook h => ⟨_, hrecheck hook h⟩⟩
            exact ⟨hlands.fresh_append hgood.1, hkeep hgood.1 hgood.2 hview.2 hlands⟩
  guarantee {log history c view minted e stamp c' view'} hother hgood hview hrequest hok _ _
      hview' := by
    exact ⟨hview'.1.trans (perform_extends log e stamp), fun hsub => (hother hsub).elim⟩

variable [DecidableEq P]

/-- A step of a process; an append that writes is taken only where `ok` holds of the
log it lands on. -/
def FacadeStep (contentHashOf : EventData → Sha256)
    (ok : List Event → Call → Emission → Prop) (s t : FacadeSys P) : Prop :=
  Step Call.prog Call.names published (perform contentHashOf) ok s t

/-- What every landing keeps holds of every log reached, and nothing is created
twice in it. -/
theorem reachable_invariant {contentHashOf : EventData → Sha256} {G : List Event → Prop}
    (hnil : G [])
    (hkeep : ∀ {log c view minted e events}, Fresh log → G log →
      Lands ok log c view minted e events → G (log ++ events))
    {s : FacadeSys P} (hrun : Reaches (FacadeStep contentHashOf ok) Sys.initial s) :
    Fresh s.log ∧ G s.log :=
  (facade_discipline hnil fun hfresh hgood _ hlands => hkeep hfresh hgood hlands).invariant hrun

end System

/-! ## Schedules -/

/-- A list of steps of a process each. -/
abbrev Schedule (P : Type) := List (Action P Call JsString Query Query.Answer Stamp)

section Outcome

variable {P β : Type} [DecidableEq P] {ok : List Event → Call → Emission → Prop}
variable [∀ log c e, Decidable (ok log c e)]

/-- What `f` makes of the log the schedule reaches, if all of it can be taken and its
appends meet `ok`. -/
def outcome (ok : List Event → Call → Emission → Prop) [∀ log c e, Decidable (ok log c e)]
    (schedule : Schedule P) (f : List Event → β) : Option β :=
  (runs Call.prog Call.names published (perform fun e => e.id) ok schedule Sys.initial).map
    fun s => f s.log

theorem reached_of_outcome {schedule : Schedule P} {f : List Event → β} {b : β}
    (h : outcome ok schedule f = some b) :
    ∃ s : FacadeSys P, Reaches (FacadeStep (fun e => e.id) ok) Sys.initial s ∧ f s.log = b := by
  obtain ⟨s, hs, hb⟩ := Option.map_eq_some_iff.mp h
  exact ⟨s, reaches_of_runs hs, hb⟩

end Outcome

/-- A stamp for a schedule: its `n`-th append. -/
def Stamp.nth (n : Nat) : Stamp where
  at_ := js "2026-01-01T00:00:00.000Z"
  ids := fun i => ⟨[UInt16.ofNat n, UInt16.ofNat i]⟩
  cmdId := ⟨[UInt16.ofNat n]⟩

/-- An item of a workspace, for a schedule. -/
def samplePayload (workspace : JsString) (role : Option ItemRole)
    (parentId : Option ItemId) : ItemCreatedPayload where
  kind := .feature
  title := js "sample"
  workspace := workspace
  parentId := parentId
  role := role
  scope := none
  sourceKey := none
  body := none
  links := none
  accountable := none
  responsible := none
  engagementRef := none
  demandId := none

section Schedule

variable {P : Type} (p : P)

/-- A call of a plain instance. -/
def callOf (command : Command) : Action P Call JsString Query Query.Answer Stamp :=
  .call p ⟨.plain, command⟩

/-- A root item created without reading. -/
def createOf (n : Nat) (itemId : ItemId) (role : Option ItemRole) :
    Schedule P :=
  [callOf p (.createItem (samplePayload (js "w") role none)), .mint p itemId, .append p (.nth n)]

/-- A demand raised in a workspace and claimed. -/
def claimOf (n : Nat) (demandId : DemandId) (workspace : JsString) :
    Schedule P :=
  [callOf p (.raiseDemand ⟨.feature, ⟨js "sample", none, none⟩, ⟨.human, none, none, none⟩,
    workspace, none, none, none, none⟩), .mint p demandId, .append p (.nth n),
    callOf p (.claimDemand demandId none none), .read p, .append p (.nth (n + 1))]

end Schedule

end H2a.Track
