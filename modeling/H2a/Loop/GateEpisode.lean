import H2a.Loop.DecisionGate
import H2a.Track.Facade.Reachable
/-!
# One decision for an episode of a gate

An append creates at most one decision, with one blocker for each target.  So an episode has one
decision as long as no append finds its key taken.
-/

namespace H2a.Loop

open H2a.Library H2a.Library.Program H2a.Library.Concurrent
open H2a.Track H2a.Track.Model
open H2a.Track.Events (Sha256)

/-! ## What an append creates -/

section Batch

variable {names : List JsString} {view log : List Event} {minted : List JsString} {e : Emission}

/-- The source keys of the decisions a batch is to create. -/
def keysOfParts (parts : List EventPart) : List JsString :=
  parts.filterMap fun part => createdKey part.body

theorem keysOfParts_cons (part : EventPart) (parts : List EventPart) :
    keysOfParts (part :: parts) = (createdKey part.body).toList ++ keysOfParts parts := by
  unfold keysOfParts
  rw [List.filterMap_cons]
  cases createdKey part.body <;> rfl

def isDecisionBlockerOn (target : ItemId) (body : EventBody) : Bool :=
  match body with
  | .blockerOpened blocker => blocker.kind = .decision ∧ blocker.targetId = target
  | _ => false

theorem createdKey_eq_none_of_joint {parts : List EventPart}
    (h : ∀ part ∈ parts, createdKey part.body = none) : keysOfParts parts = [] := by
  rw [keysOfParts, List.filterMap_eq_nil_iff]
  exact h

theorem Single.createdKey {s : State} {clientToken : Option JsString} {part : EventPart}
    (h : Single s minted clientToken part) : createdKey part.body = none := by
  unfold Single at h
  unfold Loop.createdKey
  cases hbody : part.body <;> rw [hbody] at h
  all_goals first | rfl | exact h.elim

theorem createdKey_outcomeParts {s : State} {decision : DecisionState} {dest : Outcome} :
    ∀ part ∈ Facade.outcomeParts s decision dest, createdKey part.body = none := by
  intro part hpart
  rcases mem_outcomeParts hpart with rfl | ⟨-, target, -, blocker, -, rfl⟩ |
    ⟨-, target, -, -, -, -, rfl⟩ <;> rfl

/-- An append creates no decision, or one of them with a blocker for each of its targets. -/
theorem Issued.keysOfParts (h : Issued names view minted e) :
    keysOfParts e.parts = [] ∨
      ∃ (input : DecisionCreatedPayload) (decisionId : ItemId) (blockerIds : List BlockerId),
        input.targets.Nodup ∧
        e.parts = ⟨.decision, decisionId, .decisionCreated input⟩ ::
          List.zipWith (Facade.decisionBlocker decisionId input.decisionKind) blockerIds
            input.targets := by
  have hnone (hparts : ∀ part ∈ e.parts, createdKey part.body = none) :
      Loop.keysOfParts e.parts = [] := createdKey_eq_none_of_joint hparts
  cases h with
  | single hparts hpart =>
      refine .inl (hnone fun part hmem => ?_)
      rw [hparts, List.mem_singleton] at hmem
      rw [hmem]
      exact Single.createdKey hpart
  | codeAssigned hparts => exact .inl (by rw [hparts]; rfl)
  | claimed hparts => exact .inl (by rw [hparts]; rfl)
  | disposed hparts => exact .inl (by rw [hparts]; rfl)
  | agreed hdemand hlength hnodup hminted hparts =>
      refine .inl (hnone fun part hmem => ?_)
      rw [hparts] at hmem
      rcases List.mem_cons.mp hmem with rfl | hmem
      · rfl
      · obtain ⟨itemId, -, item, -, rfl⟩ := exists_of_mem_zipWith hmem
        rfl
  | decisionCreated hnodup hlength hminted htargets hknown hparts =>
      exact .inr ⟨_, _, _, htargets, hparts⟩
  | deferred hdecision hmove hparts =>
      exact .inl (hnone (hparts ▸ createdKey_outcomeParts))
  | settled hsettled hdecision hmove hparts =>
      refine .inl (hnone fun part hmem => ?_)
      rw [hparts] at hmem
      rcases List.mem_cons.mp hmem with rfl | hmem
      · rfl
      · exact createdKey_outcomeParts part hmem
  | externalResolved hparts =>
      refine .inl (hnone fun part hmem => ?_)
      rw [hparts] at hmem
      obtain ⟨b, -, rfl⟩ := List.mem_map.mp hmem
      rfl
  | consolidated hknown hparts =>
      refine .inl (hnone fun part hmem => ?_)
      rw [hparts] at hmem
      obtain ⟨itemId, -, hpart⟩ := List.mem_flatMap.mp hmem
      rcases consolidateItem_part hpart with rfl | ⟨c, -, ev, -, run, -, -, rfl⟩ <;> rfl
  | reported hview hparts =>
      refine .inl (hnone fun part hmem => ?_)
      obtain ⟨-, evidenceId, run, evidence, criterion, hbody, -⟩ := hparts part hmem
      rw [hbody]
      rfl

/-- The blockers a decision opens create no decision. -/
theorem keysOfParts_blockers {decisionId : ItemId} {gate : Gate} (blockerIds : List BlockerId)
    (targets : List ItemId) :
    keysOfParts (List.zipWith (Facade.decisionBlocker decisionId gate) blockerIds targets) = [] := by
  apply createdKey_eq_none_of_joint
  intro part hpart
  obtain ⟨blockerId, -, target, -, rfl⟩ := exists_of_mem_zipWith hpart
  rfl

/-- A decision opens one blocker on each of its targets, and none elsewhere. -/
theorem countP_decisionBlocker_le {decisionId : ItemId} {gate : Gate} (target : ItemId)
    (blockerIds : List BlockerId) (targets : List ItemId) :
    (List.zipWith (Facade.decisionBlocker decisionId gate) blockerIds targets).countP
      (fun part => isDecisionBlockerOn target part.body) ≤ targets.count target := by
  induction blockerIds generalizing targets with
  | nil => exact Nat.zero_le _
  | cons blockerId blockerIds ih =>
      cases targets with
      | nil => exact Nat.le_refl _
      | cons t targets =>
          rw [List.zipWith_cons_cons, List.countP_cons, List.count_cons]
          have hhead : (if isDecisionBlockerOn target
              (Facade.decisionBlocker decisionId gate blockerId t).body then 1 else 0) =
              if t == target then 1 else 0 := by
            simp [isDecisionBlockerOn, Facade.decisionBlocker]
          rw [hhead]
          exact Nat.add_le_add_right (ih targets) _

theorem Issued.count_keys_le (h : Issued names view minted e) (key : JsString) :
    (Loop.keysOfParts e.parts).count key ≤ 1 := by
  rcases Issued.keysOfParts h with hnone | ⟨input, decisionId, blockerIds, -, hparts⟩
  · rw [hnone]
    exact Nat.zero_le 1
  · have hrest := @keysOfParts_blockers decisionId input.decisionKind blockerIds input.targets
    have hkeys : Loop.keysOfParts e.parts = input.sourceKey.toList := by
      rw [hparts, keysOfParts_cons, hrest, List.append_nil]
      rfl
    rw [hkeys]
    calc input.sourceKey.toList.count key ≤ input.sourceKey.toList.length := List.count_le_length
      _ ≤ 1 := by cases input.sourceKey <;> simp

theorem Issued.count_blockers_le (h : Issued names view minted e) {key : JsString}
    (hkey : key ∈ Loop.keysOfParts e.parts) (target : ItemId) :
    e.parts.countP (fun part => isDecisionBlockerOn target part.body) ≤ 1 := by
  rcases Issued.keysOfParts h with hnone | ⟨input, decisionId, blockerIds, htargets, hparts⟩
  · rw [hnone] at hkey
    cases hkey
  · rw [hparts, List.countP_cons_of_neg (by simp [isDecisionBlockerOn])]
    calc _ ≤ input.targets.count target := countP_decisionBlocker_le target blockerIds _
      _ ≤ 1 := List.nodup_iff_count_le_one.mp htargets target

/-! ## What is persisted of it -/

theorem PersistedAs.createdKey {part : EventPart} {ev : Event} (h : PersistedAs e part ev) :
    createdKey ev.core.body = createdKey part.body := by
  rcases h.body_eq with heq | ⟨p, p', hpart, hev, -⟩
  · rw [heq]
  · rw [hpart, hev]
    rfl

theorem PersistedAs.isDecisionBlockerOn {part : EventPart} {ev : Event}
    (h : PersistedAs e part ev) (target : ItemId) :
    isDecisionBlockerOn target ev.core.body = isDecisionBlockerOn target part.body := by
  rcases h.body_eq with heq | ⟨p, p', hpart, hev, -⟩
  · rw [heq]
  · rw [hpart, hev]
    rfl

theorem keysIn_of_persisted {parts : List EventPart} {events : List Event}
    (h : List.Forall₂ (PersistedAs e) parts events) : keysIn events = keysOfParts parts := by
  induction h with
  | nil => rfl
  | cons hpart _ ih =>
      unfold keysIn keysOfParts at ih ⊢
      rw [List.filterMap_cons, List.filterMap_cons, ih, PersistedAs.createdKey hpart]

theorem length_decisionBlockersOn_of_persisted {parts : List EventPart} {events : List Event}
    (h : List.Forall₂ (PersistedAs e) parts events) (target : ItemId) :
    (decisionBlockersOn target events).length =
      parts.countP fun part => isDecisionBlockerOn target part.body := by
  have hfilter : decisionBlockersOn target events =
      events.filter fun ev => isDecisionBlockerOn target ev.core.body := rfl
  rw [hfilter, ← List.countP_eq_length_filter]
  induction h with
  | nil => rfl
  | cons hpart _ ih =>
      rw [List.countP_cons, List.countP_cons, ih rfl, PersistedAs.isDecisionBlockerOn hpart]

end Batch

/-! ## The ledger -/

section Ledger

variable {revision : Revision} {log : List Event} {history : List (LedgerCall × List Event)}

theorem keysIn_append (log events : List Event) :
    keysIn (log ++ events) = keysIn log ++ keysIn events := by
  simp [keysIn]

/-- What was appended, in order, is the ledger; each episode has one decision. -/
structure Ordered (revision : Revision) (log : List Event)
    (history : List (LedgerCall × List Event)) : Prop where
  appended : log = history.flatMap (·.2)
  one : OneDecisionPerEpisode revision log history

theorem Ordered.nil : Ordered revision [] [] := by
  refine ⟨rfl, fun loopId ref gate episode => ⟨?_, ?_⟩⟩ <;> exact Nat.zero_le 1

/-- No batch of the ledger has a key that the ledger does not have. -/
theorem Ordered.blockersOfKey_eq_nil (h : Ordered revision log history) {key : JsString}
    (hkey : key ∉ keysIn log) (target : ItemId) : blockersOfKey history key target = [] := by
  rw [blockersOfKey, List.flatMap_eq_nil_iff]
  intro entry hentry
  refine if_neg fun hmem => hkey ?_
  obtain ⟨ev, hev, hcreated⟩ := List.mem_filterMap.mp hmem
  rw [h.appended]
  exact List.mem_filterMap.mpr ⟨ev, List.mem_flatMap.mpr ⟨entry, hentry, hev⟩, hcreated⟩

/-- An append that adds nothing. -/
theorem Ordered.unchanged (h : Ordered revision log history) (c : LedgerCall) :
    Ordered revision log (history ++ [(c, [])]) := by
  constructor
  · rw [List.flatMap_append, ← h.appended, List.flatMap_singleton, List.append_nil]
  · intro loopId ref gate episode
    have hold := h.one loopId ref gate episode
    simpa [blockersOfKey, keysIn] using hold

theorem Ordered.append {names : List JsString} {view : List Event} {minted : List JsString}
    {e : Emission} {events : List Event} (h : Ordered revision log history) (c : LedgerCall)
    (hissued : Issued names view minted e) (hevents : List.Forall₂ (PersistedAs e) e.parts events)
    (hfree : KeyIsFree revision log c e) :
    Ordered revision (log ++ events) (history ++ [(c, events)]) := by
  constructor
  · rw [List.flatMap_append, ← h.appended, List.flatMap_singleton]
  · intro loopId ref gate episode
    have hkeys := keysIn_of_persisted hevents
    have hold := h.one loopId ref gate episode
    have hfree := hfree loopId ref gate episode
    generalize decisionSourceKey revision loopId ref gate episode = key at hold hfree ⊢
    have hblockers : blockersOfKey (history ++ [(c, events)]) key gate.targetItemId =
        blockersOfKey history key gate.targetItemId ++
          if key ∈ keysIn events then decisionBlockersOn gate.targetItemId events else [] := by
      simp [blockersOfKey]
    simp only [hblockers, keysIn_append, List.count_append, List.length_append]
    by_cases hkey : key ∈ keysIn events
    · -- the key is new to the ledger
      have hparts : key ∈ keysOfParts e.parts := hkeys ▸ hkey
      have hnew : key ∉ keysIn log := hfree hparts
      rw [h.blockersOfKey_eq_nil hnew, List.count_eq_zero.mpr hnew, if_pos hkey, hkeys,
        length_decisionBlockersOn_of_persisted hevents, List.length_nil, Nat.zero_add,
        Nat.zero_add]
      exact ⟨Issued.count_keys_le hissued key, Issued.count_blockers_le hissued hparts _⟩
    · rw [List.count_eq_zero.mpr hkey, if_neg hkey]
      exact hold

end Ledger

/-! ## Executors and other writers -/

section System

/-- The instance a call stamps its events by. -/
def LedgerCall.stamp : LedgerCall → Facade
  | .route _ _ _ _ => loopDecisionFacade
  | .command c => c.command.stamp c.facade

theorem routeLoopDecision_keeps {names : List JsString} {revision : Revision}
    {loop : H2AObjectiveLoop} {action : TickAction} {before after : List (Option State)}
    {view : List Event} {minted : List JsString} :
    Keeps loopDecisionFacade names (fun _ _ _ => True) view minted
      (routeLoopDecision revision loop action before after) := by
  unfold routeLoopDecision
  split
  · trivial
  · simp only [Track.Keeps, sat_bind, sat_state]
    intro log _
    split
    · trivial
    · trivial
    · split
      · trivial
      · simp only [sat_bind, sat_state]
        intro log' _ log'' _
        split
        · trivial
        · exact sat_bind.mpr (createDecision_keeps (by rintro x ⟨⟩))

theorem LedgerCall.keeps (revision : Revision) (c : LedgerCall) (view : List Event) :
    Keeps c.stamp c.names (fun _ _ _ => True) view [] (c.prog revision) := by
  cases c with
  | route loop action before after => exact routeLoopDecision_keeps.discard
  | command c => exact c.command.keeps fun _ hx => hx

variable {P : Type}

/-- Any number of processes, each making one call after another. -/
abbrev LedgerSys (P : Type) :=
  Sys P LedgerCall Event Emission JsString Query Query.Answer TrackError Unit

theorem ledger_discipline (contentHashOf : EventData → Sha256) (revision : Revision) :
    Discipline (LedgerCall.prog revision) LedgerCall.names published (perform contentHashOf) P
      (fun _ view log => view <+: log) Done (fun c => Requests c.stamp c.names)
      (KeyIsFree revision) (Ordered revision) where
  refl _ log := List.prefix_refl log
  sat c log := c.keeps revision log
  done h := perform_done h
  good_nil := .nil
  publish _ hview hrequest hx := perform_publishes hview hrequest hx
  keep {log history c view minted e stamp} hgood hview hrequest hok _ _ := by
    rcases hperform : perform contentHashOf log e stamp with ⟨result, log'⟩
    have hsame (hlog : log' = log) :
        Ordered revision log' (history ++ [(c, log'.drop log.length)]) := by
      rw [hlog, List.drop_length]
      exact hgood.unchanged c
    cases result with
    | error error => exact hsame (perform_error hperform)
    | ok events =>
        cases perform_done hperform with
        | deduped => exact hsame rfl
        | retried => exact hsame rfl
        | written hevents _ _ =>
            by_cases hnil : events = []
            · exact hsame (by rw [hnil, List.append_nil])
            · have hfree := hok (by rw [hperform]; simpa using hnil)
              rw [List.drop_left]
              exact hgood.append c (hrequest.issued) hevents hfree
  guarantee _ _ _ _ _ _ _ hview' := hview'.trans (perform_extends _ _ _)

variable [DecidableEq P]

/-- A step of a process; an append that writes is taken only where `ok` holds of the ledger. -/
def LedgerStep (contentHashOf : EventData → Sha256) (revision : Revision)
    (ok : List Event → LedgerCall → Emission → Prop) (s t : LedgerSys P) : Prop :=
  Step (LedgerCall.prog revision) LedgerCall.names published (perform contentHashOf) ok s t

/-- As long as every decision is appended while its key is free, each episode of a gate has at
most one decision, and one blocker with it. -/
theorem one_decision_per_episode {contentHashOf : EventData → Sha256} {revision : Revision}
    {s : LedgerSys P}
    (hrun : Reaches (LedgerStep contentHashOf revision (KeyIsFree revision)) Sys.initial s) :
    OneDecisionPerEpisode revision s.log s.history :=
  ((ledger_discipline contentHashOf revision).invariant hrun).one

end System

/-! ## Two executors -/

def sampleGate : H2ALoopDecisionGate where
  id := js "g"
  decisionKind := .orientation
  title := js "t"
  context := js "c"
  options := [⟨js "a", js "a", js "a", none, none⟩, ⟨js "b", js "b", js "b", none, none⟩]
  qa := none
  recommendedOptionId := js "a"
  rationale := js "r"
  targetItemId := js "x"
  targetWorkspace := js "w"

def gateRef : H2ALoopTrackRef :=
  ⟨js "repo", js "w", .item, js "x", js "decision-gate", some sampleGate, none⟩

def gatedLoop : H2AObjectiveLoop :=
  { id := js "loop-1", name := js "x", goal := js "x", status := .running, repos := []
    refs := [gateRef], agents := [], createdAt := 0, updatedAt := 0
    policy := ⟨60000, 900000, 3, none, false, .explicitDone, .allGoOrWaived⟩ }

/-- The action of a tick for the gate. -/
def routeGate : TickAction :=
  ⟨.routeDecision, js "open decision gate", none, some (loopRefLocator gateRef), some (js "g"),
    none⟩

def plainRevision : Revision := fun _ _ _ => js "r"

abbrev LedgerSchedule := List (Action Bool LedgerCall JsString Query Query.Answer Stamp)

/-- The target is created. -/
def createTarget : LedgerSchedule :=
  [.call false (.command ⟨.plain, .createItem (samplePayload (js "w") none none)⟩),
    .mint false (js "x"), .append false (.nth 0)]

/-- An executor looks for the target, the episode and the decision. -/
def scanBy (p : Bool) : LedgerSchedule :=
  [.call p (.route gatedLoop routeGate [] []), .read p, .read p, .read p]

/-- An executor raises the decision. -/
def raiseBy (p : Bool) (decisionId blockerId : String) (n : Nat) : LedgerSchedule :=
  [.read p, .mint p (js decisionId), .mint p (js blockerId), .append p (.nth n)]

/-- The keys of the decisions the schedule leads to, when its appends meet `ok`. -/
def keysAfter (ok : List Event → LedgerCall → Emission → Prop)
    [∀ log c e, Decidable (ok log c e)] (schedule : LedgerSchedule) : Option (List JsString) :=
  (runs (LedgerCall.prog plainRevision) LedgerCall.names published (perform fun e => e.id) ok
    schedule (Sys.initial : LedgerSys Bool)).map fun s => keysIn s.log

def sampleKey : JsString := decisionSourceKey plainRevision (js "loop-1") gateRef sampleGate 0

/-- No key is appended twice. -/
abbrev EveryKeyIsFree (log : List Event) (_ : LedgerCall) (e : Emission) : Prop :=
  ∀ key ∈ keysOfParts e.parts, key ∉ keysIn log

theorem keysAfter_onceRouted :
    keysAfter EveryKeyIsFree (createTarget ++ scanBy false ++ raiseBy false "d" "b" 1) =
      some [sampleKey] := by
  decide +kernel

theorem keysAfter_twiceRouted :
    keysAfter (fun _ _ _ => True) (createTarget ++ scanBy false ++ scanBy true ++
      raiseBy false "d" "b" 1 ++ raiseBy true "d'" "b'" 2) = some [sampleKey, sampleKey] := by
  decide +kernel

theorem one_decision_per_episode_routed :
    ∃ s : LedgerSys Bool, keysIn s.log = [sampleKey] ∧
      OneDecisionPerEpisode plainRevision s.log s.history := by
  obtain ⟨s, hs, hkeys⟩ := Option.map_eq_some_iff.mp keysAfter_onceRouted
  refine ⟨s, hkeys, ?_⟩
  apply @one_decision_per_episode _ _ fun e => e.id
  apply Relation.ReflTransGen.mono _ _ _ (reaches_of_runs hs)
  intro a b hstep
  refine Step.mono (fun log c e hfree => ?_) hstep
  intro loopId ref gate episode key hkey
  exact hfree key hkey

/-- Both executors have looked before either raises the decision. -/
theorem two_decisions_one_episode :
    ¬∀ (contentHashOf : EventData → Sha256) (revision : Revision) (s : LedgerSys Bool),
      Reaches (LedgerStep contentHashOf revision fun _ _ _ => True) Sys.initial s →
        OneDecisionPerEpisode revision s.log s.history := by
  intro h
  obtain ⟨s, hs, hkeys⟩ := Option.map_eq_some_iff.mp keysAfter_twiceRouted
  have hone := (h (fun e => e.id) plainRevision s (reaches_of_runs hs) (js "loop-1") gateRef
    sampleGate 0).1
  rw [hkeys] at hone
  revert hone
  decide +kernel

end H2a.Loop
