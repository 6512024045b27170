import H2a.Track.Facade.KeepsAcceptance
import H2a.Track.Ingest.Channel
/-!
# What the commands of a channel hand to the store

The parts of every append a mapped command comes to, by the log the command has read
last.  One lemma for each command, by its steps; later proofs never unfold it.
-/

namespace H2a.Track.Ingest.Channel

open H2a.Library H2a.Library.Program H2a.Track.Model

/-- `part` is one the command of a payload can hand to the store, when `s` is the state
it has read last. -/
def WorkPayload.Emits (ctx : IngestContext) (payload : WorkPayload) (s : State)
    (part : EventPart) : Prop :=
  match payload with
  | .itemCreate input => ∃ x, ∃ created : ItemCreatedPayload,
      created.workspace = input.workspace ∧ part = ⟨.item, x, .itemCreated created⟩
  | .itemSetRaci x _ => ∃ update, part = ⟨.item, x, .itemRaciAssigned update⟩
  | .itemAddLink x _ => ∃ link, part = ⟨.item, x, .itemLinkAdded link⟩
  | .itemReparent x parentId => part = ⟨.item, x, .itemReparented parentId none none⟩
  | .itemSpec x dest => part = ⟨.item, x, .specTransition dest⟩
  | .itemRealize x dest => ∃ aggregate, part = ⟨aggregate, x, .realizationTransition dest none⟩
  | .itemReopen x _ => ∃ reopening, part = ⟨.item, x, .realizationReopened (some x) reopening⟩
  | .decisionCreate input => ∃ decisionId,
      part = ⟨.decision, decisionId, .decisionCreated input⟩ ∨
      ∃ x, ∃ target ∈ input.targets, part =
        Facade.decisionBlocker decisionId input.decisionKind x target
  | .decisionDossier x dossier => part = ⟨.decision, x, .dossierRevised dossier⟩
  | .decisionSelect x optionId _ => part = ⟨.decision, x, .decisionOptionSelected optionId⟩ ∨
      ∃ decision dest, s.decisions.get x = some decision ∧
        part ∈ Facade.outcomeParts s decision dest
  | .decisionAddArtifact x _ => ∃ artifact, part = ⟨.decision, x, .decisionArtifactAdded artifact⟩
  | .decisionOutcome x _ => ∃ decision dest, s.decisions.get x = some decision ∧
      part ∈ Facade.outcomeParts s decision dest
  | .decisionDisposition x gate disposition reason =>
      part = ⟨.item, x, .decisionDisposition x gate disposition reason⟩
  | .acceptanceCriterion x statement => ∃ criterionId,
      part = ⟨.item, x, .criterionAdded criterionId statement⟩
  | .acceptanceLink criterionId kind locator _ => ∃ itemId evidenceId,
      part = ⟨.item, itemId, .evidenceLinked evidenceId criterionId kind locator⟩
  | .acceptanceRun evidenceId run => ∃ itemId,
      part = ⟨.item, itemId, .acceptanceRun evidenceId run⟩
  | .acceptanceWaive criterionId reason => ∃ itemId by_,
      part = ⟨.item, itemId, .acceptanceWaived criterionId reason by_⟩
  | .priorityAssess x _ => ∃ assessment, part = ⟨.item, x, .priorityAssessed assessment⟩
  | .blockerRaise targetId _ _ _ _ _ _ _ => ∃ x, ∃ opened : BlockerOpenedPayload,
      opened.targetId = targetId ∧ part = ⟨.blocker, x, .blockerOpened opened⟩
  | .blockerResolve x => ∃ engagementRef, part = ⟨.blocker, x, .blockerResolved x none engagementRef⟩
  | .blockerResolveExternal engagementRef =>
      ∃ b ∈ Facade.externalBlockers s engagementRef (.workspace ctx.workspace),
        part = ⟨.blocker, b.id, .blockerResolved b.id none (some engagementRef)⟩
  | .scopeVerification input => match input.wpRef with
      | some x => part = ⟨.item, x, .verificationRecorded input⟩
      | none => part = ⟨.verification, Facade.verificationAggregate ctx.workspace,
          .verificationRecorded input⟩
  | .scopeDeclare x _ => ∃ scope, part = ⟨.item, x, .scopeDeclared scope⟩
  | .itemAssignCode x code => part = ⟨.item, x, .itemCodeAssigned code⟩
  | .itemSetRole x dest => part = ⟨.item, x, .itemRoleChanged dest⟩
  | .itemSpecAmend x _ => ∃ amended : SpecAmendPayload, amended.itemId = x ∧
      part = ⟨.item, x, .specAmended amended⟩
  | .itemAnchor x commit reason => part = ⟨.item, x, .realizationAnchored x commit reason⟩
  | .itemConsolidate items mergeCommit => ∃ x ∈ items,
      part ∈ Facade.consolidateItem s mergeCommit x
  | .demandRaise input => ∃ x, ∃ raised,
      part = ⟨.demand, x, .demandRaised raised input.workspace⟩
  | .demandClaim x _ leaseId => ∃ handler,
      part = ⟨.demand, x, .demandQualifyingStarted handler leaseId⟩
  | .demandAgree x _ _ qualification leaseId => ∃ demand, s.demands.get x = some demand ∧
      ((∃ handler itemIds,
        part = ⟨.demand, x, .demandAgreed handler itemIds qualification leaseId⟩) ∨
      ∃ itemId, ∃ item, part = Facade.promotion demand x itemId item)
  | .demandDisposition x _ _ reason duplicateOf parkedUntil leaseId => ∃ outcome handler,
      part = ⟨.demand, x,
        .demandDisposition outcome handler (some reason) duplicateOf parkedUntil leaseId⟩
  | .specClaim x _ leaseId attemptId => ∃ handler,
      part = ⟨.item, x, .specStarted x handler leaseId attemptId⟩
  | .specAbandon x _ reason leaseId => ∃ handler,
      part = ⟨.item, x, .specAbandoned x handler reason leaseId⟩
  | .itemRestructure x parentId planHash restructureRef =>
      part = ⟨.item, x, .itemReparented (some parentId) (some planHash) restructureRef⟩

/-! ## The rules -/

section Emitting

variable {α : Type}

/-- Others may do to a log in one go what they do in several, or nothing. -/
structure Steady (R : List Event → List Event → Prop) : Prop where
  refl : ∀ a, R a a
  trans : ∀ {a b c}, R a b → R b c → R a c

/-- Whatever `p` appends is made of the parts in `Q` of a state it has read, on a log that
others may have led to from `base`. -/
def Emitting (R : List Event → List Event → Prop)
    (Q : State → EventPart → Prop) (base view : List Event)
    (minted : List JsString) (p : Prog α) : Prop :=
  Sat R Done (fun v _ e => ∃ log, R base log ∧ R log v ∧ ∀ part ∈ e.parts, Q (fold log) part)
    (fun _ _ _ => True) view minted p

variable {R : List Event → List Event → Prop}
variable {Q : State → EventPart → Prop} {base view : List Event}
variable {minted : List JsString} {facade : Facade}

theorem emitBatch_emitting {parts : List EventPart} {log : List Event} (hlog : R base log)
    (hlater : R log view) (hparts : ∀ part ∈ parts, Q (fold log) part) :
    Emitting R Q base view minted (facade.emitBatch parts) :=
  ⟨⟨log, hlog, hlater, hparts⟩, fun _ _ _ _ _ => trivial⟩

theorem Emitting.map {β : Type} {p : Prog α} (h : Emitting R Q base view minted p) (g : α → β) :
    Emitting R Q base view minted (p >>= fun a => Pure.pure (g a)) := by
  unfold Emitting
  rw [sat_bind]
  exact h.mono (fun _ _ _ hrequest => hrequest) fun _ _ _ _ => trivial

theorem sat_resolveHandler {handler : Option ActorId} {subject : Option LeaseSubject}
    {request : List Event → List JsString → Emission → Prop}
    {post : List Event → List JsString → ActorId → Prop} (h : ∀ handler, post view minted handler) :
    Sat R Done request post view minted (facade.resolveHandler handler subject) := by
  unfold Facade.resolveHandler Facade.liveLeaseHolder
  split
  · split
    · simp only [sat_bind, sat_now, sat_lease, sat_pure]
      exact fun _ _ => h _
    · simp only [sat_bind, sat_pure]
      exact h _
  · exact h _

variable (hR : Steady R)

include hR

theorem emit_emitting {aggregate : Aggregate} {x : Ulid} {body : EventBody} (hview : R base view)
    (hpart : Q (fold view) ⟨aggregate, x, body⟩) :
    Emitting R Q base view minted (facade.emit aggregate x body) :=
  emitBatch_emitting hview (hR.refl _) (by simpa using hpart)

variable (hview : R base view)

include hview

theorem knownItem_bind_emitting {x : ItemId} {f : Unit → Prog α}
    (h : ∀ log, R base log → (fold log).items.has x = true →
      Emitting R Q base log minted (f ())) :
    Emitting R Q base view minted (Facade.knownItem x >>= f) := by
  unfold Emitting Facade.knownItem
  simp only [sat_bind, sat_state, sat_ensure]
  intro log hlog hitem
  exact h log (hR.trans hview hlog) hitem

theorem requireItem_bind_emitting {x : ItemId} {f : ItemState → Prog α}
    (h : ∀ log item, R base log → (fold log).items.get x = some item →
      Emitting R Q base log minted (f item)) :
    Emitting R Q base view minted (Facade.requireItem x >>= f) := by
  unfold Emitting Facade.requireItem
  simp only [sat_bind, sat_state, sat_require]
  intro log hlog item hitem
  exact h log item (hR.trans hview hlog) hitem

/-! ## Items -/

section Items

variable {ctx : IngestContext}

theorem createItem_emitting (input : ItemCreatedPayload) :
    Emitting R (WorkPayload.Emits ctx (.itemCreate input)) base view minted
      (facade.createItem input) := by
  have hemit (log : List Event) (hlog : R base log) (m : List JsString) (x : ItemId)
      (created : ItemCreatedPayload) (hworkspace : created.workspace = input.workspace) :
      Emitting R (WorkPayload.Emits ctx (.itemCreate input)) base log (x :: m)
        (facade.emit .item x (.itemCreated created)) :=
    emit_emitting hR hlog ⟨x, created, hworkspace, rfl⟩
  unfold Emitting Facade.createItem
  simp only [sat_bind, sat_ensure]
  intro _
  split
  · simp only [sat_bind, sat_state, sat_check, sat_newId, sat_pure]
    intro log hlog _ _ x _
    exact hemit log (hR.trans hview hlog) minted x _ rfl
  · simp only [sat_bind, sat_newId, sat_pure]
    intro x _
    exact hemit view hview minted x _ rfl

theorem reparentItem_emitting (x : ItemId) (parentId : Option ItemId) :
    Emitting R (WorkPayload.Emits ctx (.itemReparent x parentId)) base view minted
      (facade.reparentItem x parentId) := by
  unfold Emitting Facade.reparentItem
  simp only [sat_bind, sat_state, sat_require]
  intro log hlog item hitem
  have hemit : Emitting R (WorkPayload.Emits ctx (.itemReparent x parentId)) base log minted
      (facade.emit .item x (.itemReparented parentId none none)) :=
    emit_emitting hR (hR.trans hview hlog) rfl
  split
  · exact hemit
  · simp only [sat_bind, sat_ensure, sat_require, sat_check]
    intro _ _ _ _ _ _
    unfold Facade.guardCycle
    split
    · exact hemit
    · exact sat_throwDomain
    · trivial

theorem restructureReparent_emitting (x parentId : ItemId) (planHash : JsString)
    (restructureRef : Option JsString) :
    Emitting R (WorkPayload.Emits ctx (.itemRestructure x parentId planHash restructureRef)) base
      view minted (facade.restructureReparent x parentId planHash restructureRef) := by
  unfold Emitting Facade.restructureReparent
  simp only [sat_bind, sat_state, sat_require, sat_ensure, sat_check]
  intro log hlog item hitem _ _ _ _ _
  have hemit : Emitting R (WorkPayload.Emits ctx
      (.itemRestructure x parentId planHash restructureRef)) base log minted
      (facade.emit .item x (.itemReparented (some parentId) (some planHash) restructureRef)) :=
    emit_emitting hR (hR.trans hview hlog) rfl
  unfold Facade.guardCycle
  split
  · exact hemit
  · exact sat_throwDomain
  · trivial

theorem setRole_emitting (x : ItemId) (dest : ItemRole) :
    Emitting R (WorkPayload.Emits ctx (.itemSetRole x dest)) base view minted
      (facade.setRole x dest none) := by
  unfold Emitting Facade.setRole
  simp only [sat_bind, sat_state, sat_require, sat_ensure, sat_check]
  intro log hlog item hitem _ _ _ _ _ _
  exact emit_emitting hR (hR.trans hview hlog) rfl

theorem assignCode_emitting (x : ItemId) (code : JsString) :
    Emitting R (WorkPayload.Emits ctx (.itemAssignCode x code)) base view minted
      (facade.assignCode x code none) := by
  unfold Emitting Facade.assignCode
  simp only [sat_bind, sat_state, sat_require, sat_ensure, sat_check]
  intro log hlog item hitem _ _ _ _
  exact emit_emitting hR (hR.trans hview hlog) rfl

theorem declareScope_emitting (x : ItemId) (scope : ScopeDecl) :
    Emitting R (WorkPayload.Emits ctx (.scopeDeclare x scope)) base view minted
      (facade.declareScope x scope none) := by
  unfold Emitting Facade.declareScope
  simp only [sat_bind, sat_state, sat_require, sat_ensure, sat_check]
  intro log hlog item hitem _ validated _
  exact emit_emitting hR (hR.trans hview hlog) ⟨validated, rfl⟩

theorem setRaci_emitting (x : ItemId) (update : ItemRaciUpdate) :
    Emitting R (WorkPayload.Emits ctx (.itemSetRaci x update)) base view minted
      (facade.setRaci x update none) := by
  refine knownItem_bind_emitting hR hview fun log hlog hitem => ?_
  unfold Emitting
  simp only [sat_bind, sat_check, sat_ensure]
  intro accountable _ responsible _ _
  exact emit_emitting hR hlog ⟨_, rfl⟩

theorem addItemLink_emitting (x : ItemId) (link : Link) :
    Emitting R (WorkPayload.Emits ctx (.itemAddLink x link)) base view minted
      (facade.addItemLink x link none) := by
  refine knownItem_bind_emitting hR hview fun log hlog hitem => ?_
  unfold Emitting
  simp only [sat_bind, sat_check]
  intro validated _
  exact emit_emitting hR hlog ⟨validated, rfl⟩

theorem amendSpec_emitting (x : ItemId) (amend : SpecAmendPayload) :
    Emitting R (WorkPayload.Emits ctx (.itemSpecAmend x amend)) base view minted
      (facade.amendSpec x amend none) := by
  refine knownItem_bind_emitting hR hview fun log hlog hitem => ?_
  unfold Emitting
  simp only [sat_bind, sat_check]
  intro validated hvalidated
  exact emit_emitting hR hlog ⟨validated, by rw [assertSpecAmend_eq hvalidated], rfl⟩

theorem setSpec_emitting (x : ItemId) (dest : SpecStatus) :
    Emitting R (WorkPayload.Emits ctx (.itemSpec x dest)) base view minted
      (facade.setSpec x dest) := by
  refine requireItem_bind_emitting hR hview fun log item hlog hitem => ?_
  unfold Emitting
  simp only [sat_bind, sat_check]
  intro _ _
  exact emit_emitting hR hlog rfl

theorem startSpec_emitting (x : ItemId) (handler leaseId attemptId : Option JsString) :
    Emitting R (WorkPayload.Emits ctx (.specClaim x handler leaseId attemptId)) base view minted
      (facade.startSpec x handler leaseId attemptId) := by
  refine knownItem_bind_emitting hR hview fun log hlog hitem => ?_
  refine sat_bind.mpr (sat_resolveHandler fun handler => ?_)
  refine Emitting.map ?_ _
  exact emit_emitting hR hlog ⟨handler, rfl⟩

theorem abandonSpec_emitting (x : ItemId) (handler : Option ActorId) (reason : JsString)
    (leaseId : Option JsString) :
    Emitting R (WorkPayload.Emits ctx (.specAbandon x handler reason leaseId)) base view minted
      (facade.abandonSpec x handler reason leaseId) := by
  refine knownItem_bind_emitting hR hview fun log hlog hitem => ?_
  refine sat_bind.mpr (sat_resolveHandler fun handler => ?_)
  refine Emitting.map ?_ _
  exact emit_emitting hR hlog ⟨handler, rfl⟩

theorem setRealization_emitting (x : ItemId) (dest : Realization) :
    Emitting R (WorkPayload.Emits ctx (.itemRealize x dest)) base view minted
      (facade.setRealization x dest) := by
  unfold Emitting Facade.setRealization
  simp only [sat_bind, sat_state]
  intro log hlog
  split
  · rename_i item hitem
    simp only [sat_bind, sat_check]
    intro _ _
    exact emit_emitting hR (hR.trans hview hlog) ⟨.item, rfl⟩
  · rename_i hnone
    split
    · rename_i decision hdecision
      simp only [sat_bind, sat_check]
      intro _ _
      exact emit_emitting hR (hR.trans hview hlog) ⟨.decision, rfl⟩
    · exact sat_throwDomain

theorem reopenItem_emitting (x : ItemId) (reopening : Reopening) :
    Emitting R (WorkPayload.Emits ctx (.itemReopen x reopening)) base view minted
      (facade.reopenItem x reopening none) := by
  unfold Emitting Facade.reopenItem
  simp only [sat_bind, sat_state]
  intro log hlog
  split
  · split <;> exact sat_throwDomain
  · rename_i item hitem
    simp only [sat_bind, sat_check]
    intro validated _ _ _
    exact emit_emitting hR (hR.trans hview hlog) ⟨validated, rfl⟩

theorem anchorRealization_emitting (x : ItemId) (commit : JsString)
    (reason : Option AnchorReason) :
    Emitting R (WorkPayload.Emits ctx (.itemAnchor x commit reason)) base view minted
      (facade.anchorRealization x commit reason none) := by
  refine knownItem_bind_emitting hR hview fun log hlog hitem => ?_
  refine Emitting.map ?_ _
  exact emit_emitting hR hlog rfl

theorem assessPriority_emitting (x : ItemId) (inputs : WsjfInputs) :
    Emitting R (WorkPayload.Emits ctx (.priorityAssess x inputs)) base view minted
      (facade.assessPriority x inputs) := by
  refine knownItem_bind_emitting hR hview fun log hlog hitem => ?_
  unfold Emitting
  simp only [sat_bind, sat_check, sat_now, sat_pure]
  intro score _ now
  exact emit_emitting hR hlog ⟨_, rfl⟩

end Items

/-! ## Demands -/

section Demands

variable {ctx : IngestContext}

theorem raiseDemand_emitting (input : Facade.RaiseDemandInput) :
    Emitting R (WorkPayload.Emits ctx (.demandRaise input)) base view minted
      (facade.raiseDemand input) := by
  refine sat_bind.mpr (sat_resolveHandler fun handler => ?_)
  simp only [sat_bind, sat_check, sat_newId, sat_pure]
  intro validated _ demandId _
  exact emit_emitting hR hview ⟨demandId, validated, rfl⟩

theorem claimDemand_emitting (x : DemandId) (handler : Option ActorId)
    (leaseId : Option JsString) :
    Emitting R (WorkPayload.Emits ctx (.demandClaim x handler leaseId)) base view minted
      (facade.claimDemand x handler leaseId) := by
  unfold Emitting Facade.claimDemand
  simp only [sat_bind, sat_state, sat_check]
  intro log hlog demand hmoves
  refine sat_resolveHandler fun handler => ?_
  exact emit_emitting hR (hR.trans hview hlog)
    ⟨handler, rfl⟩

theorem agreeDemand_emitting (x : DemandId) (handler : Option ActorId)
    (items : List Facade.PromotedItem) (qualification leaseId : Option JsString) :
    Emitting R (WorkPayload.Emits ctx (.demandAgree x handler items qualification leaseId)) base
      view minted (facade.agreeDemand x handler items qualification leaseId) := by
  unfold Emitting Facade.agreeDemand
  simp only [sat_bind, sat_state, sat_require, sat_ensure, sat_check]
  intro log hlog demand hdemand _ _ _
  refine sat_resolveHandler fun handler => ?_
  simp only [sat_newIds]
  intro itemIds _ _ _
  refine emitBatch_emitting (hR.trans hview hlog) (hR.refl _) fun part hpart => ?_
  refine ⟨demand, hdemand, ?_⟩
  rcases List.mem_cons.mp hpart with rfl | hpart
  · exact .inl ⟨handler, some itemIds, rfl⟩
  · obtain ⟨itemId, hitemId, item, -, rfl⟩ := exists_of_mem_zipWith hpart
    exact .inr ⟨itemId, item, rfl⟩

theorem disposeDemand_emitting (x : DemandId) (dest : DemandStatus) (handler : Option ActorId)
    (reason : JsString) (duplicateOf : Option DemandRef) (parkedUntil leaseId : Option JsString) :
    Emitting R (WorkPayload.Emits ctx
        (.demandDisposition x dest handler reason duplicateOf parkedUntil leaseId)) base view
      minted (facade.disposeDemand x dest handler reason duplicateOf parkedUntil leaseId) := by
  have hemit (outcome : DispositionOutcome) (log : List Event) (hlog : R base log) :
      Emitting R (WorkPayload.Emits ctx
          (.demandDisposition x dest handler reason duplicateOf parkedUntil leaseId)) base log
        minted (do
          let handler ← facade.resolveHandler handler (some ⟨.demand, x⟩)
          let recheck := Facade.recheckDisposition x outcome duplicateOf
          let _ ← (facade.withDemandRecheck recheck).emit .demand x
            (.demandDisposition outcome handler (some reason) duplicateOf parkedUntil leaseId)) := by
    refine sat_bind.mpr (sat_resolveHandler fun handler => ?_)
    refine Emitting.map ?_ _
    exact emit_emitting hR hlog ⟨outcome, handler, rfl⟩
  unfold Emitting Facade.disposeDemand
  simp only [sat_bind, sat_check, sat_state]
  intro outcome _ log hlog demand _
  split
  · refine sat_bind.mpr (sat_state.mpr fun log' hlog' => ?_)
    refine sat_bind.mpr (sat_check.mpr fun _ _ => ?_)
    exact hemit outcome log' (hR.trans (hR.trans hview hlog) hlog')
  · exact hemit outcome log (hR.trans hview hlog)

end Demands

/-! ## Decisions and blockers -/

section Decisions

variable {ctx : IngestContext}

theorem createDecision_emitting (input : DecisionCreatedPayload) :
    Emitting R (WorkPayload.Emits ctx (.decisionCreate input)) base view minted
      (facade.createDecision input) := by
  unfold Emitting Facade.createDecision
  simp only [sat_bind, sat_check, sat_ensure, sat_state, sat_newId, sat_newIds, sat_pure]
  intro _ _ _ _ log hlog _ hknown decisionId _ blockerIds _ _ _
  refine emitBatch_emitting (hR.trans hview hlog) (hR.refl _) fun part hpart => ?_
  refine ⟨decisionId, ?_⟩
  rcases List.mem_cons.mp hpart with rfl | hpart
  · exact .inl rfl
  · obtain ⟨x, hx, target, htarget, rfl⟩ := exists_of_mem_zipWith hpart
    exact .inr ⟨x, target, htarget, rfl⟩

theorem setOutcome_emitting (x : ItemId) (dest : Outcome) :
    Emitting R (WorkPayload.Emits ctx (.decisionOutcome x dest)) base view minted
      (facade.setOutcome x dest) := by
  unfold Emitting Facade.setOutcome
  simp only [sat_bind, sat_state, sat_require]
  intro log hlog decision hdecision
  split
  · split <;> exact sat_throwDomain
  · simp only [sat_bind, sat_check]
    intro _ _
    refine emitBatch_emitting (hR.trans hview hlog) (hR.refl _) fun part hpart => ?_
    exact ⟨decision, dest, hdecision, hpart⟩

theorem selectDecisionOption_emitting (x : ItemId) (optionId : JsString)
    (outcome : Option { outcome : Outcome // isSettled outcome = true }) :
    Emitting R (WorkPayload.Emits ctx (.decisionSelect x optionId outcome)) base view minted
      (facade.selectDecisionOption x optionId (outcome.getD ⟨.go, WorkPayload.isSettled_go⟩)) := by
  unfold Emitting Facade.selectDecisionOption
  simp only [sat_bind, sat_state, sat_require, sat_check]
  intro log hlog decision hdecision _ _ _ _
  split
  · exact sat_throwDomain
  · simp only [sat_bind, sat_pure, sat_ensure]
    intro _
    refine emitBatch_emitting (hR.trans hview hlog) (hR.refl _) fun part hpart => ?_
    rcases List.mem_cons.mp hpart with rfl | hpart
    · exact .inl rfl
    · exact .inr ⟨decision, _, hdecision, hpart⟩

theorem reviseDossier_emitting (x : ItemId) (dossier : Dossier) :
    Emitting R (WorkPayload.Emits ctx (.decisionDossier x dossier)) base view minted
      (facade.reviseDossier x dossier) := by
  unfold Emitting Facade.reviseDossier
  simp only [sat_bind, sat_state, sat_require, sat_check, sat_ensure]
  intro log hlog decision hdecision _ _ _
  have hemit : Emitting R (WorkPayload.Emits ctx (.decisionDossier x dossier)) base log minted
      (facade.emit .decision x (.dossierRevised dossier)) :=
    emit_emitting hR (hR.trans hview hlog) rfl
  split
  · exact sat_bind.mpr (sat_check.mpr fun _ _ => hemit)
  · exact hemit

theorem addDecisionArtifact_emitting (x : ItemId) (artifact : DossierArtifact) :
    Emitting R (WorkPayload.Emits ctx (.decisionAddArtifact x artifact)) base view minted
      (facade.addDecisionArtifact x artifact none) := by
  unfold Emitting Facade.addDecisionArtifact
  simp only [sat_bind, sat_state, sat_ensure, sat_check]
  intro log hlog hdecision validated _
  exact emit_emitting hR (hR.trans hview hlog) ⟨validated, rfl⟩

theorem setDisposition_emitting (x : ItemId) (gate : Gate) (disposition : Disposition)
    (reason : Option JsString) :
    Emitting R (WorkPayload.Emits ctx (.decisionDisposition x gate disposition reason)) base view
      minted (facade.setDisposition x gate disposition reason) := by
  unfold Emitting Facade.setDisposition
  refine sat_bind.mpr (sat_ensure.mpr fun _ => ?_)
  refine knownItem_bind_emitting hR hview fun log hlog hitem => ?_
  refine Emitting.map ?_ _
  exact emit_emitting hR hlog rfl

theorem openBlocker_emitting (x : ItemId) (kind : BlockerKind) (ref : Option ItemId)
    (reason : Option JsString) (resolutionRule : Option ResolutionRule) (owner : Option ActorId)
    (scope : Option BlockerScope) (engagementRef : Option JsString) :
    Emitting R (WorkPayload.Emits ctx
        (.blockerRaise x kind ref reason resolutionRule owner scope engagementRef)) base view
      minted (facade.openBlocker
        ⟨x, kind, ref, reason.getD (js ""), resolutionRule, owner, scope, engagementRef⟩) := by
  unfold Emitting Facade.openBlocker
  simp only [sat_bind, sat_state, sat_ensure, sat_check, sat_newId, sat_pure]
  intro log hlog hitem rule _ blockerId _
  exact emit_emitting hR (hR.trans hview hlog)
    ⟨blockerId, _, rfl, rfl⟩

theorem resolveBlocker_emitting (x : BlockerId) :
    Emitting R (WorkPayload.Emits ctx (.blockerResolve x)) base view minted
      (facade.resolveBlocker x) := by
  unfold Emitting Facade.resolveBlocker
  simp only [sat_bind, sat_state, sat_require, sat_check, sat_ensure]
  intro log hlog blocker hblocker _ _ _
  exact emit_emitting hR (hR.trans hview hlog) ⟨_, rfl⟩

theorem resolveExternalDependency_emitting (engagementRef : JsString) :
    Emitting R (WorkPayload.Emits ctx (.blockerResolveExternal engagementRef)) base view minted
      (facade.resolveExternalDependency engagementRef (.workspace ctx.workspace)) := by
  unfold Emitting Facade.resolveExternalDependency
  simp only [sat_bind, sat_ensure, sat_state]
  intro _ log hlog
  split
  · trivial
  · simp only [sat_bind, sat_pure]
    refine emitBatch_emitting (hR.trans hview hlog) (hR.refl _) fun part hpart => ?_
    obtain ⟨b, hb, rfl⟩ := List.mem_map.mp hpart
    exact ⟨b, hb, rfl⟩

end Decisions

/-! ## Acceptance -/

section Acceptance

variable {ctx : IngestContext}

theorem addCriterion_emitting (x : ItemId) (statement : JsString) :
    Emitting R (WorkPayload.Emits ctx (.acceptanceCriterion x statement)) base view minted
      (facade.addCriterion x statement) := by
  unfold Emitting Facade.addCriterion
  simp only [sat_bind, sat_state, sat_ensure, sat_newId, sat_pure]
  intro log hlog _ hitem criterionId _
  exact emit_emitting hR (hR.trans hview hlog) ⟨criterionId, rfl⟩

theorem linkEvidence_emitting (criterionId : JsString) (kind : EvidenceKind) (locator : JsString)
    (evidenceId : Option JsString) :
    Emitting R (WorkPayload.Emits ctx (.acceptanceLink criterionId kind locator evidenceId)) base
      view minted (facade.linkEvidence criterionId kind locator evidenceId) := by
  unfold Emitting Facade.linkEvidence
  simp only [sat_bind, sat_state, sat_require]
  intro log hlog criterion hcriterion
  have hemit (m : List JsString) (x : JsString) : Emitting R
      (WorkPayload.Emits ctx (.acceptanceLink criterionId kind locator evidenceId)) base log m
      (facade.emit .item criterion.itemId (.evidenceLinked x criterionId kind locator)) :=
    emit_emitting hR (hR.trans hview hlog) ⟨criterion.itemId, x, rfl⟩
  split
  · simp only [sat_bind, sat_ensure, sat_check, sat_pure]
    intro _ _ _
    exact hemit minted _
  · simp only [sat_bind, sat_newId, sat_pure]
    intro x _
    exact hemit _ x

theorem recordRun_emitting (evidenceId : JsString) (run : RunFields) :
    Emitting R (WorkPayload.Emits ctx (.acceptanceRun evidenceId run)) base view minted
      (facade.recordRun evidenceId run) := by
  unfold Emitting Facade.recordRun Facade.evidenceOwner
  simp only [sat_bind, sat_state, sat_require, sat_pure]
  intro log hlog evidence hevidence criterion hcriterion
  exact emit_emitting hR (hR.trans hview hlog) ⟨criterion.itemId, rfl⟩

theorem waive_emitting (criterionId reason : JsString) :
    Emitting R (WorkPayload.Emits ctx (.acceptanceWaive criterionId reason)) base view minted
      (facade.waive criterionId reason) := by
  unfold Emitting Facade.waive
  simp only [sat_bind, sat_state, sat_require]
  intro log hlog criterion hcriterion
  exact emit_emitting hR (hR.trans hview hlog) ⟨criterion.itemId, _, rfl⟩

theorem recordVerification_emitting (input : VerificationRecordedPayload) :
    Emitting R (WorkPayload.Emits ctx (.scopeVerification input)) base view minted
      (facade.recordVerification input ctx.workspace none) := by
  unfold Emitting Facade.recordVerification
  simp only [sat_bind, sat_check]
  intro validated hvalidated
  obtain rfl := assertVerificationRun_eq hvalidated
  split
  · rename_i x hx
    simp only [sat_bind, sat_state, sat_ensure]
    intro log hlog hitem
    refine emit_emitting hR (hR.trans hview hlog) ?_
    simp only [WorkPayload.Emits, hx]
  · rename_i hx
    simp only [sat_bind]
    refine emit_emitting hR hview ?_
    simp only [WorkPayload.Emits, hx]

theorem consolidate_emitting (items : List ItemId) (mergeCommit : JsString) :
    Emitting R (WorkPayload.Emits ctx (.itemConsolidate items mergeCommit)) base view minted
      (facade.consolidate items mergeCommit none) := by
  unfold Emitting Facade.consolidate
  simp only [sat_bind, sat_state, sat_check]
  intro log hlog _ hknown
  split
  · trivial
  · simp only [sat_bind]
    refine emitBatch_emitting (hR.trans hview hlog) (hR.refl _) fun part hpart => ?_
    obtain ⟨x, hx, hpart⟩ := List.mem_flatMap.mp hpart
    exact ⟨x, hx, hpart⟩

end Acceptance

/-! ## The command of an event -/

theorem applyCommand_emitting (ctx : IngestContext) (payload : WorkPayload) :
    Emitting R (payload.Emits ctx) base view minted (applyCommand facade ctx payload) := by
  cases payload with
  | itemCreate input => exact (createItem_emitting hR hview input).map _
  | itemSetRaci x update => exact (setRaci_emitting hR hview x update).map _
  | itemAddLink x link => exact (addItemLink_emitting hR hview x link).map _
  | itemReparent x parentId => exact (reparentItem_emitting hR hview x parentId).map _
  | itemSpec x dest => exact (setSpec_emitting hR hview x dest).map _
  | itemRealize x dest => exact (setRealization_emitting hR hview x dest).map _
  | itemReopen x reopening => exact (reopenItem_emitting hR hview x reopening).map _
  | decisionCreate input => exact (createDecision_emitting hR hview input).map _
  | decisionDossier x dossier => exact (reviseDossier_emitting hR hview x dossier).map _
  | decisionSelect x optionId outcome =>
      exact (selectDecisionOption_emitting hR hview x optionId outcome).map _
  | decisionAddArtifact x artifact =>
      exact (addDecisionArtifact_emitting hR hview x artifact).map _
  | decisionOutcome x dest => exact (setOutcome_emitting hR hview x dest).map _
  | decisionDisposition x gate disposition reason =>
      exact (setDisposition_emitting hR hview x gate disposition reason).map _
  | acceptanceCriterion x statement =>
      exact (addCriterion_emitting hR hview x statement).map _
  | acceptanceLink criterionId kind locator evidenceId =>
      exact (linkEvidence_emitting hR hview criterionId kind locator evidenceId).map _
  | acceptanceRun evidenceId run => exact (recordRun_emitting hR hview evidenceId run).map _
  | acceptanceWaive criterionId reason =>
      exact (waive_emitting hR hview criterionId reason).map _
  | priorityAssess x inputs =>
      exact ((assessPriority_emitting hR hview x inputs).map _).map _
  | blockerRaise x kind ref reason resolutionRule owner scope engagementRef =>
      exact (openBlocker_emitting hR hview x kind ref reason resolutionRule owner scope
        engagementRef).map _
  | blockerResolve x => exact (resolveBlocker_emitting hR hview x).map _
  | blockerResolveExternal engagementRef =>
      exact ((resolveExternalDependency_emitting hR hview engagementRef).map _).map _
  | scopeVerification input => exact (recordVerification_emitting hR hview input).map _
  | scopeDeclare x scope => exact (declareScope_emitting hR hview x scope).map _
  | itemAssignCode x code => exact (assignCode_emitting hR hview x code).map _
  | itemSetRole x dest => exact (setRole_emitting hR hview x dest).map _
  | itemSpecAmend x amend => exact (amendSpec_emitting hR hview x amend).map _
  | itemAnchor x commit reason =>
      exact (anchorRealization_emitting hR hview x commit reason).map _
  | itemConsolidate items mergeCommit =>
      exact (consolidate_emitting hR hview items mergeCommit).map _
  | demandRaise input => exact (raiseDemand_emitting hR hview input).map _
  | demandClaim x handler leaseId => exact (claimDemand_emitting hR hview x handler leaseId).map _
  | demandAgree x handler items qualification leaseId =>
      exact ((agreeDemand_emitting hR hview x handler items qualification leaseId).map _).map _
  | demandDisposition x outcome handler reason duplicateOf parkedUntil leaseId =>
      exact (disposeDemand_emitting hR hview x outcome handler reason duplicateOf parkedUntil
        leaseId).map _
  | specClaim x handler leaseId attemptId =>
      exact (startSpec_emitting hR hview x handler leaseId attemptId).map _
  | specAbandon x handler reason leaseId =>
      exact (abandonSpec_emitting hR hview x handler reason leaseId).map _
  | itemRestructure x parentId planHash restructureRef =>
      exact (restructureReparent_emitting hR hview x parentId planHash restructureRef).map _

end Emitting

end H2a.Track.Ingest.Channel
