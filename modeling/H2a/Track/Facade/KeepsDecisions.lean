import H2a.Track.Facade.KeepsItems
/-!
# The commands on demands, decisions and blockers keep to the description
-/

namespace H2a.Track

open H2a.Library H2a.Library.Program H2a.Track.Model

variable {facade : Facade} {names : List JsString} {view : List Event} {minted : List JsString}

/-! ## Demands -/

theorem demand_published {x : DemandId} {demand : DemandState}
    (h : (fold view).demands.get x = some demand) : x ∈ published view :=
  createdIn_sub view x ((known_fold view).demands x demand h).2

theorem assertDemandMoves_ok {demandId : DemandId} {dest : DemandStatus} {s : State}
    {demand : DemandState} (h : Facade.assertDemandMoves demandId dest s = .ok demand) :
    s.demands.get demandId = some demand ∧ dest ∈ DEMAND_TRANSITIONS demand.status := by
  unfold Facade.assertDemandMoves at h
  split at h
  · simp at h
  · rename_i found hfound
    obtain ⟨_, hmove, hpure⟩ := bind_eq_ok_iff.mp h
    obtain rfl := Except.ok.inj hpure
    refine ⟨hfound, ?_⟩
    unfold assertDemandTransition at hmove
    split at hmove
    · assumption
    · simp at hmove

theorem exists_of_mem_zipWith {α β γ : Type} {f : α → β → γ} {as : List α} {bs : List β} {c : γ}
    (h : c ∈ List.zipWith f as bs) : ∃ a ∈ as, ∃ b ∈ bs, c = f a b := by
  rw [← List.map_uncurry_zip_eq_zipWith] at h
  obtain ⟨⟨a, b⟩, hab, rfl⟩ := List.mem_map.mp h
  exact ⟨a, (List.of_mem_zip hab).1, b, (List.of_mem_zip hab).2, rfl⟩

theorem assertDemandRaised_eq {demand validated : DemandRaisedPayload}
    (h : assertDemandRaised demand = .ok validated) : validated = demand := by
  unfold assertDemandRaised at h
  by_cases hhandler : emptyString demand.handler = true
  · simp [hhandler] at h
  by_cases htext : emptyString demand.raw.text = true
  · simp [hhandler, htext] at h
  by_cases hconcerns : demand.concerns.any emptyString = true
  · simp [hhandler, htext, hconcerns] at h
  rw [if_neg hhandler, if_neg htext, if_neg hconcerns] at h
  exact (Except.ok.inj h).symm

theorem raiseDemand_keeps {input : Facade.RaiseDemandInput}
    (hnames : ∀ x ∈ input.concerns.toList, x ∈ published view ∨ x ∈ names) :
    Keeps facade names (fun _ _ _ => True) view minted (facade.raiseDemand input) := by
  refine resolveHandler_bind_keeps fun handler => ?_
  unfold Keeps
  simp only [sat_bind, sat_check, sat_newId, sat_pure]
  intro validated hvalidated demandId _
  obtain rfl := assertDemandRaised_eq hvalidated
  refine emit_keeps ⟨rfl, List.mem_cons_self⟩ ?_ rfl fun _ _ _ _ _ => trivial
  simp only [EventBody.ids, List.mem_cons]
  rintro y (rfl | hy)
  · exact .inr (.inl (.inl rfl))
  · rcases hnames y hy with hview | hnamed
    · exact .inl hview
    · exact .inr (.inr hnamed)

theorem claimDemand_keeps {demandId : DemandId} {handler : Option ActorId}
    {leaseId : Option JsString} :
    Keeps facade names (fun _ _ _ => True) view minted
      (facade.claimDemand demandId handler leaseId) := by
  unfold Keeps Facade.claimDemand
  simp only [sat_bind, sat_state, sat_check]
  intro log hlog demand hmoves
  refine resolveHandler_keeps.mono ?_
  rintro v m handler ⟨rfl, rfl⟩
  refine ⟨⟨.claimed rfl rfl, ⟨rfl, rfl, rfl, rfl⟩, ?_⟩, fun _ _ _ _ _ => trivial⟩
  intro part hpart x hx
  obtain rfl := List.mem_singleton.mp hpart
  simp only [EventPart.ids, EventBody.ids, List.mem_singleton] at hx
  exact .inl (hx ▸ demand_published (assertDemandMoves_ok hmoves).1)

theorem agreeDemand_keeps {demandId : DemandId} {handler : Option ActorId}
    {items : List Facade.PromotedItem} {qualification leaseId : Option JsString} :
    Keeps facade names (fun _ _ _ => True) view minted
      (facade.agreeDemand demandId handler items qualification leaseId) := by
  unfold Keeps Facade.agreeDemand
  simp only [sat_bind, sat_state, sat_require, sat_ensure, sat_check]
  intro log hlog demand hdemand _ _ _
  refine resolveHandler_keeps.mono ?_
  rintro v m handler ⟨rfl, rfl⟩
  simp only [sat_newIds]
  intro itemIds hlength hnodup _
  have hminted : ∀ x ∈ itemIds, x ∈ itemIds.reverse ++ m := fun x hx =>
    List.mem_append_left _ (List.mem_reverse.mpr hx)
  refine ⟨⟨?_, ⟨rfl, rfl, rfl, rfl⟩, ?_⟩, fun _ _ _ _ _ => trivial⟩
  · exact .agreed hdemand hlength hnodup hminted rfl rfl
  · intro part hpart x hx
    rcases List.mem_cons.mp hpart with rfl | hpart
    · simp only [EventPart.ids, EventBody.ids, Option.getD_some, List.mem_cons] at hx
      rcases hx with rfl | hx
      · exact .inl (demand_published hdemand)
      · exact .inr (.inl (hminted x hx))
    · obtain ⟨itemId, hitemId, item, -, rfl⟩ := exists_of_mem_zipWith hpart
      simp only [EventPart.ids, Facade.promotion, EventBody.ids, Option.toList_none,
        Option.toList_some, List.nil_append, List.mem_cons, List.mem_nil_iff, or_false] at hx
      rcases hx with rfl | rfl
      · exact .inr (.inl (hminted _ hitemId))
      · exact .inl (demand_published hdemand)

theorem disposeDemand_keeps {demandId : DemandId} {outcome : DemandStatus}
    {handler : Option ActorId} {reason : JsString} {duplicateOf : Option DemandRef}
    {parkedUntil leaseId : Option JsString}
    (hnames : ∀ x ∈ (duplicateOf.map (·.id)).toList, x ∈ published view ∨ x ∈ names) :
    Keeps facade names (fun _ _ _ => True) view minted
      (facade.disposeDemand demandId outcome handler reason duplicateOf parkedUntil leaseId) := by
  -- the emission, from whatever log was read last
  have hemit : ∀ (outcome : DispositionOutcome) (log : List Event), view <+: log →
      demandId ∈ published log →
      Keeps facade names (fun _ _ _ => True) log minted (do
        let handler ← facade.resolveHandler handler (some ⟨.demand, demandId⟩)
        let recheck := Facade.recheckDisposition demandId outcome duplicateOf
        let _ ← (facade.withDemandRecheck recheck).emit .demand demandId
          (.demandDisposition outcome handler (some reason) duplicateOf parkedUntil leaseId)) := by
    intro outcome log hlog hdemand
    refine resolveHandler_bind_keeps fun handler => ?_
    refine sat_bind.mpr ⟨⟨.disposed rfl rfl, ⟨rfl, rfl, rfl, rfl⟩, ?_⟩, fun _ _ _ _ _ => trivial⟩
    intro part hpart x hx
    obtain rfl := List.mem_singleton.mp hpart
    simp only [EventPart.ids, EventBody.ids, List.mem_cons] at hx
    rcases hx with rfl | hx
    · exact .inl hdemand
    · rcases hnames x hx with hview | hnamed
      · exact .inl (published_mono hlog hview)
      · exact .inr (.inr hnamed)
  unfold Keeps Facade.disposeDemand
  simp only [sat_bind, sat_check, sat_state]
  intro outcome _ log hlog demand hmoves
  have hdemand : demandId ∈ published log := demand_published (assertDemandMoves_ok hmoves).1
  split
  · refine sat_bind.mpr (sat_state.mpr fun log' hlog' => ?_)
    refine sat_bind.mpr (sat_check.mpr fun _ _ => ?_)
    exact hemit outcome log' (hlog.trans hlog') (published_mono hlog' hdemand)
  · exact hemit outcome log hlog hdemand

/-! ## Decisions -/

theorem assertTargets_ok {s : State} {targets : List ItemId}
    (h : Facade.assertTargets s targets = .ok ()) :
    ∀ x ∈ targets, s.items.has x = true ∧ s.decisions.has x = false := by
  induction targets with
  | nil => simp
  | cons target rest ih =>
      unfold Facade.assertTargets at h
      by_cases hdecision : s.decisions.has target = true
      · simp [hdecision] at h
      by_cases hitem : s.items.has target = true
      · rw [if_neg hdecision, if_neg (by simpa using hitem)] at h
        intro x hx
        rcases List.mem_cons.mp hx with rfl | hx
        · exact ⟨hitem, by simpa using hdecision⟩
        · exact ih h x hx
      · simp [hdecision, hitem] at h

theorem createDecision_keeps {input : DecisionCreatedPayload}
    (hnames : ∀ x ∈ input.parentId.toList, x ∈ published view ∨ x ∈ names) :
    Keeps facade names (fun _ _ _ => True) view minted (facade.createDecision input) := by
  unfold Keeps Facade.createDecision
  simp only [sat_bind, sat_check, sat_ensure, sat_state, sat_newId, sat_newIds, sat_pure]
  intro _ _ _ htargets log hlog _ hknown decisionId hfresh blockerIds hlength hnodup hapart
  have hids : (decisionId :: blockerIds).Nodup :=
    List.nodup_cons.mpr ⟨fun hmem => hapart _ hmem List.mem_cons_self, hnodup⟩
  have hminted : ∀ x ∈ decisionId :: blockerIds, x ∈ blockerIds.reverse ++ decisionId :: minted := by
    intro x hx
    rcases List.mem_cons.mp hx with rfl | hx
    · exact List.mem_append_right _ List.mem_cons_self
    · exact List.mem_append_left _ (List.mem_reverse.mpr hx)
  refine ⟨⟨?_, ⟨rfl, rfl, rfl, rfl⟩, ?_⟩, fun _ _ _ _ _ => trivial⟩
  · exact .decisionCreated hids hlength hminted htargets hknown rfl
  · intro part hpart x hx
    rcases List.mem_cons.mp hpart with rfl | hpart
    · simp only [EventPart.ids, EventBody.ids, List.mem_cons, List.mem_append] at hx
      rcases hx with rfl | hx | hx
      · exact .inr (.inl (hminted _ List.mem_cons_self))
      · exact .inl (item_published (assertTargets_ok hknown x hx).1)
      · rcases hnames x hx with hview | hnamed
        · exact .inl (published_mono hlog hview)
        · exact .inr (.inr hnamed)
    · obtain ⟨blockerId, hblockerId, target, htarget, rfl⟩ := exists_of_mem_zipWith hpart
      simp only [EventPart.ids, Facade.decisionBlocker, EventBody.ids, Option.toList_some,
        List.mem_cons, List.mem_nil_iff, or_false] at hx
      rcases hx with rfl | rfl | rfl | rfl
      · exact .inr (.inl (hminted _ (List.mem_cons_of_mem _ hblockerId)))
      · exact .inr (.inl (hminted _ (List.mem_cons_of_mem _ hblockerId)))
      · exact .inl (item_published (assertTargets_ok hknown _ htarget).1)
      · exact .inr (.inl (hminted _ List.mem_cons_self))

theorem openDecisionBlocker_some {s : State} {decisionId targetId : ItemId}
    {blocker : BlockerState}
    (h : Facade.openDecisionBlocker s decisionId targetId = some blocker) :
    blocker ∈ s.blockers.values ∧ blocker.kind = .decision ∧ blocker.ref = some decisionId ∧
      blocker.targetId = targetId ∧ blocker.open_ = true := by
  have hmem := List.mem_of_find?_eq_some h
  have hmatch := List.find?_some h
  simp only [Bool.and_eq_true, decide_eq_true_eq] at hmatch
  exact ⟨hmem, hmatch.1.1.1, hmatch.1.1.2, hmatch.1.2, hmatch.2⟩

theorem blocker_published {blocker : BlockerState} (h : blocker ∈ (fold view).blockers.values) :
    (fold view).blockers.get blocker.id = some blocker ∧ blocker.id ∈ published view := by
  obtain ⟨x, hx⟩ := (JsMap.mem_values_iff _ _).mp h
  obtain ⟨rfl, hcreated⟩ := (known_fold view).blockers x blocker hx
  exact ⟨hx, createdIn_sub view _ hcreated⟩

/-- What a settlement does to a target: it resolves a blocker or rejects the target. -/
theorem mem_settleTarget {s : State} {decisionId target : ItemId} {dest : Outcome}
    {part : EventPart} (h : part ∈ Facade.settleTarget s decisionId dest target) :
    (∃ blocker, Facade.openDecisionBlocker s decisionId target = some blocker ∧
      part = ⟨.blocker, blocker.id, .blockerResolved blocker.id (some decisionId) none⟩) ∨
    (dest = .noGo ∧ ∃ item, s.items.get target = some item ∧
      (item.realization = .toDo ∨ item.realization = .inProgress) ∧
        part = ⟨.item, target, .realizationTransition .rejected (some decisionId)⟩) := by
  unfold Facade.settleTarget at h
  rcases List.mem_append.mp h with h | h
  · split at h
    · rename_i blocker hblocker
      exact .inl ⟨blocker, hblocker, List.mem_singleton.mp h⟩
    · simp at h
  · split at h
    · rename_i item hitem
      split at h
      · rename_i hrejected
        exact .inr ⟨hrejected.1, item, hitem, hrejected.2, List.mem_singleton.mp h⟩
      · simp at h
    · simp at h

/-- The events of an outcome: the outcome itself, a resolved blocker or a rejected
target. -/
theorem mem_outcomeParts {s : State} {decision : DecisionState} {dest : Outcome}
    {part : EventPart} (h : part ∈ Facade.outcomeParts s decision dest) :
    part = ⟨.decision, decision.id, .decisionOutcome dest⟩ ∨
    (isSettled dest = true ∧ ∃ target ∈ decision.targets, ∃ blocker,
      Facade.openDecisionBlocker s decision.id target = some blocker ∧
        part = ⟨.blocker, blocker.id, .blockerResolved blocker.id (some decision.id) none⟩) ∨
    (dest = .noGo ∧ ∃ target ∈ decision.targets, ∃ item, s.items.get target = some item ∧
      (item.realization = .toDo ∨ item.realization = .inProgress) ∧
        part = ⟨.item, target, .realizationTransition .rejected (some decision.id)⟩) := by
  unfold Facade.outcomeParts at h
  rcases List.mem_cons.mp h with rfl | h
  · exact .inl rfl
  · split at h
    · rename_i hsettled
      obtain ⟨target, htarget, h⟩ := List.mem_flatMap.mp h
      rcases mem_settleTarget h with ⟨blocker, hblocker, rfl⟩ | ⟨hrejected, item, hitem⟩
      · exact .inr (.inl ⟨hsettled, target, htarget, blocker, hblocker, rfl⟩)
      · exact .inr (.inr ⟨hrejected, target, htarget, item, hitem⟩)
    · simp at h

theorem outcomeParts_ids {decision : DecisionState} {dest : Outcome} {decisionId : ItemId}
    (hdecision : (fold view).decisions.get decisionId = some decision) :
    ∀ part ∈ Facade.outcomeParts (fold view) decision dest, ∀ x ∈ part.ids,
      x ∈ published view := by
  obtain ⟨hid, hcreated, htargets⟩ := (known_fold view).decisions decisionId decision hdecision
  have hself : decision.id ∈ published view := hid ▸ createdIn_sub view _ hcreated
  intro part hpart x hx
  rcases mem_outcomeParts hpart with rfl | ⟨-, target, -, blocker, hblocker, rfl⟩ |
    ⟨-, target, htarget, -, -, -, rfl⟩
  · simp only [EventPart.ids, EventBody.ids, List.mem_singleton] at hx
    exact hx ▸ hself
  · have hknown := blocker_published (openDecisionBlocker_some hblocker).1
    simp only [EventPart.ids, EventBody.ids, Option.toList_some, List.mem_cons,
      List.mem_nil_iff, or_false] at hx
    rcases hx with rfl | rfl | rfl
    · exact hknown.2
    · exact hknown.2
    · exact hself
  · simp only [EventPart.ids, EventBody.ids, Option.toList_some, List.mem_cons,
      List.mem_nil_iff, or_false] at hx
    rcases hx with rfl | rfl
    · exact htargets _ htarget
    · exact hself

theorem setOutcome_keeps {decisionId : ItemId} {dest : Outcome} :
    Keeps facade names (fun _ _ _ => True) view minted (facade.setOutcome decisionId dest) := by
  unfold Keeps Facade.setOutcome
  simp only [sat_bind, sat_state, sat_require]
  intro log hlog decision hdecision
  split
  · split <;> exact sat_throwDomain
  · rename_i hdest
    obtain rfl := Decidable.not_not.mp hdest
    simp only [sat_bind, sat_check]
    intro _ hmove
    refine ⟨⟨.deferred hdecision hmove rfl, ⟨rfl, rfl, rfl, rfl⟩, ?_⟩, fun _ _ _ _ _ => trivial⟩
    exact fun part hpart x hx => .inl (outcomeParts_ids hdecision part hpart x hx)

theorem reviseDossier_keeps {decisionId : ItemId} {dossier : Dossier} :
    Keeps facade names (fun _ _ _ => True) view minted
      (facade.reviseDossier decisionId dossier) := by
  have hemit : ∀ log, (fold log).decisions.has decisionId = true →
      Keeps facade names (fun _ _ _ => True) log minted
        (do let _ ← facade.emit .decision decisionId (.dossierRevised dossier)) := by
    intro log hdecision
    refine emit_unit_keeps ⟨rfl, hdecision⟩ ?_ rfl
    simp only [EventBody.ids, List.mem_singleton]
    rintro y rfl
    exact .inl (decision_published hdecision)
  unfold Keeps Facade.reviseDossier
  simp only [sat_bind, sat_state, sat_require, sat_check, sat_ensure]
  intro log hlog decision hdecision _ _ _
  split
  · simp only [sat_bind, sat_check]
    intro _ _
    exact sat_bind.mp (hemit log (has_of_get hdecision))
  · exact sat_bind.mp (hemit log (has_of_get hdecision))

theorem selectDecisionOption_keeps {decisionId : ItemId} {optionId : JsString}
    {dest : { outcome : Outcome // isSettled outcome = true }} :
    Keeps facade names (fun _ _ _ => True) view minted
      (facade.selectDecisionOption decisionId optionId dest) := by
  unfold Keeps Facade.selectDecisionOption
  simp only [sat_bind, sat_state, sat_require, sat_check]
  intro log hlog decision hdecision _ _ _ hmove
  split
  · simp only [sat_bind, sat_throwDomain]
  · simp only [sat_bind, sat_ensure]
    intro _
    refine ⟨⟨.settled dest.2 hdecision hmove rfl, ⟨rfl, rfl, rfl, rfl⟩, ?_⟩,
      fun _ _ _ _ _ => trivial⟩
    intro part hpart x hx
    rcases List.mem_cons.mp hpart with rfl | hpart
    · simp only [EventPart.ids, EventBody.ids, List.mem_singleton] at hx
      exact .inl (hx ▸ decision_published (has_of_get hdecision))
    · exact .inl (outcomeParts_ids hdecision part hpart x hx)

theorem addDecisionArtifact_keeps {decisionId : ItemId} {artifact : DossierArtifact}
    {clientToken : Option JsString} :
    Keeps (facade.stamped clientToken) names (fun _ _ _ => True) view minted
      (facade.addDecisionArtifact decisionId artifact clientToken) := by
  unfold Keeps Facade.addDecisionArtifact
  simp only [sat_bind, sat_state, sat_ensure, sat_check]
  intro log hlog hdecision validated _
  refine emit_keeps ⟨rfl, hdecision⟩ ?_ rfl fun _ _ _ _ _ => trivial
  simp only [EventBody.ids, List.mem_singleton]
  rintro y rfl
  exact .inl (decision_published hdecision)

theorem setDisposition_keeps {itemId : ItemId} {gate : Gate} {disposition : Disposition}
    {reason : Option JsString} :
    Keeps facade names (fun _ _ _ => True) view minted
      (facade.setDisposition itemId gate disposition reason) := by
  unfold Keeps Facade.setDisposition
  rw [sat_bind, sat_ensure]
  intro hdisposition
  refine knownItem_bind_keeps fun log hlog hitem => ?_
  exact emit_item_keeps hitem ⟨rfl, rfl, hdisposition, hitem⟩ (by simp [EventBody.ids]) rfl

/-! ## Blockers -/

/-- What the checks on a blocker's reference have established. -/
theorem openBlocker_rule {input : Facade.OpenBlockerInput} {s : State}
    {rule : Option ResolutionRule} (h : input.rule s = .ok rule) :
    (input.kind = .decision → input.ref.any s.decisions.has = true) ∧
      ∀ x, input.ref = some x → s.decisions.has x = true ∨ s.items.has x = true := by
  unfold Facade.OpenBlockerInput.rule at h
  split at h
  · rename_i hkind _
    split at h
    · rename_i href
      refine ⟨fun _ => href, fun x hx => ?_⟩
      rw [hx] at href
      exact .inl href
    · simp at h
  · rename_i hkind _
    refine ⟨fun hd => (by simp [hkind] at hd), fun x hx => ?_⟩
    by_cases hengagement : input.engagementRef.all emptyString = true
    · simp [hengagement] at h
    · simp [hengagement, hx] at h
  · rename_i hkind _
    split at h
    · rename_i href
      refine ⟨fun hd => (by simp [hkind] at hd), fun x hx => ?_⟩
      rw [hx] at href
      exact .inr href
    · simp at h

theorem openBlocker_keeps {input : Facade.OpenBlockerInput} :
    Keeps facade names (fun _ _ _ => True) view minted (facade.openBlocker input) := by
  unfold Keeps Facade.openBlocker
  simp only [sat_bind, sat_state, sat_ensure, sat_check, sat_newId, sat_pure]
  intro log hlog htarget rule hrule blockerId _
  obtain ⟨hdecision, href⟩ := openBlocker_rule hrule
  refine emit_keeps ⟨rfl, List.mem_cons_self, rfl, htarget, hdecision⟩ ?_ rfl fun _ _ _ _ _ => trivial
  simp only [EventBody.ids, Facade.OpenBlockerInput.payload, List.mem_cons, Option.mem_toList]
  rintro y (rfl | rfl | rfl | hy)
  · exact .inr (.inl (.inl rfl))
  · exact .inr (.inl (.inl rfl))
  · exact .inl (item_published htarget)
  · rcases href y hy with hd | hi
    · exact .inl (decision_published hd)
    · exact .inl (item_published hi)

theorem resolveBlocker_keeps {blockerId : BlockerId} :
    Keeps facade names (fun _ _ _ => True) view minted (facade.resolveBlocker blockerId) := by
  unfold Keeps Facade.resolveBlocker
  simp only [sat_bind, sat_state, sat_require, sat_check, sat_ensure]
  intro log hlog blocker hblocker _ hmanual _
  have hkind : blocker.kind ≠ .decision := by
    intro hkind
    simp [assertManualResolve, hkind] at hmanual
  have hpublished : blockerId ∈ published log :=
    createdIn_sub log _ ((known_fold log).blockers blockerId blocker hblocker).2
  refine emit_keeps ⟨rfl, rfl, rfl, blocker, hblocker, hkind⟩ ?_ rfl fun _ _ _ _ _ => trivial
  simp only [EventBody.ids, Option.toList_none, List.mem_cons, List.mem_nil_iff, or_false, or_self]
  rintro y rfl
  exact .inl hpublished

theorem resolveExternalDependency_keeps {engagementRef : JsString} {scope : Facade.ResolveScope} :
    Keeps facade names (fun _ _ _ => True) view minted
      (facade.resolveExternalDependency engagementRef scope) := by
  unfold Keeps Facade.resolveExternalDependency
  simp only [sat_bind, sat_state, sat_ensure]
  intro _ log hlog
  split
  · trivial
  · simp only [sat_bind, sat_pure]
    refine ⟨⟨.externalResolved rfl, ⟨rfl, rfl, rfl, rfl⟩, ?_⟩, fun _ _ _ _ _ => trivial⟩
    intro part hpart x hx
    obtain ⟨blocker, hblocker, rfl⟩ := List.mem_map.mp hpart
    have hknown := blocker_published (List.mem_filter.mp hblocker).1
    simp only [EventPart.ids, EventBody.ids, Option.toList_none, List.mem_cons, List.mem_nil_iff,
      or_false, or_self] at hx
    exact .inl (hx ▸ hknown.2)

end H2a.Track
