import H2a.Track.State.Fold
/-!
# The fold, key by key

What an event makes of one key of each collection, and from that what a replay
never changes: an entity keeps its workspace, a decision its targets, a blocker
its target and a criterion its item.
-/

namespace H2a.Track

open H2a.Library H2a.Track.Model

/-! ## Items -/

/-- What an event other than a creation, an outcome or a disposition makes of the
item it is addressed to. -/
def itemEdit (e : EventData) (item : ItemState) : ItemState :=
  match e.body with
  | .itemReportUpdated report => { item with report := normalizeStoredReport report }
  | .itemLinkAdded link => addLink item link
  | .itemReparented parentId _ _ => { item with parentId }
  | .scopeDeclared scope => { item with scope }
  | .itemCodeAssigned code => { item with code }
  | .itemRaciAssigned update => applyItemRaci item update
  | .itemRoleChanged dest => { item with role := dest }
  | .specTransition dest => { item with specStatus := dest }
  | .realizationTransition dest _ => { item with realization := dest }
  | .realizationReopened itemId reopening =>
      if itemId = some e.aggregateId then reopen item reopening e.at_ e.by_ else item
  | .realizationAnchored _ commit _ => { item with realizedCommit := commit }
  | .priorityAssessed assessment => { item with priority := assessment }
  | _ => item

/-- The item at `x` after the event. -/
def itemAt (s : State) (e : EventData) (x : ItemId) : Option ItemState :=
  match e.body with
  | .itemCreated payload =>
      if x = e.aggregateId then some (itemOfCreated e.aggregateId payload) else s.items.get x
  | .decisionOutcome dest =>
      match s.decisions.get e.aggregateId with
      | none => s.items.get x
      | some decision =>
          if isSettled dest ∧ x ∈ decision.targets then
            (s.items.get x).map (dispose · decision.decisionKind .completed)
          else s.items.get x
  | .decisionDisposition itemId gate disposition _ =>
      if x = itemId then (s.items.get x).map (dispose · gate disposition) else s.items.get x
  | _ => if x = e.aggregateId then (s.items.get x).map (itemEdit e) else s.items.get x

theorem dispose_dispose (item : ItemState) (gate : Gate) (d d' : Disposition) :
    dispose (dispose item gate d) gate d' = dispose item gate d' := by
  cases gate <;> rfl

theorem get_completeTargets (decision : DecisionState) (items : JsMap ItemId ItemState)
    (x : ItemId) :
    (completeTargets decision items).get x =
      if x ∈ decision.targets then
        (items.get x).map (dispose · decision.decisionKind .completed)
      else items.get x := by
  unfold completeTargets
  induction decision.targets generalizing items with
  | nil => simp
  | cons target rest ih =>
      rw [List.foldl_cons, ih, JsMap.get_modify]
      by_cases htarget : x = target
      · subst htarget
        -- a target listed twice is completed twice, to the same effect
        by_cases hrest : x ∈ rest
        · cases items.get x <;> simp [hrest, dispose_dispose]
        · simp [hrest]
      · simp [htarget]

theorem items_applyEvent (s : State) (e : EventData) (x : ItemId) :
    (applyEvent s e).items.get x = itemAt s e x := by
  unfold applyEvent itemAt
  cases hbody : e.body with
  | itemCreated payload => simp
  | decisionOutcome dest =>
      simp only
      cases hdecision : s.decisions.get e.aggregateId with
      | none => rfl
      | some decision =>
          simp only [State.modifyDecision]
          by_cases hsettled : isSettled dest
          · simp [hsettled, get_completeTargets]
          · simp [hsettled]
  | decisionDisposition itemId gate disposition reason =>
      by_cases hx : x = itemId <;> simp [State.modifyItem, hx]
  | realizationTransition dest cause =>
      by_cases hx : x = e.aggregateId
      · subst hx
        cases hitem : s.items.get e.aggregateId with
        | none => simp [JsMap.has, hitem, State.modifyDecision]
        | some item => simp [JsMap.has, hitem, State.modifyItem, itemEdit, hbody]
      · by_cases hhas : s.items.has e.aggregateId <;>
          simp [hhas, State.modifyDecision, State.modifyItem, hx]
  | _ =>
      by_cases hx : x = e.aggregateId
      · subst hx
        cases hitem : s.items.get e.aggregateId <;>
          simp [State.modifyItem, State.modifyDecision, State.modifyDemand, itemEdit, hbody, hitem]
      · simp [State.modifyItem, State.modifyDecision, State.modifyDemand, hx]

/-! ## The other collections -/

/-- What an event makes of the decision it is addressed to; a realization is the
item's if there is an item of that id. -/
def decisionEdit (hasItem : Bool) (e : EventData) (decision : DecisionState) : DecisionState :=
  match e.body with
  | .realizationTransition dest _ =>
      if hasItem then decision else { decision with realization := dest }
  | .decisionOutcome dest => { decision with outcome := dest }
  | .dossierRevised dossier => { decision with dossier }
  | .decisionOptionSelected optionId =>
      { decision with dossier := { decision.dossier with selectedOptionId := optionId } }
  | .decisionArtifactAdded artifact =>
      { decision with dossier := { decision.dossier with
          artifacts := some (decision.dossier.artifacts.getD [] ++ [artifact]) } }
  | _ => decision

/-- The decision at `x` after the event. -/
def decisionAt (s : State) (e : EventData) (x : ItemId) : Option DecisionState :=
  if x = e.aggregateId then
    match e.body with
    | .decisionCreated payload => some (decisionOfCreated e.aggregateId payload)
    | _ => (s.decisions.get x).map (decisionEdit (s.items.has x) e)
  else s.decisions.get x

theorem decisions_applyEvent (s : State) (e : EventData) (x : ItemId) :
    (applyEvent s e).decisions.get x = decisionAt s e x := by
  unfold applyEvent decisionAt
  cases hbody : e.body with
  | decisionOutcome dest =>
      by_cases hx : x = e.aggregateId
      · subst hx
        cases hdecision : s.decisions.get e.aggregateId with
        | none => simp [hdecision]
        | some decision =>
            by_cases hsettled : isSettled dest <;>
              simp [State.modifyDecision, hsettled, hdecision, decisionEdit, hbody]
      · cases hdecision : s.decisions.get e.aggregateId with
        | none => simp [hx]
        | some decision =>
            by_cases hsettled : isSettled dest <;> simp [State.modifyDecision, hsettled, hx]
  | realizationTransition dest cause =>
      by_cases hx : x = e.aggregateId
      · subst hx
        cases hhas : s.items.has e.aggregateId <;> cases hdecision : s.decisions.get e.aggregateId <;>
          simp [State.modifyItem, State.modifyDecision, decisionEdit, hbody, hdecision]
      · cases hhas : s.items.has e.aggregateId <;>
          simp [State.modifyItem, State.modifyDecision, hx]
  | _ =>
      by_cases hx : x = e.aggregateId
      · subst hx
        cases hdecision : s.decisions.get e.aggregateId <;>
          simp [State.modifyItem, State.modifyDecision, State.modifyDemand, decisionEdit, hbody,
            hdecision]
      · simp [State.modifyItem, State.modifyDecision, State.modifyDemand, hx]

/-- The blocker at `x` after the event. -/
def blockerAt (s : State) (e : EventData) (x : BlockerId) : Option BlockerState :=
  match e.body with
  | .blockerOpened payload =>
      if x = e.aggregateId then some (blockerOfOpened e.aggregateId payload e.at_)
      else s.blockers.get x
  | .blockerResolved _ _ _ =>
      if x = e.aggregateId then
        (s.blockers.get x).map ({ · with resolvedByEvent := true, resolvedAt := some e.at_ })
      else s.blockers.get x
  | _ => s.blockers.get x

/-- The criterion at `x` after the event. -/
def criterionAt (s : State) (e : EventData) (x : JsString) : Option CriterionState :=
  match e.body with
  | .criterionAdded criterionId statement =>
      if x = criterionId then some ⟨criterionId, e.aggregateId, statement, none⟩
      else s.criteria.get x
  | .acceptanceWaived criterionId reason by_ =>
      if x = criterionId then
        (s.criteria.get x).map ({ · with waiver := some ⟨criterionId, reason, by_, e.at_⟩ })
      else s.criteria.get x
  | _ => s.criteria.get x

/-- The evidence at `x` after the event. -/
def evidenceAt (s : State) (e : EventData) (x : JsString) : Option EvidenceState :=
  match e.body with
  | .evidenceLinked evidenceId criterionId kind locator =>
      if x = evidenceId then
        some ⟨evidenceId, criterionId, kind, locator, none, e.clientToken⟩
      else s.evidence.get x
  | .acceptanceRun evidenceId run =>
      let latestRun := ⟨evidenceId, run.commit, run.env, run.runner, run.result, e.at_⟩
      if x = evidenceId then (s.evidence.get x).map ({ · with latestRun := some latestRun })
      else s.evidence.get x
  | _ => s.evidence.get x

/-- The verification run at `x` after the event. -/
def runAt (s : State) (e : EventData) (x : JsString) : Option VerificationRun :=
  match e.body with
  | .verificationRecorded payload =>
      if x = payload.runId then some { payload with at_ := e.at_ } else s.verificationRuns.get x
  | _ => s.verificationRuns.get x

/-- The amendments of the item `x` after the event. -/
def amendmentsAt (s : State) (e : EventData) (x : ItemId) : Option (List SpecAmendment) :=
  match e.body with
  | .specAmended payload =>
      if x = payload.itemId then
        some ((s.specAmendments.get x).getD [] ++ [{ payload with at_ := e.at_ }])
      else s.specAmendments.get x
  | _ => s.specAmendments.get x

/-- What an event makes of the demand it is addressed to. -/
def demandEdit (e : EventData) (demand : DemandState) : DemandState :=
  match e.body with
  | .demandQualifyingStarted _ _ => { demand with status := .qualifying }
  | .demandAgreed _ itemIds _ _ =>
      { demand with status := .agreed, itemIds := itemIds.or demand.itemIds }
  | .demandDisposition outcome _ reason duplicateOf _ _ =>
      disposeDemand demand outcome reason duplicateOf
  | _ => demand

/-- The demand at `x` after the event. -/
def demandAt (s : State) (e : EventData) (x : DemandId) : Option DemandState :=
  if x = e.aggregateId then
    match e.body with
    | .demandRaised payload workspace => some (demandOfRaised e.aggregateId payload workspace)
    | _ => (s.demands.get x).map (demandEdit e)
  else s.demands.get x

/-- An outcome and a realization leave all but items and decisions alone. -/
theorem applyEvent_rest (s : State) (e : EventData)
    (h : (∃ dest, e.body = .decisionOutcome dest) ∨
      ∃ dest cause, e.body = .realizationTransition dest cause) :
    (applyEvent s e).blockers = s.blockers ∧ (applyEvent s e).criteria = s.criteria ∧
      (applyEvent s e).evidence = s.evidence ∧
      (applyEvent s e).verificationRuns = s.verificationRuns ∧
      (applyEvent s e).specAmendments = s.specAmendments ∧
      (applyEvent s e).demands = s.demands := by
  rcases h with ⟨dest, hbody⟩ | ⟨dest, cause, hbody⟩
  · simp only [applyEvent, hbody]
    split
    · simp
    · split <;> simp [State.modifyDecision]
  · simp only [applyEvent, hbody]
    split <;> simp [State.modifyItem, State.modifyDecision]

theorem blockers_applyEvent (s : State) (e : EventData) (x : BlockerId) :
    (applyEvent s e).blockers.get x = blockerAt s e x := by
  cases hbody : e.body with
  | decisionOutcome dest =>
      simp [(applyEvent_rest s e (.inl ⟨dest, hbody⟩)).1, blockerAt, hbody]
  | realizationTransition dest cause =>
      simp [(applyEvent_rest s e (.inr ⟨dest, cause, hbody⟩)).1, blockerAt, hbody]
  | blockerResolved blockerId decisionId engagementRef =>
      by_cases hx : x = e.aggregateId <;> simp [applyEvent, blockerAt, hbody, hx]
  | _ =>
      simp [applyEvent, blockerAt, hbody, State.modifyItem, State.modifyDecision,
        State.modifyDemand]

theorem criteria_applyEvent (s : State) (e : EventData) (x : JsString) :
    (applyEvent s e).criteria.get x = criterionAt s e x := by
  cases hbody : e.body with
  | decisionOutcome dest =>
      simp [(applyEvent_rest s e (.inl ⟨dest, hbody⟩)).2.1, criterionAt, hbody]
  | realizationTransition dest cause =>
      simp [(applyEvent_rest s e (.inr ⟨dest, cause, hbody⟩)).2.1, criterionAt, hbody]
  | acceptanceWaived criterionId reason by_ =>
      by_cases hx : x = criterionId <;> simp [applyEvent, criterionAt, hbody, hx]
  | _ =>
      simp [applyEvent, criterionAt, hbody, State.modifyItem, State.modifyDecision,
        State.modifyDemand]

theorem evidence_applyEvent (s : State) (e : EventData) (x : JsString) :
    (applyEvent s e).evidence.get x = evidenceAt s e x := by
  cases hbody : e.body with
  | decisionOutcome dest =>
      simp [(applyEvent_rest s e (.inl ⟨dest, hbody⟩)).2.2.1, evidenceAt, hbody]
  | realizationTransition dest cause =>
      simp [(applyEvent_rest s e (.inr ⟨dest, cause, hbody⟩)).2.2.1, evidenceAt, hbody]
  | acceptanceRun evidenceId run =>
      by_cases hx : x = evidenceId <;> simp [applyEvent, evidenceAt, hbody, hx]
  | _ =>
      simp [applyEvent, evidenceAt, hbody, State.modifyItem, State.modifyDecision,
        State.modifyDemand]

theorem verificationRuns_applyEvent (s : State) (e : EventData) (x : JsString) :
    (applyEvent s e).verificationRuns.get x = runAt s e x := by
  cases hbody : e.body with
  | decisionOutcome dest =>
      simp [(applyEvent_rest s e (.inl ⟨dest, hbody⟩)).2.2.2.1, runAt, hbody]
  | realizationTransition dest cause =>
      simp [(applyEvent_rest s e (.inr ⟨dest, cause, hbody⟩)).2.2.2.1, runAt, hbody]
  | _ =>
      simp [applyEvent, runAt, hbody, State.modifyItem, State.modifyDecision, State.modifyDemand]

theorem specAmendments_applyEvent (s : State) (e : EventData) (x : ItemId) :
    (applyEvent s e).specAmendments.get x = amendmentsAt s e x := by
  cases hbody : e.body with
  | decisionOutcome dest =>
      simp [(applyEvent_rest s e (.inl ⟨dest, hbody⟩)).2.2.2.2.1, amendmentsAt, hbody]
  | realizationTransition dest cause =>
      simp [(applyEvent_rest s e (.inr ⟨dest, cause, hbody⟩)).2.2.2.2.1, amendmentsAt, hbody]
  | specAmended payload =>
      by_cases hx : x = payload.itemId <;> simp [applyEvent, amendmentsAt, hbody, hx]
  | _ =>
      simp [applyEvent, amendmentsAt, hbody, State.modifyItem, State.modifyDecision,
        State.modifyDemand]

theorem demands_applyEvent (s : State) (e : EventData) (x : DemandId) :
    (applyEvent s e).demands.get x = demandAt s e x := by
  cases hbody : e.body with
  | decisionOutcome dest =>
      rw [(applyEvent_rest s e (.inl ⟨dest, hbody⟩)).2.2.2.2.2]
      cases hdemand : s.demands.get x <;> simp [demandAt, demandEdit, hbody, hdemand]
  | realizationTransition dest cause =>
      rw [(applyEvent_rest s e (.inr ⟨dest, cause, hbody⟩)).2.2.2.2.2]
      cases hdemand : s.demands.get x <;> simp [demandAt, demandEdit, hbody, hdemand]
  | _ =>
      by_cases hx : x = e.aggregateId
      · subst hx
        cases hdemand : s.demands.get e.aggregateId <;>
          simp [applyEvent, demandAt, demandEdit, hbody, hdemand, State.modifyItem,
            State.modifyDecision, State.modifyDemand]
      · simp [applyEvent, demandAt, hbody, hx, State.modifyItem, State.modifyDecision,
          State.modifyDemand]

end H2a.Track
