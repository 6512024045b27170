import H2a.Track.Facade.Command
/-!
# What the facade hands to the store

Every append a command comes to is described once: its parts, and what the
command has checked of them on the log it had read.  Later proofs take a command
apart with this description and never unfold it.
-/

namespace H2a.Track

open H2a.Library H2a.Library.Program H2a.Track.Model

/-! ## One event -/

/-- The guards of `reparentItem` and `restructureReparent` on the new parent. -/
structure MayMove (s : State) (itemId : ItemId) (item : ItemState) (parentId : ItemId)
    (restructured : Bool) : Prop where
  ne : parentId ≠ itemId
  parent : ∃ parent, s.items.get parentId = some parent ∧
    (restructured = false → parent.workspace = item.workspace) ∧
    assertRoleNesting item.role parent.role itemId parentId = .ok ()
  walk : Facade.ancestryWalk s itemId parentId = .clear

/-- What the facade has checked on state `s` of an event it emits alone;
`clientToken` is the delivery it is stamped with. -/
def Single (s : State) (minted : List JsString) (clientToken : Option JsString)
    (part : EventPart) : Prop :=
  let x := part.aggregateId
  match part.body with
  | .itemCreated payload => part.aggregate = .item ∧ x ∈ minted ∧
      ∀ role parentId, payload.role = some role → payload.parentId = some parentId →
        Facade.assertCreateNesting s role parentId = .ok ()
  | .itemReparented parentId planHash _ => part.aggregate = .item ∧
      ∃ item, s.items.get x = some item ∧
        ∀ p, parentId = some p → MayMove s x item p planHash.isSome
  | .itemRoleChanged dest => part.aggregate = .item ∧ (dest = .workpackage ∨ dest = .stream) ∧
      ∃ item, s.items.get x = some item ∧
        (item.role = some .workpackage ∨ item.role = some .stream) ∧
        Facade.assertOwnNesting s item x dest = .ok () ∧
        Facade.assertChildrenNesting x dest s.items.values = .ok ()
  | .itemRaciAssigned _ | .itemReportUpdated _ | .itemLinkAdded _ | .scopeDeclared _
  | .specTransition _ | .realizationAnchored _ _ _ | .priorityAssessed _ | .specStarted _ _ _ _
  | .specAbandoned _ _ _ _ => part.aggregate = .item ∧ s.items.has x = true
  | .specAmended payload => part.aggregate = .item ∧ payload.itemId = x ∧ s.items.has x = true
  | .realizationTransition dest cause => cause = none ∧
      ((part.aggregate = .item ∧ ∃ item, s.items.get x = some item ∧
        assertRealizationTransition item.id item.realization dest false = .ok ()) ∨
      (part.aggregate = .decision ∧ s.items.get x = none ∧
        ∃ decision, s.decisions.get x = some decision ∧
          assertRealizationTransition decision.id decision.realization dest false = .ok ()))
  | .realizationReopened itemId reopening => part.aggregate = .item ∧ itemId = some x ∧
      assertReopenPayload reopening = .ok reopening ∧ ∃ item, s.items.get x = some item ∧
        ∃ closure, assertReopenTransition item.id item.realization = .ok closure
  | .decisionDisposition itemId _ disposition _ => part.aggregate = .item ∧ itemId = x ∧
      disposition ≠ .completed ∧ s.items.has x = true
  | .dossierRevised _ | .decisionArtifactAdded _ =>
      part.aggregate = .decision ∧ s.decisions.has x = true
  | .criterionAdded criterionId _ => part.aggregate = .item ∧ criterionId ∈ minted ∧
      s.items.has x = true ∧ s.decisions.has x = false
  | .evidenceLinked evidenceId criterionId _ _ => part.aggregate = .item ∧
      (∃ criterion, s.criteria.get criterionId = some criterion ∧ x = criterion.itemId) ∧
      (evidenceId ∈ minted ∨ ∀ existing, s.evidence.get evidenceId = some existing →
        clientToken ≠ none ∧ existing.originClientToken = clientToken)
  | .acceptanceRun evidenceId _ => part.aggregate = .item ∧
      ∃ evidence criterion, s.evidence.get evidenceId = some evidence ∧
        s.criteria.get evidence.criterionId = some criterion ∧ x = criterion.itemId
  | .acceptanceWaived criterionId _ _ => part.aggregate = .item ∧
      ∃ criterion, s.criteria.get criterionId = some criterion ∧ x = criterion.itemId
  | .verificationRecorded payload =>
      (part.aggregate = .item ∧ payload.wpRef = some x ∧ s.items.has x = true) ∨
      (part.aggregate = .verification ∧ payload.wpRef = none ∧
        ∃ workspace, x = Facade.verificationAggregate workspace)
  | .blockerOpened payload => part.aggregate = .blocker ∧ x ∈ minted ∧ payload.blockerId = x ∧
      s.items.has payload.targetId = true ∧
      (payload.kind = .decision → payload.ref.any s.decisions.has = true)
  | .blockerResolved blockerId decisionId _ => part.aggregate = .blocker ∧ blockerId = x ∧
      decisionId = none ∧ ∃ blocker, s.blockers.get x = some blocker ∧ blocker.kind ≠ .decision
  | .demandRaised _ _ => part.aggregate = .demand ∧ x ∈ minted
  | .branchImported _ _ _ _ => part.aggregate = .item
  | .itemCodeAssigned _ | .decisionCreated _ | .decisionOutcome _ | .decisionOptionSelected _
  | .demandQualifyingStarted _ _ | .demandAgreed _ _ _ _ | .demandDisposition _ _ _ _ _ _ => False

/-! ## An append -/

/-- What a command may hand to the store, when `view` is the log it has read last,
`minted` are the ids it has minted since it last appended and `names` those its
caller supplied. -/
inductive Issued (names : List JsString) (view : List Event) (minted : List JsString)
    (e : Emission) : Prop
  | single {part} (hparts : e.parts = [part])
      (hpart : Single (fold view) minted e.clientToken part)
      (hparents : ∀ p ∈ part.body.parents, p ∈ published view ∨ p ∈ names)
  | codeAssigned {itemId code item}
      (hparts : e.parts = [⟨.item, itemId, .itemCodeAssigned code⟩])
      (hitem : (fold view).items.get itemId = some item) (hrole : isRoleContainer item.role = true)
      (hrecheck : e.recheck = some fun _ existing =>
        Facade.assertCodeUnique itemId code (fold existing))
  | claimed {demandId handler leaseId}
      (hparts : e.parts = [⟨.demand, demandId, .demandQualifyingStarted handler leaseId⟩])
      (hrecheck : e.recheck = some (Facade.recheckDemand demandId .qualifying))
  | agreed {demandId demand handler itemIds items qualification leaseId}
      (hdemand : (fold view).demands.get demandId = some demand)
      (hlength : itemIds.length = items.length) (hnodup : itemIds.Nodup)
      (hminted : ∀ x ∈ itemIds, x ∈ minted)
      (hparts : e.parts =
        ⟨.demand, demandId, .demandAgreed handler (some itemIds) qualification leaseId⟩ ::
          List.zipWith (Facade.promotion demand demandId) itemIds items)
      (hrecheck : e.recheck = some (Facade.recheckDemand demandId .agreed))
  | disposed {demandId outcome handler reason duplicateOf parkedUntil leaseId}
      (hparts : e.parts = [⟨.demand, demandId,
        .demandDisposition outcome handler (some reason) duplicateOf parkedUntil leaseId⟩])
      (hrecheck : e.recheck = some (Facade.recheckDisposition demandId outcome duplicateOf))
  | decisionCreated {input : DecisionCreatedPayload} {decisionId blockerIds}
      (hnodup : (decisionId :: blockerIds).Nodup)
      (hlength : blockerIds.length = input.targets.length)
      (hminted : ∀ x ∈ decisionId :: blockerIds, x ∈ minted)
      (htargets : input.targets.Nodup)
      (hknown : Facade.assertTargets (fold view) input.targets = .ok ())
      (hparts : e.parts = ⟨.decision, decisionId, .decisionCreated input⟩ ::
        List.zipWith (Facade.decisionBlocker decisionId input.decisionKind) blockerIds
          input.targets)
  | deferred {decisionId decision}
      (hdecision : (fold view).decisions.get decisionId = some decision)
      (hmove : assertOutcomeTransition decision.outcome .deferred = .ok ())
      (hparts : e.parts = Facade.outcomeParts (fold view) decision .deferred)
  | settled {decisionId decision optionId dest} (hsettled : isSettled dest = true)
      (hdecision : (fold view).decisions.get decisionId = some decision)
      (hmove : assertOutcomeTransition decision.outcome dest = .ok ())
      (hparts : e.parts = ⟨.decision, decisionId, .decisionOptionSelected optionId⟩ ::
        Facade.outcomeParts (fold view) decision dest)
  | externalResolved {engagementRef scope}
      (hparts : e.parts = (Facade.externalBlockers (fold view) engagementRef scope).map fun b =>
        ⟨.blocker, b.id, .blockerResolved b.id none (some engagementRef)⟩)
  | consolidated {itemIds mergeCommit} (hknown : Facade.assertItems (fold view) itemIds = .ok ())
      (hparts : e.parts = itemIds.flatMap (Facade.consolidateItem (fold view) mergeCommit))
  | reported {view' : List Event}
      (hview : view' <+: view)
      (hparts : ∀ part ∈ e.parts, part.aggregate = .item ∧ ∃ evidenceId run evidence criterion,
        part.body = .acceptanceRun evidenceId run ∧
          (fold view').evidence.get evidenceId = some evidence ∧
          (fold view').criteria.get evidence.criterionId = some criterion ∧
          part.aggregateId = criterion.itemId)

/-- The emission carries what the instance stamps on it. -/
structure StampedBy (facade : Facade) (e : Emission) : Prop where
  by_ : e.by_ = facade.actor
  prov : e.prov = facade.prov
  clientToken : e.clientToken = facade.activeClientToken
  dedupe : e.dedupe = facade.activeDedupe

/-- The ids in an event part. -/
def EventPart.ids (part : EventPart) : List JsString := part.aggregateId :: part.body.ids

/-- What every append of a program meets: `names` are the ids its caller supplied. -/
structure Requests (facade : Facade) (names : List JsString) (view : List Event)
    (minted : List JsString) (e : Emission) : Prop where
  issued : Issued names view minted e
  stamped : StampedBy facade e
  ids : ∀ part ∈ e.parts, ∀ x ∈ part.ids, x ∈ published view ∨ x ∈ minted ∨ x ∈ names

/-- A program that others may interfere with, all of whose appends are as described. -/
def Keeps {α : Type} (facade : Facade) (names : List JsString)
    (post : List Event → List JsString → α → Prop) (view : List Event) (minted : List JsString)
    (p : Prog α) : Prop :=
  Sat (· <+: ·) Done (Requests facade names) post view minted p

end H2a.Track
