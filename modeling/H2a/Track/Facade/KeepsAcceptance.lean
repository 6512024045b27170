import H2a.Track.Facade.KeepsDecisions
/-!
# The commands on acceptance, and the import of a branch, keep to the description

With them every command of the facade does.
-/

namespace H2a.Track

open H2a.Library H2a.Library.Program H2a.Track.Model

variable {facade : Facade} {names : List JsString} {view : List Event} {minted : List JsString}

/-! ## Acceptance -/

theorem criterion_published {x : JsString} {criterion : CriterionState}
    (h : (fold view).criteria.get x = some criterion) :
    criterion.id = x ∧ x ∈ published view ∧ criterion.itemId ∈ published view := by
  obtain ⟨hid, hcreated, hitem⟩ := (known_fold view).criteria x criterion h
  exact ⟨hid, createdIn_sub view x hcreated, hitem⟩

theorem addCriterion_keeps {itemId : ItemId} {statement : JsString} :
    Keeps facade names (fun _ _ _ => True) view minted
      (facade.addCriterion itemId statement) := by
  unfold Keeps Facade.addCriterion
  simp only [sat_bind, sat_state, sat_ensure, sat_newId, sat_pure]
  intro log hlog hdecision hitem criterionId _
  refine emit_keeps ⟨rfl, List.mem_cons_self, hitem, hdecision⟩ ?_ rfl fun _ _ _ _ _ => trivial
  simp only [EventBody.ids, List.mem_cons, List.mem_nil_iff, or_false]
  rintro y (rfl | rfl)
  · exact .inl (item_published hitem)
  · exact .inr (.inl (.inl rfl))

theorem assertEvidenceFree_ok {s : State} {evidenceId : JsString}
    (h : facade.assertEvidenceFree s evidenceId = .ok ()) :
    ∀ existing, s.evidence.get evidenceId = some existing →
      facade.activeClientToken ≠ none ∧
        existing.originClientToken = facade.activeClientToken := by
  intro existing hexisting
  unfold Facade.assertEvidenceFree at h
  rw [hexisting] at h
  simp only at h
  split at h
  · assumption
  · simp at h

theorem linkEvidence_keeps {criterionId : JsString} {kind : EvidenceKind} {locator : JsString}
    {evidenceId : Option JsString}
    (hnames : ∀ x ∈ evidenceId.toList, x ∈ published view ∨ x ∈ names) :
    Keeps facade names (fun _ _ _ => True) view minted
      (facade.linkEvidence criterionId kind locator evidenceId) := by
  unfold Keeps Facade.linkEvidence
  simp only [sat_bind, sat_state, sat_require]
  intro log hlog criterion hcriterion
  obtain ⟨-, hpublished, hitem⟩ := criterion_published hcriterion
  split
  · rename_i evidenceId
    simp only [sat_bind, sat_ensure, sat_check, sat_pure]
    intro _ _ hfree
    refine emit_keeps ⟨rfl, ⟨criterion, hcriterion, rfl⟩, .inr (assertEvidenceFree_ok hfree)⟩ ?_ rfl
      fun _ _ _ _ _ => trivial
    simp only [EventBody.ids, List.mem_cons, List.mem_nil_iff, or_false]
    rintro y (rfl | rfl | rfl)
    · exact .inl hitem
    · rcases hnames y (by simp) with hview | hnamed
      · exact .inl (published_mono hlog hview)
      · exact .inr (.inr hnamed)
    · exact .inl hpublished
  · simp only [sat_bind, sat_newId, sat_pure]
    intro evidenceId _
    refine emit_keeps ⟨rfl, ⟨criterion, hcriterion, rfl⟩, .inl List.mem_cons_self⟩ ?_ rfl
      fun _ _ _ _ _ => trivial
    simp only [EventBody.ids, List.mem_cons, List.mem_nil_iff, or_false]
    rintro y (rfl | rfl | rfl)
    · exact .inl hitem
    · exact .inr (.inl (.inl rfl))
    · exact .inl hpublished

theorem recordRun_keeps {evidenceId : JsString} {run : RunFields} :
    Keeps facade names (fun _ _ _ => True) view minted (facade.recordRun evidenceId run) := by
  unfold Keeps Facade.recordRun Facade.evidenceOwner
  simp only [sat_bind, sat_state, sat_require, sat_pure]
  intro log hlog evidence hevidence criterion hcriterion
  refine emit_keeps ⟨rfl, evidence, criterion, hevidence, hcriterion, rfl⟩ ?_ rfl
    fun _ _ _ _ _ => trivial
  simp only [EventBody.ids, List.mem_cons, List.mem_nil_iff, or_false]
  rintro y (rfl | rfl)
  · exact .inl (criterion_published hcriterion).2.2
  · exact .inl ((known_fold log).evidence y evidence hevidence).2

theorem assertVerificationRun_eq {run validated : VerificationRecordedPayload}
    (h : assertVerificationRun run = .ok validated) : validated = run := by
  unfold assertVerificationRun at h
  by_cases hrunId : emptyString run.runId = true
  · simp [hrunId] at h
  by_cases hrunner : emptyString run.runner = true
  · simp [hrunId, hrunner] at h
  by_cases hcommit : emptyString run.commit = true
  · simp [hrunId, hrunner, hcommit] at h
  by_cases hwpRef : run.wpRef.any emptyString = true
  · simp [hrunId, hrunner, hcommit, hwpRef] at h
  by_cases hartifact : run.artifactLocator.any emptyString = true
  · simp [hrunId, hrunner, hcommit, hwpRef, hartifact] at h
  rw [if_neg hrunId, if_neg hrunner, if_neg hcommit, if_neg hwpRef, if_neg hartifact] at h
  exact (Except.ok.inj h).symm

theorem recordVerification_keeps {input : VerificationRecordedPayload} {workspace : JsString}
    {clientToken : Option JsString}
    (hnames : ∀ x ∈ [input.runId, Facade.verificationAggregate workspace],
      x ∈ published view ∨ x ∈ names) :
    Keeps (facade.stamped clientToken) names (fun _ _ _ => True) view minted
      (facade.recordVerification input workspace clientToken) := by
  unfold Keeps Facade.recordVerification
  simp only [sat_bind, sat_check]
  intro validated hvalidated
  obtain rfl := assertVerificationRun_eq hvalidated
  split
  · rename_i wpRef hwpRef
    simp only [sat_bind, sat_state, sat_ensure]
    intro log hlog hitem
    refine emit_keeps (.inl ⟨rfl, hwpRef, hitem⟩) ?_ rfl fun _ _ _ _ _ => trivial
    simp only [EventBody.ids, hwpRef, Option.toList_some, List.mem_cons, List.mem_nil_iff, or_false]
    rintro y (rfl | rfl | rfl)
    · exact .inl (item_published hitem)
    · rcases hnames _ List.mem_cons_self with hview | hnamed
      · exact .inl (published_mono hlog hview)
      · exact .inr (.inr hnamed)
    · exact .inl (item_published hitem)
  · rename_i hwpRef
    simp only [sat_bind]
    refine emit_keeps (.inr ⟨rfl, hwpRef, workspace, rfl⟩) ?_ rfl fun _ _ _ _ _ => trivial
    simp only [EventBody.ids, hwpRef, Option.toList_none, List.mem_cons, List.mem_nil_iff, or_false]
    rintro y (rfl | rfl)
    · rcases hnames (Facade.verificationAggregate workspace) (by simp) with hview | hnamed
      · exact .inl hview
      · exact .inr (.inr hnamed)
    · rcases hnames _ List.mem_cons_self with hview | hnamed
      · exact .inl hview
      · exact .inr (.inr hnamed)

theorem waive_keeps {criterionId reason : JsString} :
    Keeps facade names (fun _ _ _ => True) view minted (facade.waive criterionId reason) := by
  unfold Keeps Facade.waive
  simp only [sat_bind, sat_state, sat_require]
  intro log hlog criterion hcriterion
  refine emit_keeps ⟨rfl, criterion, hcriterion, rfl⟩ ?_ rfl fun _ _ _ _ _ => trivial
  simp only [EventBody.ids, List.mem_cons, List.mem_nil_iff, or_false]
  rintro y (rfl | rfl)
  · exact .inl (criterion_published hcriterion).2.2
  · exact .inl (criterion_published hcriterion).2.1

/-! ## Batches of runs -/

theorem assertItems_ok {s : State} {itemIds : List ItemId}
    (h : Facade.assertItems s itemIds = .ok ()) : ∀ x ∈ itemIds, s.items.has x = true := by
  induction itemIds with
  | nil => simp
  | cons itemId rest ih =>
      unfold Facade.assertItems at h
      by_cases hitem : s.items.has itemId = true
      · rw [if_neg (by simpa using hitem)] at h
        intro x hx
        rcases List.mem_cons.mp hx with rfl | hx
        · exact hitem
        · exact ih h x hx
      · simp [hitem] at h

/-- A part of a consolidation is the anchor of an item, or a run of an evidence of
one of its criteria. -/
theorem consolidateItem_part {s : State} {mergeCommit : JsString} {itemId : ItemId}
    {part : EventPart} (h : part ∈ Facade.consolidateItem s mergeCommit itemId) :
    part = ⟨.item, itemId, .realizationAnchored itemId mergeCommit (some .consolidate)⟩ ∨
      ∃ criterion ∈ s.criteria.values, ∃ evidence ∈ s.evidence.values, ∃ run,
        criterion.itemId = itemId ∧ evidence.criterionId = criterion.id ∧
          part = ⟨.item, itemId, .acceptanceRun evidence.id run⟩ := by
  unfold Facade.consolidateItem at h
  split at h
  · rcases List.mem_cons.mp h with rfl | h
    · exact .inl rfl
    · obtain ⟨criterion, hcriterion, h⟩ := List.mem_flatMap.mp h
      obtain ⟨evidence, hevidence, h⟩ := List.mem_flatMap.mp h
      obtain ⟨hcmem, hcitem⟩ := List.mem_filter.mp hcriterion
      obtain ⟨hemem, hecriterion⟩ := List.mem_filter.mp hevidence
      unfold Facade.restamp at h
      split at h
      · simp at h
      · split at h
        · obtain rfl := List.mem_singleton.mp h
          exact .inr ⟨criterion, hcmem, evidence, hemem, _, of_decide_eq_true hcitem,
            of_decide_eq_true hecriterion, rfl⟩
        · simp at h
  · simp at h

theorem evidence_of_values {evidence : EvidenceState}
    (h : evidence ∈ (fold view).evidence.values) :
    (fold view).evidence.get evidence.id = some evidence ∧ evidence.id ∈ published view := by
  obtain ⟨x, hx⟩ := (JsMap.mem_values_iff _ _).mp h
  obtain ⟨rfl, hpublished⟩ := (known_fold view).evidence x evidence hx
  exact ⟨hx, hpublished⟩

theorem consolidate_keeps {itemIds : List ItemId} {mergeCommit : JsString}
    {clientToken : Option JsString} :
    Keeps (facade.stamped clientToken) names (fun _ _ _ => True) view minted
      (facade.consolidate itemIds mergeCommit clientToken) := by
  unfold Keeps Facade.consolidate
  simp only [sat_bind, sat_state, sat_check]
  intro log hlog _ hknown
  split
  · trivial
  · simp only [sat_bind]
    refine ⟨⟨.consolidated hknown rfl, ⟨rfl, rfl, rfl, rfl⟩, ?_⟩, fun _ _ _ _ _ => trivial⟩
    intro part hpart x hx
    obtain ⟨itemId, hitemId, hpart⟩ := List.mem_flatMap.mp hpart
    have hitem : itemId ∈ published log := item_published (assertItems_ok hknown itemId hitemId)
    rcases consolidateItem_part hpart with rfl | ⟨criterion, -, evidence, hevidence, run, -, -, rfl⟩
    · simp only [EventPart.ids, EventBody.ids, List.mem_cons, List.mem_nil_iff, or_false,
        or_self] at hx
      exact .inl (hx ▸ hitem)
    · simp only [EventPart.ids, EventBody.ids, List.mem_cons, List.mem_nil_iff, or_false] at hx
      rcases hx with rfl | rfl
      · exact .inl hitem
      · exact .inl (evidence_of_values hevidence).2

/-- What a report asserts is of evidence of known criteria. -/
def ReportedOf (s : State) (results : JsMap JsString (ItemId × RunResult)) : Prop :=
  ∀ x entry, results.get x = some entry → ∃ evidence criterion,
    evidence ∈ s.evidence.values ∧ evidence.id = x ∧
      s.criteria.get evidence.criterionId = some criterion ∧ entry.1 = criterion.itemId

theorem foldl_keeps {α β : Type} {P : β → Prop} {f : β → α → β} {xs : List α} {b : β}
    (hb : P b) (hstep : ∀ b, ∀ x ∈ xs, P b → P (f b x)) : P (xs.foldl f b) := by
  induction xs generalizing b with
  | nil => exact hb
  | cons x rest ih =>
      refine ih (hstep b x List.mem_cons_self hb) ?_
      exact fun b' x' hx' => hstep b' x' (List.mem_cons_of_mem _ hx')

theorem reportResults_reportedOf (s : State) (entries : List Facade.RunReportEntry) :
    ReportedOf s (Facade.reportResults s entries) := by
  unfold Facade.reportResults
  refine foldl_keeps (P := ReportedOf s) (fun x entry hx => by simp at hx) ?_
  intro results entry _ hresults
  refine foldl_keeps (P := ReportedOf s) hresults fun results evidence hevidence hresults => ?_
  split
  · split
    · exact hresults
    · rename_i criterion hcriterion
      intro x found hx
      rw [JsMap.get_set] at hx
      split at hx
      · rename_i hxe
        subst hxe
        obtain rfl := Option.some.inj hx
        -- the item first met for this evidence stays
        cases hfirst : results.get evidence.id with
        | none => exact ⟨evidence, criterion, hevidence, rfl, hcriterion, rfl⟩
        | some first => exact hresults evidence.id first hfirst
      · exact hresults x found hx
  · exact hresults

theorem ingestRuns_keeps {entries : List Facade.RunReportEntry} {commit env runner : JsString} :
    Keeps facade names (fun _ _ _ => True) view minted
      (facade.ingestRuns entries commit env runner) := by
  unfold Keeps Facade.ingestRuns
  simp only [sat_bind, sat_state, sat_readAll]
  intro log hlog log' hlog'
  have hreported : ∀ part ∈ ((Facade.reportResults (fold log) entries).entries.filter fun entry =>
      (Facade.logLatest log').get (entry.1, commit, env, runner) ≠ some entry.2.2).map
        (fun entry => (⟨.item, entry.2.1,
          .acceptanceRun entry.1 ⟨commit, env, runner, entry.2.2⟩⟩ : EventPart)),
      part.aggregate = .item ∧ ∃ evidenceId run evidence criterion,
        part.body = .acceptanceRun evidenceId run ∧
          (fold log).evidence.get evidenceId = some evidence ∧
          (fold log).criteria.get evidence.criterionId = some criterion ∧
          part.aggregateId = criterion.itemId := by
    intro part hpart
    obtain ⟨⟨evidenceId, itemId, result⟩, hentry, rfl⟩ := List.mem_map.mp hpart
    have hget := (JsMap.mem_entries_iff _ _ _).mp (List.mem_filter.mp hentry).1
    obtain ⟨evidence, criterion, hevidence, rfl, hcriterion, hitem⟩ :=
      reportResults_reportedOf (fold log) entries evidenceId (itemId, result) hget
    refine ⟨rfl, evidence.id, _, evidence, criterion, rfl, ?_, hcriterion, hitem⟩
    exact (evidence_of_values hevidence).1
  split
  · trivial
  · simp only [sat_bind, sat_pure]
    refine ⟨⟨.reported hlog' hreported, ⟨rfl, rfl, rfl, rfl⟩, ?_⟩, fun _ _ _ _ _ => trivial⟩
    intro part hpart x hx
    obtain ⟨-, evidenceId, run, evidence, criterion, hbody, hevidence, hcriterion, hitem⟩ :=
      hreported part hpart
    simp only [EventPart.ids, EventBody.ids, hbody, List.mem_cons, List.mem_nil_iff, or_false] at hx
    refine .inl (published_mono hlog' ?_)
    rcases hx with rfl | rfl
    · exact hitem ▸ (criterion_published hcriterion).2.2
    · exact ((known_fold log).evidence _ evidence hevidence).2

/-! ## The import of a branch -/

theorem Keeps.later {α : Type} {post : List Event → List JsString → α → Prop} {p : Prog α}
    (h : Keeps facade names post view minted p) :
    Keeps facade names (fun v m a => view <+: v ∧ post v m a) view minted p :=
  Sat.later List.prefix_refl (fun _ _ _ h h' => h.trans h') (fun _ _ _ _ hd => hd.extends) h

/-- Run one command after another, each from a later log. -/
theorem Keeps.bind {α β : Type} {p : Prog α} {f : α → Prog β}
    {post : List Event → List JsString → α → Prop} {post' : List Event → List JsString → β → Prop}
    (h : Keeps facade names post view minted p)
    (hf : ∀ log m a, view <+: log → post log m a → Keeps facade names post' log m (f a)) :
    Keeps facade names post' view minted (p >>= f) :=
  sat_bind.mpr (h.later.mono fun v m a hpost => hf v m a hpost.1 hpost.2)

theorem findBySourceKey_keeps {sourceKey : JsString} :
    Keeps facade names (fun v _ found => ∀ item, found = some item → item.id ∈ published v)
      view minted (Facade.findBySourceKey sourceKey) := by
  unfold Keeps Facade.findBySourceKey
  simp only [sat_bind, sat_state, sat_pure]
  intro log hlog item hitem
  obtain ⟨x, hx⟩ := (JsMap.mem_values_iff _ _).mp (List.mem_of_find?_eq_some hitem)
  obtain ⟨rfl, hcreated⟩ := (known_fold log).items x item hx
  exact createdIn_sub log _ hcreated

theorem resolveItem_keeps {sourceKey : JsString} {payload : ItemCreatedPayload}
    (hnames : ∀ x ∈ payload.parentId.toList ++ payload.demandId.toList, x ∈ published view) :
    Keeps facade names (fun v _ resolved => resolved.1 ∈ published v) view minted
      (facade.resolveItem sourceKey payload) := by
  refine findBySourceKey_keeps.bind fun log m found hlog hfound => ?_
  split
  · rename_i item
    exact sat_pure.mpr (hfound item rfl)
  · refine (createItem_keeps fun x hx => .inl (published_mono hlog (hnames x hx))).bind ?_
    exact fun log' m' itemId hlog' hitemId => sat_pure.mpr hitemId

theorem realizeLot_keeps {lotId : ItemId} {lot : Facade.ParsedLot} :
    Keeps facade names (fun _ _ _ => True) view minted (facade.realizeLot lotId lot) := by
  unfold Facade.realizeLot
  split
  · unfold Keeps
    simp only [sat_bind, sat_state, sat_require]
    intro log hlog item _
    split
    · refine setRealization_keeps.bind fun _ _ _ _ _ => ?_
      exact setRealization_keeps.bind fun _ _ _ _ _ => trivial
    · exact setRealization_keeps.bind fun _ _ _ _ _ => trivial
    · trivial
  · trivial

theorem importKnownUat_keeps {branch : Facade.BranchImport} {criterionId : JsString}
    {uat : Facade.ParsedUat} :
    Keeps facade names (fun _ _ _ => True) view minted
      (facade.importKnownUat branch criterionId uat) := by
  unfold Facade.importKnownUat
  split
  · unfold Keeps
    simp only [sat_bind, sat_state]
    intro log hlog
    split
    · trivial
    · split
      · simp only [sat_bind, sat_pure]
        exact recordRun_keeps
      · refine (linkEvidence_keeps (by simp)).bind fun _ _ _ _ _ => ?_
        exact recordRun_keeps.bind fun _ _ _ _ _ => trivial
  · trivial

theorem importNewUat_keeps {branch : Facade.BranchImport} {lotId : ItemId}
    {uat : Facade.ParsedUat} :
    Keeps facade names (fun _ _ _ => True) view minted
      (facade.importNewUat branch lotId uat) := by
  unfold Facade.importNewUat
  refine addCriterion_keeps.bind fun _ _ criterionId _ _ => ?_
  refine (linkEvidence_keeps (by simp)).bind fun _ _ _ _ _ => ?_
  split
  · exact recordRun_keeps.bind fun _ _ _ _ _ => trivial
  · trivial

theorem importUats_keeps {branch : Facade.BranchImport} {lotId : ItemId}
    {uats : List Facade.ParsedUat} {counts : Nat × Nat} :
    Keeps facade names (fun _ _ _ => True) view minted
      (facade.importUats branch lotId uats counts) := by
  induction uats generalizing counts view minted with
  | nil => trivial
  | cons uat rest ih =>
      unfold Facade.importUats Keeps
      simp only [sat_bind, sat_state]
      intro log hlog
      split
      · exact importKnownUat_keeps.bind fun _ _ _ _ _ => ih
      · exact importNewUat_keeps.bind fun _ _ _ _ _ => ih

theorem importLots_keeps {branch : Facade.BranchImport} {featureId : ItemId}
    {lots : List Facade.ParsedLot} {counts : Nat × Nat} (hfeature : featureId ∈ published view) :
    Keeps facade names (fun _ _ _ => True) view minted
      (facade.importLots branch featureId lots counts) := by
  induction lots generalizing counts view minted with
  | nil => trivial
  | cons lot rest ih =>
      unfold Facade.importLots
      refine (resolveItem_keeps ?_).bind fun log _ resolved hlog hresolved => ?_
      · simpa [Facade.BranchImport.lotPayload, Facade.BranchImport.itemPayload] using hfeature
      · refine realizeLot_keeps.bind fun log' _ updated hlog' _ => ?_
        refine importUats_keeps.bind fun log'' _ counts hlog'' _ => ?_
        exact ih (published_mono ((hlog.trans hlog').trans hlog'') hfeature)

theorem importBranch_keeps {branch : Facade.BranchImport} :
    Keeps facade names (fun _ _ _ => True) view minted (facade.importBranch branch) := by
  unfold Facade.importBranch
  refine (resolveItem_keeps ?_).bind fun log _ feature hlog hfeature => ?_
  · simp [Facade.BranchImport.featurePayload, Facade.BranchImport.itemPayload]
  · refine (importLots_keeps hfeature).bind fun log' minted' counts hlog' _ => ?_
    split
    · have hids : ∀ y ∈ [feature.1], y ∈ published log' ∨ y ∈ minted' ∨ y ∈ names := by
        intro y hy
        rw [List.mem_singleton] at hy
        exact .inl (published_mono hlog' (hy ▸ hfeature))
      exact sat_bind.mpr (emit_keeps rfl hids rfl fun _ _ _ _ _ => trivial)
    · trivial

/-! ## Every command -/

/-- The instance a command stamps its events by: the given one, with the client
token of the command if it takes one. -/
def Command.stamp (facade : Facade) : Command → Facade
  | .setRole _ _ clientToken | .assignCode _ _ clientToken | .declareScope _ _ clientToken
  | .setRaci _ _ clientToken | .addItemLink _ _ clientToken | .amendSpec _ _ clientToken
  | .reopenItem _ _ clientToken | .anchorRealization _ _ _ clientToken
  | .addDecisionArtifact _ _ clientToken | .recordVerification _ _ clientToken
  | .consolidate _ _ clientToken => facade.stamped clientToken
  | _ => facade

theorem Keeps.discard {α : Type} {post : List Event → List JsString → α → Prop} {p : Prog α}
    (h : Keeps facade names post view minted p) :
    Keeps facade names (fun _ _ _ => True) view minted (do let _ ← p) :=
  h.bind fun _ _ _ _ _ => trivial

theorem Command.keeps (command : Command) (hnames : ∀ x ∈ command.names, x ∈ names) :
    Keeps (command.stamp facade) names (fun _ _ _ => True) view minted
      (command.prog facade) := by
  cases command with
  | createItem input => exact (createItem_keeps fun x hx => .inr (hnames x hx)).discard
  | reparentItem itemId parentId => exact reparentItem_keeps
  | restructureReparent itemId parentId planHash restructureRef => exact restructureReparent_keeps
  | setRole itemId dest clientToken => exact setRole_keeps
  | assignCode itemId code clientToken => exact assignCode_keeps
  | declareScope itemId scope clientToken => exact declareScope_keeps
  | setRaci itemId update clientToken => exact setRaci_keeps
  | setReportStatus itemId report => exact setReportStatus_keeps
  | addItemLink itemId link clientToken => exact addItemLink_keeps
  | amendSpec itemId amend clientToken => exact amendSpec_keeps fun x hx => .inr (hnames x hx)
  | setSpec itemId dest => exact setSpec_keeps
  | startSpec itemId handler leaseId attemptId => exact startSpec_keeps
  | abandonSpec itemId handler reason leaseId => exact abandonSpec_keeps
  | setRealization itemId dest => exact setRealization_keeps
  | reopenItem itemId reopening clientToken => exact reopenItem_keeps
  | anchorRealization itemId commit reason clientToken => exact anchorRealization_keeps
  | assessPriority itemId inputs => exact assessPriority_keeps.discard
  | raiseDemand input => exact (raiseDemand_keeps fun x hx => .inr (hnames x hx)).discard
  | claimDemand demandId handler leaseId => exact claimDemand_keeps
  | agreeDemand demandId handler items qualification leaseId => exact agreeDemand_keeps.discard
  | disposeDemand demandId outcome handler reason duplicateOf parkedUntil leaseId =>
      exact disposeDemand_keeps fun x hx => .inr (hnames x hx)
  | createDecision input => exact (createDecision_keeps fun x hx => .inr (hnames x hx)).discard
  | setOutcome decisionId dest => exact setOutcome_keeps
  | reviseDossier decisionId dossier => exact reviseDossier_keeps
  | selectDecisionOption decisionId optionId dest => exact selectDecisionOption_keeps
  | addDecisionArtifact decisionId artifact clientToken => exact addDecisionArtifact_keeps
  | setDisposition itemId gate disposition reason => exact setDisposition_keeps
  | openBlocker input => exact openBlocker_keeps.discard
  | resolveBlocker blockerId => exact resolveBlocker_keeps
  | resolveExternalDependency engagementRef scope => exact resolveExternalDependency_keeps.discard
  | addCriterion itemId statement => exact addCriterion_keeps.discard
  | linkEvidence criterionId kind locator evidenceId =>
      exact (linkEvidence_keeps fun x hx => .inr (hnames x hx)).discard
  | recordRun evidenceId run => exact recordRun_keeps
  | recordVerification input workspace clientToken =>
      exact recordVerification_keeps fun x hx => .inr (hnames x hx)
  | waive criterionId reason => exact waive_keeps
  | consolidate itemIds mergeCommit clientToken => exact consolidate_keeps
  | ingestRuns entries commit env runner => exact ingestRuns_keeps.discard
  | importBranch branch => exact importBranch_keeps.discard

end H2a.Track
