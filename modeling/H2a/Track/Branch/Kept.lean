import H2a.Library.Grows
import H2a.Track.Branch.Parse
import H2a.Track.State.Ids
/-!
# What an import keeps

The events an import appends add items, criteria and evidence, bring a lot nearer to
`done` and let evidence pass.  What the import has found or made of a lot or a box it
therefore finds again, whatever else it appends.
-/

namespace H2a.Track.Branch

open H2a.Library H2a.Track.Model H2a.Track.Facade

/-! ## The relation -/

/-- A realization the import leaves as it is. -/
def Settled (realization : Realization) : Prop := realization ≠ .toDo ∧ realization ≠ .inProgress

/-- The latest run of the evidence passes. -/
def Passes (evidence : EvidenceState) : Prop :=
  (evidence.latestRun.map (·.result)) = some .pass

structure ItemKept (a b : ItemState) : Prop where
  id : b.id = a.id
  sourceKey : b.sourceKey = a.sourceKey
  settled : Settled a.realization → Settled b.realization

structure CriterionKept (a b : CriterionState) : Prop where
  id : b.id = a.id
  itemId : b.itemId = a.itemId
  statement : b.statement = a.statement

structure EvidenceKept (a b : EvidenceState) : Prop where
  id : b.id = a.id
  criterionId : b.criterionId = a.criterionId
  passes : Passes a → Passes b

theorem ItemKept.refl (a : ItemState) : ItemKept a a := ⟨rfl, rfl, fun h => h⟩

theorem ItemKept.trans {a b c : ItemState} (h : ItemKept a b) (h' : ItemKept b c) :
    ItemKept a c :=
  ⟨h'.id.trans h.id, h'.sourceKey.trans h.sourceKey, h'.settled ∘ h.settled⟩

theorem CriterionKept.refl (a : CriterionState) : CriterionKept a a := ⟨rfl, rfl, rfl⟩

theorem CriterionKept.trans {a b c : CriterionState} (h : CriterionKept a b)
    (h' : CriterionKept b c) : CriterionKept a c :=
  ⟨h'.id.trans h.id, h'.itemId.trans h.itemId, h'.statement.trans h.statement⟩

theorem EvidenceKept.refl (a : EvidenceState) : EvidenceKept a a := ⟨rfl, rfl, fun h => h⟩

theorem EvidenceKept.trans {a b c : EvidenceState} (h : EvidenceKept a b)
    (h' : EvidenceKept b c) : EvidenceKept a c :=
  ⟨h'.id.trans h.id, h'.criterionId.trans h.criterionId, h'.passes ∘ h.passes⟩

/-- State `t` after an import has appended to what left `s`. -/
structure Kept (s t : State) : Prop where
  items : Grows ItemKept s.items.values t.items.values
  criteria : Grows CriterionKept s.criteria.values t.criteria.values
  evidence : Grows EvidenceKept s.evidence.values t.evidence.values

theorem Kept.refl (s : State) : Kept s s :=
  ⟨.refl .refl _, .refl .refl _, .refl .refl _⟩

theorem Kept.trans {s t u : State} (h : Kept s t) (h' : Kept t u) : Kept s u :=
  ⟨h.items.trans .trans h'.items, h.criteria.trans .trans h'.criteria,
    h.evidence.trans .trans h'.evidence⟩

/-! ## The events of an import -/

/-- What an import may append on state `s`. -/
inductive Appends (s : State) (e : EventData) : Prop
  | created {payload} (hbody : e.body = .itemCreated payload)
      (hitem : s.items.get e.aggregateId = none) (hdecision : s.decisions.get e.aggregateId = none)
  | realized {dest item} (hbody : e.body = .realizationTransition dest none)
      (hitem : s.items.get e.aggregateId = some item)
      (hsettled : Settled item.realization → Settled dest)
  | criterion {criterionId statement} (hbody : e.body = .criterionAdded criterionId statement)
      (hnew : s.criteria.get criterionId = none)
  | linked {evidenceId criterionId kind locator}
      (hbody : e.body = .evidenceLinked evidenceId criterionId kind locator)
      (hnew : s.evidence.get evidenceId = none)
  | ran {evidenceId run} (hbody : e.body = .acceptanceRun evidenceId run)
      (hpass : run.result = .pass)
  | imported {locator branchSlug sourceHash structureHash}
      (hbody : e.body = .branchImported locator branchSlug sourceHash structureHash)

variable {s t : State} {e : EventData} {x : JsString}

theorem Appends.kept (h : Appends s e) : Kept s (applyEvent s e) := by
  have hrest := Kept.refl s
  cases h with
  | created hbody hitem hdecision =>
      rw [applyEvent, hbody]
      exact ⟨JsMap.grows_set .refl hitem _, hrest.criteria, hrest.evidence⟩
  | @realized dest item hbody hitem hsettled =>
      have hhas : s.items.has e.aggregateId = true := (JsMap.has_iff _ _).mpr ⟨item, hitem⟩
      rw [applyEvent, hbody]
      simp only [hhas, if_true]
      refine ⟨JsMap.grows_modify .refl fun other hother => ?_, hrest.criteria, hrest.evidence⟩
      obtain rfl := Option.some.inj (hitem.symm.trans hother)
      exact ⟨rfl, rfl, hsettled⟩
  | criterion hbody hnew =>
      rw [applyEvent, hbody]
      exact ⟨hrest.items, JsMap.grows_set .refl hnew _, hrest.evidence⟩
  | linked hbody hnew =>
      rw [applyEvent, hbody]
      exact ⟨hrest.items, hrest.criteria, JsMap.grows_set .refl hnew _⟩
  | ran hbody hpass =>
      rw [applyEvent, hbody]
      refine ⟨hrest.items, hrest.criteria, JsMap.grows_modify .refl fun evidence _ => ?_⟩
      exact ⟨rfl, rfl, fun _ => congrArg some hpass⟩
  | imported hbody =>
      rw [applyEvent, hbody]
      exact hrest

/-- An import makes no decision. -/
theorem Appends.decisions (h : Appends s e) : (applyEvent s e).decisions = s.decisions := by
  cases h with
  | realized hbody hitem _ =>
      rw [applyEvent, hbody]
      simp only [(JsMap.has_iff _ _).mpr ⟨_, hitem⟩, if_true]
      rfl
  | created hbody | criterion hbody | linked hbody | ran hbody | imported hbody =>
      rw [applyEvent, hbody]

/-- The one item that may be new is the one the event is about. -/
theorem Appends.items (h : Appends s e) (hx : (applyEvent s e).items.has x = true) :
    s.items.has x = true ∨ x = e.aggregateId ∧ s.decisions.get x = none := by
  obtain ⟨item', hitem'⟩ := (JsMap.has_iff _ _).mp hx
  rcases item_step hitem' with ⟨payload, hbody, rfl, -⟩ | ⟨item, hitem, -⟩
  · cases h with
    | created _ _ hdecision => exact .inr ⟨rfl, hdecision⟩
    | realized hbody' | criterion hbody' | linked hbody' | ran hbody' | imported hbody' =>
        rw [hbody] at hbody'
        simp at hbody'
  · exact .inl ((JsMap.has_iff _ _).mpr ⟨item, hitem⟩)

/-! ## What has been imported -/

/-- The item a source key stands for. -/
def itemOfKey (s : State) (sourceKey : JsString) : Option ItemState :=
  s.items.values.find? fun item => item.sourceKey = some sourceKey

/-- The evidence of a criterion that the import looks at. -/
def evidenceOf (s : State) (criterionId : JsString) : Option EvidenceState :=
  s.evidence.values.find? fun evidence => evidence.criterionId = criterionId

variable (branch : BranchImport)

/-- A box that asks for nothing more. -/
def UatImported (s : State) (lotId : ItemId) (uat : ParsedUat) : Prop :=
  ∃ criterion, findUat branch s lotId uat = some criterion ∧
    (uat.passed = true → ∃ evidence, evidenceOf s criterion.id = some evidence ∧ Passes evidence)

/-- A lot that asks for nothing more. -/
def LotImported (s : State) (lot : ParsedLot) : Prop :=
  ∃ item, itemOfKey s (branch.lotKey lot) = some item ∧
    (lot.done = true → Settled item.realization) ∧
    ∀ uat ∈ lot.uat, UatImported branch s item.id uat

/-- A file that asks for nothing more. -/
def Imported (s : State) (featureId : ItemId) : Prop :=
  (∃ feature, itemOfKey s branch.parsed.branchSlug = some feature ∧ feature.id = featureId) ∧
    ∀ lot ∈ branch.parsed.lots, LotImported branch s lot

variable {branch}

theorem Kept.itemOfKey (h : Kept s t) {sourceKey : JsString} {item : ItemState}
    (hitem : itemOfKey s sourceKey = some item) :
    ∃ item', itemOfKey t sourceKey = some item' ∧ ItemKept item item' :=
  h.items.find? (fun hkept => by rw [hkept.sourceKey]) hitem

theorem Kept.uat (h : Kept s t) {lotId : ItemId} {uat : ParsedUat}
    (huat : UatImported branch s lotId uat) : UatImported branch t lotId uat := by
  obtain ⟨criterion, hcriterion, hpassed⟩ := huat
  obtain ⟨criterion', hcriterion', hkept⟩ :=
    h.criteria.find? (fun hkept => by rw [hkept.itemId, hkept.statement]) hcriterion
  refine ⟨criterion', hcriterion', fun hchecked => ?_⟩
  obtain ⟨evidence, hevidence, hpasses⟩ := hpassed hchecked
  obtain ⟨evidence', hevidence', hkept'⟩ :=
    h.evidence.find? (fun hkept => by rw [hkept.criterionId]) hevidence
  rw [hkept.id]
  exact ⟨evidence', hevidence', hkept'.passes hpasses⟩

theorem Kept.lot (h : Kept s t) {lot : ParsedLot} (hlot : LotImported branch s lot) :
    LotImported branch t lot := by
  obtain ⟨item, hitem, hdone, huats⟩ := hlot
  obtain ⟨item', hitem', hkept⟩ := h.itemOfKey hitem
  refine ⟨item', hitem', fun hchecked => hkept.settled (hdone hchecked), fun uat huat => ?_⟩
  rw [hkept.id]
  exact h.uat (huats uat huat)

/-! ## By key -/

section Keyed

variable {log log' : List Event} {sourceKey : JsString}

theorem get_of_itemOfKey {item : ItemState} (h : itemOfKey (fold log) sourceKey = some item) :
    (fold log).items.get item.id = some item :=
  (JsMap.mem_values_iff_get _ fun x item hitem => ((known_fold log).items x item hitem).1).mp
    (List.mem_of_find?_eq_some h)

theorem get_of_findUat {lotId : ItemId} {uat : ParsedUat} {criterion : CriterionState}
    (h : findUat branch (fold log) lotId uat = some criterion) :
    (fold log).criteria.get criterion.id = some criterion ∧ criterion.itemId = lotId := by
  refine ⟨(JsMap.mem_values_iff_get _ fun x criterion hcriterion =>
    ((known_fold log).criteria x criterion hcriterion).1).mp (List.mem_of_find?_eq_some h), ?_⟩
  have hfound := List.find?_some h
  rw [Bool.and_eq_true, decide_eq_true_eq] at hfound
  exact hfound.1

theorem get_of_evidenceOf {criterionId : JsString} {evidence : EvidenceState}
    (h : evidenceOf (fold log) criterionId = some evidence) :
    (fold log).evidence.get evidence.id = some evidence ∧
      evidence.criterionId = criterionId := by
  refine ⟨(JsMap.mem_values_iff_get _ fun x evidence hevidence =>
    ((known_fold log).evidence x evidence hevidence).1).mp (List.mem_of_find?_eq_some h), ?_⟩
  simpa using List.find?_some h

theorem Kept.item (h : Kept (fold log) (fold log')) {item : ItemState}
    (hitem : (fold log).items.get x = some item) :
    ∃ item', (fold log').items.get x = some item' ∧ ItemKept item item' := by
  have hfind := JsMap.find?_values (fold log).items
    (fun x item hitem => ((known_fold log).items x item hitem).1) x
  rw [hitem] at hfind
  have hfind' := JsMap.find?_values (fold log').items
    (fun x item hitem => ((known_fold log').items x item hitem).1) x
  rw [← hfind']
  exact h.items.find? (fun hkept => by rw [hkept.id]) hfind

theorem Kept.criterion (h : Kept (fold log) (fold log')) {criterion : CriterionState}
    (hcriterion : (fold log).criteria.get x = some criterion) :
    ∃ criterion', (fold log').criteria.get x = some criterion' ∧
      CriterionKept criterion criterion' := by
  have hfind := JsMap.find?_values (fold log).criteria
    (fun x criterion hcriterion => ((known_fold log).criteria x criterion hcriterion).1) x
  rw [hcriterion] at hfind
  have hfind' := JsMap.find?_values (fold log').criteria
    (fun x criterion hcriterion => ((known_fold log').criteria x criterion hcriterion).1) x
  rw [← hfind']
  exact h.criteria.find? (fun hkept => by rw [hkept.id]) hfind

theorem Kept.evidenceOf (h : Kept s t) {criterionId : JsString} {evidence : EvidenceState}
    (hevidence : evidenceOf s criterionId = some evidence) :
    ∃ evidence', evidenceOf t criterionId = some evidence' ∧ EvidenceKept evidence evidence' :=
  h.evidence.find? (fun hkept => by rw [hkept.criterionId]) hevidence

/-- The criterion an evidence is for is one the log has named. -/
theorem criterionId_published {evidence : EvidenceState}
    (h : (fold log).evidence.get x = some evidence) : evidence.criterionId ∈ published log := by
  have hall : ∀ x evidence, (rawFold log).evidence.get x = some evidence →
      evidence.criterionId ∈ published log := by
    refine replay_keeps (P := fun s => ∀ x evidence, s.evidence.get x = some evidence →
      evidence.criterionId ∈ published log) ?_ (by simp [emptyState])
    intro s e he hs x evidence hevidence
    rw [evidence_applyEvent] at hevidence
    unfold evidenceAt at hevidence
    split at hevidence
    · rename_i evidenceId criterionId kind locator hbody
      split at hevidence
      · obtain rfl := Option.some.inj hevidence
        obtain ⟨ev, hev, rfl⟩ := List.mem_map.mp he
        exact List.mem_flatMap.mpr ⟨ev, hev, by simp [EventData.ids, EventBody.ids, hbody]⟩
      · exact hs x evidence hevidence
    · split at hevidence
      · obtain ⟨before, hbefore, rfl⟩ := Option.map_eq_some_iff.mp hevidence
        exact hs x before hbefore
      · exact hs x evidence hevidence
    · exact hs x evidence hevidence
  exact hall x evidence h

end Keyed

end H2a.Track.Branch
