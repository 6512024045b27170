import H2a.Track.Branch.Kept
import H2a.Track.Facade.Alone
/-!
# Importing a branch file again

`importBranch` run twice with nobody else writing.  Each command of the first run leaves
its lot or box imported and keeps what is, so at the end all of the file is; and where
all of the file is, the second run finds nothing to do.
-/

namespace H2a.Track.Branch

open H2a.Library H2a.Library.Program H2a.Library.Concurrent H2a.Track.Model H2a.Track.Facade
open H2a.Track.Events (Sha256)

variable {contentHashOf : EventData → Sha256} {facade : Facade} {w : FacadeWorld}
variable {branch : BranchImport}

/-! ## The commands of an import -/

section Commands

/-- The log is in order, the ids to come are new to it, and no id of an item is used
for something else. -/
structure Ready (contentHashOf : EventData → Sha256) (w : FacadeWorld) : Prop where
  sound : Events.Sound contentHashOf w.log
  new : ∀ n, w.ids n ∉ published w.log
  distinct : Function.Injective w.ids
  items : ∀ x, (fold w.log).items.has x = true →
    (∀ e ∈ w.log, e.core.aggregateId = x → e.core.aggregate = .item) ∧
      (fold w.log).decisions.get x = none

theorem Ready.nextId (h : Ready contentHashOf w) : Ready contentHashOf w.nextId where
  sound := h.sound
  new n := h.new (n + 1)
  distinct := fun _ _ heq => Nat.succ.inj (h.distinct heq)
  items := h.items

/-- The id minted is none of those to come. -/
theorem Ready.minted (h : Ready contentHashOf w) (n : Nat) : w.nextId.ids n ≠ w.ids 0 :=
  fun heq => Nat.succ_ne_zero n (h.distinct heq)

/-- An id the log knows is none of those to come. -/
theorem Ready.known (h : Ready contentHashOf w) {x : JsString} (hx : x ∈ published w.log)
    (n : Nat) : w.ids n ≠ x :=
  fun heq => h.new n (heq ▸ hx)

/-- The parts of a run that an import is made of: it returns, leaves the world ready and
keeps what has been imported. -/
structure Runs {α : Type} (contentHashOf : EventData → Sha256) (p : Prog α) (w : FacadeWorld)
    (a : α) (w' : FacadeWorld) : Prop where
  run : p.run (perform contentHashOf) w = (.returned a, w')
  ready : Ready contentHashOf w'
  kept : Kept (fold w.log) (fold w'.log)

theorem Runs.pure {α : Type} (h : Ready contentHashOf w) (a : α) :
    Runs contentHashOf (Pure.pure a) w a w :=
  ⟨rfl, h, .refl _⟩

theorem Runs.bind {α β : Type} {p : Prog α} {f : α → Prog β} {a : α} {b : β}
    {w₁ w₂ : FacadeWorld} (h : Runs contentHashOf p w a w₁)
    (h' : Runs contentHashOf (f a) w₁ b w₂) :
    Runs contentHashOf (p >>= f) w b w₂ :=
  ⟨by rw [run_bind, h.run, Outcome.andThen_returned, h'.run], h'.ready, h.kept.trans h'.kept⟩

/-- Reading the state before. -/
theorem Runs.state {β : Type} {f : State → Prog β} {b : β} {w' : FacadeWorld}
    (h : Runs contentHashOf (f (fold w.log)) w b w') :
    Runs contentHashOf (Prog.state >>= f) w b w' :=
  ⟨run_state.trans h.run, h.ready, h.kept⟩

theorem Runs.ensure {β : Type} {condition : Prop} [Decidable condition] {message : String}
    {f : Unit → Prog β} {b : β} {w' : FacadeWorld} (hcondition : condition)
    (h : Runs contentHashOf (f ()) w b w') :
    Runs contentHashOf (Prog.ensure condition message >>= f) w b w' :=
  ⟨by rw [run_ensure, if_pos hcondition, h.run], h.ready, h.kept⟩

theorem Runs.require {α β : Type} {x : Option α} {a : α} {message : String} {f : α → Prog β} {b : β}
    {w' : FacadeWorld} (hx : x = some a) (h : Runs contentHashOf (f a) w b w') :
    Runs contentHashOf (Prog.require x message >>= f) w b w' :=
  ⟨by rw [run_require, hx]; exact h.run, h.ready, h.kept⟩

theorem Runs.check {β : Type} {x : Except String Unit} {f : Unit → Prog β} {b : β}
    {w' : FacadeWorld} (hx : x = .ok ()) (h : Runs contentHashOf (f ()) w b w') :
    Runs contentHashOf (Prog.check x >>= f) w b w' :=
  ⟨by rw [run_check, hx]; exact h.run, h.ready, h.kept⟩

theorem Runs.mint {β : Type} {f : JsString → Prog β} {b : β} {w' : FacadeWorld}
    (h : Runs contentHashOf (f (w.ids 0)) w.nextId b w') :
    Runs contentHashOf (Prog.newId >>= f) w b w' :=
  ⟨h.run, h.ready, h.kept⟩

/-- The append of an event an import may append. -/
theorem Ready.emit (h : Ready contentHashOf w) (hidle : facade.Idle)
    (hrecheck : facade.activeRecheck = none) (x : Ulid) (body : EventBody)
    (happends : Appends (rawFold w.log) (facade.coreOf ⟨.item, x, body⟩ (w.choices 0)))
    (hkind : ∀ e ∈ w.log, e.core.aggregateId = x → e.core.aggregate = .item)
    (hids : ∀ y ∈ x :: body.ids, ∀ n, w.ids n ≠ y) :
    ∃ ev w', Runs contentHashOf (facade.emit .item x body) w [ev] w' ∧ w'.ids = w.ids ∧
      ev.core = facade.coreOf ⟨.item, x, body⟩ (w.choices 0) ∧ w'.log = w.log ++ [ev] := by
  have hordinary : body.materialize = .ok body ∧
      Events.Plain (facade.coreOf ⟨.item, x, body⟩ (w.choices 0)) := by
    cases happends with
    | created hbody | realized hbody | criterion hbody | linked hbody | ran hbody
    | imported hbody =>
        simp only [Facade.coreOf] at hbody
        rw [hbody]
        exact ⟨rfl, rfl, rfl, rfl, fun _ => nofun⟩
  obtain ⟨ev, hrun, hcore, hsound⟩ :=
    run_emit hidle hrecheck h.sound hordinary.1 hordinary.2 hkind
  have hfold : rawFold (w.log ++ [ev]) = applyEvent (rawFold w.log) ev.core := rawFold_concat _ _
  rw [← hcore] at happends
  have hids' : ev.core.ids = x :: body.ids := by
    rw [hcore]
    rfl
  refine ⟨ev, w.write (w.log ++ [ev]), ⟨hrun, ⟨hsound, ?_, h.distinct, ?_⟩, ?_⟩, rfl, hcore, rfl⟩
  · intro n hn
    rw [World.write_log, published_append, List.mem_append] at hn
    rcases hn with hn | hn
    · exact h.new n hn
    · rw [published, List.flatMap_singleton, hids'] at hn
      exact hids _ hn n rfl
  · intro y hy
    have hdecisions : (rawFold (w.log ++ [ev])).decisions = (rawFold w.log).decisions :=
      hfold ▸ happends.decisions
    have haggregate : ev.core.aggregateId = x ∧ ev.core.aggregate = .item := by
      rw [hcore]
      exact ⟨rfl, rfl⟩
    change (∀ e ∈ w.log ++ [ev], _) ∧ (rawFold (w.log ++ [ev])).decisions.get y = none
    have hy' : (rawFold (w.log ++ [ev])).items.has y = true := hy
    rw [hfold] at hy'
    rw [hdecisions]
    have hevents : (∀ e ∈ w.log, e.core.aggregateId = y → e.core.aggregate = .item) ∧
        (rawFold w.log).decisions.get y = none := by
      rcases happends.items hy' with hold | ⟨rfl, hnone⟩
      · exact h.items y hold
      · rw [haggregate.1] at hnone ⊢
        exact ⟨hkind, hnone⟩
    refine ⟨fun e he hey => ?_, hevents.2⟩
    rcases List.mem_append.mp he with he | he
    · exact hevents.1 e he hey
    · exact List.mem_singleton.mp he ▸ haggregate.2
  · have hkept : Kept (rawFold w.log) (rawFold (w.log ++ [ev])) := hfold ▸ happends.kept
    exact ⟨hkept.items, hkept.criteria, hkept.evidence⟩

variable (hready : Ready contentHashOf w) (hidle : facade.Idle)
variable (hrecheck : facade.activeRecheck = none)

include hready hidle hrecheck

variable (branch) in
theorem runs_createItem (kind : ItemKind) (title : JsString) (parentId : Option ItemId)
    (sourceKey : JsString) (body : Option JsString) (hkind : kind ≠ .decision)
    (hparent : ∀ p, parentId = some p → p ∈ published w.log) :
    let payload := branch.itemPayload kind title parentId sourceKey body
    ∃ w', Runs contentHashOf (facade.createItem payload) w (w.ids 0) w' ∧
      (fold w'.log).items.values =
        (fold w.log).items.values ++ [itemOfCreated (w.ids 0) payload] := by
  intro payload
  have hknown := known_rawFold w.log
  have hnew : w.ids 0 ∉ published w.log := hready.new 0
  have hitem : (rawFold w.log).items.get (w.ids 0) = none := by
    by_contra hsome
    obtain ⟨item, hitem⟩ := Option.ne_none_iff_exists'.mp hsome
    exact hnew (createdIn_sub _ _ (hknown.items _ _ hitem).2)
  have hdecision : (rawFold w.log).decisions.get (w.ids 0) = none := by
    by_contra hsome
    obtain ⟨decision, hdecision⟩ := Option.ne_none_iff_exists'.mp hsome
    exact hnew (createdIn_sub _ _ (hknown.decisions _ _ hdecision).2.1)
  have hunused : ∀ e ∈ w.log, e.core.aggregateId = w.ids 0 → e.core.aggregate = .item :=
    fun e he hid => (hnew (List.mem_flatMap.mpr ⟨e, he, hid ▸ List.mem_cons_self⟩)).elim
  have hids : ∀ y ∈ w.ids 0 :: (EventBody.itemCreated payload).ids, ∀ n, w.nextId.ids n ≠ y := by
    intro y hy n
    rcases List.mem_cons.mp hy with rfl | hy
    · exact hready.minted n
    · have hy' : y ∈ parentId.toList ++ [] := hy
      rw [List.append_nil, Option.mem_toList] at hy'
      exact hready.nextId.known (hparent y hy') n
  obtain ⟨ev, w', hruns, -, hcore, hlog⟩ := hready.nextId.emit hidle hrecheck (w.ids 0)
    (.itemCreated payload) (.created rfl hitem hdecision) hunused hids
  refine ⟨w', ?_, ?_⟩
  · unfold Facade.createItem
    refine .ensure hkind (.mint ?_)
    refine hruns.bind ?_
    have hid : Facade.resultId [ev] (w.ids 0) = w.ids 0 := by
      simp [Facade.resultId, hcore, Facade.coreOf]
    rw [hid]
    exact .pure hruns.ready _
  · have hfold : rawFold w'.log = applyEvent (rawFold w.log) ev.core := by
      rw [hlog]
      exact rawFold_concat _ _
    rw [fold_items, hfold, hcore]
    exact JsMap.values_set_of_absent hitem _

variable (branch) in
/-- Whatever a source key stands for in the end was there or has been created. -/
theorem runs_resolveItem (kind : ItemKind) (title : JsString) (parentId : Option ItemId)
    (sourceKey : JsString) (body : Option JsString) (hkind : kind ≠ .decision)
    (hparent : ∀ p, parentId = some p → p ∈ published w.log) :
    ∃ item n w', Runs contentHashOf
        (facade.resolveItem sourceKey (branch.itemPayload kind title parentId sourceKey body)) w
        (item.id, n) w' ∧
      itemOfKey (fold w'.log) sourceKey = some item := by
  have hfind : Runs contentHashOf (findBySourceKey sourceKey) w
      (itemOfKey (fold w.log) sourceKey) w := ⟨rfl, hready, .refl _⟩
  unfold Facade.resolveItem
  cases hitem : itemOfKey (fold w.log) sourceKey with
  | some item =>
      rw [hitem] at hfind
      exact ⟨item, 0, w, hfind.bind (.pure hready _), hitem⟩
  | none =>
      rw [hitem] at hfind
      obtain ⟨w', hruns, hvalues⟩ := runs_createItem branch hready hidle hrecheck kind
        title parentId sourceKey body hkind hparent
      refine ⟨itemOfCreated (w.ids 0) (branch.itemPayload kind title parentId sourceKey body), 1,
        w', hfind.bind (hruns.bind (.pure hruns.ready _)), ?_⟩
      unfold itemOfKey at hitem ⊢
      rw [hvalues, List.find?_append, hitem]
      simp [itemOfCreated, BranchImport.itemPayload]

theorem runs_setRealization {x : ItemId} {item : ItemState}
    (hitem : (fold w.log).items.get x = some item) (dest : Realization)
    (hlegal : assertRealizationTransition item.id item.realization dest false = .ok ())
    (hsettled : Settled item.realization → Settled dest) :
    ∃ w' item', Runs contentHashOf (facade.setRealization x dest) w () w' ∧
      (fold w'.log).items.get x = some item' ∧ item'.realization = dest := by
  have hhas : (fold w.log).items.has x = true := (JsMap.has_iff _ _).mpr ⟨item, hitem⟩
  have hknown : x ∈ published w.log :=
    createdIn_sub _ _ ((known_fold w.log).items x item hitem).2
  have hids : ∀ y ∈ x :: (EventBody.realizationTransition dest none).ids, ∀ n, w.ids n ≠ y := by
    intro y hy
    obtain rfl : y = x := by simpa [EventBody.ids] using hy
    exact hready.known hknown
  obtain ⟨ev, w', hruns, -, hcore, hlog⟩ := hready.emit hidle hrecheck x
    (.realizationTransition dest none) (.realized rfl hitem hsettled) (hready.items x hhas).1 hids
  refine ⟨w', { item with realization := dest }, ?_, ?_, rfl⟩
  · unfold Facade.setRealization
    refine .state ?_
    rw [hitem]
    exact .check hlegal (hruns.bind (.pure hruns.ready _))
  · have hfold : rawFold w'.log = applyEvent (rawFold w.log) ev.core := by
      rw [hlog]
      exact rawFold_concat _ _
    have hhas' : (rawFold w.log).items.has x = true := hhas
    have hitem' : (rawFold w.log).items.get x = some item := hitem
    rw [fold_items, hfold, hcore]
    simp [applyEvent, Facade.coreOf, hhas', State.modifyItem, hitem']

/-- A checked lot ends in a realization the import leaves alone. -/
theorem runs_realizeLot {x : ItemId} {item : ItemState}
    (hitem : (fold w.log).items.get x = some item) (lot : ParsedLot) :
    ∃ n w', Runs contentHashOf (facade.realizeLot x lot) w n w' ∧
      ∃ item', (fold w'.log).items.get x = some item' ∧
        (lot.done = true → Settled item'.realization) := by
  have hdone : Settled .done := ⟨by decide, by decide⟩
  unfold Facade.realizeLot
  by_cases hchecked : lot.done = true
  · rw [if_pos hchecked]
    cases hrealization : item.realization with
    | toDo =>
        obtain ⟨w₁, item₁, hruns₁, hitem₁, hrealization₁⟩ :=
          runs_setRealization hready hidle hrecheck hitem .inProgress
            (by rw [hrealization]; rfl) (fun h => absurd hrealization h.1)
        obtain ⟨w₂, item₂, hruns₂, hitem₂, hrealization₂⟩ :=
          runs_setRealization hruns₁.ready hidle hrecheck hitem₁ .done
            (by rw [hrealization₁]; rfl) (fun _ => hdone)
        refine ⟨1, w₂, .state (.require hitem ?_), item₂, hitem₂, fun _ => hrealization₂ ▸ hdone⟩
        rw [hrealization]
        exact hruns₁.bind (hruns₂.bind (.pure hruns₂.ready _))
    | inProgress =>
        obtain ⟨w₁, item₁, hruns₁, hitem₁, hrealization₁⟩ :=
          runs_setRealization hready hidle hrecheck hitem .done
            (by rw [hrealization]; rfl) (fun _ => hdone)
        refine ⟨1, w₁, .state (.require hitem ?_), item₁, hitem₁, fun _ => hrealization₁ ▸ hdone⟩
        rw [hrealization]
        exact hruns₁.bind (.pure hruns₁.ready _)
    | done | cancelled | rejected =>
        refine ⟨0, w, .state (.require hitem ?_), item, hitem, fun _ => ?_⟩
        · rw [hrealization]
          exact .pure hready _
        · rw [hrealization]
          exact ⟨by decide, by decide⟩
  · rw [if_neg hchecked]
    exact ⟨0, w, .pure hready _, item, hitem, fun h => absurd h hchecked⟩

/-- The criterion added is the last one, and no evidence is for it yet. -/
theorem runs_addCriterion {x : ItemId} (hhas : (fold w.log).items.has x = true)
    (statement : JsString) :
    ∃ w', Runs contentHashOf (facade.addCriterion x statement) w (w.ids 0) w' ∧
      (fold w'.log).criteria.values =
        (fold w.log).criteria.values ++ [⟨w.ids 0, x, statement, none⟩] ∧
      (fold w'.log).criteria.get (w.ids 0) = some ⟨w.ids 0, x, statement, none⟩ ∧
      evidenceOf (fold w'.log) (w.ids 0) = none := by
  have hnew : w.ids 0 ∉ published w.log := hready.new 0
  obtain ⟨item, hitem⟩ := (JsMap.has_iff _ _).mp hhas
  have hknown : x ∈ published w.log :=
    createdIn_sub _ _ ((known_fold w.log).items x item hitem).2
  have habsent : (rawFold w.log).criteria.get (w.ids 0) = none := by
    by_contra hsome
    obtain ⟨criterion, hcriterion⟩ := Option.ne_none_iff_exists'.mp hsome
    exact hnew (createdIn_sub _ _ ((known_rawFold w.log).criteria _ _ hcriterion).2.1)
  have hids : ∀ y ∈ x :: (EventBody.criterionAdded (w.ids 0) statement).ids,
      ∀ n, w.nextId.ids n ≠ y := by
    intro y hy
    simp only [EventBody.ids, List.mem_cons, List.not_mem_nil, or_false] at hy
    rcases hy with rfl | rfl
    · exact hready.nextId.known hknown
    · exact hready.minted
  obtain ⟨ev, w', hruns, -, hcore, hlog⟩ := hready.nextId.emit hidle hrecheck x
    (.criterionAdded (w.ids 0) statement) (.criterion rfl habsent) (hready.items x hhas).1 hids
  have hfold : rawFold w'.log = applyEvent (rawFold w.log) ev.core := by
    rw [hlog]
    exact rawFold_concat _ _
  refine ⟨w', ?_, ?_, ?_, ?_⟩
  · unfold Facade.addCriterion
    refine .state (.ensure ((JsMap.has_eq_false_iff _ _).mpr (hready.items x hhas).2) ?_)
    refine .ensure hhas (.mint (hruns.bind ?_))
    have hid : ([ev].head?.bind criterionIdOf).getD (w.ids 0) = w.ids 0 := by
      simp [criterionIdOf, hcore, Facade.coreOf]
    rw [hid]
    exact .pure hruns.ready _
  · rw [fold_criteria, hfold, hcore]
    exact JsMap.values_set_of_absent habsent _
  · rw [fold_criteria, hfold, hcore]
    exact JsMap.get_set_self _ _ _
  · have hsame : evidenceOf (fold w'.log) (w.ids 0) = evidenceOf (fold w.log) (w.ids 0) := by
      unfold evidenceOf
      rw [fold_evidence, hfold, hcore]
      rfl
    rw [hsame]
    by_contra hsome
    obtain ⟨evidence, hevidence⟩ := Option.ne_none_iff_exists'.mp hsome
    obtain ⟨hget, hcriterionId⟩ := get_of_evidenceOf hevidence
    exact hnew (hcriterionId ▸ criterionId_published hget)

/-- The first evidence of a criterion that had none is the one linked. -/
theorem runs_linkEvidence {criterionId : JsString} {criterion : CriterionState}
    (hcriterion : (fold w.log).criteria.get criterionId = some criterion)
    (hhas : (fold w.log).items.has criterion.itemId = true)
    (hnone : evidenceOf (fold w.log) criterionId = none) (kind : EvidenceKind)
    (locator : JsString) :
    ∃ w' evidence, Runs contentHashOf (facade.linkEvidence criterionId kind locator none) w
        (w.ids 0) w' ∧
      evidenceOf (fold w'.log) criterionId = some evidence ∧ evidence.id = w.ids 0 := by
  have hnew : w.ids 0 ∉ published w.log := hready.new 0
  have habsent : (rawFold w.log).evidence.get (w.ids 0) = none := by
    by_contra hsome
    obtain ⟨evidence, hevidence⟩ := Option.ne_none_iff_exists'.mp hsome
    exact hnew ((known_rawFold w.log).evidence _ _ hevidence).2
  have hknown := (known_fold w.log).criteria _ _ hcriterion
  have hids : ∀ y ∈ criterion.itemId :: (EventBody.evidenceLinked (w.ids 0) criterionId kind
      locator).ids, ∀ n, w.nextId.ids n ≠ y := by
    intro y hy
    simp only [EventBody.ids, List.mem_cons, List.not_mem_nil, or_false] at hy
    rcases hy with rfl | rfl | rfl
    · exact hready.nextId.known hknown.2.2
    · exact hready.minted
    · exact hready.nextId.known (createdIn_sub _ _ hknown.2.1)
  obtain ⟨ev, w', hruns, -, hcore, hlog⟩ := hready.nextId.emit hidle hrecheck criterion.itemId
    (.evidenceLinked (w.ids 0) criterionId kind locator) (.linked rfl habsent)
    (hready.items _ hhas).1 hids
  have hfold : rawFold w'.log = applyEvent (rawFold w.log) ev.core := by
    rw [hlog]
    exact rawFold_concat _ _
  refine ⟨w', ⟨w.ids 0, criterionId, kind, locator, none, ev.core.clientToken⟩, ?_, ?_, rfl⟩
  · unfold Facade.linkEvidence
    refine .state (.require hcriterion (.mint (hruns.bind ?_)))
    have hid : ([ev].head?.bind evidenceIdOf).getD (w.ids 0) = w.ids 0 := by
      simp [evidenceIdOf, hcore, Facade.coreOf]
    rw [hid]
    exact .pure hruns.ready _
  · have hvalues : (fold w'.log).evidence.values = (fold w.log).evidence.values ++
        [⟨w.ids 0, criterionId, kind, locator, none, ev.core.clientToken⟩] := by
      rw [fold_evidence, hfold, hcore]
      exact JsMap.values_set_of_absent habsent _
    unfold evidenceOf at hnone ⊢
    rw [hvalues, List.find?_append, hnone]
    simp

variable (branch) in
/-- The first evidence of a criterion passes after a passing run of it. -/
theorem runs_recordRun {criterionId : JsString} {criterion : CriterionState}
    {evidence : EvidenceState}
    (hcriterion : (fold w.log).criteria.get criterionId = some criterion)
    (hhas : (fold w.log).items.has criterion.itemId = true)
    (hevidence : evidenceOf (fold w.log) criterionId = some evidence) :
    ∃ w' evidence', Runs contentHashOf (facade.recordRun evidence.id branch.manualRun) w () w' ∧
      evidenceOf (fold w'.log) criterionId = some evidence' ∧ Passes evidence' := by
  obtain ⟨hget, hcriterionId⟩ := get_of_evidenceOf hevidence
  have hids : ∀ y ∈ criterion.itemId :: (EventBody.acceptanceRun evidence.id branch.manualRun).ids,
      ∀ n, w.ids n ≠ y := by
    intro y hy
    simp only [EventBody.ids, List.mem_cons, List.not_mem_nil, or_false] at hy
    rcases hy with rfl | rfl
    · exact hready.known ((known_fold w.log).criteria _ _ hcriterion).2.2
    · exact hready.known ((known_fold w.log).evidence _ _ hget).2
  obtain ⟨ev, w', hruns, -, hcore, hlog⟩ := hready.emit hidle hrecheck criterion.itemId
    (.acceptanceRun evidence.id branch.manualRun) (.ran rfl rfl) (hready.items _ hhas).1 hids
  have hfold : rawFold w'.log = applyEvent (rawFold w.log) ev.core := by
    rw [hlog]
    exact rawFold_concat _ _
  obtain ⟨evidence', hevidence', hkept⟩ := hruns.kept.evidenceOf hevidence
  refine ⟨w', evidence', ?_, hevidence', ?_⟩
  · unfold Facade.recordRun Facade.evidenceOwner
    have howner : Runs contentHashOf (Facade.evidenceOwner evidence.id) w criterion.itemId w := by
      refine .state (.require hget (.require ?_ (.pure hready _)))
      rw [hcriterionId, hcriterion]
    exact howner.bind (hruns.bind (.pure hruns.ready _))
  · obtain ⟨hget', -⟩ := get_of_evidenceOf hevidence'
    have hget₀ : (rawFold w.log).evidence.get evidence.id = some evidence := hget
    rw [hkept.id, fold_evidence, hfold, hcore] at hget'
    simp only [applyEvent, Facade.coreOf, JsMap.get_modify, if_true, hget₀, Option.map_some,
      Option.some.injEq] at hget'
    rw [← hget']
    rfl

/-- A box whose criterion is there. -/
theorem runs_importKnownUat {x : ItemId} (hhas : (fold w.log).items.has x = true)
    {uat : ParsedUat} {criterion : CriterionState}
    (hfind : findUat branch (fold w.log) x uat = some criterion) :
    ∃ n w', Runs contentHashOf (facade.importKnownUat branch criterion.id uat) w n w' ∧
      UatImported branch (fold w'.log) x uat := by
  obtain ⟨hcriterion, rfl⟩ := get_of_findUat hfind
  unfold Facade.importKnownUat
  by_cases hchecked : uat.passed = true
  · rw [if_pos hchecked]
    -- the run that is recorded, on the evidence there is by then
    have hrecord : ∀ {p : Prog JsString} {evidence : EvidenceState} {w₁ : FacadeWorld},
        Runs contentHashOf p w evidence.id w₁ →
        evidenceOf (fold w₁.log) criterion.id = some evidence →
        ∃ w₂, Runs contentHashOf (do
            let evidenceId ← p
            facade.recordRun evidenceId branch.manualRun
            return (0, 1)) w (0, 1) w₂ ∧
          UatImported branch (fold w₂.log) criterion.itemId uat := by
      intro p evidence w₁ hruns hevidence
      obtain ⟨item, hitem⟩ := (JsMap.has_iff _ _).mp hhas
      obtain ⟨item₁, hitem₁, -⟩ := hruns.kept.item hitem
      obtain ⟨criterion₁, hcriterion₁, hkept₁⟩ := hruns.kept.criterion hcriterion
      have hhas₁ : (fold w₁.log).items.has criterion₁.itemId = true := by
        rw [hkept₁.itemId]
        exact (JsMap.has_iff _ _).mpr ⟨item₁, hitem₁⟩
      obtain ⟨w₂, evidence₂, hruns₂, hevidence₂, hpasses₂⟩ := runs_recordRun branch
        hruns.ready hidle hrecheck hcriterion₁ hhas₁ hevidence
      have hall : Runs contentHashOf (p >>= fun evidenceId => do
          facade.recordRun evidenceId branch.manualRun
          return (0, 1)) w (0, 1) w₂ := hruns.bind (hruns₂.bind (.pure hruns₂.ready _))
      obtain ⟨criterion₂, hcriterion₂, hkept₂⟩ := hall.kept.criteria.find?
        (fun hkept => by rw [hkept.itemId, hkept.statement]) hfind
      exact ⟨w₂, hall, criterion₂, hcriterion₂, fun _ =>
        ⟨evidence₂, hkept₂.id ▸ hevidence₂, hpasses₂⟩⟩
    cases hevidence : evidenceOf (fold w.log) criterion.id with
    | some evidence =>
        by_cases hpasses : (evidence.latestRun.map (·.result)) = some .pass
        · refine ⟨(0, 0), w, .state ?_, criterion, hfind, fun _ => ⟨evidence, hevidence, hpasses⟩⟩
          unfold evidenceOf at hevidence
          simp only [hevidence, Option.bind_some]
          rw [if_pos hpasses]
          exact .pure hready _
        · obtain ⟨w₂, hruns₂, himported⟩ := hrecord (.pure hready evidence.id) hevidence
          refine ⟨(0, 1), w₂, .state ?_, himported⟩
          unfold evidenceOf at hevidence
          simp only [hevidence, Option.bind_some]
          rw [if_neg hpasses]
          exact hruns₂
    | none =>
        obtain ⟨w₁, evidence₁, hruns₁, hevidence₁, hid⟩ := runs_linkEvidence hready hidle hrecheck
          hcriterion hhas hevidence .manual (branch.evidenceLocator uat)
        obtain ⟨w₂, hruns₂, himported⟩ := hrecord (hid ▸ hruns₁) hevidence₁
        refine ⟨(0, 1), w₂, .state ?_, himported⟩
        unfold evidenceOf at hevidence
        simp only [hevidence, Option.bind_none, Option.map_none, reduceCtorEq, if_false]
        exact hruns₂
  · rw [if_neg hchecked]
    exact ⟨(0, 0), w, .pure hready _, criterion, hfind, fun h => absurd h hchecked⟩

/-- A box whose criterion is not there yet. -/
theorem runs_importNewUat {x : ItemId} (hhas : (fold w.log).items.has x = true) {uat : ParsedUat}
    (hslug : uat.uatSlug = branch.slugify uat.statement)
    (hfind : findUat branch (fold w.log) x uat = none) :
    ∃ n w', Runs contentHashOf (facade.importNewUat branch x uat) w n w' ∧
      UatImported branch (fold w'.log) x uat := by
  let criterion : CriterionState := ⟨w.ids 0, x, uat.statement, none⟩
  have hitem : ∀ {log : List Event}, Kept (fold w.log) (fold log) →
      (fold log).items.has x = true := by
    intro log hkept
    obtain ⟨item, hitem⟩ := (JsMap.has_iff _ _).mp hhas
    obtain ⟨item', hitem', -⟩ := hkept.item hitem
    exact (JsMap.has_iff _ _).mpr ⟨item', hitem'⟩
  obtain ⟨w₁, hruns₁, hvalues₁, hcriterion₁, hnone₁⟩ :=
    runs_addCriterion hready hidle hrecheck hhas uat.statement
  have hfind₁ : findUat branch (fold w₁.log) x uat = some criterion := by
    unfold findUat at hfind ⊢
    rw [hvalues₁, List.find?_append, hfind]
    simp [hslug, criterion]
  obtain ⟨w₂, evidence₂, hruns₂, hevidence₂, hid₂⟩ := runs_linkEvidence hruns₁.ready hidle hrecheck
    hcriterion₁ (hitem hruns₁.kept) hnone₁ .manual (branch.evidenceLocator uat)
  have hkept₂ := hruns₁.kept.trans hruns₂.kept
  unfold Facade.importNewUat
  by_cases hchecked : uat.passed = true
  · obtain ⟨criterion₂, hcriterion₂, hsame₂⟩ := hruns₂.kept.criterion hcriterion₁
    have hhas₂ : (fold w₂.log).items.has criterion₂.itemId = true := by
      rw [hsame₂.itemId]
      exact hitem hkept₂
    obtain ⟨w₃, evidence₃, hruns₃, hevidence₃, hpasses₃⟩ := runs_recordRun branch
      hruns₂.ready hidle hrecheck hcriterion₂ hhas₂ hevidence₂
    refine ⟨(1, 0), w₃, hruns₁.bind (hruns₂.bind ?_), ?_⟩
    · rw [if_pos hchecked, ← hid₂]
      exact hruns₃.bind (.pure hruns₃.ready _)
    · obtain ⟨criterion₃, hcriterion₃, hsame₃⟩ := (hruns₂.kept.trans hruns₃.kept).criteria.find?
        (fun hkept => by rw [hkept.itemId, hkept.statement]) hfind₁
      exact ⟨criterion₃, hcriterion₃, fun _ => ⟨evidence₃, hsame₃.id ▸ hevidence₃, hpasses₃⟩⟩
  · refine ⟨(1, 0), w₂, hruns₁.bind (hruns₂.bind ?_), ?_⟩
    · rw [if_neg hchecked]
      exact .pure hruns₂.ready _
    · obtain ⟨criterion₂, hcriterion₂, -⟩ := hruns₂.kept.criteria.find?
        (fun hkept => by rw [hkept.itemId, hkept.statement]) hfind₁
      exact ⟨criterion₂, hcriterion₂, fun h => absurd h hchecked⟩

end Commands

/-! ## The loops -/

section Loops

variable (hidle : facade.Idle) (hrecheck : facade.activeRecheck = none)

/-- The boxes after the first one are imported in the world it leaves. -/
theorem runs_importUats_cons {x : ItemId} {uat : ParsedUat} {rest : List ParsedUat}
    {counts n m : Nat × Nat} {w₁ w₂ : FacadeWorld}
    (hfirst : (∃ criterion, findUat branch (fold w.log) x uat = some criterion ∧
        Runs contentHashOf (facade.importKnownUat branch criterion.id uat) w n w₁) ∨
      findUat branch (fold w.log) x uat = none ∧
        Runs contentHashOf (facade.importNewUat branch x uat) w n w₁)
    (hrest : Runs contentHashOf
      (facade.importUats branch x rest (counts.1 + n.1, counts.2 + n.2)) w₁ m w₂) :
    Runs contentHashOf (facade.importUats branch x (uat :: rest) counts) w m w₂ := by
  unfold Facade.importUats
  refine .state ?_
  rcases hfirst with ⟨criterion, hfind, hruns⟩ | ⟨hfind, hruns⟩
  · rw [hfind]
    exact hruns.bind hrest
  · rw [hfind]
    exact hruns.bind hrest

include hidle hrecheck

theorem runs_importUats {x : ItemId} {uats : List ParsedUat}
    (hslugs : ∀ uat ∈ uats, uat.uatSlug = branch.slugify uat.statement) :
    ∀ {w : FacadeWorld} (counts : Nat × Nat), Ready contentHashOf w →
      (fold w.log).items.has x = true →
      ∃ n w', Runs contentHashOf (facade.importUats branch x uats counts) w n w' ∧
        ∀ uat ∈ uats, UatImported branch (fold w'.log) x uat := by
  induction uats with
  | nil => exact fun counts hready _ => ⟨counts, _, .pure hready _, by simp⟩
  | cons uat rest ih =>
      intro w counts hready hhas
      have hfirst : ∃ n w₁,
          ((∃ criterion, findUat branch (fold w.log) x uat = some criterion ∧
              Runs contentHashOf (facade.importKnownUat branch criterion.id uat) w n w₁) ∨
            findUat branch (fold w.log) x uat = none ∧
              Runs contentHashOf (facade.importNewUat branch x uat) w n w₁) ∧
          Kept (fold w.log) (fold w₁.log) ∧ Ready contentHashOf w₁ ∧
          UatImported branch (fold w₁.log) x uat := by
        cases hfind : findUat branch (fold w.log) x uat with
        | some criterion =>
            obtain ⟨n, w₁, hruns, huat⟩ :=
              runs_importKnownUat hready hidle hrecheck hhas hfind
            exact ⟨n, w₁, .inl ⟨criterion, rfl, hruns⟩, hruns.kept, hruns.ready, huat⟩
        | none =>
            obtain ⟨n, w₁, hruns, huat⟩ := runs_importNewUat hready hidle hrecheck hhas
              (hslugs uat List.mem_cons_self) hfind
            exact ⟨n, w₁, .inr ⟨rfl, hruns⟩, hruns.kept, hruns.ready, huat⟩
      obtain ⟨n, w₁, hfirst, hkept₁, hready₁, huat₁⟩ := hfirst
      obtain ⟨item, hitem⟩ := (JsMap.has_iff _ _).mp hhas
      obtain ⟨item₁, hitem₁, -⟩ := hkept₁.item hitem
      obtain ⟨m, w₂, hruns₂, huats₂⟩ := ih (fun uat h => hslugs uat (List.mem_cons_of_mem _ h))
        (counts.1 + n.1, counts.2 + n.2) hready₁ ((JsMap.has_iff _ _).mpr ⟨item₁, hitem₁⟩)
      refine ⟨m, w₂, runs_importUats_cons hfirst hruns₂, ?_⟩
      intro uat' huat'
      rcases List.mem_cons.mp huat' with rfl | huat'
      · exact hruns₂.kept.uat huat₁
      · exact huats₂ uat' huat'

theorem runs_importLots {featureId : ItemId} {lots : List ParsedLot}
    (hslugs : ∀ lot ∈ lots, ∀ uat ∈ lot.uat, uat.uatSlug = branch.slugify uat.statement) :
    ∀ {w : FacadeWorld} (counts : Nat × Nat), Ready contentHashOf w →
      (fold w.log).items.has featureId = true →
      ∃ n w', Runs contentHashOf (facade.importLots branch featureId lots counts) w n w' ∧
        ∀ lot ∈ lots, LotImported branch (fold w'.log) lot := by
  induction lots with
  | nil => exact fun counts hready _ => ⟨counts, _, .pure hready _, by simp⟩
  | cons lot rest ih =>
      intro w counts hready hfeature
      obtain ⟨feature, hfeature⟩ := (JsMap.has_iff _ _).mp hfeature
      have hparent : ∀ p, some featureId = some p → p ∈ published w.log := by
        rintro p ⟨rfl⟩
        exact createdIn_sub _ _ ((known_fold w.log).items _ _ hfeature).2
      obtain ⟨item₁, n₁, w₁, hruns₁, hkey₁⟩ := runs_resolveItem branch hready hidle
        hrecheck .chore lot.title (some featureId) (branch.lotKey lot) none (by decide) hparent
      obtain ⟨n₂, w₂, hruns₂, item₂, hitem₂, hdone₂⟩ :=
        runs_realizeLot hruns₁.ready hidle hrecheck (get_of_itemOfKey hkey₁) lot
      obtain ⟨n₃, w₃, hruns₃, huats₃⟩ := runs_importUats hidle hrecheck
        (hslugs lot List.mem_cons_self) (counts.1 + n₁, counts.2 + n₂) hruns₂.ready
        ((JsMap.has_iff _ _).mpr ⟨item₂, hitem₂⟩)
      have hkept₃ := (hruns₁.kept.trans hruns₂.kept).trans hruns₃.kept
      obtain ⟨feature₃, hfeature₃, -⟩ := hkept₃.item hfeature
      obtain ⟨n₄, w₄, hruns₄, hlots₄⟩ := ih
        (fun lot h => hslugs lot (List.mem_cons_of_mem _ h)) n₃ hruns₃.ready
        ((JsMap.has_iff _ _).mpr ⟨feature₃, hfeature₃⟩)
      refine ⟨n₄, w₄, hruns₁.bind (hruns₂.bind (hruns₃.bind hruns₄)), ?_⟩
      have hlot₃ : LotImported branch (fold w₃.log) lot := by
        obtain ⟨item₃, hkey₃, hsame₃⟩ := (hruns₂.kept.trans hruns₃.kept).itemOfKey hkey₁
        refine ⟨item₃, hkey₃, fun hchecked => ?_, fun uat huat => hsame₃.id ▸ huats₃ uat huat⟩
        obtain ⟨item', hitem', hkept'⟩ := hruns₃.kept.item hitem₂
        have hget := get_of_itemOfKey hkey₃
        rw [hsame₃.id, hitem'] at hget
        exact Option.some.inj hget ▸ hkept'.settled (hdone₂ hchecked)
      intro lot' hlot'
      rcases List.mem_cons.mp hlot' with rfl | hlot'
      · exact hruns₄.kept.lot hlot₃
      · exact hlots₄ lot' hlot'

/-- The first import comes to an end, and the whole file is imported by then. -/
theorem runs_importBranch (hready : Ready contentHashOf w)
    (hslugs : ∀ lot ∈ branch.parsed.lots, ∀ uat ∈ lot.uat,
      uat.uatSlug = branch.slugify uat.statement) :
    ∃ result w', Runs contentHashOf (facade.importBranch branch) w result w' ∧
      result.branchSlug = branch.parsed.branchSlug ∧
      Imported branch (fold w'.log) result.featureId := by
  have hfeature : ∃ feature n w₁, Runs contentHashOf
      (facade.resolveItem branch.parsed.branchSlug branch.featurePayload) w (feature.id, n) w₁ ∧
      itemOfKey (fold w₁.log) branch.parsed.branchSlug = some feature :=
    runs_resolveItem branch hready hidle hrecheck .feature _ none _ _ (by decide) (by simp)
  obtain ⟨feature, n, w₁, hruns₁, hkey₁⟩ := hfeature
  have hfeature₁ := get_of_itemOfKey hkey₁
  obtain ⟨counts, w₂, hruns₂, hlots₂⟩ := runs_importLots hidle hrecheck hslugs (n, 0) hruns₁.ready
    ((JsMap.has_iff _ _).mpr ⟨feature, hfeature₁⟩)
  obtain ⟨feature₂, hkey₂, hsame₂⟩ := hruns₂.kept.itemOfKey hkey₁
  have himported : Imported branch (fold w₂.log) feature.id :=
    ⟨⟨feature₂, hkey₂, hsame₂.id⟩, hlots₂⟩
  let result : ImportResult := ⟨branch.parsed.branchSlug, feature.id, counts.1, counts.2⟩
  by_cases hchanged : 0 < counts.1 + counts.2
  · have hfeature₂ := get_of_itemOfKey hkey₂
    rw [hsame₂.id] at hfeature₂
    have hids : ∀ y ∈ feature.id :: (EventBody.branchImported branch.locator
        branch.parsed.branchSlug branch.sourceHash branch.structureHash).ids,
        ∀ n, w₂.ids n ≠ y := by
      intro y hy
      obtain rfl : y = feature.id := by simpa [EventBody.ids] using hy
      exact hruns₂.ready.known (createdIn_sub _ _ ((known_fold w₂.log).items _ _ hfeature₂).2)
    obtain ⟨ev, w₃, hruns₃, -⟩ := hruns₂.ready.emit hidle hrecheck feature.id
      (.branchImported branch.locator branch.parsed.branchSlug branch.sourceHash
        branch.structureHash) (.imported rfl)
      (hruns₂.ready.items _ ((JsMap.has_iff _ _).mpr ⟨feature₂, hfeature₂⟩)).1 hids
    refine ⟨result, w₃, ?_, rfl, ?_⟩
    · unfold Facade.importBranch
      refine hruns₁.bind (hruns₂.bind ?_)
      rw [if_pos hchanged]
      exact hruns₃.bind (.pure hruns₃.ready _)
    · obtain ⟨feature₃, hkey₃, hsame₃⟩ := hruns₃.kept.itemOfKey hkey₂
      exact ⟨⟨feature₃, hkey₃, hsame₃.id.trans hsame₂.id⟩, fun lot hlot =>
        hruns₃.kept.lot (hlots₂ lot hlot)⟩
  · refine ⟨result, w₂, ?_, rfl, himported⟩
    unfold Facade.importBranch
    refine hruns₁.bind (hruns₂.bind ?_)
    rw [if_neg hchanged]
    exact .pure hruns₂.ready _

end Loops

/-! ## Once everything is imported -/

section Again

variable (hready : Ready contentHashOf w)

include hready

theorem again_resolveItem {sourceKey : JsString} {payload : ItemCreatedPayload} {item : ItemState}
    (hitem : itemOfKey (fold w.log) sourceKey = some item) :
    Runs contentHashOf (facade.resolveItem sourceKey payload) w (item.id, 0) w := by
  have hfind : Runs contentHashOf (findBySourceKey sourceKey) w (some item) w :=
    ⟨congrArg (fun found => (Outcome.returned found, w)) hitem, hready, .refl _⟩
  exact hfind.bind (.pure hready _)

theorem again_realizeLot {x : ItemId} {item : ItemState} {lot : ParsedLot}
    (hitem : (fold w.log).items.get x = some item)
    (hdone : lot.done = true → Settled item.realization) :
    Runs contentHashOf (facade.realizeLot x lot) w 0 w := by
  unfold Facade.realizeLot
  by_cases hchecked : lot.done = true
  · rw [if_pos hchecked]
    refine .state (.require hitem ?_)
    cases hrealization : item.realization with
    | toDo => exact absurd hrealization (hdone hchecked).1
    | inProgress => exact absurd hrealization (hdone hchecked).2
    | done | cancelled | rejected => exact .pure hready _
  · rw [if_neg hchecked]
    exact .pure hready _

theorem again_importKnownUat {uat : ParsedUat} {criterionId : JsString}
    (hpassed : uat.passed = true → ∃ evidence,
      evidenceOf (fold w.log) criterionId = some evidence ∧ Passes evidence) :
    Runs contentHashOf (facade.importKnownUat branch criterionId uat) w (0, 0) w := by
  unfold Facade.importKnownUat
  by_cases hchecked : uat.passed = true
  · rw [if_pos hchecked]
    obtain ⟨evidence, hevidence, hpasses⟩ := hpassed hchecked
    refine .state ?_
    unfold evidenceOf at hevidence
    unfold Passes at hpasses
    simp only [hevidence, Option.bind_some]
    rw [if_pos hpasses]
    exact .pure hready _
  · rw [if_neg hchecked]
    exact .pure hready _

theorem again_importUats {x : ItemId} {uats : List ParsedUat} {counts : Nat × Nat}
    (huats : ∀ uat ∈ uats, UatImported branch (fold w.log) x uat) :
    Runs contentHashOf (facade.importUats branch x uats counts) w counts w := by
  induction uats with
  | nil => exact .pure hready _
  | cons uat rest ih =>
      obtain ⟨criterion, hfind, hpassed⟩ := huats uat List.mem_cons_self
      have hfirst : Runs contentHashOf (facade.importKnownUat branch criterion.id uat) w (0, 0) w :=
        again_importKnownUat hready hpassed
      exact runs_importUats_cons (.inl ⟨criterion, hfind, hfirst⟩)
        (ih fun uat h => huats uat (List.mem_cons_of_mem _ h))

theorem again_importLots {featureId : ItemId} {lots : List ParsedLot} {counts : Nat × Nat}
    (hlots : ∀ lot ∈ lots, LotImported branch (fold w.log) lot) :
    Runs contentHashOf (facade.importLots branch featureId lots counts) w counts w := by
  induction lots with
  | nil => exact .pure hready _
  | cons lot rest ih =>
      obtain ⟨item, hkey, hdone, huats⟩ := hlots lot List.mem_cons_self
      exact (again_resolveItem hready hkey).bind
        ((again_realizeLot hready (get_of_itemOfKey hkey) hdone).bind
          ((again_importUats hready huats).bind
            (ih fun lot h => hlots lot (List.mem_cons_of_mem _ h))))

/-- Where the whole file is imported an import does nothing. -/
theorem again_importBranch {featureId : ItemId}
    (h : Imported branch (fold w.log) featureId) :
    Runs contentHashOf (facade.importBranch branch) w
      ⟨branch.parsed.branchSlug, featureId, 0, 0⟩ w := by
  obtain ⟨⟨feature, hkey, rfl⟩, hlots⟩ := h
  exact (again_resolveItem hready hkey).bind
    ((again_importLots hready hlots).bind (.pure hready _))

end Again

/-! ## The logs commands reach -/

section Reached

/-- An item or a decision is created on an aggregate of its own kind. -/
def InKind (aggregate : Aggregate) (body : EventBody) : Prop :=
  match body with
  | .itemCreated _ => aggregate = .item
  | .decisionCreated _ => aggregate = .decision
  | _ => True

theorem inKind_of_issued {names : List JsString} {view : List Event} {minted : List JsString}
    {e : Emission} (h : Issued names view minted e) : ∀ part ∈ e.parts,
      InKind part.aggregate part.body := by
  intro part hpart
  cases h with
  | single hparts hsingle =>
      rw [hparts] at hpart
      obtain rfl := List.mem_singleton.mp hpart
      unfold Single at hsingle
      unfold InKind
      split
      case h_1 payload hbody =>
        rw [hbody] at hsingle
        exact hsingle.1
      case h_2 payload hbody =>
        rw [hbody] at hsingle
        exact hsingle.elim
      case h_3 => trivial
  | codeAssigned hparts | claimed hparts | disposed hparts =>
      rw [hparts] at hpart
      obtain rfl := List.mem_singleton.mp hpart
      trivial
  | agreed hdemand hlength hnodup hminted hparts =>
      rw [hparts] at hpart
      rcases List.mem_cons.mp hpart with rfl | hpart
      · trivial
      · obtain ⟨itemId, -, item, -, rfl⟩ := exists_of_mem_zipWith hpart
        rfl
  | decisionCreated hnodup hlength hminted htargets hknown hparts =>
      rw [hparts] at hpart
      rcases List.mem_cons.mp hpart with rfl | hpart
      · rfl
      · obtain ⟨blockerId, -, target, -, rfl⟩ := exists_of_mem_zipWith hpart
        trivial
  | deferred hdecision hmove hparts =>
      rw [hparts] at hpart
      rcases mem_outcomeParts hpart with rfl | ⟨-, target, -, blocker, -, rfl⟩ |
        ⟨-, target, -, -, -, -, rfl⟩ <;> trivial
  | settled hsettled hdecision hmove hparts =>
      rw [hparts] at hpart
      rcases List.mem_cons.mp hpart with rfl | hpart
      · trivial
      · rcases mem_outcomeParts hpart with rfl | ⟨-, target, -, blocker, -, rfl⟩ |
          ⟨-, target, -, -, -, -, rfl⟩ <;> trivial
  | externalResolved hparts =>
      rw [hparts] at hpart
      obtain ⟨b, -, rfl⟩ := List.mem_map.mp hpart
      trivial
  | consolidated hknown hparts =>
      rw [hparts] at hpart
      obtain ⟨itemId, -, hpart⟩ := List.mem_flatMap.mp hpart
      rcases consolidateItem_part hpart with rfl | ⟨c, -, ev, -, run, -, -, rfl⟩ <;> trivial
  | reported hview hparts =>
      obtain ⟨-, evidenceId, run, evidence, criterion, hbody, -⟩ := hparts part hpart
      rw [hbody]
      trivial

theorem InKind.persisted {e : Emission} {part : EventPart} {ev : Event}
    (h : InKind part.aggregate part.body) (hev : PersistedAs e part ev) :
    InKind ev.core.aggregate ev.core.body := by
  rw [hev.aggregate]
  rcases hev.body_eq with heq | ⟨p, p', -, hbody, -⟩
  · rw [heq]
    exact h
  · rw [hbody]
    trivial

variable {P : Type} [DecidableEq P] {ok : List Event → Call → Emission → Prop}
variable {s : FacadeSys P} {log : List Event} {x : ItemId}

theorem inKind_reached (hrun : Reaches (FacadeStep contentHashOf ok) Sys.initial s) :
    ∀ ev ∈ s.log, InKind ev.core.aggregate ev.core.body := by
  refine (reachable_invariant (G := fun log => ∀ ev ∈ log,
    InKind ev.core.aggregate ev.core.body) (by simp) ?_ hrun).2
  intro log c view minted e events _ hkind hlands ev hev
  rcases List.mem_append.mp hev with hev | hev
  · exact hkind ev hev
  · obtain ⟨part, hpart, hpersisted⟩ := persisted_mem hlands.events hev
    exact (inKind_of_issued hlands.requests.issued part hpart).persisted hpersisted

theorem sound_reached (hrun : Reaches (FacadeStep contentHashOf ok) Sys.initial s) :
    Events.Sound contentHashOf s.log :=
  reached_log (G := Events.Sound contentHashOf) Events.sound_nil
    (fun _ e stamp h => perform_sound e stamp h) hrun

/-- What is there has been created. -/
theorem item_origin {item : ItemState} (h : (fold log).items.get x = some item) :
    ∃ ev ∈ log, ev.core.aggregateId = x ∧ ∃ payload, ev.core.body = .itemCreated payload := by
  have hall : ∀ x item, (rawFold log).items.get x = some item →
      ∃ ev ∈ log, ev.core.aggregateId = x ∧ ∃ payload, ev.core.body = .itemCreated payload := by
    refine replay_keeps (P := fun s => ∀ x item, s.items.get x = some item →
      ∃ ev ∈ log, ev.core.aggregateId = x ∧ ∃ payload, ev.core.body = .itemCreated payload) ?_
      (by simp [emptyState])
    intro s e he hs x item' hitem'
    rcases item_step hitem' with ⟨payload, hbody, rfl, -⟩ | ⟨item, hitem, -⟩
    · obtain ⟨ev, hev, rfl⟩ := List.mem_map.mp he
      exact ⟨ev, hev, rfl, payload, hbody⟩
    · exact hs x item hitem
  exact hall x item h

theorem decision_origin {decision : DecisionState}
    (h : (fold log).decisions.get x = some decision) :
    ∃ ev ∈ log, ev.core.aggregateId = x ∧ ∃ payload, ev.core.body = .decisionCreated payload := by
  have hall : ∀ x decision, (rawFold log).decisions.get x = some decision →
      ∃ ev ∈ log, ev.core.aggregateId = x ∧ ∃ payload, ev.core.body = .decisionCreated payload := by
    refine replay_keeps (P := fun s => ∀ x decision, s.decisions.get x = some decision →
      ∃ ev ∈ log, ev.core.aggregateId = x ∧ ∃ payload, ev.core.body = .decisionCreated payload) ?_
      (by simp [emptyState])
    intro s e he hs x decision' hdecision'
    rcases decision_step hdecision' with ⟨payload, hbody, rfl, -⟩ | ⟨decision, hdecision, -⟩
    · obtain ⟨ev, hev, rfl⟩ := List.mem_map.mp he
      exact ⟨ev, hev, rfl, payload, hbody⟩
    · exact hs x decision hdecision
  exact hall x decision h

theorem ready_reached (hrun : Reaches (FacadeStep contentHashOf ok) Sys.initial s)
    (hlog : w.log = s.log) (hnew : ∀ n, w.ids n ∉ published w.log)
    (hdistinct : Function.Injective w.ids) : Ready contentHashOf w := by
  have hsound := sound_reached hrun
  have hkinds := inKind_reached hrun
  rw [← hlog] at hsound hkinds
  refine ⟨hsound, hnew, hdistinct, fun x hx => ?_⟩
  obtain ⟨item, hitem⟩ := (JsMap.has_iff _ _).mp hx
  obtain ⟨origin, horigin, hid, payload, hbody⟩ := item_origin hitem
  have hitemKind : origin.core.aggregate = .item := by
    have hkind := hkinds origin horigin
    rwa [hbody] at hkind
  have hevents : ∀ e ∈ w.log, e.core.aggregateId = x → e.core.aggregate = .item := by
    intro e he hex
    rw [← hitemKind]
    exact Aggregate.text_inj (hsound.sameKind he horigin (hex.trans hid.symm) rfl rfl)
  refine ⟨hevents, ?_⟩
  by_contra hsome
  obtain ⟨decision, hdecision⟩ := Option.ne_none_iff_exists'.mp hsome
  obtain ⟨other, hother, hid', payload', hbody'⟩ := decision_origin hdecision
  have hdecisionKind : other.core.aggregate = .decision := by
    have hkind := hkinds other hother
    rwa [hbody'] at hkind
  rw [hevents other hother hid'] at hdecisionKind
  simp at hdecisionKind

/-- The same text imported twice in a row: on every log commands reach, both imports come
to an end, and the second creates nothing, updates nothing and leaves the log alone. -/
theorem import_again (letters : Letters) (hashes : ImportHashes) (content : JsString)
    (opts : ImportOpts) (hidle : facade.Idle) (hrecheck : facade.activeRecheck = none)
    (hrun : Reaches (FacadeStep contentHashOf ok) Sys.initial s) (hlog : w.log = s.log)
    (hnew : ∀ n, w.ids n ∉ published w.log) (hdistinct : Function.Injective w.ids) :
    let importOf := facade.importBranch (branchImportOf letters hashes content opts)
    ∃ result w₁ w₂, importOf.run (perform contentHashOf) w = (.returned result, w₁) ∧
      importOf.run (perform contentHashOf) w₁ =
        (.returned ⟨result.branchSlug, result.featureId, 0, 0⟩, w₂) ∧
      w₂.log = w₁.log := by
  intro importOf
  have hready := ready_reached hrun hlog hnew hdistinct
  have hslugs : Slugged letters (branchImportOf letters hashes content opts).parsed.lots :=
    slugged_parseBranch content opts.fileSlug
  obtain ⟨result, w₁, hfirst, hslug, himported⟩ := runs_importBranch hidle hrecheck hready hslugs
  have hagain : Runs contentHashOf importOf w₁
      ⟨(branchImportOf letters hashes content opts).parsed.branchSlug, result.featureId, 0, 0⟩ w₁ :=
    again_importBranch hfirst.ready himported
  rw [← hslug] at hagain
  exact ⟨result, w₁, w₁, hfirst.run, hagain.run, rfl⟩

/-- A file with a checked lot, listed twice, and a checked box. -/
def sampleFile : JsString :=
  js "# Feature: F\n## Plan\n- [x] **Lot 1 — A**\n  - [x] UAT ok\n- [ ] **Lot 1 — A**\nBR-1\n"

/-- `normalize` and `toLowerCase` on the letters of the file. -/
def sampleLetters : Letters where
  normalize := id
  toLowerCase s := ⟨s.units.map fun u => if 0x41 ≤ u ∧ u ≤ 0x5A then u + 0x20 else u⟩

def sampleHashes : ImportHashes := ⟨id, fun _ _ => js "s"⟩

/-- The import of the file by an instance of its own. -/
def sampleImport : Prog ImportResult :=
  Facade.plain.importBranch
    (branchImportOf sampleLetters sampleHashes sampleFile ⟨js "BRANCH.md", none, none⟩)

/-- A world whose ids are all different. -/
def sampleWorld (log : List Event) : FacadeWorld :=
  { worldOf log with ids := fun n => ⟨List.replicate (n + 1) 0x7A⟩ }

theorem import_again_sample :
    ∃ (s : FacadeSys Unit) (w₁ w₂ : FacadeWorld),
      Reaches (FacadeStep (fun e => e.id) fun _ _ _ => True) Sys.initial s ∧ s.log.length = 1 ∧
      sampleImport.run (perform fun e => e.id) (sampleWorld s.log) =
        (.returned ⟨js "br-1", js "z", 3, 1⟩, w₁) ∧
      sampleImport.run (perform fun e => e.id) w₁ =
        (.returned ⟨js "br-1", js "z", 0, 0⟩, w₂) ∧
      w₂.log = w₁.log := by
  have hrun : outcome (fun _ _ _ => True) (createOf () 0 (js "a") none) (fun log =>
      (published log, log.length,
        (sampleImport.run (perform fun e => e.id) (sampleWorld log)).1)) =
      some ([js "a"], 1, .returned ⟨js "br-1", js "z", 3, 1⟩) := by
    decide +kernel
  obtain ⟨s, hreached, hs⟩ := reached_of_outcome hrun
  simp only [Prod.mk.injEq] at hs
  obtain ⟨hpublished, hlength, hresult⟩ := hs
  have hnew : ∀ n, (sampleWorld s.log).ids n ∉ published (sampleWorld s.log).log := by
    intro n hn
    change _ ∈ published s.log at hn
    rw [hpublished, List.mem_singleton] at hn
    have hfirst : (some 0x7A : Option UInt16) = some 0x61 :=
      congrArg (fun id : JsString => id.units.head?) hn
    exact absurd hfirst (by decide)
  have hdistinct : Function.Injective (sampleWorld s.log).ids := by
    intro n m heq
    have hlengths := congrArg JsString.length heq
    simpa [sampleWorld, JsString.length] using hlengths
  have hidle : Facade.plain.Idle := ⟨rfl, rfl⟩
  obtain ⟨result, w₁, w₂, hfirst, hsecond, hsame⟩ := import_again sampleLetters sampleHashes
    sampleFile ⟨js "BRANCH.md", none, none⟩ hidle rfl hreached rfl hnew hdistinct
  change sampleImport.run _ _ = _ at hfirst
  rw [hfirst] at hresult
  obtain rfl := Outcome.returned.inj hresult
  exact ⟨s, w₁, w₂, hreached, hlength, hfirst, hsecond, hsame⟩

end Reached

end H2a.Track.Branch
