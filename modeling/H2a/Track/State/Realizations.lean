import H2a.Library.History
import H2a.Track.Events.Merge
/-!
# Two replays of a realization

`validateReopen` of `packages/track/src/events/validate.ts` replays the realization of an item
"in stream order from the same three facts the fold uses" to judge its reopenings; `applyEvent` of
`packages/track/src/state/fold.ts` replays it to apply them.  They differ on one fact: the `to` of a
transition is any value, and only the fold takes one that is not a string.
-/

namespace H2a.Track

open H2a.Library
open H2a.Track.Events (EventCore Lifecycle ReopenedFields isClosed reopenNext reopenShape
  reopenChecker reopenChecker_keyed reopenMotivesAccepted)

/-! ## The realization in the fold -/

section Replay

variable {C K : Type} [EventCore C K] [DecidableEq K]

/-- A record of `reopenings`; `at` and `by` are those of the event. -/
structure LoggedReopening (C : Type) where
  from_ : JsString
  motive : Option JsString
  reason : Option JsString
  event : C

/-- An item, as far as its realization goes.  One that is not a string is `none`. -/
structure ItemRealization (C : Type) where
  realization : Option JsString
  reopenings : List (LoggedReopening C)

/-- The body of `case 'realization.reopened'`, for an item that is there. -/
def ItemRealization.reopen (item : ItemRealization C) (p : ReopenedFields) (e : C) :
    ItemRealization C :=
  match p.itemId, item.realization with
  | .itself, some from_ =>
      if isClosed from_ then
        ⟨some (js "in-progress"), item.reopenings ++ [⟨from_, p.motive, p.reason, e⟩]⟩
      else item
  | _, _ => item

theorem ItemRealization.reopen_closed {item : ItemRealization C} {p : ReopenedFields} (e : C)
    {from_ : JsString} (hitself : p.itemId = .itself) (hfrom : item.realization = some from_)
    (hclosed : isClosed from_) :
    item.reopen p e =
      ⟨some (js "in-progress"), item.reopenings ++ [⟨from_, p.motive, p.reason, e⟩]⟩ := by
  simp [reopen, hitself, hfrom, hclosed]

/-- All or nothing. -/
theorem ItemRealization.reopen_eq_self {item : ItemRealization C} {p : ReopenedFields} (e : C)
    (h : p.itemId = .itself → ∀ from_, item.realization = some from_ → ¬isClosed from_) :
    item.reopen p e = item := by
  unfold reopen
  split
  · rename_i hitself hfrom
    exact if_neg (h hitself _ hfrom)
  · rfl

/-- The cases of `applyEvent` that read or write `realization` or `reopenings` of an item. -/
def applyRealization (items : JsMap K (ItemRealization C)) (e : C) :
    JsMap K (ItemRealization C) :=
  match EventCore.lifecycle e with
  | .created => items.set (EventCore.aggregateId e) ⟨some (js "to-do"), []⟩
  | .transition dest => items.modify (EventCore.aggregateId e) ({ · with realization := dest })
  | .reopened p => items.modify (EventCore.aggregateId e) (·.reopen p e)
  | .other => items

/-- `fold`, as far as realizations go. -/
def foldRealizations (cs : List C) : JsMap K (ItemRealization C) :=
  cs.foldl applyRealization .empty

/-! ## What is compared -/

def ofAggregate (x : K) (cs : List C) : List C :=
  cs.filter fun c => EventCore.aggregateId c = x

/-- There is exactly one creation of the item, before its other events. -/
def CreatedFirst (x : K) (cs : List C) : Prop :=
  ∃ c rest, ofAggregate x cs = c :: rest ∧ EventCore.lifecycle c = .created ∧
    ∀ d ∈ rest, EventCore.lifecycle d ≠ .created

/-- What a reopening says, with the event itself. -/
def reopeningOf (e : C) : Option (Option JsString × Option JsString × C) :=
  match EventCore.lifecycle e with
  | .reopened p => some (p.motive, p.reason, e)
  | _ => none

/-- A reopening, after the events before it, finds the item closed and puts it in progress. -/
def Reopened (x : K) (before : List C) (e : C) : Prop :=
  ∃ item from_ item', (foldRealizations before).get x = some item ∧
    item.realization = some from_ ∧ isClosed from_ ∧
    (foldRealizations (before ++ [e])).get x = some item' ∧
    item'.realization = some (js "in-progress")

/-- A declared motive and a non-blank reason. -/
def LoggedReopening.Declared (r : LoggedReopening C) : Prop :=
  (∃ motive, r.motive = some motive ∧ motive ∈ reopenMotivesAccepted) ∧
    ∃ reason, r.reason = some reason ∧ reason.trim.length ≠ 0

/-- The reopenings of `x` are all applied, and all on record. -/
structure ReopeningsApplied (x : K) (cs : List C) : Prop where
  applied : Always (fun before e => ∀ p, EventCore.aggregateId e = x →
    EventCore.lifecycle e = .reopened p → Reopened x before e) cs
  recorded : ∃ item, (foldRealizations cs).get x = some item ∧
    item.reopenings.map (fun r => (r.motive, r.reason, r.event)) =
      (ofAggregate x cs).filterMap reopeningOf ∧
    ∀ r ∈ item.reopenings, r.Declared

/-- The `to` of a transition; `none` inside where it is not a string. -/
def transitionOf (e : C) : Option (Option JsString) :=
  match EventCore.lifecycle e with
  | .transition dest => some dest
  | _ => none

/-- The `to` of the last transition of `x`. -/
def lastTransition (x : K) (cs : List C) : Option (Option JsString) :=
  ((ofAggregate x cs).filterMap transitionOf).getLast?

/-- The transition before each reopening of `x` says a realization. -/
def TransitionsNamed (x : K) (cs : List C) : Prop :=
  Always (fun before e => ∀ p, EventCore.aggregateId e = x →
    EventCore.lifecycle e = .reopened p → lastTransition x before ≠ some none) cs

/-! ## One event -/

section Step

variable {x : K} {cs : List C} {e : C}

theorem ofAggregate_concat :
    ofAggregate x (cs ++ [e]) =
      if EventCore.aggregateId e = x then ofAggregate x cs ++ [e] else ofAggregate x cs := by
  rw [ofAggregate, ofAggregate, List.filter_append]
  by_cases he : EventCore.aggregateId e = x
  · simp [he]
  · simp [he]

theorem foldRealizations_concat :
    (foldRealizations (cs ++ [e]) : JsMap K (ItemRealization C)) =
      applyRealization (foldRealizations cs) e := by
  simp [foldRealizations]

theorem get_applyRealization_of_ne (items : JsMap K (ItemRealization C))
    (he : EventCore.aggregateId e ≠ x) : (applyRealization items e).get x = items.get x := by
  unfold applyRealization
  cases EventCore.lifecycle e <;> simp [he.symm]

theorem lastTransition_concat :
    lastTransition x (cs ++ [e]) =
      if EventCore.aggregateId e = x then (transitionOf e).or (lastTransition x cs)
      else lastTransition x cs := by
  unfold lastTransition
  rw [ofAggregate_concat]
  by_cases he : EventCore.aggregateId e = x
  · rw [if_pos he, if_pos he, List.filterMap_append, List.getLast?_append]
    cases h : transitionOf e <;> simp [h]
  · rw [if_neg he, if_neg he]

/-- The item is created once in a list that goes on without another creation. -/
theorem CreatedFirst.concat_cases (h : CreatedFirst x (cs ++ [e])) :
    EventCore.aggregateId e ≠ x ∧ CreatedFirst x cs ∨
      EventCore.aggregateId e = x ∧ (ofAggregate x cs = [] ∧ EventCore.lifecycle e = .created ∨
        CreatedFirst x cs ∧ EventCore.lifecycle e ≠ .created) := by
  obtain ⟨c, rest, hsplit, hcreated, hrest⟩ := h
  rw [ofAggregate_concat] at hsplit
  by_cases he : EventCore.aggregateId e = x
  · rw [if_pos he] at hsplit
    apply Or.inr
    refine ⟨he, ?_⟩
    cases hcs : ofAggregate x cs with
    | nil =>
        rw [hcs, List.nil_append] at hsplit
        rw [(List.cons.inj hsplit).1]
        exact .inl ⟨rfl, hcreated⟩
    | cons d rest' =>
        rw [hcs, List.cons_append] at hsplit
        obtain ⟨rfl, rfl⟩ := List.cons.inj hsplit
        refine .inr ⟨⟨d, rest', hcs, hcreated, fun f hf => ?_⟩, ?_⟩
        · exact hrest f (List.mem_append_left _ hf)
        · exact hrest e (List.mem_append_right _ List.mem_cons_self)
  · rw [if_neg he] at hsplit
    exact .inl ⟨he, c, rest, hsplit, hcreated, hrest⟩

end Step

/-! ## The two replays in step -/

section InStep

variable {x : K} {cs : List C} {e : C}

/-- The realizations that `validateReopen` has replayed. -/
def replayedRealizations (cs : List C) : JsMap K JsString := reopenChecker.run .empty cs

/-- Both have the item, and the fold has the realization of the validator, unless the last
transition has said none. -/
def InStep (x : K) (cs : List C) : Prop :=
  ∃ current item, (replayedRealizations cs).get x = some current ∧
    (foldRealizations cs).get x = some item ∧
    item.realization = if lastTransition x cs = some none then none else some current

theorem replayedRealizations_concat :
    (replayedRealizations (cs ++ [e]) : JsMap K JsString) =
      reopenNext (replayedRealizations cs) e := by
  simp [replayedRealizations, reopenChecker]

theorem InStep.start (hnone : ofAggregate x cs = []) (he : EventCore.aggregateId e = x)
    (hcreated : EventCore.lifecycle e = .created) : InStep x (cs ++ [e]) := by
  have hlast : lastTransition x (cs ++ [e]) = none := by
    rw [lastTransition_concat, if_pos he, lastTransition, hnone]
    simp [transitionOf, hcreated]
  refine ⟨js "to-do", ⟨some (js "to-do"), []⟩, ?_, ?_, ?_⟩
  · simp [replayedRealizations_concat, reopenNext, hcreated, he]
  · simp [foldRealizations_concat, applyRealization, hcreated, he]
  · rw [hlast]
    rfl

theorem InStep.aside (h : InStep x cs) (he : EventCore.aggregateId e ≠ x) :
    InStep x (cs ++ [e]) := by
  obtain ⟨current, item, hcurrent, hitem, hrealization⟩ := h
  refine ⟨current, item, ?_, ?_, ?_⟩
  · rw [replayedRealizations_concat]
    exact (reopenChecker_keyed.frame _ e x he.symm).trans hcurrent
  · rw [foldRealizations_concat, get_applyRealization_of_ne _ he, hitem]
  · rw [lastTransition_concat, if_neg he, hrealization]

theorem InStep.next (h : InStep x cs) (he : EventCore.aggregateId e = x)
    (hok : reopenChecker.ok (replayedRealizations cs) e)
    (hcreated : EventCore.lifecycle e ≠ .created) : InStep x (cs ++ [e]) := by
  obtain ⟨current, item, hcurrent, hitem, hrealization⟩ := h
  subst he
  unfold InStep
  rw [replayedRealizations_concat, foldRealizations_concat, lastTransition_concat, if_pos rfl]
  cases hlifecycle : EventCore.lifecycle e with
  | created => exact (hcreated hlifecycle).elim
  | other =>
      refine ⟨current, item, ?_, ?_, ?_⟩
      · simpa [reopenNext, hlifecycle] using hcurrent
      · simpa [applyRealization, hlifecycle] using hitem
      · simpa [transitionOf, hlifecycle] using hrealization
  | transition dest =>
      cases dest with
      | none =>
          refine ⟨current, { item with realization := none }, ?_, ?_, ?_⟩
          · simpa [reopenNext, hlifecycle] using hcurrent
          · simp [applyRealization, hlifecycle, hitem]
          · simp [transitionOf, hlifecycle]
      | some dest =>
          refine ⟨dest, { item with realization := some dest }, ?_, ?_, ?_⟩
          · simp [reopenNext, hlifecycle]
          · simp [applyRealization, hlifecycle, hitem]
          · simp [transitionOf, hlifecycle]
  | reopened p =>
      -- the validator has judged the realization it has replayed, which is closed
      simp only [reopenChecker, hlifecycle] at hok
      obtain ⟨-, hitself, hclosed⟩ := hok
      refine ⟨js "in-progress", item.reopen p e, ?_, ?_, ?_⟩
      · simp [reopenNext, hlifecycle, hitself, hcurrent, hclosed current hcurrent]
      · simp [applyRealization, hlifecycle, hitem]
      · simp only [transitionOf, hlifecycle, Option.none_or]
        by_cases hlast : lastTransition (EventCore.aggregateId e) cs = some none
        · rw [if_pos hlast] at hrealization ⊢
          simp [ItemRealization.reopen, hitself, hrealization]
        · rw [if_neg hlast] at hrealization ⊢
          simp [ItemRealization.reopen, hitself, hrealization, hclosed current hcurrent]

/-- The replays of an accepted list are in step from the creation of the item on. -/
theorem inStep (haccepts : reopenChecker.Accepts (.empty : JsMap K JsString) cs)
    (hcreated : CreatedFirst x cs) : InStep x cs := by
  induction cs using List.reverseRecOn with
  | nil =>
      obtain ⟨c, rest, hsplit, -⟩ := hcreated
      cases hsplit
  | append_singleton cs e ih =>
      obtain ⟨hbefore, hok, -⟩ := (reopenChecker.accepts_append _ _ _).mp haccepts
      rcases hcreated.concat_cases with ⟨he, hcs⟩ | ⟨he, ⟨hnone, hfirst⟩ | ⟨hcs, hnext⟩⟩
      · exact (ih hbefore hcs).aside he
      · exact .start hnone he hfirst
      · exact (ih hbefore hcs).next he hok hnext

/-! ## The reopenings of an accepted list -/

theorem CreatedFirst.before {before after : List C} (h : CreatedFirst x (before ++ e :: after))
    (he : EventCore.aggregateId e = x) (hcreated : EventCore.lifecycle e ≠ .created) :
    CreatedFirst x before := by
  obtain ⟨c, rest, hsplit, hc, hrest⟩ := h
  rw [ofAggregate, List.filter_append, List.filter_cons_of_pos (by simpa using he)] at hsplit
  change ofAggregate x before ++ e :: ofAggregate x after = c :: rest at hsplit
  cases hbefore : ofAggregate x before with
  | nil =>
      rw [hbefore, List.nil_append] at hsplit
      exact (hcreated ((List.cons.inj hsplit).1 ▸ hc)).elim
  | cons d rest' =>
      rw [hbefore, List.cons_append] at hsplit
      obtain ⟨rfl, rfl⟩ := List.cons.inj hsplit
      exact ⟨d, rest', hbefore, hc, fun f hf => hrest f (List.mem_append_left _ hf)⟩

/-- A reopening that the validator accepts is applied where the realization was said. -/
theorem reopened_iff (h : InStep x cs) (he : EventCore.aggregateId e = x)
    (hok : reopenChecker.ok (replayedRealizations cs) e) {p : ReopenedFields}
    (hp : EventCore.lifecycle e = .reopened p) :
    Reopened x cs e ↔ lastTransition x cs ≠ some none := by
  obtain ⟨current, item, hcurrent, hitem, hrealization⟩ := h
  subst he
  simp only [reopenChecker, hp] at hok
  obtain ⟨-, hitself, hclosed⟩ := hok
  constructor
  · rintro ⟨item', from_, -, hitem', hfrom, -⟩ hlast
    rw [hitem] at hitem'
    rw [if_pos hlast] at hrealization
    rw [← Option.some.inj hitem', hrealization] at hfrom
    cases hfrom
  · intro hlast
    rw [if_neg hlast] at hrealization
    refine ⟨item, current, item.reopen p e, hitem, hrealization, hclosed current hcurrent, ?_, ?_⟩
    · simp [foldRealizations_concat, applyRealization, hp, hitem]
    · simp [ItemRealization.reopen, hitself, hrealization, hclosed current hcurrent]

theorem declared_of_shape {p : ReopenedFields} (h : reopenShape p = none) {from_ : JsString} :
    (⟨from_, p.motive, p.reason, e⟩ : LoggedReopening C).Declared := by
  unfold reopenShape at h
  split at h
  · cases h
  · rename_i hmotive
    split at h
    · cases h
    · rename_i hreason
      constructor
      · cases hp : p.motive with
        | none => simp [hp] at hmotive
        | some motive => exact ⟨motive, rfl, by simpa [hp] using hmotive⟩
      · cases hp : p.reason with
        | none => simp [hp] at hreason
        | some reason => exact ⟨reason, rfl, by simpa [hp] using hreason⟩

/-- Where the reopenings are applied, all of them are on record. -/
theorem recorded (haccepts : reopenChecker.Accepts (.empty : JsMap K JsString) cs)
    (hcreated : CreatedFirst x cs) (hnamed : TransitionsNamed x cs) :
    ∃ item, (foldRealizations cs).get x = some item ∧
      item.reopenings.map (fun r => (r.motive, r.reason, r.event)) =
        (ofAggregate x cs).filterMap reopeningOf ∧
      ∀ r ∈ item.reopenings, r.Declared := by
  induction cs using List.reverseRecOn with
  | nil =>
      obtain ⟨c, rest, hsplit, -⟩ := hcreated
      cases hsplit
  | append_singleton cs e ih =>
      obtain ⟨hbefore, hok, -⟩ := (reopenChecker.accepts_append _ _ _).mp haccepts
      obtain ⟨hnamedBefore, hnamedLast⟩ := always_concat.mp hnamed
      rw [ofAggregate_concat, foldRealizations_concat]
      rcases hcreated.concat_cases with ⟨he, hcs⟩ | ⟨he, ⟨hnone, hfirst⟩ | ⟨hcs, hnext⟩⟩
      · rw [if_neg he, get_applyRealization_of_ne _ he]
        exact ih hbefore hcs hnamedBefore
      · rw [if_pos he, hnone]
        refine ⟨⟨some (js "to-do"), []⟩, ?_, ?_, fun r hr => (List.not_mem_nil hr).elim⟩
        · simp [applyRealization, hfirst, he]
        · simp [reopeningOf, hfirst]
      · obtain ⟨item, hitem, hevents, hdeclared⟩ := ih hbefore hcs hnamedBefore
        rw [if_pos he, List.filterMap_append]
        subst he
        cases hlifecycle : EventCore.lifecycle e with
        | created => exact (hnext hlifecycle).elim
        | other =>
            refine ⟨item, ?_, ?_, hdeclared⟩
            · simpa [applyRealization, hlifecycle] using hitem
            · simpa [reopeningOf, hlifecycle] using hevents
        | transition dest =>
            refine ⟨{ item with realization := dest }, ?_, ?_, hdeclared⟩
            · simp [applyRealization, hlifecycle, hitem]
            · simpa [reopeningOf, hlifecycle] using hevents
        | reopened p =>
            obtain ⟨item', from_, -, hitem', hfrom, hclosed, -⟩ :=
              (reopened_iff (inStep hbefore hcs) rfl hok hlifecycle).mpr
                (hnamedLast p rfl hlifecycle)
            obtain rfl := Option.some.inj (hitem'.symm.trans hitem)
            simp only [reopenChecker, hlifecycle] at hok
            have hrecord : item'.reopenings ++ [⟨from_, p.motive, p.reason, e⟩] =
                (item'.reopen p e).reopenings := by
              simp [ItemRealization.reopen, hok.2.1, hfrom, hclosed]
            refine ⟨item'.reopen p e, ?_, ?_, ?_⟩
            · simp [applyRealization, hlifecycle, hitem]
            · rw [← hrecord, List.map_append, hevents]
              simp [reopeningOf, hlifecycle]
            · intro r hr
              rw [← hrecord] at hr
              rcases List.mem_append.mp hr with hr | hr
              · exact hdeclared r hr
              · rw [List.mem_singleton.mp hr]
                exact declared_of_shape hok.1

theorem reopeningsApplied_iff (haccepts : reopenChecker.Accepts (.empty : JsMap K JsString) cs)
    (hcreated : CreatedFirst x cs) : ReopeningsApplied x cs ↔ TransitionsNamed x cs := by
  have hone : ∀ before e after p, cs = before ++ e :: after → EventCore.aggregateId e = x →
      EventCore.lifecycle e = .reopened p →
        (Reopened x before e ↔ lastTransition x before ≠ some none) := by
    intro before e after p hsplit he hp
    rw [hsplit] at haccepts hcreated
    obtain ⟨hbefore, hok, -⟩ := (reopenChecker.accepts_append _ _ _).mp haccepts
    exact reopened_iff (inStep hbefore (hcreated.before he (by simp [hp]))) he hok hp
  constructor
  · intro h before e after hsplit p he hp
    exact (hone before e after p hsplit he hp).mp (h.applied before e after hsplit p he hp)
  · intro h
    refine ⟨?_, recorded haccepts hcreated h⟩
    intro before e after hsplit p he hp
    exact (hone before e after p hsplit he hp).mpr (h before e after hsplit p he hp)

end InStep

end Replay

end H2a.Track
