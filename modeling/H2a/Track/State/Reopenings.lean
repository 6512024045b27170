import H2a.Library.JsonInteger
import H2a.Track.Events.Line
import H2a.Track.State.Aspects
import H2a.Track.State.Realizations
/-!
# Reopenings, validated and folded

On typed events the replay of a realization is the one of the fold, and what `validate` accepts of
the reopenings of an item the fold applies.  On the lines of a log, whose payloads are any records,
a transition to nothing comes between the two.
-/

namespace H2a.Track

open H2a.Library H2a.Track.Model
open H2a.Track.Events (LineCore EventCore TrackEvent ReopenedFields isClosed reopenChecker
  reopenMotivesAccepted validate Head Sha256)

/-! ## The replay is the fold's -/

/-- The realization and the reopenings of an item. -/
def realizationSeen (item : ItemState) : Option JsString ×
    List (JsString × Option JsString × Option JsString × JsString × ActorId) :=
  (some (js item.realization.text), (item.reopenings.getD []).map fun r =>
    (js r.from_.text, some (js r.motive.text), some r.reason, r.at_, r.by_))

def ItemRealization.seen (item : ItemRealization EventData) : Option JsString ×
    List (JsString × Option JsString × Option JsString × JsString × ActorId) :=
  (item.realization, item.reopenings.map fun r =>
    (r.from_, r.motive, r.reason, r.event.at_, r.event.by_))

theorem isClosed_text (r : Realization) :
    isClosed (js r.text) ↔ r = .done ∨ r = .cancelled := by
  cases r <;> decide

section Typed

variable {item : ItemState} {replayed : ItemRealization EventData} {e : EventData}

theorem lifecycle_reopened {itemId : Option ItemId} {reopening : Reopening}
    (hbody : e.body = .realizationReopened itemId reopening) :
    ∃ p, EventCore.lifecycle e = .reopened p ∧ p.motive = some (js reopening.motive.text) ∧
      p.reason = some reopening.reason ∧ (p.itemId = .itself ↔ itemId = some e.aggregateId) := by
  have hlifecycle : EventCore.lifecycle e = e.lifecycle := rfl
  rw [hlifecycle, EventData.lifecycle, hbody]
  refine ⟨_, rfl, rfl, rfl, ?_⟩
  cases itemId with
  | none => simp
  | some itemId => by_cases hid : itemId = e.aggregateId <;> simp [hid]

theorem seen_reopen (h : realizationSeen item = replayed.seen) {itemId : Option ItemId}
    {reopening : Reopening} (hbody : e.body = .realizationReopened itemId reopening)
    {p : ReopenedFields} (hp : EventCore.lifecycle e = .reopened p) :
    realizationSeen (itemEdit e item) = (replayed.reopen p e).seen := by
  obtain ⟨p', hp', hmotive, hreason, hitself⟩ := lifecycle_reopened hbody
  obtain rfl : p' = p := by simpa [hp'] using hp
  have hrealization : replayed.realization = some (js item.realization.text) :=
    (congrArg Prod.fst h).symm
  have hreopenings := congrArg Prod.snd h
  simp only [realizationSeen, ItemRealization.seen] at hreopenings
  unfold realizationSeen
  rw [realization_itemEdit, reopenings_itemEdit]
  simp only [hbody]
  by_cases happlied : itemId = some e.aggregateId ∧
      (item.realization = .done ∨ item.realization = .cancelled)
  · have hclosed := (isClosed_text item.realization).mpr happlied.2
    rw [if_pos happlied, if_pos happlied,
      ItemRealization.reopen_closed e (hitself.mpr happlied.1) hrealization hclosed]
    simp only [ItemRealization.seen, Option.getD_some, List.map_append, hreopenings,
      List.map_cons, List.map_nil, hmotive, hreason]
    rfl
  · have hsame : replayed.reopen p' e = replayed := by
      apply ItemRealization.reopen_eq_self
      intro hself from_ hfrom hclosed
      rw [hrealization] at hfrom
      rw [← Option.some.inj hfrom, isClosed_text] at hclosed
      exact happlied ⟨hitself.mp hself, hclosed⟩
    rw [if_neg happlied, if_neg happlied, hsame]
    exact h

/-- What is seen alike is edited alike. -/
theorem seen_edited {found : Option ItemState} {found' : Option (ItemRealization EventData)}
    {edit : ItemState → ItemState}
    {edit' : ItemRealization EventData → ItemRealization EventData}
    (h : found.map realizationSeen = found'.map ItemRealization.seen)
    (hedit : ∀ item replayed, realizationSeen item = replayed.seen →
      realizationSeen (edit item) = (edit' replayed).seen) :
    found.map (realizationSeen ∘ edit) = (found'.map edit').map ItemRealization.seen := by
  cases found with
  | none =>
      cases found' with
      | none => rfl
      | some replayed => cases h
  | some item =>
      cases found' with
      | none => cases h
      | some replayed => exact congrArg some (hedit item replayed (Option.some.inj h))

/-- One event does the same to both. -/
theorem seen_applyEvent {s : State} {items : JsMap ItemId (ItemRealization EventData)} {x : ItemId}
    (h : (s.items.get x).map realizationSeen = (items.get x).map ItemRealization.seen)
    (e : EventData) :
    ((applyEvent s e).items.get x).map realizationSeen =
      ((applyRealization items e).get x).map ItemRealization.seen := by
  rw [aspect_applyEvent (f := realizationSeen) fun item gate d => rfl]
  have hlifecycle : EventCore.lifecycle e = e.lifecycle := rfl
  have haggregate : EventCore.aggregateId e = e.aggregateId := rfl
  cases hbody : e.body with
  | itemCreated payload =>
      have hcreated : EventCore.lifecycle e = .created := by
        simp [hlifecycle, EventData.lifecycle, hbody]
      simp only [applyRealization, hcreated, JsMap.get_set, haggregate]
      by_cases hx : x = e.aggregateId
      · rw [if_pos hx, if_pos hx]
        rfl
      · rw [if_neg hx, if_neg hx]
        exact h
  | realizationTransition dest cause =>
      have htransition : EventCore.lifecycle e = .transition (some (js dest.text)) := by
        simp [hlifecycle, EventData.lifecycle, hbody]
      simp only [applyRealization, htransition, JsMap.get_modify, haggregate]
      by_cases hx : x = e.aggregateId
      · subst hx
        rw [if_pos rfl, if_pos rfl]
        apply seen_edited h
        intro item replayed hseen
        have hreopenings := congrArg Prod.snd hseen
        simpa [realizationSeen, ItemRealization.seen, realization_itemEdit, reopenings_itemEdit,
          hbody] using hreopenings
      · rw [if_neg hx, if_neg hx]
        exact h
  | realizationReopened itemId reopening =>
      obtain ⟨p, hp, -⟩ := lifecycle_reopened hbody
      simp only [applyRealization, hp, JsMap.get_modify, haggregate]
      by_cases hx : x = e.aggregateId
      · subst hx
        rw [if_pos rfl, if_pos rfl]
        apply seen_edited h
        intro item replayed hseen
        exact seen_reopen hseen hbody hp
      · rw [if_neg hx, if_neg hx]
        exact h
  | _ =>
      have hother : EventCore.lifecycle e = .other := by
        simp [hlifecycle, EventData.lifecycle, hbody]
      have hkept : realizationSeen ∘ itemEdit e = realizationSeen := by
        funext item
        simp [realizationSeen, realization_itemEdit, reopenings_itemEdit, hbody]
      simp only [hkept, ite_self, applyRealization, hother]
      exact h

theorem seen_fold (log : List Event) (x : ItemId) :
    ((fold log).items.get x).map realizationSeen =
      ((foldRealizations (cores log)).get x).map ItemRealization.seen := by
  rw [fold_items]
  induction log using List.reverseRecOn with
  | nil => rfl
  | append_singleton log ev ih =>
      have hcores : cores (log ++ [ev]) = cores log ++ [ev.core] := List.map_append
      rw [rawFold_concat, hcores, foldRealizations_concat]
      exact seen_applyEvent ih ev.core

end Typed

/-! ## The fold of typed events -/

/-- The motive, the reason, the time and the author of a reopening of `x`. -/
def reopeningIn (x : ItemId) (ev : Event) :
    Option (ReopenMotive × JsString × JsString × ActorId) :=
  match ev.core.body with
  | .realizationReopened _ reopening =>
      if ev.core.aggregateId = x then
        some (reopening.motive, reopening.reason, ev.core.at_, ev.core.by_)
      else none
  | _ => none

/-- The fold finds the item closed, and puts it in progress. -/
def FoldReopens (x : ItemId) (before : List Event) (ev : Event) : Prop :=
  ∃ item item', (fold before).items.get x = some item ∧
    (item.realization = .done ∨ item.realization = .cancelled) ∧
    (fold (before ++ [ev])).items.get x = some item' ∧ item'.realization = .inProgress

/-- The fold applies the reopenings of `x`, and has all of them on record. -/
structure FoldAppliesReopenings (x : ItemId) (log : List Event) : Prop where
  applied : Always (fun before ev => (reopeningIn x ev).isSome → FoldReopens x before ev) log
  recorded : ∃ item, (fold log).items.get x = some item ∧
    (item.reopenings.getD []).map (fun r => (r.motive, r.reason, r.at_, r.by_)) =
      log.filterMap (reopeningIn x) ∧
    ∀ r ∈ item.reopenings.getD [],
      js r.motive.text ∈ reopenMotivesAccepted ∧ r.reason.trim.length ≠ 0

theorem item_of_replayed {log : List Event} {x : ItemId} {replayed : ItemRealization EventData}
    (h : (foldRealizations (cores log)).get x = some replayed) :
    ∃ item, (fold log).items.get x = some item ∧ realizationSeen item = replayed.seen := by
  have hseen := seen_fold log x
  rw [h] at hseen
  exact Option.map_eq_some_iff.mp hseen

/-- A typed transition says a realization. -/
theorem lastTransition_typed (x : ItemId) (cs : List EventData) :
    lastTransition x cs ≠ some none := by
  intro hlast
  obtain ⟨e, -, he⟩ := List.mem_filterMap.mp (List.mem_of_getLast? hlast)
  have hlifecycle : EventCore.lifecycle e = e.lifecycle := rfl
  rw [transitionOf, hlifecycle, EventData.lifecycle] at he
  cases hbody : e.body <;> simp [hbody] at he

/-- A reopening of the log, as the replay has it on record. -/
def asRecorded (reopening : ReopenMotive × JsString × JsString × ActorId) :
    Option JsString × Option JsString × JsString × ActorId :=
  (some (js reopening.1.text), some reopening.2.1, reopening.2.2)

theorem asRecorded_injective : Function.Injective asRecorded := by
  have htext : ∀ m m' : ReopenMotive, js m.text = js m'.text → m = m' := by
    intro m m' h
    cases m <;> cases m' <;> first | rfl | exact absurd h (by decide)
  rintro ⟨m, reason, rest⟩ ⟨m', reason', rest'⟩ h
  simp only [asRecorded, Prod.mk.injEq, Option.some.injEq] at h
  rw [htext m m' h.1, h.2.1, h.2.2]

theorem reopenings_logged (x : ItemId) (log : List Event) :
    ((ofAggregate x (cores log)).filterMap reopeningOf).map
        (fun r => (r.1, r.2.1, r.2.2.at_, r.2.2.by_)) =
      (log.filterMap (reopeningIn x)).map asRecorded := by
  induction log with
  | nil => rfl
  | cons ev log ih =>
      have hcores : cores (ev :: log) = ev.core :: cores log := rfl
      have hlifecycle : EventCore.lifecycle ev.core = ev.core.lifecycle := rfl
      have haggregate : EventCore.aggregateId ev.core = ev.core.aggregateId := rfl
      rw [ofAggregate] at ih
      rw [hcores, ofAggregate, List.filter_cons, List.filterMap_cons, haggregate]
      by_cases hx : ev.core.aggregateId = x
      · simp only [hx, decide_true, if_true, List.filterMap_cons]
        rw [reopeningOf, reopeningIn, hlifecycle, EventData.lifecycle]
        cases hbody : ev.core.body <;> simp [hx, ih, asRecorded]
      · rw [reopeningIn]
        cases hbody : ev.core.body <;> simp [hx, ih]

theorem reopening_of_isSome {x : ItemId} {ev : Event} (h : (reopeningIn x ev).isSome) :
    EventCore.aggregateId ev.core = x ∧ ∃ p, EventCore.lifecycle ev.core = .reopened p := by
  have hlifecycle : EventCore.lifecycle ev.core = ev.core.lifecycle := rfl
  rw [reopeningIn] at h
  rw [hlifecycle, EventData.lifecycle]
  cases hbody : ev.core.body <;> simp only [hbody, Option.isSome_none, Bool.false_eq_true] at h
  refine ⟨?_, _, rfl⟩
  by_cases hx : ev.core.aggregateId = x
  · exact hx
  · simp [hx] at h

theorem foldAppliesReopenings {x : ItemId} {log : List Event}
    (haccepts : reopenChecker.Accepts (.empty : JsMap JsString JsString) (cores log))
    (hcreated : CreatedFirst x (cores log)) : FoldAppliesReopenings x log := by
  obtain ⟨happlied, replayed, hreplayed, hrecords, hdeclared⟩ :=
    (reopeningsApplied_iff haccepts hcreated).mpr
      fun before _ _ _ _ _ _ => lastTransition_typed x before
  constructor
  · intro before ev after hsplit hreopening
    have hcores : cores log = cores before ++ ev.core :: cores after := by
      rw [hsplit]
      exact List.map_append
    obtain ⟨hx, p, hp⟩ := reopening_of_isSome hreopening
    obtain ⟨found, from_, found', hfound, hfrom, hclosed, hfound', hdest⟩ :=
      happlied _ _ _ hcores p hx hp
    obtain ⟨item, hitem, hseen⟩ := item_of_replayed hfound
    have hconcat : cores (before ++ [ev]) = cores before ++ [ev.core] := List.map_append
    obtain ⟨item', hitem', hseen'⟩ := item_of_replayed (hconcat ▸ hfound')
    refine ⟨item, item', hitem, ?_, hitem', ?_⟩
    · have htext : some (js item.realization.text) = some from_ :=
        (congrArg Prod.fst hseen).trans hfrom
      rw [← isClosed_text, Option.some.inj htext]
      exact hclosed
    · have htext : some (js item'.realization.text) = some (js "in-progress") :=
        (congrArg Prod.fst hseen').trans hdest
      cases hrealization : item'.realization <;> rw [hrealization] at htext <;>
        first | rfl | exact absurd htext (by decide)
  · obtain ⟨item, hitem, hseen⟩ := item_of_replayed hreplayed
    have hreopenings := congrArg Prod.snd hseen
    simp only [realizationSeen, ItemRealization.seen] at hreopenings
    refine ⟨item, hitem, ?_, ?_⟩
    · apply List.map_injective_iff.mpr asRecorded_injective
      have hmapped := congrArg (List.map Prod.snd) hreopenings
      rw [← reopenings_logged, ← hrecords]
      simpa [Function.comp_def, asRecorded] using hmapped
    · intro r hr
      refine ⟨by cases r.motive <;> decide, ?_⟩
      have hmem : (js r.from_.text, some (js r.motive.text), some r.reason, r.at_, r.by_) ∈
          replayed.reopenings.map fun r =>
            (r.from_, r.motive, r.reason, r.event.at_, r.event.by_) :=
        hreopenings ▸ List.mem_map_of_mem hr
      obtain ⟨r', hr', heq⟩ := List.mem_map.mp hmem
      obtain ⟨-, reason, hreason, hblank⟩ := hdeclared r' hr'
      simp only [Prod.mk.injEq] at heq
      rw [heq.2.2.1, Option.some.injEq] at hreason
      rw [hreason]
      exact hblank

section Alike

variable {C K : Type} [EventCore C K] [DecidableEq K]

/-- What `validate` accepts of the reopenings of an item the fold applies, all of them exactly if
none comes after a transition whose `to` is not a string.  In a log of typed events none does. -/
theorem reopenings_alike (contentHashOf : C → Sha256) (typedHashOf : EventData → Sha256) :
    (∀ (events : List (TrackEvent C)) (head : Option Head) (x : K),
      (validate contentHashOf events head).ok = true → CreatedFirst x (events.map (·.core)) →
        (ReopeningsApplied x (events.map (·.core)) ↔ TransitionsNamed x (events.map (·.core)))) ∧
    ∀ (log : List Event) (head : Option Head) (x : ItemId),
      (validate typedHashOf log head).ok = true → CreatedFirst x (cores log) →
        FoldAppliesReopenings x log := by
  constructor
  · intro events head x hvalid hcreated
    have hsound := ((Events.validate_ok_iff events head).mp hvalid).1
    exact reopeningsApplied_iff hsound.wellFormed.reopen hcreated
  · intro log head x hvalid hcreated
    have hsound := ((Events.validate_ok_iff log head).mp hvalid).1
    exact foldAppliesReopenings hsound.wellFormed.reopen hcreated

end Alike

/-! ## A regression, and a transition to nothing -/

/-- The members of a line about one item, but for its integrity frame. -/
def itemLine (id type : String) (payload : List (JsString × Json Int)) :
    List (JsString × Json Int) :=
  [(js "aggregate", .str (js "item")), (js "aggregateId", .str (js "i1")),
    (js "at", .str (js "2026-08-01T00:00:00.000Z")), (js "by", .str (js "u1")),
    (js "id", .str (js id)), (js "payload", .obj payload), (js "type", .str (js type))]

def createdLine : LineCore Int :=
  ⟨itemLine "e1" "item.created" [(js "kind", .str (js "feature")), (js "title", .str (js "t")),
    (js "workspace", .str (js "w"))], none, by decide, by decide⟩

def doneLine : LineCore Int :=
  ⟨itemLine "e2" "realization.transition" [(js "to", .str (js "done"))], none,
    by decide, by decide⟩

/-- It says no realization. -/
def strayLine : LineCore Int :=
  ⟨itemLine "e3" "realization.transition" [], none, by decide, by decide⟩

def reopenedLine : LineCore Int :=
  ⟨itemLine "e4" "realization.reopened" [(js "itemId", .str (js "i1")),
    (js "motive", .str (js "regression-observed")), (js "reason", .str (js "it broke"))], none,
    by decide, by decide⟩

/-- A stand-in for SHA-256 that keeps different ids apart. -/
def lineHash (c : LineCore Int) : Sha256 :=
  js "sha256:" ++ (Events.stringMember (js "id") c.members).getD (js "")

def regressionLines : List (TrackEvent (LineCore Int)) :=
  Events.sealFrom lineHash Events.FrameScan.init [createdLine, doneLine, reopenedLine]

def regressionEvent (id : String) (body : EventBody) : EventData where
  id := js id
  body := body
  aggregate := .item
  aggregateId := js "i1"
  at_ := js "2026-08-01T00:00:00.000Z"
  by_ := js "u1"
  prov := none
  clientToken := none
  batch := none

/-- The same, typed. -/
def regressionLog : List Event :=
  Events.sealFrom (fun e => js "sha256:" ++ e.id) Events.FrameScan.init
    [regressionEvent "e1" (.itemCreated ⟨.feature, js "t", js "w", none, none, none, none, none,
      none, none, none, none, none⟩),
    regressionEvent "e2" (.realizationTransition .done none),
    regressionEvent "e4" (.realizationReopened (some (js "i1"))
      ⟨.regressionObserved, js "it broke"⟩)]

theorem reopenings_alike_regression :
    ReopeningsApplied (.str (js "i1")) (regressionLines.map (·.core)) ∧
      FoldAppliesReopenings (js "i1") regressionLog := by
  have halike := reopenings_alike lineHash fun e => js "sha256:" ++ e.id
  constructor
  · have hcreated : CreatedFirst (.str (js "i1")) (regressionLines.map (·.core)) :=
      ⟨createdLine, [doneLine, reopenedLine], rfl, by decide, by decide⟩
    apply (halike.1 regressionLines none (.str (js "i1")) (by decide) hcreated).mpr
    change TransitionsNamed _ ([] ++ [createdLine] ++ [doneLine] ++ [reopenedLine])
    unfold TransitionsNamed
    rw [always_concat, always_concat, always_concat]
    refine ⟨⟨⟨always_nil, ?_⟩, ?_⟩, ?_⟩
    all_goals
      intro p _ _
      decide
  · apply halike.2 regressionLog none (js "i1") (by decide)
    exact ⟨_, _, rfl, rfl, by decide⟩

def strayLog : List (TrackEvent (LineCore Int)) :=
  Events.sealFrom lineHash Events.FrameScan.init [createdLine, doneLine, strayLine, reopenedLine]

theorem reopening_lost_strayLog :
    ¬∀ (events : List (TrackEvent (LineCore Int))) (head : Option Head) (x : Events.JsKey Int),
      (validate lineHash events head).ok = true → CreatedFirst x (events.map (·.core)) →
        ReopeningsApplied x (events.map (·.core)) := by
  intro h
  have hcreated : CreatedFirst (.str (js "i1")) (strayLog.map (·.core)) := by
    refine ⟨createdLine, [doneLine, strayLine, reopenedLine], rfl, by decide, by decide⟩
  obtain ⟨item, hitem, hrecords, -⟩ :=
    (h strayLog none (.str (js "i1")) (by decide) hcreated).recorded
  have hfold : (foldRealizations (strayLog.map (·.core))).get (.str (js "i1")) =
      some ⟨none, []⟩ := rfl
  rw [hfold, Option.some.injEq] at hitem
  have hcount := congrArg List.length hrecords
  rw [← hitem] at hcount
  exact absurd hcount (by decide)

end H2a.Track
