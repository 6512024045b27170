import H2a.Track.Facade.Reachable
import H2a.Track.State.Aspects
/-!
# Closures of an item

A closed item is opened again only by a reopening, which says why and stays on
record.  The commands that move the realization look at the transition table
without the lock and install no recheck: what the log needs is that an item is
still open when a transition lands on it.
-/

namespace H2a.Track

open H2a.Library H2a.Library.Program H2a.Library.Concurrent H2a.Track.Model
open H2a.Track.Events (Sha256)

/-- Where `ev`, replayed after `pre`, moves an item, the item was not rejected, and if
it was closed `ev` is a reopening of it. -/
def Motivated (pre : List Event) (ev : Event) : Prop :=
  ∀ x before after, (fold pre).items.get x = some before →
    (fold (pre ++ [ev])).items.get x = some after → after.realization ≠ before.realization →
      before.realization ≠ .rejected ∧
      (before.realization = .done ∨ before.realization = .cancelled →
        ev.core.aggregateId = x ∧ ∃ reopening, ev.core.body = .realizationReopened x reopening)

/-- The reopening of a closed item is on its record: where it came from, why, and
who did it when. -/
def OnRecord (log pre : List Event) (ev : Event) : Prop :=
  ∀ x before reopening, (fold pre).items.get x = some before →
    (before.realization = .done ∨ before.realization = .cancelled) →
    ev.core.aggregateId = x → ev.core.body = .realizationReopened x reopening →
      ∃ item, (fold log).items.get x = some item ∧
        ⟨before.realization, reopening.motive, reopening.reason, ev.core.at_, ev.core.by_⟩ ∈
          item.reopenings.getD []

/-- Closures are only undone with a motive, at every event of the log. -/
def ClosuresKept (log : List Event) : Prop :=
  ∀ pre ev post, log = pre ++ ev :: post → Motivated pre ev ∧ OnRecord log pre ev

/-- A transition finds its item open in a state, or already there. -/
def EventPart.findsOpen (s : State) (part : EventPart) : Bool :=
  match part.body with
  | .realizationTransition dest _ => (s.items.get part.aggregateId).all fun item =>
      REALIZATION_TRANSITIONS item.realization ≠ [] ∨ item.realization = dest
  | _ => true

/-- The transitions of an append find their items open on the log they land on. -/
def FindsOpen (log : List Event) (_ : Call) (e : Emission) : Prop :=
  e.parts.all (·.findsOpen (fold log)) = true

instance (log : List Event) (c : Call) (e : Emission) : Decidable (FindsOpen log c e) :=
  inferInstanceAs (Decidable (_ = true))

theorem FindsOpen.transition {log : List Event} {c : Call} {e : Emission}
    (h : FindsOpen log c e) {part : EventPart} (hpart : part ∈ e.parts) {dest : Realization}
    {cause : Option ItemId} (hbody : part.body = .realizationTransition dest cause)
    {item : ItemState} (hitem : (fold log).items.get part.aggregateId = some item) :
    REALIZATION_TRANSITIONS item.realization ≠ [] ∨ item.realization = dest := by
  have hopen := List.all_eq_true.mp h part hpart
  simp only [EventPart.findsOpen, hbody, hitem, Option.all_some, decide_eq_true_eq] at hopen
  exact hopen

/-! ## One event -/

section Event

variable {s : State} {e : EventData} {x : ItemId} {before after : ItemState}

/-- The events that move the realization of an item. -/
theorem realization_step (hbefore : s.items.get x = some before)
    (hafter : (applyEvent s e).items.get x = some after)
    (hx : ∀ payload, e.body = .itemCreated payload → x ≠ e.aggregateId) :
    after.realization = before.realization ∨ e.aggregateId = x ∧
      ((∃ cause, e.body = .realizationTransition after.realization cause) ∨
        ∃ reopening, e.body = .realizationReopened x reopening) := by
  have hkept := aspect_applyEvent (f := ItemState.realization) (fun _ _ _ => rfl) s e x
  have hedit := realization_itemEdit e before
  rw [hafter, hbefore] at hkept
  cases hbody : e.body with
  | itemCreated payload =>
      simp only [hbody] at hkept
      rw [if_neg (hx payload hbody)] at hkept
      exact .inl (Option.some.inj hkept)
  | realizationTransition dest cause =>
      simp only [hbody, Option.map_some, Function.comp_apply] at hkept hedit
      split at hkept
      · rename_i hself
        rw [hedit, Option.some.injEq] at hkept
        exact .inr ⟨hself.symm, .inl ⟨cause, by rw [hkept]⟩⟩
      · exact .inl (Option.some.inj hkept)
  | realizationReopened itemId reopening =>
      simp only [hbody, Option.map_some, Function.comp_apply] at hkept hedit
      split at hkept
      · rename_i hself
        rw [hedit] at hkept
        split at hkept
        · rename_i hopen
          exact .inr ⟨hself.symm, .inr ⟨reopening, by rw [hopen.1, hself]⟩⟩
        · exact .inl (Option.some.inj hkept)
      · exact .inl (Option.some.inj hkept)
  | _ =>
      simp only [hbody, Option.map_some, Function.comp_apply] at hkept hedit
      simp only [hedit, ite_self, Option.some.injEq] at hkept
      exact .inl hkept

/-- No event takes a reopening off the record. -/
theorem reopenings_step {record : ReopenRecord} (hbefore : s.items.get x = some before)
    (hrecord : record ∈ before.reopenings.getD []) (hx : x ∉ e.creates) :
    ∃ item, (applyEvent s e).items.get x = some item ∧ record ∈ item.reopenings.getD [] := by
  obtain ⟨after, hafter, -⟩ := item_keeps hbefore hx
  refine ⟨after, hafter, ?_⟩
  have hkept := aspect_applyEvent (f := ItemState.reopenings) (fun _ _ _ => rfl) s e x
  have hedit := reopenings_itemEdit e before
  rw [hafter, hbefore] at hkept
  cases hbody : e.body with
  | itemCreated payload =>
      simp only [hbody] at hkept
      have hne : x ≠ e.aggregateId := by
        simpa [EventData.creates, EventBody.creates, hbody] using hx
      rw [if_neg hne] at hkept
      rw [Option.some.inj hkept]
      exact hrecord
  | realizationReopened itemId reopening =>
      simp only [hbody, Option.map_some, Function.comp_apply] at hkept hedit
      split at hkept
      · rw [hedit] at hkept
        rw [Option.some.inj hkept]
        split
        · exact List.mem_append_left _ hrecord
        · exact hrecord
      · rw [Option.some.inj hkept]
        exact hrecord
  | _ =>
      simp only [hbody, Option.map_some, Function.comp_apply] at hkept hedit
      simp only [hedit, ite_self, Option.some.injEq] at hkept
      rw [hkept]
      exact hrecord

/-- A reopening of a closed item is recorded. -/
theorem reopenings_reopened {reopening : Reopening} (hbefore : s.items.get x = some before)
    (hclosed : before.realization = .done ∨ before.realization = .cancelled)
    (hself : e.aggregateId = x) (hbody : e.body = .realizationReopened x reopening) :
    ∃ item, (applyEvent s e).items.get x = some item ∧
      ⟨before.realization, reopening.motive, reopening.reason, e.at_, e.by_⟩ ∈
        item.reopenings.getD [] := by
  have hcreates : x ∉ e.creates := by simp [EventData.creates, EventBody.creates, hbody]
  obtain ⟨after, hafter, -⟩ := item_keeps hbefore hcreates
  refine ⟨after, hafter, ?_⟩
  have hkept := aspect_applyEvent (f := ItemState.reopenings) (fun _ _ _ => rfl) s e x
  rw [hafter, hbefore] at hkept
  simp only [hbody, hself, if_true, Option.map_some, Function.comp_apply] at hkept
  rw [reopenings_itemEdit] at hkept
  simp only [hbody, hself, hclosed, and_self, if_true, Option.some.injEq] at hkept
  rw [hkept]
  simp

end Event

/-- What a log creates at an event was not there before. -/
theorem Fresh.not_there {pre post : List Event} {ev : Event} (hfresh : Fresh (pre ++ ev :: post))
    {x : ItemId} {item : ItemState} (hitem : (rawFold pre).items.get x = some item)
    (payload : ItemCreatedPayload) (hbody : ev.core.body = .itemCreated payload) :
    x ≠ ev.core.aggregateId := by
  have hcreates :=
    hfresh.not_creates ((known_rawFold pre).items x item hitem).2 ev.core (by simp [cores])
  simpa [EventData.creates, EventBody.creates, hbody] using hcreates

/-- A reopening stays on record to the end of the log. -/
theorem onRecord {pre post : List Event} {ev : Event} (hfresh : Fresh (pre ++ ev :: post)) :
    OnRecord (pre ++ ev :: post) pre ev := by
  intro x before reopening hbefore hclosed hself hbody
  have hsplit : pre ++ ev :: post = (pre ++ [ev]) ++ post := by simp
  rw [fold_items] at hbefore
  obtain ⟨item, hitem, hrecord⟩ := reopenings_reopened hbefore hclosed hself hbody
  rw [← rawFold_concat] at hitem
  refine hfresh.persists (hsplit ▸ List.prefix_append (pre ++ [ev]) post)
    ((known_rawFold (pre ++ [ev])).items x item hitem).2 (P := fun s => ∃ item,
      s.items.get x = some item ∧ _ ∈ item.reopenings.getD [])
    (fun s e hx ⟨found, hfound, hrecord⟩ => reopenings_step hfound hrecord hx)
    ⟨item, hitem, hrecord⟩

/-- An event is motivated that moves only what is open, but for a reopening. -/
theorem motivated {pre post : List Event} {ev : Event} (hfresh : Fresh (pre ++ ev :: post))
    (h : ∀ dest cause, ev.core.body = .realizationTransition dest cause → ∀ before,
      (rawFold pre).items.get ev.core.aggregateId = some before →
        REALIZATION_TRANSITIONS before.realization ≠ [] ∨ before.realization = dest) :
    Motivated pre ev := by
  intro x before after hbefore hafter hne
  rw [fold_items] at hbefore hafter
  rw [rawFold_concat] at hafter
  rcases realization_step hbefore hafter (hfresh.not_there hbefore) with
    heq | ⟨rfl, ⟨cause, hbody⟩ | ⟨reopening, hbody⟩⟩
  · exact (hne heq).elim
  · rcases h _ cause hbody before hbefore with hopen | hthere
    · cases hrealization : before.realization with
      | toDo => simp
      | inProgress => simp
      | _ => simp [hrealization, REALIZATION_TRANSITIONS] at hopen
    · exact (hne hthere.symm).elim
  · refine ⟨fun hrejected => ?_, fun _ => ⟨rfl, reopening, hbody⟩⟩
    -- a rejected item is not reopened
    have hkept := aspect_applyEvent (f := ItemState.realization) (fun _ _ _ => rfl) (rawFold pre)
      ev.core ev.core.aggregateId
    rw [hafter, hbefore] at hkept
    simp only [hbody, if_true, Option.map_some, Function.comp_apply] at hkept
    rw [realization_itemEdit] at hkept
    simp [hbody, hrejected] at hkept
    exact hne (hkept.trans hrejected.symm)

/-! ## What lands -/

section Lands

variable {log view : List Event} {c : Call} {minted : List JsString} {e : Emission}
variable {events : List Event}

/-- After events that are emitted with others, an item is where the log has left it,
or new, or rejected. -/
theorem realization_joint {pre : List Event}
    (hjoint : ∀ ev ∈ pre, ∃ part, Joint part ∧ PersistedAs e part ev) :
    ∀ x item, (rawFold (log ++ pre)).items.get x = some item →
      item.realization = .toDo ∨ item.realization = .rejected ∨ ∃ landed,
        (rawFold log).items.get x = some landed ∧ item.realization = landed.realization := by
  rw [rawFold_append]
  refine replay_keeps (P := fun s => ∀ x item, s.items.get x = some item →
    item.realization = .toDo ∨ item.realization = .rejected ∨ ∃ landed,
      (rawFold log).items.get x = some landed ∧ item.realization = landed.realization) ?_
    fun x item hitem => .inr (.inr ⟨item, hitem, rfl⟩)
  intro s core hcore hs x item hitem
  obtain ⟨ev, hev, rfl⟩ := List.mem_map.mp hcore
  obtain ⟨part, hpart, hpersisted⟩ := hjoint ev hev
  by_cases hnew : ∃ payload, ev.core.body = .itemCreated payload ∧ x = ev.core.aggregateId
  · obtain ⟨payload, hbody, rfl⟩ := hnew
    simp only [items_applyEvent, itemAt, hbody, if_true, Option.some.injEq] at hitem
    exact .inl (by rw [← hitem]; rfl)
  · push Not at hnew
    rcases item_step hitem with ⟨payload, hbody, hself, -⟩ | ⟨before, hbefore, -⟩
    · exact (hnew payload hbody hself).elim
    · rcases realization_step hbefore hitem hnew with heq | ⟨-, ⟨cause, hbody⟩ | ⟨reopening, hbody⟩⟩
      · rw [heq]
        exact hs x before hbefore
      · have hkind := hpersisted.part_body hbody (by simp)
        rw [Joint, hkind] at hpart
        exact .inr (.inl hpart)
      · have hkind := hpersisted.part_body hbody (by simp)
        rw [Joint, hkind] at hpart
        exact hpart.elim

theorem Lands.motivated (hfresh : Fresh log) (h : Lands FindsOpen log c view minted e events)
    {pre post : List Event} {ev : Event} (hsplit : events = pre ++ ev :: post) :
    Motivated (log ++ pre) ev := by
  have hfresh' := h.fresh_append hfresh
  have hpersisted := h.events
  rw [hsplit, ← List.append_assoc] at hfresh'
  refine H2a.Track.motivated hfresh' fun dest cause hbody before hbefore => ?_
  obtain ⟨part, hpart, hev⟩ := persisted_mem hpersisted (hsplit ▸ List.mem_append_right pre
    List.mem_cons_self)
  have hkind := hev.part_body hbody (by simp)
  have hopen : ∀ landed, (rawFold log).items.get ev.core.aggregateId = some landed →
      REALIZATION_TRANSITIONS landed.realization ≠ [] ∨ landed.realization = dest := by
    intro landed hlanded
    exact h.ok.transition hpart hkind (hev.aggregateId ▸ hlanded)
  rcases h.requests.issued.parts with ⟨part', hparts, -⟩ | ⟨itemId, code, hparts, -⟩ | hjoint
  · rw [hparts] at hpersisted
    obtain ⟨ev', rfl, -⟩ := persisted_singleton hpersisted
    obtain ⟨rfl, -⟩ | ⟨_, _, hnil, -⟩ := List.singleton_eq_append_iff.mp hsplit
    rw [List.append_nil] at hbefore
    exact hopen before hbefore
  · simp [hparts] at hpart
    simp [hpart] at hkind
  · have hdest : dest = .rejected := by
      have hpart' := hjoint part hpart
      rwa [Joint, hkind] at hpart'
    have hpre : ∀ ev ∈ pre, ∃ part, Joint part ∧ PersistedAs e part ev := by
      intro ev' hev'
      obtain ⟨part', hpart', hpersisted'⟩ :=
        persisted_mem hpersisted (hsplit ▸ List.mem_append_left _ hev')
      exact ⟨part', hjoint part' hpart', hpersisted'⟩
    rcases realization_joint hpre _ before hbefore with htodo | hrejected | ⟨landed, hlanded, heq⟩
    · exact .inl (by simp [htodo, REALIZATION_TRANSITIONS])
    · exact .inr (hrejected.trans hdest.symm)
    · rw [heq]
      exact hopen landed hlanded

end Lands

/-- In every run whose transitions each find their item open, closures are only undone
with a motive. -/
theorem closuresKept_reachable {P : Type} [DecidableEq P] {contentHashOf : EventData → Sha256}
    {s : FacadeSys P} (hrun : Reaches (FacadeStep contentHashOf FindsOpen) Sys.initial s) :
    ClosuresKept s.log := by
  have h := reachable_invariant (G := fun log => ∀ pre ev post, log = pre ++ ev :: post →
    Motivated pre ev) (by simp) ?_ hrun
  · intro pre ev post hsplit
    exact ⟨h.2 pre ev post hsplit, hsplit ▸ onRecord (hsplit ▸ h.1)⟩
  · intro log c view minted e events hfresh h hlands pre ev post hsplit
    rcases List.append_eq_append_iff.mp hsplit with ⟨mid, rfl, hevents⟩ | ⟨mid, hlog, hevents⟩
    · exact hlands.motivated hfresh hevents
    · cases mid with
      | nil =>
          rw [List.append_nil] at hlog
          subst hlog
          have hsplit' : events = [] ++ ev :: post := hevents.symm
          simpa using hlands.motivated hfresh hsplit'
      | cons first mid =>
          obtain ⟨rfl, rfl⟩ := List.cons.inj hevents
          exact h pre ev mid hlog

/-- An item is started and done, and reopened as a regression. -/
def regression : Schedule Unit :=
  createOf () 0 (js "x") none ++
    [callOf () (.setRealization (js "x") .inProgress), .read (), .append () (.nth 1),
      callOf () (.setRealization (js "x") .done), .read (), .append () (.nth 2),
      callOf () (.reopenItem (js "x") ⟨.regressionObserved, js "broken"⟩ none), .read (),
      .append () (.nth 3)]

theorem closuresKept_reachable_regression :
    ∃ s : FacadeSys Unit, ((fold s.log).items.get (js "x")).map (·.realization) =
      some .inProgress ∧ ClosuresKept s.log := by
  have hrun : outcome FindsOpen regression
      (fun log => ((fold log).items.get (js "x")).map (·.realization)) =
      some (some .inProgress) := by
    decide +kernel
  obtain ⟨s, hreached, hs⟩ := reached_of_outcome hrun
  exact ⟨s, hs, closuresKept_reachable hreached⟩

/-- Two processes see an item to do: one cancels it, and the other starts it. -/
def closureRace : Schedule Bool :=
  createOf false 0 (js "x") none ++
    [callOf false (.setRealization (js "x") .cancelled), .read false,
      callOf true (.setRealization (js "x") .inProgress), .read true,
      .append false (.nth 1), .append true (.nth 2)]

/-- The cancellation is undone without a motive. -/
theorem closuresKept_closureRace :
    ∃ s : FacadeSys Bool, Reaches (FacadeStep (fun e => e.id) fun _ _ _ => True) Sys.initial s ∧
      ¬ ClosuresKept s.log := by
  have hrun : outcome (fun _ _ _ => True) closureRace (fun log =>
      (((fold (log.take 2)).items.get (js "x")).map (·.realization),
        ((fold (log.take 3)).items.get (js "x")).map (·.realization),
        log[2]?.map (·.core.body))) =
      some (some .cancelled, some .inProgress, some (.realizationTransition .inProgress none)) := by
    decide +kernel
  obtain ⟨s, hreached, hs⟩ := reached_of_outcome hrun
  simp only [Prod.mk.injEq, Option.map_eq_some_iff] at hs
  obtain ⟨⟨before, hbefore, hcancelled⟩, ⟨after, hafter, hprogress⟩, ev, hev, hbody⟩ := hs
  refine ⟨s, hreached, fun h => ?_⟩
  have htake : s.log.take 3 = s.log.take 2 ++ [ev] := by
    rw [List.take_add_one, hev, Option.toList_some]
  have hsplit : s.log = s.log.take 2 ++ ev :: s.log.drop 3 := by
    conv_lhs => rw [← List.take_append_drop 3 s.log, htake]
    simp
  rw [htake] at hafter
  obtain ⟨-, hreopened⟩ := (h _ ev _ hsplit).1 (js "x") before after hbefore hafter
    (by simp [hcancelled, hprogress])
  obtain ⟨-, reopening, hreopening⟩ := hreopened (.inr hcancelled)
  simp [hbody] at hreopening

end H2a.Track
