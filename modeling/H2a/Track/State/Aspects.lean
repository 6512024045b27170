import H2a.Track.State.Ids
/-!
# Aspects of an item

Role, code, parent, realization and reopenings of an item, each with the events
that change it.
-/

namespace H2a.Track

open H2a.Library H2a.Track.Model

/-! ## Of an item -/

section Edit

variable (e : EventData) (item : ItemState)

theorem role_itemEdit : (itemEdit e item).role =
    match e.body with
    | .itemRoleChanged dest => some dest
    | _ => item.role := by
  unfold itemEdit
  cases e.body <;> try rfl
  · simp only [addLink]
    split <;> rfl
  · simp only [reopen]
    split
    · split <;> rfl
    · rfl

theorem code_itemEdit : (itemEdit e item).code =
    match e.body with
    | .itemCodeAssigned code => some code
    | _ => item.code := by
  unfold itemEdit
  cases e.body <;> try rfl
  · simp only [addLink]
    split <;> rfl
  · simp only [reopen]
    split
    · split <;> rfl
    · rfl

theorem parentId_itemEdit : (itemEdit e item).parentId =
    match e.body with
    | .itemReparented parentId _ _ => parentId
    | _ => item.parentId := by
  unfold itemEdit
  cases e.body <;> try rfl
  · simp only [addLink]
    split <;> rfl
  · simp only [reopen]
    split
    · split <;> rfl
    · rfl

theorem realization_itemEdit : (itemEdit e item).realization =
    match e.body with
    | .realizationTransition dest _ => dest
    | .realizationReopened itemId _ =>
        if itemId = some e.aggregateId ∧ (item.realization = .done ∨ item.realization = .cancelled)
        then .inProgress else item.realization
    | _ => item.realization := by
  unfold itemEdit
  cases e.body <;> try rfl
  · simp only [addLink]
    split <;> rfl
  · rename_i itemId reopening
    simp only [reopen]
    by_cases hself : itemId = some e.aggregateId
    · by_cases hclosed : item.realization = .done ∨ item.realization = .cancelled
      · simp [hself, hclosed]
      · simp [hself, hclosed]
    · simp [hself]

theorem reopenings_itemEdit : (itemEdit e item).reopenings =
    match e.body with
    | .realizationReopened itemId reopening =>
        if itemId = some e.aggregateId ∧ (item.realization = .done ∨ item.realization = .cancelled)
        then some (item.reopenings.getD [] ++
          [⟨item.realization, reopening.motive, reopening.reason, e.at_, e.by_⟩])
        else item.reopenings
    | _ => item.reopenings := by
  unfold itemEdit
  cases e.body <;> try rfl
  · simp only [addLink]
    split <;> rfl
  · rename_i itemId reopening
    simp only [reopen]
    by_cases hself : itemId = some e.aggregateId
    · by_cases hclosed : item.realization = .done ∨ item.realization = .cancelled
      · simp [hself, hclosed]
      · simp [hself, hclosed]
    · simp [hself]

end Edit

/-! ## Of a state -/

/-- What an aspect makes of an event that creates nothing: the item addressed is
edited, the other ones and the decisions' targets keep it. -/
theorem aspect_applyEvent {α : Type} {f : ItemState → α}
    (hdispose : ∀ item gate d, f (dispose item gate d) = f item) (s : State) (e : EventData)
    (x : ItemId) :
    ((applyEvent s e).items.get x).map f =
      match e.body with
      | .itemCreated payload =>
          if x = e.aggregateId then some (f (itemOfCreated e.aggregateId payload))
          else (s.items.get x).map f
      | .decisionOutcome _ | .decisionDisposition _ _ _ _ => (s.items.get x).map f
      | _ => if x = e.aggregateId then (s.items.get x).map (f ∘ itemEdit e)
          else (s.items.get x).map f := by
  rw [items_applyEvent]
  unfold itemAt
  cases hbody : e.body with
  | itemCreated payload =>
      simp only
      split <;> rfl
  | decisionOutcome dest =>
      simp only
      cases s.decisions.get e.aggregateId with
      | none => rfl
      | some decision =>
          simp only
          split
          · rw [Option.map_map]
            congr 1
            funext item
            exact hdispose item _ _
          · rfl
  | decisionDisposition itemId gate disposition reason =>
      simp only
      split
      · rw [Option.map_map]
        congr 1
        funext item
        exact hdispose item _ _
      · rfl
  | _ =>
      simp only
      split
      · rw [Option.map_map]
      · rfl

/-- Only the creation of an item and one kind of event change the aspect. -/
theorem aspect_kept {α : Type} {f : ItemState → α}
    (hdispose : ∀ item gate d, f (dispose item gate d) = f item) {s : State} {e : EventData}
    (hcreated : ∀ payload, e.body ≠ .itemCreated payload)
    (hedit : ∀ item, f (itemEdit e item) = f item) (x : ItemId) :
    ((applyEvent s e).items.get x).map f = (s.items.get x).map f := by
  have hcomp : f ∘ itemEdit e = f := funext hedit
  rw [aspect_applyEvent hdispose, hcomp]
  split
  · rename_i payload hbody
    exact (hcreated payload hbody).elim
  · rfl
  · rfl
  · rw [ite_self]

end H2a.Track
