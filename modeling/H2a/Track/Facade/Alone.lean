import H2a.Library.Sequential
import H2a.Track.Events.Extend
import H2a.Track.Facade.Reachable
/-!
# A command run alone

What the steps of a command do to the world it runs in when nobody else writes.
-/

namespace H2a.Track

open H2a.Library H2a.Library.Program H2a.Track.Model
open H2a.Track.Events (Sha256)

/-- Where the facade starts to run. -/
abbrev FacadeWorld := Program.World Event JsString Query Query.Answer Stamp

/-- A world to run a command in. -/
def worldOf (log : List Event) : FacadeWorld where
  log := log
  ids := fun _ => js "id"
  answers := fun _ q => match q with
    | .now => js "2026-01-01T00:00:00.000Z"
    | .lease _ _ => none
  choices := Stamp.nth

/-- No delivery is under way on the instance. -/
structure Facade.Idle (facade : Facade) : Prop where
  clientToken : facade.activeClientToken = none
  dedupe : facade.activeDedupe = none

section Rules

variable {contentHashOf : EventData → Sha256} {facade : Facade} {w : FacadeWorld} {α β : Type}

theorem run_state {f : State → Prog β} :
    (Prog.state >>= f).run (perform contentHashOf) w =
      (f (fold w.log)).run (perform contentHashOf) w := rfl

theorem run_require {x : Option α} {message : String} {f : α → Prog β} :
    (Prog.require x message >>= f).run (perform contentHashOf) w =
      match x with
      | some a => (f a).run (perform contentHashOf) w
      | none => (.thrown (.domain message), w) := by
  cases x <;> rfl

theorem run_ensure {condition : Prop} [Decidable condition] {message : String}
    {f : Unit → Prog β} :
    (Prog.ensure condition message >>= f).run (perform contentHashOf) w =
      if condition then (f ()).run (perform contentHashOf) w
      else (.thrown (.domain message), w) := by
  by_cases h : condition
  · simp only [Prog.ensure, h, if_true]
    rfl
  · simp only [Prog.ensure, h, if_false]
    rfl

theorem run_check {x : Except String α} {f : α → Prog β} :
    (Prog.check x >>= f).run (perform contentHashOf) w =
      match x with
      | .ok a => (f a).run (perform contentHashOf) w
      | .error message => (.thrown (.domain message), w) := by
  cases x <;> rfl

theorem run_emitBatch {parts : List EventPart} {f : List Event → Prog β} :
    (facade.emitBatch parts >>= f).run (perform contentHashOf) w =
      match perform contentHashOf w.log (facade.emission parts) (w.choices 0) with
      | (.ok events, log) => (f events).run (perform contentHashOf) (w.write log)
      | (.error error, log) => (.thrown error, w.write log) := by
  rw [run_bind]
  simp only [Facade.emitBatch, Prog.append, Program.run]
  cases perform contentHashOf w.log (facade.emission parts) (w.choices 0) with
  | mk result log => cases result <;> rfl

/-- An idle instance has no retry to recognise. -/
theorem inputs_untokened (hidle : facade.Idle) (parts : List EventPart) (stamp : Stamp) :
    ∀ input ∈ (facade.emission parts).inputs stamp, input.clientToken = none := by
  intro input hinput
  simp only [Emission.inputs, List.mem_map] at hinput
  obtain ⟨part, -, rfl⟩ := hinput
  exact hidle.clientToken

/-- What an idle instance appends is written. -/
theorem written_of_perform (hidle : facade.Idle) {parts : List EventPart} {stamp : Stamp}
    {log log' : List Event} {events : List Event}
    (h : perform contentHashOf log (facade.emission parts) stamp = (.ok events, log')) :
    log' = log ++ events ∧ List.Forall₂ (PersistedAs (facade.emission parts)) parts events := by
  cases perform_done h with
  | deduped hhook => simp [Facade.emission, hidle.dedupe] at hhook
  | @retried stamp _ _ hretried =>
      rw [Events.dedupByClientToken_untokened (inputs_untokened hidle parts stamp)] at hretried
      simp at hretried
  | written hevents => exact ⟨rfl, hevents⟩

theorem Aggregate.text_inj {a b : Aggregate} (h : a.text = b.text) : a = b := by
  cases a <;> cases b <;> first
    | rfl
    | exact absurd h (by decide)

/-- What is persisted of a single part. -/
def Facade.coreOf (facade : Facade) (part : EventPart) (stamp : Stamp) : EventData where
  id := stamp.ids 0
  body := part.body
  aggregate := part.aggregate
  aggregateId := part.aggregateId
  at_ := stamp.at_
  by_ := facade.actor
  prov := facade.prov
  clientToken := facade.activeClientToken
  batch := none

/-- The append of a single event that no retry is recognised in: it is written unless the
aggregate is of another kind. -/
theorem perform_one (facade : Facade) (part : EventPart) (stamp : Stamp) {log : List Event}
    (hsound : Events.Sound contentHashOf log) (hrecheck : facade.activeRecheck = none)
    (hbody : part.body.materialize = .ok part.body)
    (hplain : Events.Plain (facade.coreOf part stamp))
    (hdedupe : Events.runDedupe ((facade.emission [part]).opts stamp)
      ((facade.emission [part]).inputs stamp) log = .ok none) :
    ((∀ e ∈ log, e.core.aggregateId = part.aggregateId → e.core.aggregate = part.aggregate) →
      Events.Sound contentHashOf
          (log ++ [Events.sealNext contentHashOf log (facade.coreOf part stamp)]) ∧
        perform contentHashOf log (facade.emission [part]) stamp =
          (.ok [Events.sealNext contentHashOf log (facade.coreOf part stamp)],
            log ++ [Events.sealNext contentHashOf log (facade.coreOf part stamp)])) ∧
    (¬ (∀ e ∈ log, e.core.aggregateId = part.aggregateId → e.core.aggregate = part.aggregate) →
      ∃ error, perform contentHashOf log (facade.emission [part]) stamp = (.error error, log)) := by
  let c := facade.coreOf part stamp
  have hsingle : Events.Single contentHashOf log (storeOf log).head
      ((facade.emission [part]).opts stamp) c.toEventInput c := by
    refine ⟨hsound, ?_, hdedupe, ?_, ?_, rfl⟩
    · unfold storeOf
      dsimp only
      split
      · trivial
      · exact Events.anchored_headOf log
    · simp [Events.runRecheck, Emission.opts, Facade.emission, hrecheck]
    · change EventInput.materialize c.toEventInput none = .ok c
      unfold EventInput.materialize
      change (do let body ← part.body.materialize; _) = _
      rw [hbody]
      rfl
  have hnext : Events.Sound contentHashOf (log ++ [Events.sealNext contentHashOf log c]) ↔
      ∀ e ∈ log, e.core.aggregateId = part.aggregateId → e.core.aggregate = part.aggregate := by
    rw [Events.sound_concat_iff hsound, Events.wellFormed_concat_iff hsound.wellFormed hplain,
      List.forall_mem_map]
    refine forall₂_congr fun e _ => forall_congr' fun _ => ?_
    refine ⟨fun h => (Aggregate.text_inj (Option.some.inj (h _ rfl))).symm, fun h kind hkind => ?_⟩
    rw [← hkind]
    exact congrArg (fun aggregate : Aggregate => some aggregate.text) h.symm
  have hperform : perform contentHashOf log (facade.emission [part]) stamp =
      let result := Events.Store.appendCommand contentHashOf ⟨log, (storeOf log).head⟩
        [c.toEventInput] ((facade.emission [part]).opts stamp)
      (result.1.mapError .store, result.2.log) := rfl
  rw [hperform]
  refine ⟨fun hkind => ?_, fun hkind => ?_⟩
  · rw [Events.appendCommand_one hsingle (hnext.mpr hkind)]
    exact ⟨hnext.mpr hkind, rfl⟩
  · obtain ⟨error, hrefused⟩ :=
      Events.appendCommand_one_refused hsingle fun h => hkind (hnext.mp h)
    rw [hrefused]
    exact ⟨.store error, rfl⟩

/-- An idle instance emits a single event: it is written unless the aggregate is of
another kind. -/
theorem run_emit (hidle : facade.Idle) (hrecheck : facade.activeRecheck = none)
    {aggregate : Aggregate} {x : Ulid} {body : EventBody}
    (hsound : Events.Sound contentHashOf w.log) (hbody : body.materialize = .ok body)
    (hplain : Events.Plain (facade.coreOf ⟨aggregate, x, body⟩ (w.choices 0)))
    (hkind : ∀ e ∈ w.log, e.core.aggregateId = x → e.core.aggregate = aggregate) :
    ∃ ev, (facade.emit aggregate x body).run (perform contentHashOf) w =
        (.returned [ev], w.write (w.log ++ [ev])) ∧
      ev.core = facade.coreOf ⟨aggregate, x, body⟩ (w.choices 0) ∧
      Events.Sound contentHashOf (w.log ++ [ev]) := by
  have hdedupe : Events.runDedupe ((facade.emission [⟨aggregate, x, body⟩]).opts (w.choices 0))
      ((facade.emission [⟨aggregate, x, body⟩]).inputs (w.choices 0)) w.log = .ok none := by
    have huntokened := inputs_untokened hidle [⟨aggregate, x, body⟩] (w.choices 0)
    simp only [Events.runDedupe, Emission.opts, Facade.emission, hidle.dedupe, Option.map_none]
    exact Events.dedupByClientToken_untokened huntokened
  obtain ⟨hnext, hperform⟩ := (perform_one facade ⟨aggregate, x, body⟩ (w.choices 0) hsound
    hrecheck hbody hplain hdedupe).1 hkind
  refine ⟨_, ?_, rfl, hnext⟩
  simp only [Facade.emit, Facade.emitBatch, Prog.append, Program.run, hperform]

end Rules

/-! ## Any append -/

theorem perform_sound {contentHashOf : EventData → Sha256} {log : List Event} (e : Emission)
    (stamp : Stamp) (h : Events.Sound contentHashOf log) :
    Events.Sound contentHashOf (perform contentHashOf log e stamp).2 := by
  simp only [perform, Events.Store.appendCommand]
  split
  · exact h
  · rename_i hcheck
    split
    · exact h
    · exact h
    · rename_i events hplan
      obtain ⟨hsound, -⟩ := Events.planAppend_append hcheck hplan
      split
      · exact hsound
      · exact hsound

end H2a.Track
