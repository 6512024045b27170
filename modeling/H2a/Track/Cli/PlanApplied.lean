import H2a.Track.Cli.RestructureApply
import H2a.Track.Report.Traversals
/-!
# All of a restructure plan, or nothing

The dry run looks at the graph the whole plan asks for, and the edges are applied one by
one, each against the graph there is by then.  This says which plans that passed the dry
run are applied, and that no other is without a trace.
-/

namespace H2a.Track.Cli

open H2a.Library H2a.Library.Program H2a.Library.Concurrent H2a.Track.Model
open H2a.Library.Chain (Follows OnCycle Grounded)
open H2a.Track.Events (Sha256)
open H2a.Track.Facade (parentOf ancestryWalk walkAncestors guardCycle)
open H2a.Track.Ingest

/-! ## What is said of a plan -/

/-- The log has the move of an edge, under the token the plan has for it. -/
def Recorded (log : List Event) (planHash : Sha256) (e : RestructureEdge) : Prop :=
  ∃ ev ∈ log, ev.core.aggregate = .item ∧ ev.core.aggregateId = e.itemId ∧
    ev.core.clientToken = some (tokenOf planHash e) ∧ ∃ restructureRef,
      ev.core.body = .itemReparented (some e.parentId) (some planHash) restructureRef

/-- The move of an edge is in the log, and the item is where it puts it. -/
structure InPlace (log : List Event) (planHash : Sha256) (e : RestructureEdge) : Prop where
  recorded : Recorded log planHash e
  parent : parentOf (fold log) e.itemId = some e.parentId

/-- The token of an edge is known in the workspace of its child. -/
def TokenKnown (log : List Event) (planHash : Sha256) (e : RestructureEdge) : Prop :=
  ∃ ev ∈ log, ev.core.clientToken = some (tokenOf planHash e) ∧
    ((fold log).items.get e.itemId).isSome ∧
      eventWorkspace ev (fold log) = ((fold log).items.get e.itemId).map (·.workspace)

instance (log : List Event) (planHash : Sha256) (e : RestructureEdge) :
    Decidable (TokenKnown log planHash e) :=
  inferInstanceAs (Decidable (∃ ev ∈ log, _ ∧ _))

/-- The edges in the order in which they are applied. -/
def appliedOrder (s : State) (edges : List RestructureEdge) : List RestructureEdge :=
  (groupByWorkspace s edges).entries.flatMap Prod.snd

/-- The parents after the edges whose tokens are new. -/
def moved (log : List Event) (planHash : Sha256)
    (parents : ItemId → Option ItemId) : List RestructureEdge → ItemId → Option ItemId
  | [] => parents
  | e :: rest =>
      if TokenKnown log planHash e then moved log planHash parents rest
      else moved log planHash (Function.update parents e.itemId (some e.parentId)) rest

/-- An edge passes what is checked of it when its turn comes: its token is not too long
and, unless it is known, the child is an item to the log and not above its new parent. -/
structure Passes (log : List Event) (planHash : Sha256) (parents : ItemId → Option ItemId)
    (e : RestructureEdge) : Prop where
  token : (tokenOf planHash e).length ≤ maxClientToken
  kind : ¬ TokenKnown log planHash e →
    ∀ ev ∈ log, ev.core.aggregateId = e.itemId → ev.core.aggregate = .item
  apart : ¬ TokenKnown log planHash e → ¬ Follows parents e.parentId e.itemId

/-- The edges pass one after the other, each where the ones before it have been applied. -/
def InOrder (log : List Event) (planHash : Sha256) :
    (ItemId → Option ItemId) → List RestructureEdge → Prop
  | _, [] => True
  | parents, e :: rest => Passes log planHash parents e ∧
      InOrder log planHash (moved log planHash parents [e]) rest

/-! ## The state after a move -/

section Move

variable {log : List Event} {ev : Event} {x p : ItemId} {planHash restructureRef : Option JsString}

/-- The event moves `x` under `p`. -/
structure Moves (ev : Event) (x p : ItemId) : Prop where
  aggregate : ev.core.aggregate = .item
  aggregateId : ev.core.aggregateId = x
  body : ∃ planHash restructureRef, ev.core.body = .itemReparented (some p) planHash restructureRef

theorem Moves.fold_raw (h : Moves ev x p) : rawFold (log ++ [ev]) =
    { rawFold log with
      items := (rawFold log).items.modify x fun item => { item with parentId := some p } } := by
  obtain ⟨_, _, hbody⟩ := h.body
  rw [rawFold_concat, applyEvent, hbody, h.aggregateId]
  rfl

theorem Moves.items (h : Moves ev x p) (y : ItemId) : (fold (log ++ [ev])).items.get y =
    if y = x then ((fold log).items.get x).map fun item => { item with parentId := some p }
    else (fold log).items.get y := by
  rw [fold_items, fold_items, h.fold_raw, JsMap.get_modify]

/-- A move leaves the role and the workspace of every item. -/
theorem Moves.kept (h : Moves ev x p) (y : ItemId) :
    ((fold (log ++ [ev])).items.get y).map (fun item => (item.role, item.workspace)) =
      ((fold log).items.get y).map fun item => (item.role, item.workspace) := by
  rw [h.items]
  by_cases hy : y = x
  · rw [if_pos hy, Option.map_map, hy]
    rfl
  · rw [if_neg hy]

theorem Moves.workspace (h : Moves ev x p) (y : ItemId) :
    ((fold (log ++ [ev])).items.get y).map (·.workspace) =
      ((fold log).items.get y).map (·.workspace) := by
  have hkept := congrArg (Option.map Prod.snd) (@Moves.kept log _ _ _ h y)
  rwa [Option.map_map, Option.map_map] at hkept

theorem Moves.eventWorkspace (h : Moves ev x p) (ev' : Event) :
    eventWorkspace ev' (fold (log ++ [ev])) = eventWorkspace ev' (fold log) := by
  have hdecisions : (fold (log ++ [ev])).decisions = (fold log).decisions := by
    rw [fold_decisions, fold_decisions, h.fold_raw]
  have hdemands : (fold (log ++ [ev])).demands = (fold log).demands := by
    rw [fold_demands, fold_demands, h.fold_raw]
  unfold Ingest.eventWorkspace
  cases ev'.core.aggregate with
  | item => exact h.workspace _
  | decision => rw [hdecisions]
  | blocker =>
      dsimp only
      rw [fold_blockers, fold_blockers, h.fold_raw]
      cases (rawFold log).blockers.get ev'.core.aggregateId with
      | none => rfl
      | some blocker => exact h.workspace _
  | verification => rfl
  | demand => rw [hdemands]

theorem Moves.parentOf (h : Moves ev x p) (hitem : ((fold log).items.get x).isSome) :
    parentOf (fold (log ++ [ev])) = Function.update (parentOf (fold log)) x (some p) := by
  funext y
  unfold Facade.parentOf
  rw [h.items]
  by_cases hy : y = x
  · obtain ⟨item, hitem⟩ := Option.isSome_iff_exists.mp hitem
    rw [if_pos hy, hy, hitem, Function.update_self]
    rfl
  · rw [if_neg hy, Function.update_of_ne hy]

end Move

/-! ## How far a plan has got -/

section Progress

variable {contentHashOf : EventData → Sha256} {log₀ log : List Event} {planHash : Sha256}
variable {done : List RestructureEdge} {e : RestructureEdge}

/-- The log after some edges of a plan, of which the ones with a new token were written. -/
structure Progress (contentHashOf : EventData → Sha256) (log₀ : List Event) (planHash : Sha256)
    (done : List RestructureEdge) (log : List Event) : Prop where
  sound : Events.Sound contentHashOf log
  grounded : Grounded (parentOf (fold log))
  kept : ∀ x, ((fold log).items.get x).map (fun item => (item.role, item.workspace)) =
    ((fold log₀).items.get x).map fun item => (item.role, item.workspace)
  eventWorkspace : ∀ ev, eventWorkspace ev (fold log) = eventWorkspace ev (fold log₀)
  written : ∃ events, log = log₀ ++ events ∧ ∀ ev ∈ events, ∃ e ∈ done, ¬ TokenKnown log₀ planHash e ∧
    Moves ev e.itemId e.parentId ∧ ev.core.clientToken = some (tokenOf planHash e)
  new : ∀ e ∈ done, ¬ TokenKnown log₀ planHash e → InPlace log planHash e
  old : ∀ x, (∀ e ∈ done, e.itemId = x → TokenKnown log₀ planHash e) →
    parentOf (fold log) x = parentOf (fold log₀) x

theorem tokenOf_inj {a b : RestructureEdge} (h : tokenOf planHash a = tokenOf planHash b) :
    a.itemId = b.itemId := by
  have hunits := congrArg JsString.units h
  simp only [tokenOf] at hunits
  exact JsString.ext_units (List.append_cancel_left hunits)

variable (planHash) in
theorem Progress.start (hsound : Events.Sound contentHashOf log₀)
    (hacyclic : ∀ x, ¬ OnCycle (parentOf (fold log₀)) x) :
    Progress contentHashOf log₀ planHash [] log₀ where
  sound := hsound
  grounded := ⟨fun x => Chain.ends_of_not_onCycle finite_parents fun y _ => hacyclic y⟩
  kept _ := rfl
  eventWorkspace _ := rfl
  written := ⟨[], (List.append_nil _).symm, by simp⟩
  new := by simp
  old _ _ := rfl

/-- An edge whose token is known adds nothing. -/
theorem Progress.skip (h : Progress contentHashOf log₀ planHash done log)
    (hknown : TokenKnown log₀ planHash e) :
    Progress contentHashOf log₀ planHash (done ++ [e]) log where
  sound := h.sound
  grounded := h.grounded
  kept := h.kept
  eventWorkspace := h.eventWorkspace
  written := by
    obtain ⟨events, hlog, hevents⟩ := h.written
    refine ⟨events, hlog, fun ev hev => ?_⟩
    obtain ⟨e', he', hmove⟩ := hevents ev hev
    exact ⟨e', List.mem_append_left _ he', hmove⟩
  new e' he' hnew := by
    rcases List.mem_append.mp he' with he' | he'
    · exact h.new e' he' hnew
    · rw [List.mem_singleton.mp he'] at hnew
      exact absurd hknown hnew
  old x hx := h.old x fun e' he' => hx e' (List.mem_append_left _ he')

/-- An edge whose token is new is written, where its child is not above its new parent. -/
theorem Progress.write (h : Progress contentHashOf log₀ planHash done log)
    (hfresh : e.itemId ∉ done.map (·.itemId)) (hnew : ¬ TokenKnown log₀ planHash e)
    (hitem : ((fold log).items.get e.itemId).isSome)
    (hapart : ¬ Follows (parentOf (fold log)) e.parentId e.itemId) {ev : Event}
    (hmove : Moves ev e.itemId e.parentId) {restructureRef : Option JsString}
    (hbody : ev.core.body = .itemReparented (some e.parentId) (some planHash) restructureRef)
    (htoken : ev.core.clientToken = some (tokenOf planHash e))
    (hsound : Events.Sound contentHashOf (log ++ [ev])) :
    Progress contentHashOf log₀ planHash (done ++ [e]) (log ++ [ev]) := by
  have hparent := hmove.parentOf hitem
  have hself : InPlace (log ++ [ev]) planHash e := by
    refine ⟨⟨ev, by simp, hmove.aggregate, hmove.aggregateId, htoken, _, hbody⟩, ?_⟩
    rw [hparent, Function.update_self]
  refine ⟨hsound, ?_, fun x => (hmove.kept x).trans (h.kept x), fun ev' => ?_, ?_, ?_, ?_⟩
  · rw [hparent]
    refine h.grounded.relink (x := e.itemId) (fun y hy => Function.update_of_ne hy _ _) ?_
    intro y hy
    rw [Function.update_self, Option.some.injEq] at hy
    exact hy ▸ hapart
  · exact (hmove.eventWorkspace ev').trans (h.eventWorkspace ev')
  · obtain ⟨events, hlog, hevents⟩ := h.written
    refine ⟨events ++ [ev], by rw [hlog, List.append_assoc], fun ev' hev' => ?_⟩
    rcases List.mem_append.mp hev' with hev' | hev'
    · obtain ⟨e', he', hmove'⟩ := hevents ev' hev'
      exact ⟨e', List.mem_append_left _ he', hmove'⟩
    · rw [List.mem_singleton.mp hev']
      exact ⟨e, by simp, hnew, hmove, htoken⟩
  · intro e' he' hnew'
    rcases List.mem_append.mp he' with he' | he'
    · obtain ⟨⟨ev', hev', hrecorded⟩, hplaced⟩ := h.new e' he' hnew'
      refine ⟨⟨ev', List.mem_append_left _ hev', hrecorded⟩, ?_⟩
      have hne : e'.itemId ≠ e.itemId := fun heq =>
        hfresh (heq ▸ List.mem_map_of_mem he')
      rw [hparent, Function.update_of_ne hne]
      exact hplaced
    · rw [List.mem_singleton.mp he']
      exact hself
  · intro x hx
    have hne : x ≠ e.itemId := fun heq => hnew (hx e (by simp) heq.symm)
    rw [hparent, Function.update_of_ne hne]
    exact h.old x fun e' he' => hx e' (List.mem_append_left _ he')

/-- For an edge that is not done the log knows the token when it did at the start. -/
theorem Progress.tokenKnown_iff (h : Progress contentHashOf log₀ planHash done log)
    (hfresh : e.itemId ∉ done.map (·.itemId)) {workspace : JsString}
    (hworkspace : ((fold log₀).items.get e.itemId).map (·.workspace) = some workspace) :
    (∃ ev ∈ log, ev.core.clientToken = some (tokenOf planHash e) ∧
      Ingest.eventWorkspace ev (fold log) = some workspace) ↔ TokenKnown log₀ planHash e := by
  obtain ⟨events, hlog, hevents⟩ := h.written
  have hsome : ((fold log₀).items.get e.itemId).isSome := by
    rw [← Option.isSome_map (f := (·.workspace)), hworkspace]
    rfl
  refine ⟨fun ⟨ev, hev, htoken, hws⟩ => ?_, fun ⟨ev, hev, htoken, _, hws⟩ => ?_⟩
  · rw [hlog] at hev
    rcases List.mem_append.mp hev with hev | hev
    · refine ⟨ev, hev, htoken, hsome, ?_⟩
      rw [hworkspace, ← hws, h.eventWorkspace]
    · obtain ⟨e', he', -, -, htoken'⟩ := hevents ev hev
      rw [htoken, Option.some.injEq] at htoken'
      exact absurd (tokenOf_inj htoken' ▸ List.mem_map_of_mem he') hfresh
  · refine ⟨ev, hlog ▸ List.mem_append_left _ hev, htoken, ?_⟩
    rw [h.eventWorkspace, hws, hworkspace]

end Progress

/-! ## The run of one edge -/

section Edge

variable {contentHashOf : EventData → Sha256} {w : FacadeWorld} {facade : Facade}
variable {x p : ItemId} {e : RestructureEdge} {planHash : Sha256} {restructureRef : Option JsString}

/-- What the dry run and the checks before it have established of an edge. -/
structure Fits (s : State) (e : RestructureEdge) : Prop where
  apart : e.parentId ≠ e.itemId
  nested : ∃ item parent, s.items.get e.itemId = some item ∧ s.items.get e.parentId = some parent ∧
    assertRoleNesting item.role parent.role e.itemId e.parentId = .ok ()

theorem follows_of_reached {s : State} {fuel : Nat} {cursor : ItemId}
    (h : walkAncestors s x fuel (some cursor) = .reached) : Follows (parentOf s) cursor x := by
  induction fuel generalizing cursor with
  | zero => simp [walkAncestors] at h
  | succ fuel ih =>
      unfold walkAncestors at h
      split at h
      · rename_i hcursor
        exact hcursor ▸ .refl
      · cases hnext : parentOf s cursor with
        | none => simp [walkAncestors, hnext] at h
        | some next =>
            rw [hnext] at h
            exact .head hnext (ih h)

/-- With no cycle about, the walk up tells whether the item is above. -/
theorem ancestryWalk_of_grounded {s : State} (h : Grounded (parentOf s)) :
    (Follows (parentOf s) p x → ancestryWalk s x p = .reached) ∧
      (¬ Follows (parentOf s) p x → ancestryWalk s x p = .clear) := by
  have hends : ancestryWalk s x p ≠ .endless := fun hendless =>
    (ancestryWalk_eq_endless_iff.mp hendless).1 (h.apply p)
  refine ⟨fun hfollows => ?_, fun hapart => ?_⟩
  · cases hwalk : ancestryWalk s x p with
    | reached => rfl
    | clear => exact absurd hfollows (not_follows_of_clear hwalk)
    | endless => exact absurd hwalk hends
  · cases hwalk : ancestryWalk s x p with
    | clear => rfl
    | reached => exact absurd (follows_of_reached hwalk) hapart
    | endless => exact absurd hwalk hends

/-- An edge whose child is above its new parent is refused. -/
theorem run_restructureReparent_reached (hfits : Fits (fold w.log) e)
    (hgrounded : Grounded (parentOf (fold w.log)))
    (h : Follows (parentOf (fold w.log)) e.parentId e.itemId) : ∃ error,
      (facade.restructureReparent e.itemId e.parentId planHash restructureRef).run
        (perform contentHashOf) w = (.thrown error, w) := by
  obtain ⟨item, parent, hitem, hparent, hnested⟩ := hfits.nested
  refine ⟨.domain
    s!"cannot reparent item {e.itemId} under its own descendant {e.parentId} (cycle)", ?_⟩
  simp only [Facade.restructureReparent, run_state, run_require, run_ensure, run_check, hitem,
    hparent, hnested, hfits.apart, ne_eq, not_false_eq_true, if_true, guardCycle,
    (ancestryWalk_of_grounded hgrounded).1 h]
  rfl

/-- An edge whose child is not above its new parent is handed to the store. -/
theorem run_restructureReparent_clear (hfits : Fits (fold w.log) e)
    (hgrounded : Grounded (parentOf (fold w.log)))
    (h : ¬ Follows (parentOf (fold w.log)) e.parentId e.itemId) :
    (facade.restructureReparent e.itemId e.parentId planHash restructureRef).run
        (perform contentHashOf) w =
      match perform contentHashOf w.log (facade.emission [⟨.item, e.itemId,
        .itemReparented (some e.parentId) (some planHash) restructureRef⟩]) (w.choices 0) with
      | (.ok _, log) => (.returned (), w.write log)
      | (.error error, log) => (.thrown error, w.write log) := by
  obtain ⟨item, parent, hitem, hparent, hnested⟩ := hfits.nested
  simp only [Facade.restructureReparent, run_state, run_require, run_ensure, run_check, hitem,
    hparent, hnested, hfits.apart, ne_eq, not_false_eq_true, if_true, guardCycle,
    (ancestryWalk_of_grounded hgrounded).2 h]
  exact run_emitBatch

variable {by_ : Option ActorId} {workspace : JsString} {seen : JsMap JsString (Option JsString)}
variable {rest : List RestructureEvent} {α β : Type}

theorem run_checkIngest {x : Except String α} {f : α → Prog β} :
    (checkIngest x >>= f).run (perform contentHashOf) w =
      match x with
      | .ok a => (f a).run (perform contentHashOf) w
      | .error message => (.thrown (.ingest message), w) := by
  cases x <;> rfl

theorem mapWorkEvent_eq_ok_iff :
    mapWorkEvent (eventOf planHash restructureRef e) = .ok () ↔
      (tokenOf planHash e).length ≤ maxClientToken := by
  have hne : (tokenOf planHash e).length ≠ 0 := by
    simp only [tokenOf, JsString.length]
    change (planHash.units ++ (js ":").units ++ e.itemId.units).length ≠ 0
    have hcolon : (js ":").units.length = 1 := by decide
    simp only [List.length_append, hcolon]
    omega
  simp only [mapWorkEvent, eventOf, hne, false_or]
  split <;> simp <;> omega

/-- An event whose token is too long is refused. -/
theorem run_ingestFrom_long (h : ¬ (tokenOf planHash e).length ≤ maxClientToken) {ctx : IngestContext} :
    ∃ error, (ingestFrom ctx seen (eventOf planHash restructureRef e :: rest)).run
      (perform contentHashOf) w = (.thrown error, w) := by
  rw [ingestFrom, run_checkIngest]
  cases hmap : mapWorkEvent (eventOf planHash restructureRef e) with
  | ok => exact absurd (mapWorkEvent_eq_ok_iff.mp hmap) h
  | error message => exact ⟨_, rfl⟩

/-- An event whose token is known is passed over. -/
theorem run_ingestFrom_known (h : (tokenOf planHash e).length ≤ maxClientToken)
    {ctx : IngestContext} {id : Option JsString} (hseen : seen.get (tokenOf planHash e) = some id) :
    (ingestFrom ctx seen (eventOf planHash restructureRef e :: rest)).run (perform contentHashOf) w =
      Outcome.andThen ((ingestFrom ctx seen rest).run (perform contentHashOf) w) fun ids w =>
        (.returned (id :: ids), w) := by
  rw [ingestFrom, run_checkIngest, mapWorkEvent_eq_ok_iff.mpr h]
  have hbind : (eventOf planHash restructureRef e).clientToken.bind seen.get = some id := hseen
  simp only [hbind]
  rw [run_bind]
  rfl

/-- The instance an edge is written with. -/
def writerOf (by_ : Option ActorId) (workspace : JsString) (planHash : Sha256)
    (e : RestructureEdge) : Facade :=
  (channelOf by_ workspace).track.withClientToken (some (tokenOf planHash e))
    (some (workspaceDedupe (tokenOf planHash e) workspace))

/-- An event whose token is new is put to the log. -/
theorem run_ingestFrom_new (h : (tokenOf planHash e).length ≤ maxClientToken)
    (hseen : seen.get (tokenOf planHash e) = none)
    (hworkspace : ((fold w.log).items.get e.itemId).map (·.workspace) = some workspace) :
    (ingestFrom (channelOf by_ workspace) seen (eventOf planHash restructureRef e :: rest)).run
        (perform contentHashOf) w =
      Outcome.andThen (((writerOf by_ workspace planHash e).restructureReparent e.itemId e.parentId
          planHash restructureRef).run (perform contentHashOf) w) fun _ w =>
        Outcome.andThen ((ingestFrom (channelOf by_ workspace)
          (seen.set (tokenOf planHash e) none) rest).run (perform contentHashOf) w) fun ids w =>
            (.returned (none :: ids), w) := by
  rw [ingestFrom, run_checkIngest, mapWorkEvent_eq_ok_iff.mpr h]
  have hbind : (eventOf planHash restructureRef e).clientToken.bind seen.get = none := hseen
  have hauthorize : authorize (channelOf by_ workspace) (fold w.log)
      (eventOf planHash restructureRef e) = .ok () :=
    authorize_granted rfl hworkspace rfl
  simp only [hbind]
  rw [run_state, run_checkIngest, hauthorize]
  dsimp only
  rw [run_bind]
  refine congrArg (Outcome.andThen _) ?_
  funext _ w
  rw [run_bind]
  rfl

end Edge

/-! ## The run of the edges -/

section Edges

variable {contentHashOf : EventData → Sha256} {log₀ : List Event} {w : FacadeWorld}
variable {planHash : Sha256} {by_ : Option ActorId} {restructureRef : Option JsString}
variable {workspace : JsString} {done : List RestructureEdge} {e : RestructureEdge}

theorem Progress.fits {log : List Event} (h : Progress contentHashOf log₀ planHash done log)
    (hfits : Fits (fold log₀) e) : Fits (fold log) e := by
  obtain ⟨item₀, parent₀, hitem₀, hparent₀, hnested⟩ := hfits.nested
  have hfound : ∀ x item₀, (fold log₀).items.get x = some item₀ →
      ∃ item, (fold log).items.get x = some item ∧ item.role = item₀.role := by
    intro x item₀ hx
    have hkept := h.kept x
    rw [hx] at hkept
    obtain ⟨item, hitem, hpair⟩ := Option.map_eq_some_iff.mp hkept
    exact ⟨item, hitem, congrArg Prod.fst hpair⟩
  obtain ⟨item, hitem, hrole⟩ := hfound _ _ hitem₀
  obtain ⟨parent, hparent, hrole'⟩ := hfound _ _ hparent₀
  exact ⟨hfits.apart, item, parent, hitem, hparent, by rw [hrole, hrole']; exact hnested⟩

theorem Progress.kind_iff {log : List Event} (h : Progress contentHashOf log₀ planHash done log) :
    (∀ ev ∈ log, ev.core.aggregateId = e.itemId → ev.core.aggregate = .item) ↔
      ∀ ev ∈ log₀, ev.core.aggregateId = e.itemId → ev.core.aggregate = .item := by
  obtain ⟨events, rfl, hevents⟩ := h.written
  refine ⟨fun hall ev hev => hall ev (List.mem_append_left _ hev), fun hall ev hev hid => ?_⟩
  rcases List.mem_append.mp hev with hev | hev
  · exact hall ev hev hid
  · obtain ⟨_, -, -, hmove, -⟩ := hevents ev hev
    exact hmove.aggregate

variable (by_ restructureRef) in
/-- An edge handed to the store is written, unless its child is no item to the log. -/
theorem Progress.perform (h : Progress contentHashOf log₀ planHash done w.log)
    (hfresh : e.itemId ∉ done.map (·.itemId)) (hnew : ¬ TokenKnown log₀ planHash e)
    (hworkspace : ((fold log₀).items.get e.itemId).map (·.workspace) = some workspace) :
    let emission := (writerOf by_ workspace planHash e).emission
      [⟨.item, e.itemId, .itemReparented (some e.parentId) (some planHash) restructureRef⟩]
    ((∀ ev ∈ log₀, ev.core.aggregateId = e.itemId → ev.core.aggregate = .item) →
      ∃ ev, perform contentHashOf w.log emission (w.choices 0) = (.ok [ev], w.log ++ [ev]) ∧
        Moves ev e.itemId e.parentId ∧ ev.core.clientToken = some (tokenOf planHash e) ∧
        ev.core.body = .itemReparented (some e.parentId) (some planHash) restructureRef ∧
        Events.Sound contentHashOf (w.log ++ [ev])) ∧
    (¬ (∀ ev ∈ log₀, ev.core.aggregateId = e.itemId → ev.core.aggregate = .item) →
      ∃ error, perform contentHashOf w.log emission (w.choices 0) = (.error error, w.log)) := by
  have hunknown := (not_congr (h.tokenKnown_iff hfresh hworkspace)).mpr hnew
  let part : EventPart :=
    ⟨.item, e.itemId, .itemReparented (some e.parentId) (some planHash) restructureRef⟩
  let facade := writerOf by_ workspace planHash e
  have hdedupe : Events.runDedupe ((facade.emission [part]).opts (w.choices 0))
      ((facade.emission [part]).inputs (w.choices 0)) w.log = .ok none := by
    change Except.mapError Events.StoreError.hook
      (.ok ((workspaceDedupe (tokenOf planHash e) workspace).run _ w.log)) = _
    rw [workspaceDedupe_run_eq_none_iff.mpr hunknown]
    rfl
  have hone := perform_one facade part (w.choices 0) h.sound rfl rfl ⟨rfl, rfl, rfl, fun _ => nofun⟩ hdedupe
  rw [h.kind_iff] at hone
  refine ⟨fun hkind => ?_, hone.2⟩
  obtain ⟨hsound, hperform⟩ := hone.1 hkind
  exact ⟨_, hperform, ⟨rfl, rfl, _, _, rfl⟩, rfl, rfl, hsound⟩

variable (by_ restructureRef) in
/-- The run of an edge with a new token: it is written, or it is refused. -/
theorem run_writer (h : Progress contentHashOf log₀ planHash done w.log)
    (hfits : Fits (fold log₀) e) (hfresh : e.itemId ∉ done.map (·.itemId))
    (hnew : ¬ TokenKnown log₀ planHash e)
    (hworkspace : ((fold log₀).items.get e.itemId).map (·.workspace) = some workspace) :
    let result := ((writerOf by_ workspace planHash e).restructureReparent e.itemId e.parentId
      planHash restructureRef).run (perform contentHashOf) w
    let passes := (∀ ev ∈ log₀, ev.core.aggregateId = e.itemId → ev.core.aggregate = .item) ∧
      ¬ Follows (parentOf (fold w.log)) e.parentId e.itemId
    (passes → ∃ w', result = (.returned (), w') ∧
      Progress contentHashOf log₀ planHash (done ++ [e]) w'.log ∧
        parentOf (fold w'.log) =
          Function.update (parentOf (fold w.log)) e.itemId (some e.parentId)) ∧
    (¬ passes → ∃ error w', result = (.thrown error, w')) := by
  dsimp only
  have hfit := h.fits hfits
  have hwritten := h.perform by_ restructureRef hfresh hnew hworkspace
  by_cases hreach : Follows (parentOf (fold w.log)) e.parentId e.itemId
  · refine ⟨fun hpasses => absurd hreach hpasses.2, fun _ => ?_⟩
    obtain ⟨error, hrun⟩ := run_restructureReparent_reached hfit h.grounded hreach
    exact ⟨error, w, hrun⟩
  · rw [run_restructureReparent_clear hfit h.grounded hreach]
    refine ⟨fun hpasses => ?_, fun hnot => ?_⟩
    · obtain ⟨ev, hperform, hmove, htoken, hbody, hsound⟩ := hwritten.1 hpasses.1
      obtain ⟨item, -, hitem, -⟩ := hfit.nested
      have hsome : ((fold w.log).items.get e.itemId).isSome := by rw [hitem]; rfl
      rw [hperform]
      refine ⟨_, rfl, h.write hfresh hnew hsome hreach hmove hbody htoken hsound, ?_⟩
      exact hmove.parentOf hsome
    · obtain ⟨error, hperform⟩ := hwritten.2 fun hkind => hnot ⟨hkind, hreach⟩
      rw [hperform]
      exact ⟨error, _, rfl⟩

variable (by_ restructureRef) in
/-- The edges of one workspace: they are all applied when they pass in order, and one is
refused when not. -/
theorem run_group {group : List RestructureEdge} {seen : JsMap JsString (Option JsString)}
    (h : Progress contentHashOf log₀ planHash done w.log)
    (hfits : ∀ e ∈ group, Fits (fold log₀) e)
    (hworkspace : ∀ e ∈ group,
      ((fold log₀).items.get e.itemId).map (·.workspace) = some workspace)
    (hnodup : ((done ++ group).map (·.itemId)).Nodup)
    (hseen : ∀ e ∈ group, (seen.get (tokenOf planHash e)).isSome ↔ TokenKnown log₀ planHash e) :
    let result := (ingestFrom (channelOf by_ workspace) seen
      (group.map (eventOf planHash restructureRef))).run (perform contentHashOf) w
    (InOrder log₀ planHash (parentOf (fold w.log)) group → ∃ ids w', result = (.returned ids, w') ∧
      Progress contentHashOf log₀ planHash (done ++ group) w'.log ∧
        parentOf (fold w'.log) = moved log₀ planHash (parentOf (fold w.log)) group) ∧
    (¬ InOrder log₀ planHash (parentOf (fold w.log)) group →
      ∃ error w', result = (.thrown error, w')) := by
  dsimp only
  induction group generalizing done w seen with
  | nil =>
      refine ⟨fun _ => ⟨[], w, rfl, by rwa [List.append_nil], rfl⟩, fun hnot => ?_⟩
      exact absurd trivial hnot
  | cons e rest ih =>
      have hmem := List.mem_cons_self (a := e) (l := rest)
      have happend : done ++ e :: rest = (done ++ [e]) ++ rest := by simp
      have hfresh : e.itemId ∉ done.map (·.itemId) := by
        rw [List.map_append, List.nodup_append] at hnodup
        intro hin
        exact hnodup.2.2 _ hin _ (List.mem_map_of_mem hmem) rfl
      rw [happend] at hnodup
      have hrest : ∀ e' ∈ rest, e' ∈ e :: rest := fun e' he' => List.mem_cons_of_mem _ he'
      rw [List.map_cons]
      by_cases htoken : (tokenOf planHash e).length ≤ maxClientToken
      swap
      · have hrun : ∃ error, (ingestFrom (channelOf by_ workspace) seen
            (eventOf planHash restructureRef e :: rest.map (eventOf planHash restructureRef))).run
              (perform contentHashOf) w = (.thrown error, w) := run_ingestFrom_long htoken
        obtain ⟨error, hrun⟩ := hrun
        exact ⟨fun horder => absurd horder.1.token htoken, fun _ => ⟨error, w, hrun⟩⟩
      by_cases hknown : TokenKnown log₀ planHash e
      · obtain ⟨id, hid⟩ := Option.isSome_iff_exists.mp ((hseen e hmem).mpr hknown)
        have hpasses : Passes log₀ planHash (parentOf (fold w.log)) e :=
          ⟨htoken, fun hnew => absurd hknown hnew, fun hnew => absurd hknown hnew⟩
        have hmoved : moved log₀ planHash (parentOf (fold w.log)) [e] = parentOf (fold w.log) := by
          simp [moved, hknown]
        obtain ⟨hok, hthrown⟩ := ih (h.skip hknown) (fun e' he' => hfits e' (hrest e' he'))
          (fun e' he' => hworkspace e' (hrest e' he')) hnodup fun e' he' => hseen e' (hrest e' he')
        rw [run_ingestFrom_known htoken hid, InOrder, hmoved, moved, if_pos hknown, happend]
        refine ⟨fun horder => ?_, fun hnot => ?_⟩
        · obtain ⟨ids, w', hrun, hdone⟩ := hok horder.2
          exact ⟨id :: ids, w', by rw [hrun, Outcome.andThen_returned], hdone⟩
        · obtain ⟨error, w', hrun⟩ := hthrown fun horder => hnot ⟨hpasses, horder⟩
          exact ⟨error, w', by rw [hrun, Outcome.andThen_thrown]⟩
      · have hid : seen.get (tokenOf planHash e) = none := by
          rw [← Option.not_isSome_iff_eq_none, hseen e hmem]
          exact hknown
        have hws : ((fold w.log).items.get e.itemId).map (·.workspace) = some workspace := by
          have hkept := congrArg (Option.map Prod.snd) (h.kept e.itemId)
          rw [Option.map_map, Option.map_map] at hkept
          exact hkept.trans (hworkspace e hmem)
        have hpasses : Passes log₀ planHash (parentOf (fold w.log)) e ↔
            (∀ ev ∈ log₀, ev.core.aggregateId = e.itemId → ev.core.aggregate = .item) ∧
              ¬ Follows (parentOf (fold w.log)) e.parentId e.itemId :=
          ⟨fun h => ⟨h.kind hknown, h.apart hknown⟩, fun h => ⟨htoken, fun _ => h.1, fun _ => h.2⟩⟩
        have hmoved : moved log₀ planHash (parentOf (fold w.log)) [e] =
            Function.update (parentOf (fold w.log)) e.itemId (some e.parentId) := by
          simp [moved, hknown]
        obtain ⟨hwrites, hrefuses⟩ :=
          run_writer by_ restructureRef h (hfits e hmem) hfresh hknown (hworkspace e hmem)
        rw [run_ingestFrom_new htoken hid hws, InOrder, hmoved, hpasses, moved, if_neg hknown,
          happend]
        by_cases hpass : (∀ ev ∈ log₀, ev.core.aggregateId = e.itemId →
            ev.core.aggregate = .item) ∧ ¬ Follows (parentOf (fold w.log)) e.parentId e.itemId
        · obtain ⟨w₁, hrun, hprogress, hparents⟩ := hwrites hpass
          have hseen' : ∀ e' ∈ rest, ((seen.set (tokenOf planHash e) none).get
              (tokenOf planHash e')).isSome ↔ TokenKnown log₀ planHash e' := by
            intro e' he'
            rw [JsMap.get_set_of_ne, hseen e' (hrest e' he')]
            intro heq
            rw [List.map_append, List.nodup_append] at hnodup
            exact hnodup.2.2 e.itemId (by simp) e'.itemId (List.mem_map_of_mem he')
              (tokenOf_inj heq).symm
          obtain ⟨hok, hthrown⟩ := ih hprogress (fun e' he' => hfits e' (hrest e' he'))
            (fun e' he' => hworkspace e' (hrest e' he')) hnodup hseen'
          rw [hparents] at hok hthrown
          rw [hrun, Outcome.andThen_returned]
          refine ⟨fun horder => ?_, fun hnot => ?_⟩
          · obtain ⟨ids, w', hrest', hdone⟩ := hok horder.2
            exact ⟨none :: ids, w', by rw [hrest', Outcome.andThen_returned], hdone⟩
          · obtain ⟨error, w', hrest'⟩ := hthrown fun horder => hnot ⟨hpass, horder⟩
            exact ⟨error, w', by rw [hrest', Outcome.andThen_thrown]⟩
        · obtain ⟨error, w', hrun⟩ := hrefuses hpass
          rw [hrun, Outcome.andThen_thrown]
          exact ⟨fun horder => absurd horder.1 hpass, fun _ => ⟨error, w', rfl⟩⟩

theorem inOrder_append {parents : ItemId → Option ItemId} {xs ys : List RestructureEdge} :
    InOrder log₀ planHash parents (xs ++ ys) ↔ InOrder log₀ planHash parents xs ∧
      InOrder log₀ planHash (moved log₀ planHash parents xs) ys := by
  induction xs generalizing parents with
  | nil => simp [InOrder, moved]
  | cons e xs ih =>
      have hmoved : moved log₀ planHash parents (e :: xs) =
          moved log₀ planHash (moved log₀ planHash parents [e]) xs := by
        by_cases hknown : TokenKnown log₀ planHash e <;> simp [moved, hknown]
      rw [List.cons_append, InOrder, InOrder, ih, hmoved, and_assoc]

/-- A group is ingested against the tokens its workspace has by then. -/
theorem run_applyGroups_cons {group : List RestructureEdge}
    {rest : List (JsString × List RestructureEdge)} :
    (applyGroups by_ planHash restructureRef ((workspace, group) :: rest)).run
        (perform contentHashOf) w =
      Outcome.andThen ((ingestFrom (channelOf by_ workspace)
        (tokenIndex w.log (fold w.log) workspace) (group.map (eventOf planHash restructureRef))).run
          (perform contentHashOf) w) fun _ w₁ =>
        Outcome.andThen ((applyGroups by_ planHash restructureRef rest).run
          (perform contentHashOf) w₁) fun applied w₂ =>
            (.returned (w₁.log.length - w.log.length + applied), w₂) := by
  rw [applyGroups]
  change (ingest _ _ >>= _).run _ w = _
  rw [run_bind]
  refine congrArg (Outcome.andThen _) ?_
  funext _ w₁
  change ((applyGroups by_ planHash restructureRef rest) >>= _).run _ w₁ = _
  rw [run_bind]
  rfl

variable (by_ restructureRef) in
/-- The groups one after the other: all edges are applied when they pass in order, and one
is refused when not. -/
theorem run_applyGroups {groups : List (JsString × List RestructureEdge)}
    (h : Progress contentHashOf log₀ planHash done w.log)
    (hfits : ∀ group ∈ groups, ∀ e ∈ group.2, Fits (fold log₀) e ∧
      ((fold log₀).items.get e.itemId).map (·.workspace) = some group.1)
    (hnodup : ((done ++ groups.flatMap Prod.snd).map (·.itemId)).Nodup) :
    let result := (applyGroups by_ planHash restructureRef groups).run (perform contentHashOf) w
    (InOrder log₀ planHash (parentOf (fold w.log)) (groups.flatMap Prod.snd) →
      ∃ applied w', result = (.returned applied, w') ∧
        Progress contentHashOf log₀ planHash (done ++ groups.flatMap Prod.snd) w'.log) ∧
    (¬ InOrder log₀ planHash (parentOf (fold w.log)) (groups.flatMap Prod.snd) →
      ∃ error w', result = (.thrown error, w')) := by
  dsimp only
  induction groups generalizing done w with
  | nil =>
      refine ⟨fun _ => ⟨0, w, rfl, by simpa using h⟩, fun hnot => absurd trivial hnot⟩
  | cons first rest ih =>
      obtain ⟨workspace, group⟩ := first
      have hfirst := hfits (workspace, group) List.mem_cons_self
      rw [List.flatMap_cons, ← List.append_assoc] at hnodup
      have hgroup : ((done ++ group).map (·.itemId)).Nodup := by
        rw [List.map_append] at hnodup
        exact (List.nodup_append.mp hnodup).1
      have hseen : ∀ e ∈ group, ((tokenIndex w.log (fold w.log) workspace).get
          (tokenOf planHash e)).isSome ↔ TokenKnown log₀ planHash e := by
        intro e he
        rw [tokenIndex_get_isSome_iff]
        refine h.tokenKnown_iff (fun hin => ?_) (hfirst e he).2
        rw [List.map_append, List.nodup_append] at hgroup
        exact hgroup.2.2 _ hin _ (List.mem_map_of_mem he) rfl
      obtain ⟨hok, hthrown⟩ := run_group by_ restructureRef h (fun e he => (hfirst e he).1)
        (fun e he => (hfirst e he).2) hgroup hseen
      rw [run_applyGroups_cons, List.flatMap_cons, inOrder_append, ← List.append_assoc]
      by_cases horder : InOrder log₀ planHash (parentOf (fold w.log)) group
      · obtain ⟨ids, w₁, hrun, hprogress, hparents⟩ := hok horder
        obtain ⟨hok', hthrown'⟩ := ih hprogress
          (fun g hg => hfits g (List.mem_cons_of_mem _ hg)) hnodup
        rw [hrun, Outcome.andThen_returned, ← hparents]
        refine ⟨fun hboth => ?_, fun hnot => ?_⟩
        · obtain ⟨applied, w', hrest, hdone⟩ := hok' hboth.2
          rw [hrest, Outcome.andThen_returned]
          exact ⟨_, w', rfl, hdone⟩
        · obtain ⟨error, w', hrest⟩ := hthrown' fun h => hnot ⟨horder, h⟩
          rw [hrest, Outcome.andThen_thrown]
          exact ⟨error, w', rfl⟩
      · obtain ⟨error, w', hrun⟩ := hthrown horder
        rw [hrun, Outcome.andThen_thrown]
        exact ⟨fun hboth => absurd hboth.1 horder, fun _ => ⟨error, w', rfl⟩⟩

/-- Edges whose tokens are all known leave the world as it is. -/
theorem run_group_known {group : List RestructureEdge} {seen : JsMap JsString (Option JsString)}
    (hseen : ∀ e ∈ group, (seen.get (tokenOf planHash e)).isSome) :
    ((ingestFrom (channelOf by_ workspace) seen (group.map (eventOf planHash restructureRef))).run
      (perform contentHashOf) w).2 = w := by
  induction group with
  | nil => rfl
  | cons e rest ih =>
      rw [List.map_cons]
      by_cases htoken : (tokenOf planHash e).length ≤ maxClientToken
      · obtain ⟨id, hid⟩ := Option.isSome_iff_exists.mp (hseen e List.mem_cons_self)
        rw [run_ingestFrom_known htoken hid, Outcome.andThen_snd]
        · exact ih fun e' he' => hseen e' (List.mem_cons_of_mem _ he')
        · exact fun _ _ => rfl
      · have hrun : ∃ error, (ingestFrom (channelOf by_ workspace) seen
            (eventOf planHash restructureRef e :: rest.map (eventOf planHash restructureRef))).run
              (perform contentHashOf) w = (.thrown error, w) := run_ingestFrom_long htoken
        obtain ⟨error, hrun⟩ := hrun
        rw [hrun]

variable (contentHashOf by_ restructureRef) in
theorem run_applyGroups_known {groups : List (JsString × List RestructureEdge)}
    (hknown : ∀ group ∈ groups, ∀ e ∈ group.2, TokenKnown w.log planHash e ∧
      ((fold w.log).items.get e.itemId).map (·.workspace) = some group.1) :
    ((applyGroups by_ planHash restructureRef groups).run (perform contentHashOf) w).2 = w := by
  induction groups with
  | nil => rfl
  | cons first rest ih =>
      obtain ⟨workspace, group⟩ := first
      have hgroup : ((ingestFrom (channelOf by_ workspace)
          (tokenIndex w.log (fold w.log) workspace)
          (group.map (eventOf planHash restructureRef))).run (perform contentHashOf) w).2 = w := by
        refine run_group_known fun e he => ?_
        obtain ⟨⟨ev, hev, htoken, -, hsame⟩, hws⟩ := hknown _ List.mem_cons_self e he
        exact tokenIndex_get_isSome_iff.mpr ⟨ev, hev, htoken, hsame.trans hws⟩
      have hrest := ih fun group hmem => hknown group (List.mem_cons_of_mem _ hmem)
      rw [run_applyGroups_cons]
      cases hrun : (ingestFrom (channelOf by_ workspace)
          (tokenIndex w.log (fold w.log) workspace)
          (group.map (eventOf planHash restructureRef))).run (perform contentHashOf) w with
      | mk outcome w₁ =>
          rw [hrun] at hgroup
          obtain rfl : w₁ = w := hgroup
          cases outcome with
          | returned ids =>
              rw [Outcome.andThen_returned, Outcome.andThen_snd]
              · exact hrest
              · exact fun _ _ => rfl
          | thrown error => rfl
          | diverges => rfl

end Edges

/-! ## What the checks establish -/

section Checks

variable {s : State} {edges : List RestructureEdge} {e : RestructureEdge}

theorem groupByWorkspace_concat {item : ItemState} (hitem : s.items.get e.itemId = some item) :
    groupByWorkspace s (edges ++ [e]) = (groupByWorkspace s edges).set item.workspace
      (((groupByWorkspace s edges).get item.workspace).getD [] ++ [e]) := by
  rw [groupByWorkspace, List.foldl_append, List.foldl_cons, List.foldl_nil, hitem]
  rfl

/-- Each edge is in one group. -/
theorem appliedOrder_perm (h : ∀ e ∈ edges, (s.items.get e.itemId).isSome) :
    (appliedOrder s edges).Perm edges := by
  induction edges using List.reverseRecOn with
  | nil => exact List.Perm.nil
  | append_singleton edges e ih =>
      obtain ⟨item, hitem⟩ := Option.isSome_iff_exists.mp (h e (by simp))
      rw [appliedOrder, groupByWorkspace_concat hitem]
      refine (JsMap.flatMap_set_perm _ _ _).trans ?_
      exact (ih fun e' he' => h e' (List.mem_append_left _ he')).append_right [e]

/-- A group is of edges whose children are in its workspace. -/
theorem workspace_of_group (h : ∀ e ∈ edges, (s.items.get e.itemId).isSome) :
    ∀ group ∈ (groupByWorkspace s edges).entries, ∀ e ∈ group.2,
      (s.items.get e.itemId).map (·.workspace) = some group.1 := by
  rintro ⟨workspace, group⟩ hgroup
  rw [JsMap.mem_entries_iff] at hgroup
  induction edges using List.reverseRecOn generalizing workspace group with
  | nil => simp [groupByWorkspace] at hgroup
  | append_singleton edges e ih =>
      obtain ⟨item, hitem⟩ := Option.isSome_iff_exists.mp (h e (by simp))
      have hbefore := ih fun e' he' => h e' (List.mem_append_left _ he')
      rw [groupByWorkspace_concat hitem, JsMap.get_set] at hgroup
      split at hgroup
      · rename_i hworkspace
        obtain rfl := Option.some.inj hgroup
        intro e' he'
        rcases List.mem_append.mp he' with he' | he'
        · cases hget : (groupByWorkspace s edges).get item.workspace with
          | none => simp [hget] at he'
          | some group =>
              rw [hget] at he'
              exact hbefore workspace group (hworkspace ▸ hget) e' he'
        · rw [List.mem_singleton.mp he', hitem, hworkspace]
          rfl
      · exact hbefore workspace group hgroup

theorem items_of_assertKnown (h : assertKnown s edges = .ok ()) : ∀ e ∈ edges,
    (s.items.get e.itemId).isSome ∧ (s.items.get e.parentId).isSome := by
  induction edges with
  | nil => simp
  | cons first rest ih =>
      unfold assertKnown at h
      cases hitem : s.items.has first.itemId with
      | false => cases hparent : s.items.has first.parentId <;> simp [hitem, hparent] at h
      | true =>
          cases hparent : s.items.has first.parentId with
          | false => simp [hitem, hparent] at h
          | true =>
              simp only [hitem, hparent, Bool.true_eq_false, if_false] at h
              rw [List.forall_mem_cons]
              exact ⟨⟨hitem, hparent⟩, ih h⟩

/-- Where the walk of the dry run leads. -/
def prospective (parents : JsMap ItemId (Option ItemId)) (x : ItemId) : Option ItemId :=
  (parents.get x).join

theorem follows_of_walkReaches {parents : JsMap ItemId (Option ItemId)} {x cur : ItemId} {fuel : Nat}
    {seen : List ItemId} (h : walkReaches parents x fuel seen (some cur) = true) :
    Follows (prospective parents) cur x := by
  induction fuel generalizing seen cur with
  | zero => simp [walkReaches] at h
  | succ fuel ih =>
      unfold walkReaches at h
      split at h
      · rename_i hcur
        exact hcur ▸ .refl
      · split at h
        · simp at h
        · cases hnext : (parents.get cur).join with
          | none => simp [hnext, walkReaches] at h
          | some next =>
              rw [hnext] at h
              exact .head hnext (ih h)

/-- The walk has steps enough: it meets an item exactly when the item is above. -/
theorem walkReaches_iff {parents : JsMap ItemId (Option ItemId)} {x p : ItemId} :
    walkReaches parents x (parents.entries.length + 2) [] (some p) = true ↔
      Follows (prospective parents) p x := by
  refine ⟨follows_of_walkReaches, fun h => ?_⟩
  have hkeys : ∀ y, (prospective parents y).isSome → y ∈ parents.entries.map Prod.fst := by
    intro y hy
    cases hget : parents.get y with
    | none => simp [prospective, hget] at hy
    | some parent =>
        exact List.mem_map.mpr ⟨(y, parent), (JsMap.mem_entries_iff _ _ _).mpr hget, rfl⟩
  have hexists := h.exists_ascend
  -- the shortest way up visits nothing twice, so the walk does not break off before
  let n := Nat.find hexists
  have hmin : ∀ m, Chain.ascend (prospective parents) m p = some x → n ≤ m :=
    fun m hm => Nat.find_min' hexists hm
  have hn : n ≤ parents.entries.length + 1 := by
    obtain ⟨m, hm, hle, -⟩ := Chain.exists_ascend_le hkeys (P := (· = some x)) hexists
    rw [List.length_map] at hle
    exact (hmin m hm).trans hle
  have hwalk : ∀ d k fuel seen c, n = k + d → d < fuel →
      Chain.ascend (prospective parents) k p = some c →
        (∀ y ∈ seen, ∃ i < k, Chain.ascend (prospective parents) i p = some y) →
          walkReaches parents x fuel seen (some c) = true := by
    intro d
    induction d with
    | zero =>
        intro k fuel seen c hk hfuel hc _
        obtain ⟨fuel, rfl⟩ : ∃ m, fuel = m + 1 := ⟨fuel - 1, by omega⟩
        have hx := Nat.find_spec hexists
        change Chain.ascend _ n p = some x at hx
        rw [hk, Nat.add_zero, hc] at hx
        rw [walkReaches, if_pos (Option.some.inj hx)]
    | succ d ih =>
        intro k fuel seen c hk hfuel hc hseen
        obtain ⟨fuel, rfl⟩ : ∃ m, fuel = m + 1 := ⟨fuel - 1, by omega⟩
        have hx : Chain.ascend (prospective parents) (k + (d + 1)) p = some x := by
          rw [← hk]
          exact Nat.find_spec hexists
        have hne : c ≠ x := by
          rintro rfl
          have := hmin k hc
          omega
        have hnew : c ∉ seen := by
          intro hmem
          obtain ⟨i, hi, hic⟩ := hseen c hmem
          rw [Chain.ascend_add, hc, Option.bind_some] at hx
          have hshort := hmin (i + (d + 1)) (by rw [Chain.ascend_add, hic, Option.bind_some, hx])
          omega
        rw [Chain.ascend_add, hc, Option.bind_some, Chain.ascend] at hx
        obtain ⟨c', hc', -⟩ := Option.bind_eq_some_iff.mp hx
        rw [walkReaches, if_neg hne, if_neg hnew]
        change walkReaches parents x fuel (c :: seen) (prospective parents c) = true
        rw [hc']
        refine ih (k + 1) fuel (c :: seen) c' (by omega) (by omega) ?_ fun y hy => ?_
        · rw [Chain.ascend_add, hc, Option.bind_some, Chain.ascend, hc']
          rfl
        · rcases List.mem_cons.mp hy with rfl | hy
          · exact ⟨k, by omega, hc⟩
          · obtain ⟨i, hi, hiy⟩ := hseen y hy
            exact ⟨i, by omega, hiy⟩
  exact hwalk n 0 _ [] p (by omega) (by omega) rfl (by simp)

/-- The dry run passes when every edge fits and none closes a cycle of the graph the whole
plan asks for. -/
theorem dryRun_eq_ok_iff {parents : JsMap ItemId (Option ItemId)}
    (hknown : ∀ e ∈ edges, (s.items.get e.itemId).isSome ∧ (s.items.get e.parentId).isSome) :
    dryRun s parents edges = .ok () ↔
      ∀ e ∈ edges, Fits s e ∧ ¬ Follows (prospective parents) e.parentId e.itemId := by
  induction edges with
  | nil => simp [dryRun]
  | cons first rest ih =>
      rw [List.forall_mem_cons] at hknown ⊢
      obtain ⟨⟨hitem, hparent⟩, hrest⟩ := hknown
      obtain ⟨item, hitem⟩ := Option.isSome_iff_exists.mp hitem
      obtain ⟨parent, hparent⟩ := Option.isSome_iff_exists.mp hparent
      have hfits : Fits s first ↔ first.itemId ≠ first.parentId ∧
          assertRoleNesting item.role parent.role first.itemId first.parentId = .ok () := by
        refine ⟨fun h => ?_, fun h => ⟨h.1.symm, item, parent, hitem, hparent, h.2⟩⟩
        obtain ⟨item', parent', hitem', hparent', hnested⟩ := h.nested
        obtain rfl := Option.some.inj (hitem.symm.trans hitem')
        obtain rfl := Option.some.inj (hparent.symm.trans hparent')
        exact ⟨h.apart.symm, hnested⟩
      rw [hfits, ← ih hrest, ← walkReaches_iff, dryRun]
      simp only [hitem, hparent]
      by_cases hself : first.itemId = first.parentId
      · simp [hself]
      simp only [hself, if_false]
      cases hnested : assertRoleNesting item.role parent.role first.itemId first.parentId with
      | error message => simp [Bind.bind, Except.bind]
      | ok =>
          cases hcycle : walkReaches parents first.itemId (parents.entries.length + 2) []
              (some first.parentId) <;> simp [Bind.bind, Except.bind, hself]

theorem checkPlan_ok {compareIds : ItemId → ItemId → Ordering}
    {computeHash : List RestructureEdge → Sha256} {before : List Event} {head : Option Events.Head}
    {plan : RestructurePlan} {planHash : Sha256}
    (h : checkPlan compareIds computeHash before head plan = .ok planHash) :
    (plan.edges.map (·.itemId)).Nodup ∧ ∀ e ∈ plan.edges, Fits (fold before) e := by
  simp only [checkPlan, bind_eq_ok_iff] at h
  obtain ⟨_, hshape, _, -, _, hknown, _, -, _, hdry, -⟩ := h
  have hnodup : (plan.edges.map (·.itemId)).Nodup := by
    by_contra hnot
    unfold assertPlanShape at hshape
    rw [if_pos hnot] at hshape
    split at hshape
    · simp at hshape
    · split at hshape <;> simp at hshape
  have hfits := (dryRun_eq_ok_iff (items_of_assertKnown hknown)).mp hdry
  exact ⟨hnodup, fun e he => (hfits e he).1⟩

end Checks

/-! ## The command -/

section Command

variable {contentHashOf : EventData → Sha256} {compareIds : ItemId → ItemId → Ordering}
variable {computeHash : List RestructureEdge → Sha256} {w : FacadeWorld} {plan : RestructurePlan}
variable {by_ : Option ActorId} {planHash : Sha256}

variable (contentHashOf compareIds computeHash w plan by_) in
theorem run_applyEdges :
    (applyEdges compareIds computeHash plan by_).run (perform contentHashOf) w =
      match checkPlan compareIds computeHash w.log (storeOf w.log).head plan with
      | .error message => (.thrown (.domain message), w)
      | .ok planHash => Outcome.andThen ((applyGroups by_ planHash plan.restructureRef
          (groupByWorkspace (fold w.log) plan.edges).entries).run (perform contentHashOf) w)
            fun applied w => (.returned (planHash, applied), w) := by
  change (Prog.check (checkPlan compareIds computeHash w.log (storeOf w.log).head plan) >>= _).run
    _ w = _
  rw [run_check]
  cases checkPlan compareIds computeHash w.log (storeOf w.log).head plan with
  | error message => rfl
  | ok planHash =>
      dsimp only
      rw [run_bind]
      rfl

/-- The gates write nothing. -/
theorem run_postApplyGates {edges : List RestructureEdge} :
    ((postApplyGates planHash edges).run (perform contentHashOf) w).2 = w := by
  change ((Prog.check (intentionGate (fold w.log) edges) >>= fun _ =>
    Prog.check (assertTokenClosure w.log edges planHash) >>= fun _ =>
      Prog.check (orphanGate (fold w.log) edges)).run (perform contentHashOf) w).2 = w
  rw [run_check]
  cases intentionGate (fold w.log) edges with
  | error message => rfl
  | ok =>
      dsimp only
      rw [run_check]
      cases assertTokenClosure w.log edges planHash with
      | error message => rfl
      | ok => cases orphanGate (fold w.log) edges <;> rfl

theorem run_applyRestructurePlan :
    ((applyRestructurePlan compareIds computeHash plan by_).run (perform contentHashOf) w).2 =
      ((applyEdges compareIds computeHash plan by_).run (perform contentHashOf) w).2 := by
  rw [applyRestructurePlan, run_bind]
  apply Outcome.andThen_snd
  intro applied w₁
  rw [run_bind, Outcome.andThen_snd]
  · exact run_postApplyGates
  · exact fun _ _ => rfl

/-- A plan is applied entirely or not at all: what throws before the gates has written
nothing, and past the dry run every edge is in its place. -/
structure AllOrNothing (contentHashOf : EventData → Sha256)
    (compareIds : ItemId → ItemId → Ordering) (computeHash : List RestructureEdge → Sha256)
    (plan : RestructurePlan) (by_ : Option ActorId) (w : FacadeWorld) : Prop where
  nothing : ∀ error,
    ((applyEdges compareIds computeHash plan by_).run (perform contentHashOf) w).1 =
      .thrown error →
        ((applyRestructurePlan compareIds computeHash plan by_).run (perform contentHashOf) w).2.log =
          w.log
  all : ∀ planHash,
    checkPlan compareIds computeHash w.log (storeOf w.log).head plan = .ok planHash →
      ∀ e ∈ plan.edges, InPlace
        ((applyRestructurePlan compareIds computeHash plan by_).run (perform contentHashOf) w).2.log
        planHash e

/-- An edge that is in its place is one whose token is known. -/
theorem InPlace.tokenKnown {log : List Event} {e : RestructureEdge}
    (h : InPlace log planHash e) : TokenKnown log planHash e := by
  obtain ⟨ev, hev, haggregate, hid, htoken, -⟩ := h.recorded
  obtain ⟨item, hitem, -⟩ := parentOf_eq_some.mp h.parent
  refine ⟨ev, hev, htoken, by rw [hitem]; rfl, ?_⟩
  unfold eventWorkspace
  rw [haggregate, hid]

/-- An edge whose token was known is in its place afterwards when it was before. -/
theorem Progress.inPlace_iff {log₀ log : List Event} {done : List RestructureEdge}
    {e : RestructureEdge} (h : Progress contentHashOf log₀ planHash done log)
    (hnodup : (done.map (·.itemId)).Nodup) (he : e ∈ done) (hknown : TokenKnown log₀ planHash e) :
    InPlace log planHash e ↔ InPlace log₀ planHash e := by
  have honly : ∀ e' ∈ done, e'.itemId = e.itemId → TokenKnown log₀ planHash e' := by
    intro e' he' heq
    rwa [List.inj_on_of_nodup_map hnodup he' he heq]
  have hparent := h.old e.itemId honly
  obtain ⟨events, hlog, hevents⟩ := h.written
  refine ⟨fun hplaced => ⟨?_, hparent ▸ hplaced.parent⟩, fun hplaced => ⟨?_, hparent ▸ hplaced.parent⟩⟩
  · obtain ⟨ev, hev, hrecorded⟩ := hplaced.recorded
    rw [hlog] at hev
    rcases List.mem_append.mp hev with hev | hev
    · exact ⟨ev, hev, hrecorded⟩
    · obtain ⟨e', he', hnew, hmove, -⟩ := hevents ev hev
      exact absurd (honly e' he' (hmove.aggregateId.symm.trans hrecorded.2.1)) hnew
  · obtain ⟨ev, hev, hrecorded⟩ := hplaced.recorded
    exact ⟨ev, hlog ▸ List.mem_append_left _ hev, hrecorded⟩

/-- On a sound log whose items are on no cycle, a plan is applied entirely or not at all
exactly when, once it has passed the dry run, it is in place already, or its edges pass in
order and those whose tokens are known are in place. -/
theorem plan_applied_iff (hsound : Events.Sound contentHashOf w.log)
    (hacyclic : ∀ x, ¬ OnCycle (parentOf (fold w.log)) x) :
    AllOrNothing contentHashOf compareIds computeHash plan by_ w ↔
      ∀ planHash, checkPlan compareIds computeHash w.log (storeOf w.log).head plan = .ok planHash →
        (∀ e ∈ plan.edges, InPlace w.log planHash e) ∨
          InOrder w.log planHash (parentOf (fold w.log)) (appliedOrder (fold w.log) plan.edges) ∧
            ∀ e ∈ plan.edges, TokenKnown w.log planHash e → InPlace w.log planHash e := by
  cases hcheck : checkPlan compareIds computeHash w.log (storeOf w.log).head plan with
  | error message =>
      have hrun : (applyEdges compareIds computeHash plan by_).run (perform contentHashOf) w =
          (.thrown (.domain message), w) := by
        rw [run_applyEdges, hcheck]
      refine iff_of_true ⟨fun _ _ => ?_, ?_⟩ ?_
      · rw [run_applyRestructurePlan, hrun]
      · simp [hcheck]
      · simp
  | ok planHash =>
      obtain ⟨hnodup, hfits⟩ := checkPlan_ok hcheck
      have hsome : ∀ e ∈ plan.edges, ((fold w.log).items.get e.itemId).isSome := by
        intro e he
        obtain ⟨item, -, hitem, -⟩ := (hfits e he).nested
        rw [hitem]
        rfl
      have hperm := appliedOrder_perm hsome
      have hgroups : ∀ group ∈ (groupByWorkspace (fold w.log) plan.edges).entries,
          ∀ e ∈ group.2, e ∈ plan.edges ∧
            ((fold w.log).items.get e.itemId).map (·.workspace) = some group.1 := by
        intro group hgroup e he
        have hmem : e ∈ appliedOrder (fold w.log) plan.edges :=
          List.mem_flatMap.mpr ⟨group, hgroup, he⟩
        exact ⟨hperm.mem_iff.mp hmem, workspace_of_group hsome group hgroup e he⟩
      have horderNodup : ((appliedOrder (fold w.log) plan.edges).map (·.itemId)).Nodup :=
        (hperm.map _).nodup_iff.mpr hnodup
      obtain ⟨hreturns, hthrows⟩ := run_applyGroups by_ plan.restructureRef
        (Progress.start planHash hsound hacyclic)
        (fun group hgroup e he => ⟨hfits e (hgroups group hgroup e he).1,
          (hgroups group hgroup e he).2⟩) horderNodup
      have hrun := run_applyEdges contentHashOf compareIds computeHash w plan by_
      rw [hcheck] at hrun
      dsimp only at hrun
      simp only [Except.ok.injEq, forall_eq']
      by_cases horder : InOrder w.log planHash (parentOf (fold w.log))
          (appliedOrder (fold w.log) plan.edges)
      · obtain ⟨applied, w', happlied, hprogress⟩ := hreturns horder
        rw [happlied, Outcome.andThen_returned] at hrun
        have hknown : ∀ e ∈ plan.edges, TokenKnown w.log planHash e →
            (InPlace w'.log planHash e ↔ InPlace w.log planHash e) := fun e he =>
          hprogress.inPlace_iff horderNodup (hperm.mem_iff.mpr he)
        refine ⟨fun h => .inr ⟨horder, fun e he hk => ?_⟩, fun h => ⟨fun error herror => ?_, ?_⟩⟩
        · have hplaced := h.all planHash hcheck e he
          rw [run_applyRestructurePlan, hrun] at hplaced
          exact (hknown e he hk).mp hplaced
        · rw [hrun] at herror
          simp at herror
        · rintro planHash' hcheck' e he
          obtain rfl : planHash = planHash' := Except.ok.inj (hcheck.symm.trans hcheck')
          rw [run_applyRestructurePlan, hrun]
          by_cases hk : TokenKnown w.log planHash e
          · refine (hknown e he hk).mpr ?_
            rcases h with hall | ⟨-, hall⟩
            · exact hall e he
            · exact hall e he hk
          · exact hprogress.new e (hperm.mem_iff.mpr he) hk
      · obtain ⟨error, w', hthrown⟩ := hthrows horder
        rw [hthrown, Outcome.andThen_thrown] at hrun
        refine ⟨fun h => .inl fun e he => ?_, fun h => ?_⟩
        · have hplaced := h.all planHash hcheck e he
          rwa [h.nothing error (by rw [hrun])] at hplaced
        · have hall := h.resolve_right fun hright => horder hright.1
          have hsame := run_applyGroups_known contentHashOf by_ plan.restructureRef
            fun group hgroup e he =>
              ⟨(hall e (hgroups group hgroup e he).1).tokenKnown, (hgroups group hgroup e he).2⟩
          obtain rfl : w' = w := by
            rw [hthrown] at hsame
            exact hsame
          have hlog : ((applyRestructurePlan compareIds computeHash plan by_).run
              (perform contentHashOf) w').2.log = w'.log := by
            rw [run_applyRestructurePlan, hrun]
          refine ⟨fun _ _ => hlog, fun planHash' hcheck' e he => ?_⟩
          obtain rfl : planHash = planHash' := Except.ok.inj (hcheck.symm.trans hcheck')
          rw [hlog]
          exact hall e he

/-- Two items, and an item under one that is none of them. -/
def oneUnderAnother : Schedule Unit :=
  createOf () 0 (js "a") none ++ createOf () 1 (js "y") none ++
    [callOf () (.createItem (samplePayload (js "w") none (some (js "y")))), .mint () (js "x"),
      .append () (.nth 2)] ++ createOf () 3 (js "z") none

/-- A plan for the log of so many appends. -/
def planFor (edges : List RestructureEdge) (n : Nat) : RestructurePlan where
  edges := edges
  planHash := none
  baseline := some ⟨some (n + 1), some (some ((Stamp.nth n).ids 0))⟩
  restructureRef := none

/-- One item under another. -/
def oneMove : RestructurePlan := planFor [⟨js "a", js "z"⟩] 3

theorem plan_applied_oneMove :
    ∃ s : FacadeSys Unit, Reaches (FacadeStep (fun e => e.id) FitsHierarchy) Sys.initial s ∧
      AllOrNothing (fun e => e.id) (fun _ _ => .eq) (fun _ => js "h") oneMove none
        (worldOf s.log) := by
  have hrun : outcome FitsHierarchy oneUnderAnother (fun log =>
      ((checkPlan (fun _ _ => .eq) (fun _ => js "h") log (storeOf log).head oneMove).toOption,
        appliedOrder (fold log) oneMove.edges, parentOf (fold log) (js "z"),
        (Events.validate (fun e => e.id) log none).ok &&
          decide (¬ TokenKnown log (js "h") ⟨js "a", js "z"⟩) &&
          log.all fun ev => decide (ev.core.aggregate = .item))) =
      some (some (js "h"), [⟨js "a", js "z"⟩], none, true) := by
    decide +kernel
  obtain ⟨s, hreached, hs⟩ := reached_of_outcome hrun
  simp only [Prod.mk.injEq, Bool.and_eq_true, decide_eq_true_eq, List.all_eq_true] at hs
  obtain ⟨hcheck, horder, hparent, ⟨hvalid, hnew⟩, hkinds⟩ := hs
  have hsound := ((Events.validate_ok_iff _ _).mp hvalid).1
  refine ⟨s, hreached, ?_⟩
  apply (plan_applied_iff (w := worldOf s.log) hsound
    (hierarchyKept_reachable hreached).acyclic).mpr
  intro planHash hplan
  change checkPlan _ _ s.log (storeOf s.log).head oneMove = _ at hplan
  rw [hplan] at hcheck
  obtain rfl : planHash = js "h" := Option.some.inj hcheck
  have hnone : ∀ e ∈ oneMove.edges, ¬ TokenKnown s.log (js "h") e := by
    intro e he
    rw [List.mem_singleton.mp he]
    exact hnew
  refine .inr ⟨?_, fun e he hknown => absurd hknown (hnone e he)⟩
  change InOrder s.log _ (parentOf (fold s.log)) (appliedOrder (fold s.log) oneMove.edges)
  rw [horder]
  refine ⟨⟨by decide, fun _ ev hev _ => hkinds ev hev, fun _ hfollows => ?_⟩, trivial⟩
  exact absurd (hfollows.of_next_none hparent) (by decide)

/-- An item under one that is under it, which is to move away after. -/
def crossingMoves : RestructurePlan :=
  planFor [⟨js "a", js "z"⟩, ⟨js "y", js "x"⟩, ⟨js "x", js "z"⟩] 3

/-- The plan passes the dry run, and its second edge is refused with the first written. -/
theorem plan_applied_halfway :
    ∃ s : FacadeSys Unit, Reaches (FacadeStep (fun e => e.id) FitsHierarchy) Sys.initial s ∧
      Events.Sound (fun e => e.id) s.log ∧ HierarchyKept (fold s.log) ∧
        ¬ AllOrNothing (fun e => e.id) (fun _ _ => .eq) (fun _ => js "h") crossingMoves none
          (worldOf s.log) := by
  have hrun : outcome FitsHierarchy oneUnderAnother (fun log =>
      let result := (applyEdges (fun _ _ => .eq) (fun _ => js "h") crossingMoves none).run
        (perform fun e => e.id) (worldOf log)
      ((Events.validate (fun e => e.id) log none).ok, log.length, result.2.log.length,
        match result.1 with
        | .thrown _ => true
        | _ => false)) = some (true, 4, 5, true) := by
    decide +kernel
  obtain ⟨s, hreached, hs⟩ := reached_of_outcome hrun
  simp only [Prod.mk.injEq] at hs
  obtain ⟨hvalid, hbefore, hafter, hthrown⟩ := hs
  have hsound := ((Events.validate_ok_iff _ _).mp hvalid).1
  refine ⟨s, hreached, hsound, hierarchyKept_reachable hreached, fun h => ?_⟩
  have hthrew : ∃ error, ((applyEdges (fun _ _ => .eq) (fun _ => js "h") crossingMoves none).run
      (perform fun e => e.id) (worldOf s.log)).1 = .thrown error := by
    revert hthrown
    split
    · rename_i error herror
      exact fun _ => ⟨error, herror⟩
    · simp
  obtain ⟨error, herror⟩ := hthrew
  have hsame := congrArg List.length (h.nothing error herror)
  rw [run_applyRestructurePlan, hafter] at hsame
  change 5 = s.log.length at hsame
  omega

end Command

end H2a.Track.Cli
