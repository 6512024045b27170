import H2a.Track.Facade.Acceptance
/-!
# Ingest of restructure events

The write seam of `packages/track/src/ingest`, for the kind `item.restructure`: what
`mapWorkEvent` checks, what `authorize` allows, and the skip of a token that is known.
-/

namespace H2a.Track.Ingest

open H2a.Library H2a.Track.Model
open H2a.Track.Facade (criterionIdOf evidenceIdOf)

inductive WorkEventKind where
  | itemCreate | itemSetRaci | itemAddLink | itemReparent | itemSpec | itemRealize | itemReopen
  | decisionCreate | decisionDossier | decisionSelect | decisionAddArtifact | decisionOutcome
  | decisionDisposition
  | acceptanceCriterion | acceptanceLink | acceptanceRun | acceptanceWaive
  | priorityAssess
  | blockerRaise | blockerResolve | blockerResolveExternal
  | scopeVerification | scopeDeclare
  | itemAssignCode | itemSetRole | itemSpecAmend | itemAnchor | itemConsolidate
  | demandRaise | demandClaim | demandAgree | demandDisposition
  | specClaim | specAbandon
  | itemRestructure
  deriving DecidableEq

/-- What a channel is opened with. -/
structure IngestContext where
  by_ : ActorId
  workspace : JsString
  prov : Provenance
  /-- `none` allows every kind -/
  allowedKinds : Option (List WorkEventKind)

/-- A `WorkEvent` of kind `item.restructure`. -/
structure RestructureEvent where
  itemId : ItemId
  parentId : ItemId
  planHash : JsString
  restructureRef : Option JsString
  clientToken : Option JsString

def maxClientToken : Nat := 256

/-- What `mapWorkEvent` checks that the type of the event does not say. -/
def mapWorkEvent (ev : RestructureEvent) : Except String Unit :=
  match ev.clientToken with
  | none => .ok ()
  | some token =>
      if token.length = 0 ∨ maxClientToken < token.length then
        .error s!"clientToken must be a non-empty string of at most {maxClientToken} chars"
      else .ok ()

/-- `BINDING_AUTH_GATE`. -/
def isBindingAuth (auth : ProvenanceAuth) : Bool := auth = .localUser ∨ auth = .signed

/-- `authorize`, of an event that addresses an item. -/
def authorize (ctx : IngestContext) (s : State) (ev : RestructureEvent) : Except String Unit := do
  -- a restructure is denied unless the channel grants it expressly
  if (ctx.allowedKinds.getD []).contains .itemRestructure = false then
    throw "kind \"item.restructure\" is a default-denied restructure capability — it requires an EXPLICIT capability grant on this channel (DESIGN R2)"
  match (s.items.get ev.itemId).map (·.workspace) with
  | some workspace =>
      if workspace ≠ ctx.workspace then
        throw s!"item.restructure: target belongs to workspace \"{workspace}\", not the channel workspace \"{ctx.workspace}\""
  | none => pure ()
  if ¬isBindingAuth ctx.prov.auth then
    throw s!"item.restructure is a binding write and requires an authenticated channel (auth=\"{ctx.prov.auth.text}\")"

theorem authorize_granted {ctx : IngestContext} {s : State} {ev : RestructureEvent}
    (hgrant : (ctx.allowedKinds.getD []).contains .itemRestructure = true)
    (hworkspace : (s.items.get ev.itemId).map (·.workspace) = some ctx.workspace)
    (hauth : isBindingAuth ctx.prov.auth = true) : authorize ctx s ev = .ok () := by
  unfold authorize
  simp only [hgrant, hworkspace, hauth]
  simp

/-! ## The tokens of a workspace -/

/-- The id a command returned for its event. -/
def resultIdOf (e : Event) : Option JsString :=
  match e.core.body with
  | .itemCreated _ | .decisionCreated _ | .blockerOpened _ | .demandRaised _ _ =>
      some e.core.aggregateId
  | .criterionAdded _ _ => criterionIdOf e
  | .evidenceLinked _ _ _ _ => evidenceIdOf e
  | _ => none

def verificationPrefix : JsString := js "verification:"

/-- The workspace of the aggregate of an event. -/
def eventWorkspace (e : Event) (s : State) : Option JsString :=
  match e.core.aggregate with
  | .item => (s.items.get e.core.aggregateId).map (·.workspace)
  | .decision => (s.decisions.get e.core.aggregateId).map (·.workspace)
  | .blocker => (s.blockers.get e.core.aggregateId).bind fun b =>
      (s.items.get b.targetId).map (·.workspace)
  | .verification =>
      if e.core.aggregateId.startsWith verificationPrefix then
        some (e.core.aggregateId.slice verificationPrefix.length)
      else none
  | .demand => (s.demands.get e.core.aggregateId).map (·.workspace)

/-- The token of each first event of the workspace that carries it, with the id its
command returned. -/
def tokenIndex (events : List Event) (s : State) (workspace : JsString) :
    JsMap JsString (Option JsString) :=
  events.foldl (fun idx e =>
    match e.core.clientToken with
    | none => idx
    | some token =>
        if idx.has token then idx
        else if eventWorkspace e s = some workspace then idx.set token (resultIdOf e)
        else idx) .empty

/-- The under-lock hook: the events of the workspace that carry the token. -/
def workspaceDedupe (token workspace : JsString) : DedupeHook where
  run _ existing :=
    let originals := existing.filter fun e =>
      e.core.clientToken = some token ∧ eventWorkspace e (fold existing) = some workspace
    if originals = [] then none else some originals
  found := by
    intro inputs existing originals h
    dsimp only at h
    split at h
    · simp at h
    · rename_i hne
      obtain rfl := Option.some.inj h
      exact ⟨hne, fun e he => (List.mem_filter.mp he).1⟩

section Tokens

variable {log : List Event} {s : State} {token workspace : JsString}

theorem tokenIndex_get_isSome_iff : ((tokenIndex log s workspace).get token).isSome ↔
    ∃ ev ∈ log, ev.core.clientToken = some token ∧ eventWorkspace ev s = some workspace := by
  have hindex : ∀ (log : List Event) (idx : JsMap JsString (Option JsString)),
      ((log.foldl (fun idx e =>
        match e.core.clientToken with
        | none => idx
        | some token =>
            if idx.has token then idx
            else if eventWorkspace e s = some workspace then idx.set token (resultIdOf e)
            else idx) idx).get token).isSome ↔ (idx.get token).isSome ∨
        ∃ ev ∈ log, ev.core.clientToken = some token ∧ eventWorkspace ev s = some workspace := by
    intro log
    induction log with
    | nil => simp
    | cons e rest ih =>
        intro idx
        simp only [List.foldl_cons, ih, List.mem_cons, exists_eq_or_imp]
        rw [← or_assoc]
        refine or_congr_left ?_
        cases htoken : e.core.clientToken with
        | none => simp
        | some token' =>
            by_cases hhas : idx.has token'
            · by_cases heq : token' = token
              · subst heq
                obtain ⟨v, hv⟩ := (JsMap.has_iff _ _).mp hhas
                simp [hhas, hv]
              · simp [hhas, heq]
            · by_cases hws : eventWorkspace e s = some workspace
              · by_cases heq : token = token'
                · simp [hhas, hws, heq]
                · simp [hhas, hws, heq, Ne.symm heq]
              · simp [hhas, hws]
  rw [tokenIndex, hindex]
  simp

theorem workspaceDedupe_run_eq_none_iff {inputs : List EventInput} :
    (workspaceDedupe token workspace).run inputs log = none ↔ ¬ ∃ ev ∈ log,
      ev.core.clientToken = some token ∧ eventWorkspace ev (fold log) = some workspace := by
  simp [workspaceDedupe, List.filter_eq_nil_iff]

end Tokens

/-! ## The stream -/

/-- The instance a channel writes with. -/
def IngestContext.track (ctx : IngestContext) : Facade :=
  { Facade.plain with actor := ctx.by_, prov := some ctx.prov }

/-- Run a check that throws an `IngestError`. -/
def checkIngest {α : Type} (x : Except String α) : Prog α := .ofExcept (x.mapError .ingest)

/-- The loop of `ingest`, over what is left of the stream. -/
def ingestFrom (ctx : IngestContext) (seen : JsMap JsString (Option JsString)) :
    List RestructureEvent → Prog (List (Option JsString))
  | [] => return []
  | ev :: rest => do
      let _ ← checkIngest (mapWorkEvent ev)
      match ev.clientToken.bind seen.get with
      | some id => do
          -- applied already: the id it got then
          let ids ← ingestFrom ctx seen rest
          return id :: ids
      | none => do
          let s ← Prog.state
          let _ ← checkIngest (authorize ctx s ev)
          let dedupe := ev.clientToken.map (workspaceDedupe · ctx.workspace)
          (ctx.track.withClientToken ev.clientToken dedupe).restructureReparent ev.itemId
            ev.parentId ev.planHash ev.restructureRef
          let seen := match ev.clientToken with
            | some token => seen.set token none
            | none => seen
          let ids ← ingestFrom ctx seen rest
          return none :: ids

def ingest (events : List RestructureEvent) (ctx : IngestContext) :
    Prog (List (Option JsString)) := do
  let log ← Prog.readAll
  let s ← Prog.state
  ingestFrom ctx (tokenIndex log s ctx.workspace) events

end H2a.Track.Ingest
