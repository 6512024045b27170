import H2a.Track.Facade.Items
/-!
# `Track`: demands

The commands of `packages/track/src/track.ts` on the demand lifecycle.  Their
legality is checked on the state a command has read, and once more under the
lock by the recheck it installs.
-/

namespace H2a.Track.Facade

open H2a.Library H2a.Track.Model

variable (facade : Facade)

structure RaiseDemandInput where
  type : DemandType
  raw : DemandRaw
  source : DemandSource
  workspace : JsString
  handler : Option ActorId
  sourceKey : Option JsString
  concerns : Option ItemId
  links : Option (List Link)

def raiseDemand (input : RaiseDemandInput) : Prog DemandId := do
  let handler ← facade.resolveHandler input.handler none
  let validated ← Prog.check (assertDemandRaised
    ⟨input.type, input.raw, input.source, handler, input.sourceKey, input.concerns, input.links⟩)
  let demandId ← Prog.newId
  let persisted ← facade.emit .demand demandId (.demandRaised validated input.workspace)
  return resultId persisted demandId

/-- The demand exists in the state and may go to `dest`. -/
def assertDemandMoves (demandId : DemandId) (dest : DemandStatus) (s : State) :
    Except String DemandState :=
  match s.demands.get demandId with
  | none => .error s!"unknown demand {demandId}"
  | some demand => do
      assertDemandTransition demand.status dest
      return demand

/-- The recheck of `claimDemand` and `agreeDemand`. -/
def recheckDemand (demandId : DemandId) (dest : DemandStatus) : RecheckHook := fun _ existing => do
  let _ ← assertDemandMoves demandId dest (fold existing)

/-- `claimDemand`, with `transitionDemand`. -/
def claimDemand (demandId : DemandId) (handler : Option ActorId) (leaseId : Option JsString) :
    Prog Unit := do
  let s ← Prog.state
  let _ ← Prog.check (assertDemandMoves demandId .qualifying s)
  let handler ← facade.resolveHandler handler (some ⟨.demand, demandId⟩)
  let _ ← (facade.withDemandRecheck (recheckDemand demandId .qualifying)).emit .demand demandId
    (.demandQualifyingStarted handler leaseId)

/-- An item a demand is promoted into. -/
structure PromotedItem where
  title : JsString
  body : Option JsString
  sourceKey : Option JsString
  links : Option (List Link)

/-- The `item.created` of a promoted item. -/
def promotion (demand : DemandState) (demandId : DemandId) (itemId : ItemId)
    (item : PromotedItem) : EventPart where
  aggregate := .item
  aggregateId := itemId
  body := .itemCreated
    { kind := demand.type.kind
      title := item.title
      workspace := demand.workspace
      parentId := none
      role := none
      scope := none
      sourceKey := item.sourceKey
      body := item.body
      links := item.links
      accountable := none
      responsible := none
      engagementRef := none
      demandId := demandId }

def agreeDemand (demandId : DemandId) (handler : Option ActorId) (items : List PromotedItem)
    (qualification leaseId : Option JsString) : Prog (List ItemId) := do
  let s ← Prog.state
  let demand ← Prog.require (s.demands.get demandId) s!"unknown demand {demandId}"
  Prog.ensure (items ≠ []) "agreeDemand: a promotion must yield at least one item"
  Prog.check (assertDemandTransition demand.status .agreed)
  let handler ← facade.resolveHandler handler (some ⟨.demand, demandId⟩)
  let itemIds ← Prog.newIds items.length
  let agreed : EventPart :=
    ⟨.demand, demandId, .demandAgreed handler (some itemIds) qualification leaseId⟩
  let parts := agreed :: List.zipWith (promotion demand demandId) itemIds items
  let persisted ← (facade.withDemandRecheck (recheckDemand demandId .agreed)).emitBatch parts
  return (persisted.filter fun e => match e.core.body with
    | .itemCreated _ => true
    | _ => false).map (·.core.aggregateId)

/-- `assertDuplicateContainment`. -/
def assertDuplicateContainment (demand : DemandState) (duplicateOf : Option DemandRef)
    (s : State) : Except String Unit :=
  match duplicateOf with
  | none => .error "demand.disposition: a duplicate requires a duplicateOf survivor \x7bkind,id\x7d"
  | some survivor => do
      if survivor.id = demand.id then
        throw s!"demand.disposition: a demand cannot be a duplicate of itself ({demand.id})"
      let workspace ← match survivor.kind with
        | .demand =>
            match s.demands.get survivor.id with
            | none => throw s!"demand.disposition: unknown duplicateOf demand {survivor.id}"
            | some other => pure other.workspace
        | .item =>
            match s.items.get survivor.id with
            | none => throw s!"demand.disposition: unknown duplicateOf item {survivor.id}"
            | some other => pure other.workspace
      if workspace ≠ demand.workspace then
        throw s!"demand.disposition: a duplicateOf survivor must be in the same workspace \"{demand.workspace}\" (got \"{workspace}\")"
      match survivor.kind, s.demands.get survivor.id with
      | .demand, some other =>
          if other.status = .duplicate ∨ other.status = .rejected then
            throw s!"demand.disposition: duplicateOf demand {survivor.id} is itself {other.status.text} (a non-survivor) — a duplicate must point at a real survivor"
      | _, _ => pure ()

/-- What a disposition needs of a state, besides that the demand may go there. -/
def assertDisposable (demand : DemandState) (outcome : DispositionOutcome)
    (duplicateOf : Option DemandRef) (s : State) : Except String Unit :=
  if outcome = .duplicate then assertDuplicateContainment demand duplicateOf s else .ok ()

/-- The recheck of `disposeDemand`. -/
def recheckDisposition (demandId : DemandId) (outcome : DispositionOutcome)
    (duplicateOf : Option DemandRef) : RecheckHook := fun _ existing => do
  let fresh ← assertDemandMoves demandId outcome.status (fold existing)
  assertDisposable fresh outcome duplicateOf (fold existing)

def disposeDemand (demandId : DemandId) (outcome : DemandStatus) (handler : Option ActorId)
    (reason : JsString) (duplicateOf : Option DemandRef) (parkedUntil leaseId : Option JsString) :
    Prog Unit := do
  let outcome ← Prog.check (assertDispositionOutcome outcome)
  let s ← Prog.state
  let demand ← Prog.check (assertDemandMoves demandId outcome.status s)
  if outcome = .duplicate then do
    -- the default argument of `assertDuplicateContainment` is a second read
    let s ← Prog.state
    Prog.check (assertDuplicateContainment demand duplicateOf s)
  let handler ← facade.resolveHandler handler (some ⟨.demand, demandId⟩)
  let recheck := recheckDisposition demandId outcome duplicateOf
  let _ ← (facade.withDemandRecheck recheck).emit .demand demandId
    (.demandDisposition outcome handler (some reason) duplicateOf parkedUntil leaseId)

end H2a.Track.Facade
