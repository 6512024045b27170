import H2a.Track.Model.Item
/-!
# Demands

`packages/track/src/model/demand.ts`.
-/

namespace H2a.Track.Model

open H2a.Library

inductive DemandType where
  | feature
  | defect
  | chore
  deriving DecidableEq

/-- A demand's type is the kind of the items it is promoted into. -/
def DemandType.kind : DemandType → ItemKind
  | .feature => .feature
  | .defect => .defect
  | .chore => .chore

inductive DemandStatus where
  | raised
  | qualifying
  | agreed
  | rejected
  | duplicate
  | parked
  deriving DecidableEq

def DemandStatus.text : DemandStatus → String
  | .raised => "raised"
  | .qualifying => "qualifying"
  | .agreed => "agreed"
  | .rejected => "rejected"
  | .duplicate => "duplicate"
  | .parked => "parked"

inductive TextFormat where
  | plain
  | markdown
  deriving DecidableEq

structure DemandRaw where
  text : JsString
  title : Option JsString
  format : Option TextFormat
  deriving DecidableEq

inductive SourceKind where
  | human
  | agent
  | h2a
  | «import»
  | external
  deriving DecidableEq

structure DemandSource where
  kind : SourceKind
  actor : Option ActorId
  ref : Option JsString
  locator : Option JsString
  deriving DecidableEq

inductive DemandRefKind where
  | demand
  | item
  deriving DecidableEq

/-- What a duplicate points at. -/
structure DemandRef where
  kind : DemandRefKind
  id : JsString
  deriving DecidableEq

structure DemandState where
  id : DemandId
  workspace : JsString
  type : DemandType
  raw : DemandRaw
  source : DemandSource
  status : DemandStatus
  itemIds : Option (List ItemId)
  duplicateOf : Option DemandRef
  rejectReason : Option JsString
  parkReason : Option JsString
  /-- the item a defect regresses -/
  concerns : Option ItemId
  sourceKey : Option JsString
  links : Option (List Link)

def DEMAND_TRANSITIONS : DemandStatus → List DemandStatus
  | .raised => [.qualifying]
  | .qualifying => [.agreed, .rejected, .duplicate, .parked]
  | .agreed => []
  | .rejected => []
  | .duplicate => []
  | .parked => [.qualifying]

def assertDemandTransition (current dest : DemandStatus) : Except String Unit :=
  if dest ∈ DEMAND_TRANSITIONS current then .ok ()
  else .error s!"illegal demand transition {current.text} -> {dest.text}"

inductive DispositionOutcome where
  | rejected
  | duplicate
  | parked
  deriving DecidableEq

def DispositionOutcome.status : DispositionOutcome → DemandStatus
  | .rejected => .rejected
  | .duplicate => .duplicate
  | .parked => .parked

def assertDispositionOutcome (outcome : DemandStatus) : Except String DispositionOutcome :=
  match outcome with
  | .rejected => .ok .rejected
  | .duplicate => .ok .duplicate
  | .parked => .ok .parked
  | other => .error
      s!"demand.disposition: outcome must be one of rejected|duplicate|parked (got \"{other.text}\")"

structure DemandRaisedPayload where
  type : DemandType
  raw : DemandRaw
  source : DemandSource
  handler : ActorId
  sourceKey : Option JsString
  concerns : Option ItemId
  links : Option (List Link)
  deriving DecidableEq

/-- `assertDemandRaised`, with `assertRaw` and `assertConcerns`. -/
def assertDemandRaised (demand : DemandRaisedPayload) : Except String DemandRaisedPayload := do
  if emptyString demand.handler then
    throw "demand.raise: a handler is required (who is handling must be logged on every step)"
  if emptyString demand.raw.text then
    throw "demand.raise: raw.text is required (the t=0 capture)"
  if demand.concerns.any emptyString then throw "demand.raise: concerns.id is required"
  return demand

end H2a.Track.Model
