import H2a.Library.JsString
/-!
# The event contract

`packages/track/src/events/types.ts`.  The log layer never looks inside a
payload except in two places of the validator, so it is written once for any
type of event core that answers the questions below.  Two cores instantiate it:
the JSON object that stands on a log line (`LogFile`) and the typed core the
fold and the facade work with (`H2a.Track.Model`).
-/

namespace H2a.Track.Events

open H2a.Library

/-- `sha256:…`. -/
abbrev Sha256 := JsString

/-- A number standing in a batch frame.  A foreign writer may have put anything
there; all that matters of it is that it is not an integer. -/
inductive CmdNumber where
  | int (k : Int)
  | other
  deriving DecidableEq

/-- `cmd: { i, n }`; a member that is `undefined` is `none`. -/
structure CmdPosition where
  i : Option CmdNumber
  n : Option CmdNumber
  deriving DecidableEq

/-- The position the store writes. -/
def CmdPosition.of (i n : Nat) : CmdPosition :=
  ⟨some (.int i), some (.int n)⟩

/-- The payload members `validateBlockerScope` reads.  A string member that is
absent, or not a string, is `none`; for `resolutionRule` the two differ. -/
structure BlockerOpenedFields where
  kind : Option JsString
  hasRef : Bool
  scope : Option JsString
  engagementRef : Option JsString
  resolutionRule : Option (Option JsString)

/-- What `payload.itemId` of a reopening says about the aggregate it lands on. -/
inductive ReopenAddress where
  /-- a string equal to the event's `aggregateId` -/
  | itself
  /-- `undefined` -/
  | absent
  /-- anything else -/
  | foreign
  deriving DecidableEq

/-- The payload members `validateReopen` reads of a `realization.reopened` event. -/
structure ReopenedFields where
  itemId : ReopenAddress
  motive : Option JsString
  reason : Option JsString
  deriving DecidableEq

/-- The event types `validateReopen` distinguishes, with what it reads of each. -/
inductive Lifecycle where
  | created
  | transition (dest : Option JsString)
  | reopened (fields : ReopenedFields)
  | other
  deriving DecidableEq

/-- An event core, as the log layer sees it.  `K` is the type of the values that
stand in the id members. -/
class EventCore (C : Type) (K : outParam Type) where
  id : C → K
  aggregate : C → Option K
  aggregateId : C → K
  cmdId : C → Option K
  cmd : C → Option CmdPosition
  clientToken : C → Option K
  blockerOpened : C → Option BlockerOpenedFields
  lifecycle : C → Lifecycle

/-- A fully persisted event: the core and its integrity frame. -/
structure TrackEvent (C : Type) where
  core : C
  /-- per-aggregate, 1-based, strictly contiguous -/
  seq : Nat
  /-- `contentHash` of the preceding stream event; `none` is `null` -/
  prevHash : Option Sha256
  contentHash : Sha256
  deriving DecidableEq

namespace TrackEvent

variable {C K : Type} [EventCore C K]

/-- `stripFrame`: the hash domain of a persisted event. -/
abbrev stripFrame (e : TrackEvent C) : C := e.core

def id (e : TrackEvent C) : K := EventCore.id e.core
def aggregate (e : TrackEvent C) : Option K := EventCore.aggregate e.core
def aggregateId (e : TrackEvent C) : K := EventCore.aggregateId e.core
def cmdId (e : TrackEvent C) : Option K := EventCore.cmdId e.core
def cmd (e : TrackEvent C) : Option CmdPosition := EventCore.cmd e.core
def clientToken (e : TrackEvent C) : Option K := EventCore.clientToken e.core

end TrackEvent

/-- The `contentHash` the next event's `prevHash` must repeat. -/
def lastHash {C : Type} (events : List (TrackEvent C)) : Option Sha256 :=
  events.getLast?.map (·.contentHash)

/-- The non-authoritative anchor stored in `head.json` (`head.ts`). -/
structure Head where
  streamLength : Nat
  lastContentHash : Option Sha256
  deriving DecidableEq

/-- The head a stream defines: its length and its last `contentHash`. -/
def headOf {C : Type} (events : List (TrackEvent C)) : Head :=
  ⟨events.length, lastHash events⟩

/-- The least an event can be: the creation of an item, known by its ids.  The
concrete runs of the log layer are about such events. -/
structure BareCore where
  id : JsString
  aggregateId : JsString
  batch : Option (JsString × CmdPosition)
  deriving DecidableEq

/-- A stand-in for SHA-256 that keeps different ids apart. -/
def BareCore.hash (c : BareCore) : Sha256 := js "sha256:" ++ c.id

instance : EventCore BareCore JsString where
  id := BareCore.id
  aggregate _ := some (js "item")
  aggregateId := BareCore.aggregateId
  cmdId c := c.batch.map Prod.fst
  cmd c := c.batch.map Prod.snd
  clientToken _ := none
  blockerOpened _ := none
  lifecycle _ := .created

end H2a.Track.Events
