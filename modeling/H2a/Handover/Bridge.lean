import H2a.Handover.RequestMappings
import H2a.Library.Utf8
/-!
# The stdio bridge

`bridgeCentralMcpStdio` of `packages/h2a/src/runtime/handover/shim-bridge.js`, as far as it decides
what is written: `write`, `receive`, `dispatch`, `onMessage` and `stop`.  A dispatch waits for a
connection, for the response to its post and at each notification of that response, and others take
their turns meanwhile.  What the network, the clock and the catalogue answer comes with the actions.
-/

namespace H2a.Handover

open H2a.Library

variable {N : Type} [JsonNumber N]

/-! ## Values -/

/-- `{ ...value, k: member }` -/
def withMember (k : JsString) (member : Json N) : Json N → Json N
  | .obj members => .obj (defineMember k member members)
  | value => value

/-- `rpc(value)` -/
def rpc (value : Json N) : Bool := Json.isText (js "2.0") (value.get (js "jsonrpc"))

/-- An integer that `Number.isSafeInteger` holds of. -/
def safeInteger : Option (Json N) → Option Int
  | some (.num n) => (JsonNumber.toInt? n).filter fun i => i.natAbs ≤ 2 ^ 53 - 1
  | _ => none

/-- `Buffer.byteLength(JSON.stringify(value) + '\n')` -/
def lineSize (value : Json N) : Nat := (Utf8.encode value.render).length + 1

/-- A JSON-RPC error without data. -/
def plainError (id : Json N) (code : String) (message : JsString) : Json N :=
  .obj [(js "jsonrpc", .str (js "2.0")), (js "id", id),
    (js "error", .obj [(js "code", .num (JsonNumber.ofToken code.toList)),
      (js "message", .str message)])]

/-- What stands for a line over the budget. -/
def tooLarge (id : Json N) : Json N := plainError id "-32011" (js "response_too_large")

/-- The line of `error(id, code, message, retrySafe)`. -/
def errorLine (id : Option (Json N)) (code message : JsString) (retrySafe : Bool) : Json N :=
  .obj ((js "jsonrpc", .str (js "2.0")) :: (id.toList.map (Prod.mk (js "id")) ++
    [(js "error", Json.obj [(js "code", .num (JsonNumber.ofToken "-32011".toList)),
      (js "message", .str message),
      (js "data", .obj [(js "code", .str code), (js "retrySafe", .bool retrySafe)])])]))

/-- `{ jsonrpc: '2.0', id, result }` -/
def resultLine (id : Option (Json N)) (result : Json N) : Json N :=
  .obj ((js "jsonrpc", .str (js "2.0")) :: (id.toList.map (Prod.mk (js "id")) ++
    [(js "result", result)]))

/-- The answer to `initialize`. -/
def initializeResult (host : BridgeHost N) (protocolVersion : JsString) : Json N :=
  .obj [(js "protocolVersion", .str protocolVersion),
    (js "capabilities", .obj [(js "tools", .obj [(js "listChanged", .bool true)])]),
    (js "serverInfo", .obj [(js "name", .str (js "@sentropic/h2a")),
      (js "version", .str host.packageVersion)])]

def protocols : List JsString := [js "2025-06-18", js "2024-11-05"]

/-! ## The state -/

/-- Where a dispatch is. -/
inductive Phase (N : Type) [JsonNumber N] where
  | waiting
  | posted (owner : Owner N)
  /-- in the loop over the frames of the response, with those to come -/
  | replying (owner : Owner N) (rest : List (Json N))
  | finished

def Phase.isFinished {N : Type} [JsonNumber N] : Phase N → Bool
  | .finished => true
  | _ => false

/-- A dispatch: its request and the frames of the response. -/
structure Call (N : Type) [JsonNumber N] where
  message : Json N
  phase : Phase N
  frames : List (Json N)

/-- What a line is written for. -/
inductive Purpose (N : Type) where
  | reply (place : Nat) (frame : Json N)
  | failure (place : Nat)
  | progress (place : Nat) (token : JsString) (source : Transport)
  | other

/-- The calls have the places of their entries.  `protocolVersion` is that of `initialized`;
`resumed` has each transport with its successor, as they were resumed. -/
structure Bridge (N : Type) [JsonNumber N] where
  mappings : RequestMappings N
  calls : List (Call N)
  current : Option Transport
  resumed : List (Transport × Transport)
  lastSequence : JsMap Transport Int
  protocolVersion : Option JsString
  registryAdmitted : Bool
  stopped : Bool
  queued : Nat
  written : List (Purpose N × Json N)

/-- An error that a dispatch catches; a refusal is the payload of a verified frame. -/
structure Thrown (N : Type) [JsonNumber N] where
  message : JsString
  refusal : Option (Digested N)
  applicationDispatched : Option Bool

/-- What the clock, the random ids and the catalogue answer as a message is handled. -/
structure Arrival (N : Type) where
  now : Int
  requestUid : JsString
  requestNonce : JsString
  /-- `view.page(cursor)` -/
  page : Except JsString (Json N)

namespace Bridge

variable (host : BridgeHost N) (bridge : Bridge N)

/-- The bridge as it starts. -/
def start : Bridge N := {
  mappings := .empty
  calls := []
  current := none
  resumed := []
  lastSequence := .empty
  protocolVersion := none
  registryAdmitted := !host.registryTools
  stopped := false
  queued := 0
  written := [] }

/-! ## Writing -/

/-- `stop()` -/
def stop : Bridge N :=
  if bridge.stopped then bridge
  else { bridge with stopped := true, mappings := bridge.mappings.close }

/-- The line that is written for a value: one over the budget gives way to an error, if it has an
id to name. -/
def lineOf (value : Json N) : Option (Json N) :=
  if 1024 * 1024 < lineSize value then (value.get (js "id")).map tooLarge else some value

/-- `write(value)` -/
def write (purpose : Purpose N) (value : Json N) : Bridge N :=
  if bridge.stopped then bridge
  else
    match lineOf value with
    | none => bridge
    | some line =>
        if 8 * 1024 * 1024 < bridge.queued + lineSize line then bridge.stop
        else { bridge with
          queued := bridge.queued + lineSize line
          written := bridge.written ++ [(purpose, line)] }

/-- `if (mappings.settle(entry, terminalState)) write(value)` -/
def answer (place : Nat) (terminalState : TerminalState) (purpose : Purpose N) (value : Json N) :
    Bridge N :=
  match bridge.mappings.settle place terminalState with
  | (_, false) => bridge
  | (mappings, true) => { bridge with mappings := mappings }.write purpose value

/-! ## Frames from upstream -/

/-- `message.params?._meta?.h2aNotificationSequence` -/
def sequenceOf (message : Json N) : Option Int :=
  safeInteger (optional (js "h2aNotificationSequence")
    (optional (js "_meta") (message.get (js "params"))))

/-- `{ ...message, params: { ...message.params, progressToken } }` -/
def progressLine (message : Json N) (progressToken : Json N) : Json N :=
  withMember (js "params")
    (withMember (js "progressToken") progressToken
      ((message.get (js "params")).getD (.obj []))) message

/-- The method of a notification decides where it goes. -/
def deliver (message : Json N) (owner : Transport) : Bridge N × Option String :=
  let method := message.get (js "method")
  if Json.isText (js "notifications/progress") method then
    let token := optional (js "progressToken") (message.get (js "params"))
    match bridge.mappings.progress token owner with
    | .error error => (bridge, some error)
    | .ok none => (bridge, none)
    | .ok (some (place, downstreamProgressToken)) =>
        match token with
        | some (.str token) =>
            (bridge.write (.progress place token owner)
              (progressLine message downstreamProgressToken), none)
        | _ => (bridge, none)
  else if Json.isText (js "notifications/tools/list_changed") method then (bridge, none)
  else if bridge.current = some owner then (bridge.write .other message, none)
  else (bridge, none)

/-- `receive(message, owner)` up to its first `await`, and what it throws. -/
def receive (message : Json N) (owner : Transport) : Bridge N × Option String :=
  -- a server request is refused by a post; a response here belongs to no request
  if (message.get (js "id")).isSome || !(message.get (js "method")).any Json.truthy then
    (bridge, none)
  else
    match sequenceOf message with
    | none => bridge.deliver message owner
    | some sequence =>
        if sequence ≤ (bridge.lastSequence.get owner).getD 0 then (bridge, none)
        else
          { bridge with lastSequence := bridge.lastSequence.set owner sequence }.deliver message
            owner

/-! ## Dispatch -/

/-- The entry and the call at a place. -/
def dispatching (place : Nat) : Option (Entry N × Call N) :=
  match bridge.mappings.entries[place]?, bridge.calls[place]? with
  | some entry, some call => some (entry, call)
  | _, _ => none

/-- A change of a call. -/
def amendCall (place : Nat) (f : Call N → Call N) : Bridge N :=
  { bridge with calls := bridge.calls.modify place f }

def moveTo (place : Nat) (phase : Phase N) : Bridge N :=
  bridge.amendCall place fun call => { call with phase := phase }

/-- A change of fields of an entry that do not settle it. -/
def amendEntry (place : Nat) (f : Entry N → Entry N) : Bridge N :=
  { bridge with mappings := bridge.mappings.amend place f }

/-- The code of the error a request ends with. -/
def failureCode (dispatchState : DispatchState) (message : JsString) : JsString :=
  if dispatchState = .possible then js "outcome_unknown"
  else if message ∈ [js "deadline_exceeded", js "legacy_requires_cold_upgrade"] then message
  else js "central_unavailable"

/-- `entry.owner && nonAdmissionMatches(e.refusal, entry, message)`, with the reason. -/
def nonAdmission (entry : Entry N) (call : Call N) (thrown : Thrown N) :
    Except String (Option JsString) :=
  match entry.owner, thrown.refusal with
  | some owner, some refusal => do
      if ← nonAdmissionMatches host refusal.json entry owner call.message then
        match refusal.json.get (js "reason") with
        | some (.str reason) => return some reason
        | _ => return none
      else return none
  | _, _ => return none

/-- The dispatch state of a request whose dispatch has thrown. -/
def dispatchStateAfter (entry : Entry N) (thrown : Thrown N) : DispatchState :=
  if entry.dispatchState = .possible ∧ thrown.applicationDispatched = some false then .notSent
  else entry.dispatchState

/-- The `catch` of `dispatch`. -/
def caught (place : Nat) (thrown : Thrown N) : Bridge N :=
  match bridge.dispatching place with
  | none => bridge
  | some (entry, call) =>
      if entry.terminalState.isSome || bridge.stopped then bridge
      else
        match nonAdmission host entry call thrown with
        | .error _ => bridge
        | .ok (some reason) =>
            bridge.answer place .nonAdmission (.failure place)
              (errorLine (some entry.downstreamId) reason reason true)
        | .ok none =>
            let dispatchState := dispatchStateAfter entry thrown
            (bridge.amendEntry place fun entry => { entry with dispatchState := dispatchState }).answer
              place .error (.failure place)
              (errorLine (some entry.downstreamId) (failureCode dispatchState thrown.message)
                thrown.message false)

/-- The dispatch ends in its `catch`. -/
def fail (place : Nat) (thrown : Thrown N) : Bridge N :=
  (bridge.caught host place thrown).moveTo place .finished

/-- An error of the bridge's own. -/
def ownError (message : String) : Thrown N := ⟨js message, none, none⟩

/-- The parameters a request is sent on with. -/
def outgoingParams (entry : Entry N) (message : Json N) : Option (Json N) :=
  let params := message.get (js "params")
  match entry.progressToken with
  | none => params
  | some progressToken =>
      params.map fun value =>
        withMember (js "_meta") (withMember (js "progressToken") (.str progressToken)
          ((optional (js "_meta") params).getD (.obj []))) value

/-- `{ ...message, id: entry.upstreamId, ...(params ? { params } : {}) }` -/
def outgoing (entry : Entry N) (message : Json N) : Json N :=
  let sent := withMember (js "id") (.str entry.upstreamId) message
  match outgoingParams entry message with
  | none => sent
  | some params => if params.truthy then withMember (js "params") params sent else sent

/-- A connection is available to a dispatch that waits for one: what it does up to its post. -/
def resolve (place : Nat) (owner : Owner N) (now : Int) (canCall : Bool) : Bridge N :=
  match bridge.dispatching place with
  | none => bridge
  | some (entry, call) =>
      match call.phase with
      | .waiting =>
          if entry.terminalState.isSome then bridge.moveTo place .finished
          else if entry.originalDeadline ≤ now then
            bridge.fail host place (ownError "deadline_exceeded")
          else if Json.isText (js "tools/call") (call.message.get (js "method")) && !canCall then
            (bridge.answer place .nonAdmission (.failure place)
              (errorLine (some entry.downstreamId) (js "tool_unavailable_on_generation")
                (js "tool_unavailable_on_generation") false)).moveTo place .finished
          else
            let bridge := (bridge.moveTo place (.posted owner)).amendEntry place fun entry =>
              { entry with owner := some owner, dispatchState := .possible }
            match digest host (outgoing entry call.message) with
            | .error error => bridge.fail host place (ownError error)
            | .ok requestDigest =>
                bridge.amendEntry place fun entry =>
                  { entry with requestDigest := some requestDigest }
      | _ => bridge

/-- The dispatch throws where it waits. -/
def throwAt (place : Nat) (thrown : Thrown N) : Bridge N :=
  match bridge.dispatching place with
  | none => bridge
  | some (_, call) =>
      match call.phase with
      | .finished => bridge
      | _ => bridge.fail host place thrown

/-- The response to the post of a dispatch. -/
def respond (place : Nat) (frames : List (Json N)) : Bridge N :=
  match bridge.dispatching place with
  | none => bridge
  | some (_, call) =>
      match call.phase with
      | .posted owner =>
          let frames := frames.filter rpc
          bridge.amendCall place fun call =>
            { call with frames := frames, phase := .replying owner frames }
      | _ => bridge

/-- Whether a frame is a reply to an upstream id: `!next.method && next.id === upstreamId`. -/
def repliesTo (upstreamId : JsString) (frame : Json N) : Bool :=
  !(frame.get (js "method")).any Json.truthy && Json.isText upstreamId (frame.get (js "id"))

/-- One turn of the loop over the frames. -/
def frame (place : Nat) : Bridge N :=
  match bridge.dispatching place with
  | none => bridge
  | some (entry, call) =>
      match call.phase with
      | .replying owner (next :: rest) =>
          if (next.get (js "method")).any Json.truthy then
            match (bridge.moveTo place (.replying owner rest)).receive next owner.transport with
            | (bridge, none) => bridge
            | (bridge, some error) => bridge.fail host place (ownError error)
          else if repliesTo entry.upstreamId next then
            (bridge.answer place .result (.reply place next)
              (withMember (js "id") entry.downstreamId next)).moveTo place (.replying owner rest)
          else bridge.moveTo place (.replying owner rest)
      | _ => bridge

/-- The end of the loop: a request that is still open has no reply in the response. -/
def conclude (place : Nat) : Bridge N :=
  match bridge.dispatching place with
  | none => bridge
  | some (entry, call) =>
      match call.phase with
      | .replying _ [] =>
          (bridge.answer place .unknown (.failure place)
            (errorLine (some entry.downstreamId) (js "outcome_unknown") (js "outcome_unknown")
              false)).moveTo place .finished
      | _ => bridge

/-! ## Messages from downstream -/

/-- The deadline a request is admitted with. -/
def deadlineOf (message : Json N) (now : Int) : Int :=
  match safeInteger (optional (js "deadline") (optional (js "_meta") (message.get (js "params")))) with
  | some offered => min (now + 55000) offered
  | none => now + 55000

/-- A request to send on. -/
def admitCall (message id : Json N) (arrival : Arrival N) : Bridge N :=
  match bridge.mappings.begin host message id (deadlineOf message arrival.now) arrival.requestUid
      arrival.requestNonce with
  | (mappings, .error error) =>
      { bridge with mappings := mappings }.write .other
        (errorLine (some id) (js error) (js error) false)
  | (mappings, .ok _) =>
      { bridge with
        mappings := mappings
        calls := bridge.calls ++ [{ message := message, phase := .waiting, frames := [] }] }

/-- The first message of a session. -/
def onInitialize (message : Json N) : Bridge N :=
  let id := message.get (js "id")
  if bridge.protocolVersion.isSome then
    bridge.write .other (errorLine id (js "already_initialized") (js "already_initialized") false)
  else
    let offered := optional (js "protocolVersion") (message.get (js "params"))
    let protocolVersion := (protocols.find? fun p => Json.isText p offered).getD (js "2025-06-18")
    let bridge := { bridge with protocolVersion := some protocolVersion }
    if host.registryTools then bridge
    else bridge.write .other (resultLine id (initializeResult host protocolVersion))

/-- `onMessage(message)` -/
def onMessage (message : Json N) (arrival : Arrival N) : Bridge N :=
  let method := message.get (js "method")
  let id := message.get (js "id")
  let params := message.get (js "params")
  if !rpc message || typeOf method != "string" ||
      id.isSome && typeOf id != "number" && typeOf id != "string" then
    bridge.write .other (plainError .null "-32600" (js "Invalid request"))
  else if id.any fun id => 1024 < (Utf8.encode id.render).length then
    bridge.write .other (plainError .null "-32600" (js "Request ID exceeds the frame budget"))
  else if Json.isText (js "notifications/cancelled") method && id.isNone then
    { bridge with mappings := bridge.mappings.cancel (optional (js "requestId") params) }
  else if Json.isText (js "initialize") method then bridge.onInitialize host message
  else if bridge.protocolVersion.isNone || !bridge.registryAdmitted then
    match id with
    | none => bridge
    | some id =>
        bridge.write .other
          (errorLine (some id) (js "initialize_required") (js "initialize_required") false)
  else if Json.isText (js "notifications/initialized") method then bridge
  else
    match id with
    | none => bridge
    | some id =>
        if Json.isText (js "tools/list") method then
          bridge.write .other (match arrival.page with
            | .ok page => resultLine (some id) page
            | .error message => errorLine (some id) (js "catalogue_unavailable") message false)
        else bridge.admitCall host message id arrival

/-! ## Connections -/

/-- The transport of a resumption: `{ ...current, sessionId, transportEpoch }`. -/
def successor (previous : Transport) (sessionId : JsString) : Transport :=
  { previous with sessionId := some sessionId, transportEpoch := previous.transportEpoch + 1 }

/-- The current transport is resumed. -/
def resume (sessionId : JsString) : Bridge N :=
  match bridge.current with
  | none => bridge
  | some previous =>
      let next := successor previous sessionId
      { bridge with
        current := some next
        resumed := if RequestMappings.resumes previous next then
            bridge.resumed ++ [(previous, next)]
          else bridge.resumed
        lastSequence := (bridge.lastSequence.get previous).elim bridge.lastSequence
          (bridge.lastSequence.set next)
        mappings := bridge.mappings.resumeNotifications previous next }

/-- The connection of a registry bridge is up, or is not: the answer to `initialize`. -/
def registryAnswer (id : Option (Json N)) (failed : Option JsString) : Bridge N :=
  match failed, bridge.protocolVersion with
  | none, some protocolVersion =>
      { bridge with registryAdmitted := true }.write .other
        (resultLine id (initializeResult host protocolVersion))
  | some message, _ =>
      bridge.write .other (errorLine id (js "central_unavailable") message false)
  | none, none => bridge

end Bridge

/-! ## Steps -/

inductive BridgeAction (N : Type) [JsonNumber N] where
  | message (message : Json N) (arrival : Arrival N)
  | resolve (place : Nat) (owner : Owner N) (now : Int) (canCall : Bool)
  | throwAt (place : Nat) (thrown : Thrown N)
  | respond (place : Nat) (frames : List (Json N))
  | frame (place : Nat)
  | conclude (place : Nat)
  /-- a frame of a notification stream, or of those kept for a resumption -/
  | notify (message : Json N) (owner : Transport)
  | resume (sessionId : JsString)
  /-- a handshake: `mappings.nextId()` -/
  | handshake
  /-- a first connection, a generation replacement or a transfer -/
  | connect (owner : Transport)
  | registryAnswer (id : Option (Json N)) (failed : Option JsString)
  /-- a line of the bridge's own: a change of the catalogue, a gap, unreadable input -/
  | announce (value : Json N)
  /-- a line has left -/
  | flushed (size : Nat)
  | stop

/-- A turn of one of the parts of the bridge. -/
def Bridge.step (host : BridgeHost N) (bridge : Bridge N) : BridgeAction N → Bridge N
  | .message message arrival => bridge.onMessage host message arrival
  | .resolve place owner now canCall => bridge.resolve host place owner now canCall
  | .throwAt place thrown => bridge.throwAt host place thrown
  | .respond place frames => bridge.respond place frames
  | .frame place => bridge.frame host place
  | .conclude place => bridge.conclude place
  | .notify message owner => (bridge.receive message owner).1
  | .resume sessionId => bridge.resume sessionId
  | .handshake =>
      match bridge.mappings.nextId host with
      | none => bridge
      | some (_, mappings) => { bridge with mappings := mappings }
  | .connect owner => { bridge with current := some owner }
  | .registryAnswer id failed => bridge.registryAnswer host id failed
  | .announce value => bridge.write .other value
  | .flushed size => { bridge with queued := bridge.queued - size }
  | .stop => bridge.stop

end H2a.Handover
