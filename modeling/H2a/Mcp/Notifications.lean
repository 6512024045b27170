import H2a.Library.JsMap
import H2a.Library.JsString
/-!
# The notification dispatcher

`packages/h2a/src/runtime/mcp/notifications.ts`: one tick reads, for each session of the process,
what changed since its snapshot, and pushes it.  The snapshot advances when every push of the
session was accepted.
-/

namespace H2a.Mcp

open H2a.Library

/-! ## Data -/

/-- `H2ASessionNotificationTopic` -/
inductive NotificationTopic where
  | peerJoined
  | peerLeft
  | envelopeArrived
  | eventAppended
  | peerBlocked
  | peerUnblocked
  deriving DecidableEq

/-- `H2A_SESSION_NOTIFICATION_TOPICS` -/
def notificationTopics : List NotificationTopic :=
  [.peerJoined, .peerLeft, .envelopeArrived, .eventAppended, .peerBlocked, .peerUnblocked]

structure SessionInterests where
  scopes : List JsString
  negotiations : List JsString
  deriving DecidableEq

/-- A session, of this process or of a peer. -/
structure H2ASession where
  sessionId : JsString
  instance_ : JsString
  host : Option JsString
  interests : SessionInterests
  subscribedTopics : List NotificationTopic

structure H2ABlockage where
  instance_ : JsString
  scope : JsString
  reason : JsString
  needs : Option JsString
  resolvedAt : Option JsString

/-- `isActiveBlockage` -/
def isActiveBlockage (b : H2ABlockage) : Bool := b.resolvedAt == none

/-- The `data` of a notification, topic by topic. -/
inductive NotificationData where
  | peerJoined (sessionId instance_ : JsString) (host : Option JsString)
      (interests : SessionInterests)
  | peerLeft (sessionId : JsString)
  | envelopeArrived (instance_ envelopeId : JsString)
  | eventAppended (negotiationId : JsString) (newEntries totalEntries : Nat)
      (lastHash : JsString) (truncated : Bool)
  | peerBlocked (instance_ scope reason : JsString) (needs : Option JsString)
  | peerUnblocked (instance_ : JsString)
  deriving DecidableEq

/-- `McpPushNotification` -/
structure McpPushNotification where
  topic : NotificationTopic
  sessionId : JsString
  data : NotificationData
  deriving DecidableEq

structure NegotiationSnapshot where
  count : Nat
  lastHash : JsString

/-- `SessionDiffState`: what the session had been told at its last scan. -/
structure SessionDiffState where
  peers : List JsString
  envelopeIds : List JsString
  negotiations : JsMap JsString NegotiationSnapshot
  blocked : List JsString

/-- `emptyDiffState` -/
def emptyDiffState : SessionDiffState := ⟨[], [], .empty, []⟩

structure Produced where
  sequence : Nat
  notification : McpPushNotification
  delivered : Bool

structure Truncation where
  negotiationId : JsString
  previousCount : Nat
  count : Nat
  lastHash : JsString

/-- The fields of `NotificationDispatcher`. -/
structure Dispatcher (K : Type) [DecidableEq K] where
  snapshots : JsMap JsString SessionDiffState
  produced : JsMap K Produced
  producedSequence : Nat
  deliveredSequence : Nat
  truncations : List Truncation

/-- What the sink makes of a push. -/
inductive SinkAnswer where
  | receipt (accepted delivered : Bool)
  | throws

/-- What a tick finds while it goes through the sessions.  `none` is a read that throws, `sink i`
the answer to its push number `i`, and the store is read as it is when the tick gets to the
session. -/
structure Scan (E : Type) where
  sink : Nat → SinkAnswer
  freshPeers : List H2ASession
  activeBlockages : List H2ABlockage
  readInbox : (sessionId instance_ : JsString) → Option (List JsString)
  readNegotiationJournal : (sessionId negotiationId : JsString) → Option (List E)
  /-- whether the `onInboxArrival` hook throws -/
  wakeThrows : JsString → Bool

/-- The two uses of `digest`, which throws on a text that is not well formed. -/
structure Digests (K E : Type) where
  notification : McpPushNotification → Option K
  entry : Option E → Option JsString

/-- Why a tick stops. -/
inductive Failure where
  | read
  | other

/-- The dispatcher, and what this tick handed to the sink so far, with the verdicts. -/
structure TickState (K : Type) [DecidableEq K] where
  dispatcher : Dispatcher K
  pushed : List (McpPushNotification × Bool)

abbrev TickM (K : Type) [DecidableEq K] := ExceptT Failure (StateM (TickState K))

/-! ## Pushing -/

section Sessions

variable {K E : Type} [DecidableEq K]

/-- `while (delivered.has(this.deliveredSequence + 1)) this.deliveredSequence++` -/
def advanceDelivered (delivered : List Nat) : Nat → Nat → Nat
  | 0, sequence => sequence
  | fuel + 1, sequence =>
      if sequence + 1 ∈ delivered then advanceDelivered delivered fuel (sequence + 1)
      else sequence

/-- `this.produced.get(key)`, made first where there is none. -/
def Dispatcher.produce (d : Dispatcher K) (key : K) (notification : McpPushNotification) :
    Dispatcher K :=
  if d.produced.has key then d
  else
    { d with
      producedSequence := d.producedSequence + 1
      produced := d.produced.set key ⟨d.producedSequence + 1, notification, false⟩ }

/-- `markDelivered`, of the notification of a key. -/
def Dispatcher.markDelivered (d : Dispatcher K) (key : K) : Dispatcher K :=
  let produced := d.produced.modify key fun entry => { entry with delivered := true }
  let delivered := (produced.values.filter (·.delivered)).map (·.sequence)
  { d with
    produced
    deliveredSequence := advanceDelivered delivered delivered.length d.deliveredSequence }

/-- The notification is in the hands of the sink. -/
def TickState.hand (s : TickState K) (notification : McpPushNotification) (accepted : Bool) :
    TickState K :=
  { s with pushed := s.pushed ++ [(notification, accepted)] }

variable (digests : Digests K E) (scan : Scan E)

/-- `push` -/
def push (notification : McpPushNotification) : TickM K Bool :=
  if notification.topic ∉ notificationTopics then return true
  else
    match digests.notification notification with
    | none => throw .other
    | some key => do
        modify fun s => { s with dispatcher := s.dispatcher.produce key notification }
        let s ← get
        match scan.sink s.pushed.length with
        | .throws => do
            modify (·.hand notification false)
            throw .other
        | .receipt accepted delivered => do
            modify (·.hand notification accepted)
            if delivered then
              modify fun s => { s with dispatcher := s.dispatcher.markDelivered key }
            return accepted

/-- A loop over `xs` that pushes what `notify` makes of each, where it makes anything:
`accepted = this.push(…) && accepted`. -/
def pushEach {X : Type} (notify : X → Option McpPushNotification) (xs : List X)
    (accepted : Bool) : TickM K Bool :=
  xs.foldlM (fun accepted x =>
    match notify x with
    | none => pure accepted
    | some notification => do
        let taken ← push digests scan notification
        return taken && accepted) accepted

/-! ## The diffs of a session -/

/-- `isInterestedIn` -/
def isInterestedIn (session : H2ASession) (topic : NotificationTopic) : Bool :=
  topic ∈ session.subscribedTopics

/-- The ids of the other sessions that are fresh. -/
def otherPeers (session : H2ASession) : List JsString :=
  ((scan.freshPeers.map (·.sessionId)).eraseDups).filter (· ≠ session.sessionId)

/-- `presence.peer_joined` for a peer the session has not been told of. -/
def notifyJoined (session : H2ASession) (prev : SessionDiffState) (sid : JsString) :
    Option McpPushNotification :=
  if sid ∈ prev.peers then none
  else (scan.freshPeers.find? fun p => p.sessionId = sid).map fun peer =>
    ⟨.peerJoined, session.sessionId,
      .peerJoined peer.sessionId peer.instance_ peer.host peer.interests⟩

/-- `presence.peer_left` for a peer that is no longer there. -/
def notifyLeft (session : H2ASession) (sid : JsString) : Option McpPushNotification :=
  if sid ∈ otherPeers scan session then none
  else some ⟨.peerLeft, session.sessionId, .peerLeft sid⟩

/-- `readInboxIds`, for a session that is interested. -/
def readInboxIds (session : H2ASession) : List JsString :=
  if isInterestedIn session .envelopeArrived then
    (scan.readInbox session.sessionId session.instance_).getD []
  else []

/-- `inbox.envelope_arrived` for an envelope the session has not been told of. -/
def notifyArrived (session : H2ASession) (prev : SessionDiffState) (envelopeId : JsString) :
    Option McpPushNotification :=
  if envelopeId ∈ prev.envelopeIds then none
  else some ⟨.envelopeArrived, session.sessionId,
    .envelopeArrived session.instance_ envelopeId⟩

/-- The count the last scan saw. -/
def previousCount (prev : SessionDiffState) (negotiationId : JsString) : Nat :=
  ((prev.negotiations.get negotiationId).map (·.count)).getD 0

/-- Whether the journal is not a continuation of the one of the last scan. -/
def journalTruncated (prev : SessionDiffState) (negotiationId : JsString)
    (now : NegotiationSnapshot) : Bool :=
  let previousHash := (prev.negotiations.get negotiationId).map (·.lastHash)
  decide (now.count < previousCount prev negotiationId) ||
    (now.count == previousCount prev negotiationId && previousHash.isSome &&
      previousHash != some now.lastHash)

/-- `negotiation.event_appended` for a journal that grew or was truncated. -/
def notifyAppended (session : H2ASession) (prev : SessionDiffState) (negotiationId : JsString)
    (now : NegotiationSnapshot) : Option McpPushNotification :=
  let truncated := journalTruncated prev negotiationId now
  if previousCount prev negotiationId < now.count ∨ truncated = true then
    some ⟨.eventAppended, session.sessionId,
      .eventAppended negotiationId
        (if truncated then now.count else now.count - previousCount prev negotiationId)
        now.count now.lastHash truncated⟩
  else none

/-- The journal of a negotiation as it is read; the read and the digest of its last entry may
throw. -/
def readJournal (session : H2ASession) (negotiationId : JsString) :
    Option NegotiationSnapshot := do
  let journal ← scan.readNegotiationJournal session.sessionId negotiationId
  let lastHash ← digests.entry journal.getLast?
  return ⟨journal.length, lastHash⟩

/-- The peers that are blocked in the scopes of the session. -/
def blockagesInScope (session : H2ASession) : List H2ABlockage :=
  scan.activeBlockages.filter fun b =>
    b.instance_ ≠ session.instance_ ∧ b.scope ∈ session.interests.scopes

/-- `peer.blocked` for a peer the session does not know to be blocked. -/
def notifyBlocked (session : H2ASession) (prev : SessionDiffState) (b : H2ABlockage) :
    Option McpPushNotification :=
  if b.instance_ ∈ prev.blocked then none
  else some ⟨.peerBlocked, session.sessionId,
    .peerBlocked b.instance_ b.scope b.reason (b.needs.filter fun needs => needs.length != 0)⟩

/-- The instances blocked now. -/
def blockedNow (session : H2ASession) : List JsString :=
  ((blockagesInScope scan session).map (·.instance_)).eraseDups

/-- `peer.unblocked` for a peer that was blocked. -/
def notifyUnblocked (session : H2ASession) (instance_ : JsString) :
    Option McpPushNotification :=
  if instance_ ∈ blockedNow scan session then none
  else some ⟨.peerUnblocked, session.sessionId, .peerUnblocked instance_⟩

/-! ## A tick -/

/-- A truncation that is not on record yet is put on record. -/
def Dispatcher.recordTruncation (d : Dispatcher K) (truncation : Truncation) : Dispatcher K :=
  if d.truncations.any fun v =>
      v.negotiationId == truncation.negotiationId && v.count == truncation.count &&
        v.lastHash == truncation.lastHash then d
  else { d with truncations := d.truncations ++ [truncation] }

/-- The loop over the negotiations that the session follows. -/
def scanNegotiations (session : H2ASession) (prev : SessionDiffState) :
    List JsString → Bool → JsMap JsString NegotiationSnapshot →
      TickM K (Bool × JsMap JsString NegotiationSnapshot)
  | [], accepted, snap => return (accepted, snap)
  | negotiationId :: rest, accepted, snap =>
      match readJournal digests scan session negotiationId with
      | none => throw .read
      | some now => do
          if journalTruncated prev negotiationId now then
            modify fun s =>
              { s with
                dispatcher := s.dispatcher.recordTruncation
                  ⟨negotiationId, previousCount prev negotiationId, now.count, now.lastHash⟩ }
          let accepted ← pushEach digests scan
            (fun now => notifyAppended session prev negotiationId now) [now] accepted
          scanNegotiations session prev rest accepted (snap.set negotiationId now)

/-- The snapshot of a session, empty before its first scan. -/
def snapshotOf (d : Dispatcher K) (sessionId : JsString) : SessionDiffState :=
  (d.snapshots.get sessionId).getD emptyDiffState

/-- The nudge of the host while the inbox is not empty. -/
def wake (session : H2ASession) : TickM K Unit :=
  if isInterestedIn session .envelopeArrived ∧ readInboxIds scan session ≠ [] ∧
      scan.wakeThrows session.instance_ then throw .other
  else return ()

/-- A loop of pushes, for a session that is interested in their topic. -/
def pushSection {X : Type} (session : H2ASession) (topic : NotificationTopic)
    (notify : X → Option McpPushNotification) (xs : List X) (accepted : Bool) : TickM K Bool :=
  if isInterestedIn session topic then pushEach digests scan notify xs accepted
  else return accepted

/-- The section of the negotiations. -/
def negotiationsSection (session : H2ASession) (prev : SessionDiffState) (accepted : Bool) :
    TickM K (Bool × JsMap JsString NegotiationSnapshot) :=
  if isInterestedIn session .eventAppended then
    scanNegotiations digests scan session prev session.interests.negotiations accepted .empty
  else return (accepted, .empty)

/-- The diffs of a session since its snapshot, section by section: whether all were accepted, and
what was read of the negotiations. -/
def pushDiffs (session : H2ASession) (prev : SessionDiffState) :
    TickM K (Bool × JsMap JsString NegotiationSnapshot) := do
  let accepted ← pushSection digests scan session .peerJoined (notifyJoined scan session prev)
    (otherPeers scan session) true
  let accepted ← pushSection digests scan session .peerLeft (notifyLeft scan session)
    prev.peers accepted
  let accepted ← pushSection digests scan session .envelopeArrived (notifyArrived session prev)
    (readInboxIds scan session) accepted
  wake scan session
  let (accepted, negotiations) ← negotiationsSection digests scan session prev accepted
  let accepted ← pushSection digests scan session .peerBlocked (notifyBlocked session prev)
    (blockagesInScope scan session) accepted
  let accepted ← pushSection digests scan session .peerUnblocked (notifyUnblocked scan session)
    prev.blocked accepted
  return (accepted, negotiations)

/-- `this.snapshots.set(session.sessionId, …)` -/
def setSnapshot (sessionId : JsString) (snapshot : SessionDiffState) (s : TickState K) :
    TickState K :=
  { s with
    dispatcher :=
      { s.dispatcher with snapshots := s.dispatcher.snapshots.set sessionId snapshot } }

/-- The body of the loop over the sessions. -/
def scanSession (session : H2ASession) : TickM K Unit := do
  let prev := snapshotOf (← get).dispatcher session.sessionId
  modify (setSnapshot session.sessionId prev)
  let (accepted, negotiations) ← pushDiffs digests scan session prev
  if accepted then
    modify (setSnapshot session.sessionId
      ⟨otherPeers scan session, (readInboxIds scan session).eraseDups, negotiations,
        blockedNow scan session⟩)

def scanSessions : List H2ASession → TickM K Unit
  | [] => return ()
  | session :: sessions => do
      scanSession digests scan session
      scanSessions sessions

end Sessions

/-- What a tick is given: the sink, where there is one, the sessions of the process, which have an
id each, and what is read. -/
structure TickInput (E : Type) where
  sink : Option (Nat → SinkAnswer)
  sessions : List H2ASession
  distinct : (sessions.map (·.sessionId)).Nodup
  scanFresh : Option (List H2ASession)
  listBlockages : Option (List H2ABlockage)
  readInbox : (sessionId instance_ : JsString) → Option (List JsString)
  readNegotiationJournal : (sessionId negotiationId : JsString) → Option (List E)
  wakeThrows : JsString → Bool

/-- The scan of a tick that gets as far as its sessions. -/
def TickInput.scan {E : Type} (input : TickInput E) : Option (Scan E) := do
  let sink ← input.sink
  let freshPeers ← input.scanFresh
  let blockages ← input.listBlockages
  return ⟨sink, freshPeers, blockages.filter isActiveBlockage, input.readInbox,
    input.readNegotiationJournal, input.wakeThrows⟩

variable {K E : Type} [DecidableEq K]

/-- `tick`: the exception is caught by the timer.  Without a sink or a session there is nothing to
do, and where the peers or the blockages cannot be read the tick ends there. -/
def tick (digests : Digests K E) (d : Dispatcher K) (input : TickInput E) : Except Failure Unit × TickState K :=
  if input.sink.isNone ∨ input.sessions = [] then (.ok (), ⟨d, []⟩)
  else
    match input.scan with
    | none => (.error .read, ⟨d, []⟩)
    | some scan => (scanSessions digests scan input.sessions).run.run ⟨d, []⟩

end H2a.Mcp
