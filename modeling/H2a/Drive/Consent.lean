import H2a.Library.Logged
import H2a.Protocol.Envelope
import H2a.Protocol.EnvelopeForm
import Mathlib.Data.Finset.Card
import Mathlib.Data.Rat.Defs
import Mathlib.Algebra.Order.Ring.Unbundled.Rat
/-!
# Consent to drive

`verified` and `projectConsent` of `packages/h2a/src/runtime/drive/consent.ts`: what the journal
of a pair says about one party writing to the terminal of the other.  "The journal, not
negotiation status or inboxes, is authority."
-/

namespace H2a.Drive

open H2a.Library H2a.Protocol

/-! ## Data -/

/-- What the code reads of a `H2AActorRegistration`. -/
structure ActorRegistration where
  agentUuid : Option JsString
  principal : Option JsString
  publicKeys : List JsString

inductive KeyEventType where
  | added
  | revoked
  deriving DecidableEq

/-- `H2AKeyEvent` -/
structure KeyEvent where
  instance_ : JsString
  publicKey : JsString
  type : KeyEventType

/-- `Pick<LocalStore, 'findInstance' | 'listInstanceKeys' | 'listKeyEvents'>` -/
structure ConsentReader where
  findInstance : JsString → Option ActorRegistration
  listInstanceKeys : JsString → List JsString
  listKeyEvents : List KeyEvent

/-- A `H2AJournalEntry<unknown>`, as it is read from the journal. -/
structure JournalEntry (N : Type) where
  id : JsString
  negotiationId : JsString
  createdAt : JsString
  body : Json N
  distinct : body.Distinct

structure ConsentEvidence (N : Type) where
  kind : JsString
  payload : Json N
  signature : Json N
  coSignature : Option (Json N)

structure ConsentEvent (N : Type) where
  body : ConsentEvidence N
  entry : JournalEntry N

inductive ConsentReason where
  | unauthorized
  | consentPending
  | consentRefused
  | consentExpired
  | consentRevoked
  | consentInvalid
  | consentUnavailable
  | consentPrincipalUnavailable
  deriving DecidableEq

inductive PrincipalDecision where
  | principalAbsent
  | coSigned

inductive ConsentDecision where
  | ok (grantId requestId notAfter : JsString) (principalDecision : PrincipalDecision)
  | denied (reason : ConsentReason)

structure ConsentProjection where
  decision : ConsentDecision
  anomalies : List JsString
  requests : Nat

/-- The reason of a denial. -/
def ConsentDecision.reason? : ConsentDecision → Option ConsentReason
  | .ok .. => none
  | .denied reason => some reason

/-- What the code uses of the platform. -/
structure ConsentPlatform (N : Type) where
  sha256 : List UInt8 → JsString
  crypto : NodeCrypto N
  /-- `Date.parse(text)`, where it is finite -/
  parseDate : JsString → Option Int
  /-- `new Date(n).toISOString()` -/
  toISOString : Int → JsString

variable {N : Type}

/-! ## Reading values -/

/-- `DRIVE_CONSENT_MAX_ANSWER_MS` -/
def maxAnswerMs : Int := 60 * 60 * 1000

/-- `DRIVE_CONSENT_MAX_GRANT_MS` -/
def maxGrantMs : Int := 24 * 60 * 60 * 1000

/-- `{action:'drive.instruction',direction:'from->to'}` -/
def consentScope : Json N :=
  .obj [(js "action", .str (js "drive.instruction")), (js "direction", .str (js "from->to"))]

/-- `/^\d{4}-\d\d-\d\dT\d\d:\d\d:\d\d\.\d{3}Z$/.test(value)`; a 0 stands for any digit -/
def isInstantText (value : JsString) : Bool :=
  let shape := (js "0000-00-00T00:00:00.000Z").units
  value.units.length == shape.length &&
    (shape.zip value.units).all fun (s, u) => if isDigitUnit s then isDigitUnit u else u == s

/-- `instant(value)`; `none` is NaN -/
def instant (platform : ConsentPlatform N) (value : Option (Json N)) : Option Int :=
  match textOf value with
  | none => none
  | some text =>
      if isInstantText text then
        match platform.parseDate text with
        | some n => if platform.toISOString n = text then some n else none
        | none => none
      else none

/-- `x < y`, false when one of them is NaN -/
def less (x y : Option Int) : Bool :=
  match x, y with
  | some x, some y => x < y
  | _, _ => false

/-- `x <= y`, false when one of them is NaN -/
def atMost (x y : Option Int) : Bool :=
  match x, y with
  | some x, some y => x ≤ y
  | _, _ => false

/-- `x - y` -/
def minus (x y : Option Int) : Option Int := x.bind fun x => y.map fun y => x - y

/-- `now < t` -/
def isBefore (now : ℚ) (t : Option Int) : Bool := t.any fun t => now < t

/-- `now >= t` -/
def isReached (now : ℚ) (t : Option Int) : Bool := t.any fun t => t ≤ now

/-- `record(x)` -/
def record : Option (Json N) → Bool
  | some (.obj _) => true
  | _ => false

/-- `/^[a-f0-9-]{32,36}$/.test(value)` -/
def isRequestId (value : JsString) : Bool :=
  32 ≤ value.length && value.length ≤ 36 &&
    value.units.all fun u => isDigitUnit u || u == 0x2D || (0x61 ≤ u.toNat && u.toNat ≤ 0x66)

/-- `evidence(x)`, with what it then is -/
def evidence (x : Json N) : Option (ConsentEvidence N) :=
  match textOf (x.get (js "kind")), x.get (js "payload"), x.get (js "signature") with
  | some kind, some payload, some signature =>
      if record (some payload) && record (some signature) then
        some ⟨kind, payload, signature, x.get (js "coSignature")⟩
      else none
  | _, _, _ => none

def requestKind : JsString := js "h2a.drive.consent.request"
def grantKind : JsString := js "h2a.drive.consent.grant"
def refusalKind : JsString := js "h2a.drive.consent.refusal"
def revocationKind : JsString := js "h2a.drive.consent.revocation"

/-- `body.payload.kind === kind` -/
def ConsentEvent.hasKind (event : ConsentEvent N) (kind : JsString) : Bool :=
  Json.isText kind (event.body.payload.get (js "kind"))

/-- `p.requestId === q.requestId` and the like, of a member that is a text in `q` -/
def sameText (value : Option (Json N)) (text : Option JsString) : Bool :=
  text.any fun text => Json.isText text value

/-- `p.principal === b.principal` and the like, where both may be `undefined` -/
def isOptionalText (value : Option (Json N)) (text : Option JsString) : Bool :=
  match text with
  | none => value.isNone
  | some text => Json.isText text value

/-! ## The source -/

section Source

variable [JsonNumber N] (platform : ConsentPlatform N) (store : ConsentReader)

/-- `keys`: the present keys of the signer, or all it ever had -/
def verifyingKeys (signer : JsString) (historical : Bool) : List JsString :=
  if historical then
    ((store.findInstance signer).map ActorRegistration.publicKeys).getD [] ++
      (store.listKeyEvents.filter fun k => k.instance_ = signer && k.type = .added).map
        KeyEvent.publicKey
  else store.listInstanceKeys signer

/-- `verified(store, payload, signature, by, historical)` -/
def verified (payload : Json N) (signature : Option (Json N)) (signer : JsString)
    (historical : Bool) : Bool :=
  match signature with
  | none => false
  | some signature =>
      signature.truthy && Json.isText signer (signature.get (js "by")) &&
        Json.isText (js "ed25519") (signature.get (js "alg")) &&
        (verifyingKeys store signer historical).any fun key =>
          match verifyCanonical platform.crypto payload signature (.str key) with
          | .ok valid => valid
          | .error _ => false

/-- `computeHash(v) === computeHash(w)` -/
def sameHash (v w : Json N) : Except String Bool := do
  let hash ← computeHash platform.sha256 v
  let other ← computeHash platform.sha256 w
  return hash == other

variable (sender receiver : JsString)

/-- `consentPairId(from, to)` -/
def consentPairId : Except String JsString := do
  let hash ← computeHash platform.sha256
    (.obj [(js "from", .str sender), (js "to", .str receiver)] : Json N)
  return js "drive-consent:" ++ hash

/-- What the loop over the entries makes of one. -/
inductive EntryReading (N : Type) where
  | audit
  | anomaly
  | event (event : ConsentEvent N)

/-- `p.v === 1 && p.from === from && p.to === to` and one of the four kinds -/
def isConsentPayload (p : Json N) : Bool :=
  Json.counter? (p.get (js "v")) == some 1 && Json.isText sender (p.get (js "from")) &&
    Json.isText receiver (p.get (js "to")) &&
    [requestKind, grantKind, refusalKind, revocationKind].any fun kind =>
      Json.isText kind (p.get (js "kind"))

def readEntry (pairId : JsString) (entry : JournalEntry N) : EntryReading N :=
  if Json.isText (js "drive-consent.audit") (entry.body.get (js "kind")) then .audit
  else
    match evidence entry.body with
    | none => .anomaly
    | some body =>
        if Json.isText body.kind (body.payload.get (js "kind")) && entry.negotiationId == pairId &&
            isConsentPayload sender receiver body.payload then
          .event ⟨body, entry⟩
        else .anomaly

/-- The anomalies so far, in code that may throw. -/
abbrev ConsentM := StateT (List JsString) (Except String)

/-- `anomalies.push(entry.id)` -/
def pushAnomaly (entry : JournalEntry N) : ConsentM PUnit := modify (· ++ [entry.id])

/-- `if (!valid) anomalies.push(entry.id); return valid` -/
def checked (entry : JournalEntry N) (valid : Bool) : ConsentM Bool :=
  if valid then pure true
  else do
    pushAnomaly entry
    return false

/-- One turn of the loop over the entries. -/
def collectEvent (pairId : JsString) (entry : JournalEntry N) :
    ConsentM (Option (ConsentEvent N)) :=
  match readEntry sender receiver pairId entry with
  | .audit => pure none
  | .anomaly => do
      pushAnomaly entry
      return none
  | .event event => pure (some event)

variable (a b : ActorRegistration)

/-- `bound(p)` -/
def bound (p : Json N) : Bool :=
  isOptionalText (p.get (js "fromAgentUuid")) a.agentUuid &&
    isOptionalText (p.get (js "toAgentUuid")) b.agentUuid

/-- What makes a request valid. -/
def requestValid (event : ConsentEvent N) : Except String Bool := do
  let p := event.body.payload
  let created := instant platform (p.get (js "createdAt"))
  let answer := instant platform (p.get (js "answerBy"))
  let finish := instant platform (p.get (js "requestedNotAfter"))
  if bound a b p && (textOf (p.get (js "requestId"))).any isRequestId &&
      record (p.get (js "scope")) then
    let sameScope ← sameHash platform ((p.get (js "scope")).getD .null) consentScope
    return sameScope && less created answer && atMost (minus answer created) (some maxAnswerMs) &&
      atMost answer finish && atMost (minus finish created) (some (maxGrantMs + maxAnswerMs)) &&
      (match p.get (js "purpose") with
        | none => true
        | some purpose => (textOf (some purpose)).any fun text => Utf8.byteLength text ≤ 1024) &&
      verified platform store p (some event.body.signature) sender true
  else return false

/-- The filter for requests. -/
def isRequest (event : ConsentEvent N) : ConsentM Bool :=
  if event.hasKind requestKind then do
    let valid ← requestValid platform store sender a b event
    checked event.entry valid
  else pure false

/-- A signature of one of the parties, from any key it ever had. -/
def signedByParty (event : ConsentEvent N) (parties : List JsString) : Bool :=
  (textOf (event.body.signature.get (js "by"))).any fun signer =>
    parties.contains signer &&
      verified platform store event.body.payload (some event.body.signature) signer true

/-- What makes the revocation of a pair valid. -/
def pairRevocationValid (event : ConsentEvent N) : Bool :=
  let p := event.body.payload
  let start := instant platform (p.get (js "at"))
  let finish := instant platform (p.get (js "notAfter"))
  bound a b p && start.isSome && atMost start finish &&
    atMost (minus finish start) (some (maxGrantMs + maxAnswerMs)) &&
    signedByParty platform store event [sender, receiver]

/-- `p.kind === 'h2a.drive.consent.revocation' && p.pair === true` -/
def ConsentEvent.isPairRevocation (event : ConsentEvent N) : Bool :=
  event.hasKind revocationKind &&
    match event.body.payload.get (js "pair") with
    | some (.bool pair) => pair
    | _ => false

def revokesPair (now : ℚ) (event : ConsentEvent N) : ConsentM Bool :=
  if event.isPairRevocation then do
    let valid ← checked event.entry
      (pairRevocationValid platform store sender receiver a b event)
    return valid && isBefore now (instant platform (event.body.payload.get (js "notAfter")))
  else pure false

/-- `terminal(kind, party)` on one event; `parties` are those that may sign -/
def isTerminal (kind : JsString) (parties : List JsString) (event : ConsentEvent N) :
    ConsentM Bool :=
  if event.hasKind kind then
    checked event.entry (signedByParty platform store event parties &&
      (instant platform (event.body.payload.get (js "at"))).isSome)
  else pure false

/-- What makes a grant of a request valid. -/
def grantValid (request : Json N) (event : ConsentEvent N) : Except String Bool := do
  let p := event.body.payload
  let start := instant platform (p.get (js "notBefore"))
  let finish := instant platform (p.get (js "notAfter"))
  let issued := instant platform (p.get (js "issuedAt"))
  let committed := instant platform (some (.str event.entry.createdAt))
  let answerBy := instant platform (request.get (js "answerBy"))
  if bound a b p && isOptionalText (p.get (js "principal")) b.principal &&
      record (p.get (js "scope")) then
    let sameScope ← sameHash platform ((p.get (js "scope")).getD .null)
      ((request.get (js "scope")).getD .null)
    return sameScope && start.isSome && less start finish &&
      atMost (minus finish start) (some maxGrantMs) &&
      atMost finish (instant platform (request.get (js "requestedNotAfter"))) &&
      atMost issued start && atMost (instant platform (request.get (js "createdAt"))) issued &&
      less issued answerBy && atMost issued committed && less committed answerBy &&
      verified platform store p (some event.body.signature) receiver false
  else return false

/-- The filter for grants. -/
def isGrant (request : Json N) (event : ConsentEvent N) : ConsentM Bool :=
  if event.hasKind grantKind then do
    let valid ← grantValid platform store receiver a b request event
    checked event.entry valid
  else pure false

/-- A grant that leaves out the principal the receiver has. -/
def grantsWithoutPrincipal (event : ConsentEvent N) : Bool :=
  event.hasKind grantKind && (event.body.payload.get (js "principal")).isNone &&
    verified platform store event.body.payload (some event.body.signature) receiver false

/-- What is decided when there is no valid grant. -/
def withoutGrant (now : ℚ) (request : Json N) (related : List (ConsentEvent N)) : ConsentReason :=
  if b.principal.isSome && related.any (grantsWithoutPrincipal platform store receiver) then
    .consentPrincipalUnavailable
  else if isReached now (instant platform (request.get (js "answerBy"))) then .consentExpired
  else if related.any fun e => e.hasKind grantKind then .consentInvalid
  else .consentPending

/-- `{ok:true, via:'consent', …}` -/
def accept (request g : Json N) (principalDecision : PrincipalDecision) :
    Except String ConsentDecision := do
  let grantId ← computeHash platform.sha256 g
  return .ok grantId ((textOf (request.get (js "requestId"))).getD default)
    ((textOf (g.get (js "notAfter"))).getD default) principalDecision

/-- What is decided on the first valid grant. -/
def withGrant (now : ℚ) (request g : Json N) (grants : List (ConsentEvent N)) :
    Except String ConsentDecision :=
  if isReached now (instant platform (g.get (js "notAfter"))) then .ok (.denied .consentExpired)
  else if isBefore now (instant platform (g.get (js "notBefore"))) then
    .ok (.denied .consentPending)
  else
    match b.principal with
    | none => accept platform request g .principalAbsent
    | some principal =>
        if (store.findInstance principal).isNone || (store.listInstanceKeys principal).isEmpty ||
            !grants.any fun grant =>
              verified platform store g grant.body.coSignature principal false then
          .ok (.denied .consentPrincipalUnavailable)
        else accept platform request g .coSigned

/-- What is decided on the grants. -/
def settleGrants (now : ℚ) (request : Json N) (related grants : List (ConsentEvent N)) :
    ConsentM ConsentDecision := do
  let hashes ← grants.mapM fun g => liftM (computeHash platform.sha256 g.body.payload)
  if 1 < hashes.toFinset.card then return .denied .consentInvalid
  else
    match grants with
    | [] => return .denied (withoutGrant platform store receiver b now request related)
    | g :: _ => withGrant platform store b now request g.body.payload grants

/-- `body.payload.requestId === request.requestId && body.payload.requestHash === hash` -/
def isRelated (request : Json N) (hash : JsString) (event : ConsentEvent N) : Bool :=
  sameText (event.body.payload.get (js "requestId")) (textOf (request.get (js "requestId"))) &&
    Json.isText hash (event.body.payload.get (js "requestHash"))

/-- One turn of the loop over the requests. -/
def decideRequest (now : ℚ) (events : List (ConsentEvent N)) (request : ConsentEvent N) :
    ConsentM ConsentDecision := do
  let payload := request.body.payload
  let hash ← computeHash platform.sha256 payload
  let related := events.filter (isRelated payload hash)
  let revoked ← related.anyM (isTerminal platform store revocationKind [receiver, sender])
  if revoked then return .denied .consentRevoked
  else
    let refused ← related.anyM (isTerminal platform store refusalKind [receiver])
    if refused then return .denied .consentRefused
    else
      let grants ← related.filterM (isGrant platform store receiver a b payload)
      settleGrants platform store receiver b now payload related grants

/-- `priority` -/
def priority : List ConsentReason :=
  [.consentRevoked, .consentRefused, .consentPrincipalUnavailable, .consentInvalid,
    .consentExpired, .consentPending, .unauthorized]

/-- The first success, else the first denial of the strongest reason. -/
def choose (decisions : List ConsentDecision) : ConsentDecision :=
  match decisions.find? fun d => d.reason? == none with
  | some success => success
  | none =>
      (priority.findSome? fun reason =>
        decisions.find? fun d => d.reason? == some reason).getD (.denied .consentInvalid)

/-- What is decided on the entries, with the number of valid requests. -/
def judge (now : ℚ) (entries : List (JournalEntry N)) : ConsentM (ConsentDecision × Nat) := do
  let pairId ← consentPairId platform sender receiver
  let events ← entries.filterMapM (collectEvent sender receiver pairId)
  let requests ← events.filterM (isRequest platform store sender a b)
  if requests.isEmpty then
    return (.denied (if events.isEmpty then .unauthorized else .consentInvalid), 0)
  else
    let pairRevoked ← events.anyM (revokesPair platform store sender receiver a b now)
    if pairRevoked then return (.denied .consentRevoked, requests.length)
    else
      let decisions ← requests.mapM (decideRequest platform store sender receiver a b now events)
      return (choose decisions, requests.length)

/-- `projectConsent(store, from, to, entries, now)`; `none` is a `now` that is not finite -/
def projectConsent (entries : List (JournalEntry N)) (now : Option ℚ) :
    Except String ConsentProjection :=
  match now, store.findInstance sender, store.findInstance receiver with
  | none, _, _ => .ok ⟨.denied .consentUnavailable, [], 0⟩
  | some now, some a, some b => do
      let ((decision, requests), anomalies) ←
        (judge platform store sender receiver a b now entries).run []
      return ⟨decision, anomalies, requests⟩
  | some _, _, _ => .ok ⟨.denied .consentInvalid, [], 0⟩

end Source

end H2a.Drive
