import H2a.LocalFiles.Mailbox
import H2a.Protocol.Envelope
import H2a.Protocol.Replay
/-!
# Envelopes from elsewhere

`acceptRemoteEnvelope` of `packages/h2a/src/runtime/remote/accept.ts`, "the trust boundary for an
envelope arriving from off-host: it does NOT trust the channel", with one replay guard and
delivery by `putInboxMessage`.
-/

namespace H2a.Remote

open H2a.Library H2a.Protocol H2a.LocalFiles

variable {N : Type} [JsonNumber N]

/-! ## The source -/

/-- `node:crypto`, `Date.parse` (`none` where it is not a number), the window of the guard and
`String.prototype.toLowerCase`. -/
structure RemoteHost (N : Type) where
  crypto : NodeCrypto N
  parseDate : JsString → Option Int
  window : FreshnessWindow
  toLowerCase : JsString → JsString

inductive H2AAcceptRejection where
  | malformed
  | noTarget
  | noSignature
  | noPublicKey
  | badSignature
  | replay (reason : H2AReplayRejection)

/-- The members of a value that is an object. -/
def envelopeMembers : Json N → Envelope N
  | .obj members => members
  | _ => []

/-- `envelope.target?.instance` -/
def targetInstance (envelope : Json N) : Option (Json N) :=
  (envelope.get (js "target")).bind (Json.get (js "instance"))

/-- `envelope.actor.instance`, of an envelope that is well formed. -/
def actorInstance (envelope : Json N) : JsString :=
  (textOf ((envelope.get (js "actor")).bind (Json.get (js "instance")))).getD ⟨[]⟩

/-- `(envelope.signatures ?? []).some((s) => s.by === signer)` -/
def hasSignerSig (envelope : Json N) (signer : JsString) : Except String Bool :=
  match signaturesOf (envelopeMembers envelope) with
  | .error _ => .error "(envelope.signatures ?? []).some is not a function"
  | .ok signatures => signatures.anyM (signedBy signer)

/-- A call: the payload, the keys `resolvePublicKeys` answers for its signer, the time, and whether
the delivery is going to throw. -/
structure RemoteCall (N : Type) where
  payload : JsValue N
  publicKeys : List JsString
  now : Int
  deliveryFails : Bool

/-- What comes to the guard. -/
structure Admitted (N : Type) where
  signer : JsString
  recipient : Json N
  id : JsString
  created : Option Int

/-- `acceptRemoteEnvelope`, up to the guard. -/
def admitRemote (host : RemoteHost N) (call : RemoteCall N) :
    Except String (Except H2AAcceptRejection (Admitted N)) := do
  let envelope := call.payload.json
  if !isH2AEnvelope envelope then return .error .malformed
  else
    match (targetInstance envelope).filter Json.truthy with
    | none => return .error .noTarget
    | some recipient =>
        let signer := actorInstance envelope
        let hasSig ← hasSignerSig envelope signer
        if !hasSig then return .error .noSignature
        else if call.publicKeys.isEmpty then return .error .noPublicKey
        else
          let verified ← call.publicKeys.anyM fun pem =>
            verifyEnvelopeSignature host.crypto (envelopeMembers envelope) (.str pem) signer
          if !verified then return .error .badSignature
          else
            return .ok ⟨signer, recipient, messageId envelope,
              (textOf (envelope.get (js "createdAt"))).bind host.parseDate⟩

/-- What a call comes to. -/
inductive AcceptOutcome (N : Type) where
  | accepted (deliveredTo : Json N) (signer : JsString)
  | rejected (reason : H2AAcceptRejection)
  /-- a check throws on a payload it does not expect -/
  | threw (error : String)
  | deliveryThrew

/-- The file an envelope is delivered to; `putInboxMessage` throws for a recipient that is no
text. -/
def deliveryPath (host : RemoteHost N) (admitted : Admitted N) :
    Option (JsString × JsString) :=
  (textOf (some admitted.recipient)).map fun recipient =>
    (inboxDir host.toLowerCase recipient, envelopeFile admitted.id)

/-- The file a call delivers its envelope to, if it does. -/
def deliveredTo (host : RemoteHost N) (call : RemoteCall N) (admitted : Admitted N) :
    Option (JsString × JsString) :=
  (deliveryPath host admitted).filter fun _ => !call.deliveryFails

/-! ## The receiver -/

/-- Who an id of the guard was accepted from, and whether its delivery threw. -/
structure Holder where
  signer : JsString
  threw : Bool

/-- The guard and the inboxes; who holds an id, and the calls with what they came to. -/
structure RemoteSystem (N : Type) where
  seen : ReplayGuard
  files : InboxFiles N
  holder : JsString → Option Holder
  log : List (RemoteCall N × AcceptOutcome N)

inductive RemoteAction (N : Type) where
  | accept (call : RemoteCall N)
  /-- a pop removes a file -/
  | pop (path : JsString × JsString)

namespace RemoteSystem

variable (host : RemoteHost N)

/-- A call ends. -/
def ends (s : RemoteSystem N) (call : RemoteCall N) (outcome : AcceptOutcome N) :
    RemoteSystem N :=
  { s with log := s.log ++ [(call, outcome)] }

/-- The delivery of an envelope whose id the guard has just taken. -/
def deliver (s : RemoteSystem N) (call : RemoteCall N) (admitted : Admitted N) :
    RemoteSystem N :=
  match deliveredTo host call admitted with
  | none =>
      { s with holder := Function.update s.holder admitted.id (some ⟨admitted.signer, true⟩) }.ends
        call .deliveryThrew
  | some path =>
      { s with
        files := s.files.set path call.payload.json.readBack
        holder := Function.update s.holder admitted.id (some ⟨admitted.signer, false⟩) }.ends
        call (.accepted admitted.recipient admitted.signer)

/-- `acceptRemoteEnvelope`, from the guard on. -/
def acceptAdmitted (s : RemoteSystem N) (call : RemoteCall N) (admitted : Admitted N) :
    RemoteSystem N :=
  match s.seen.accept host.window admitted.id admitted.created call.now with
  | (.error reason, seen) => { s with seen := seen }.ends call (.rejected (.replay reason))
  | (.ok (), seen) => { s with seen := seen }.deliver host call admitted

/-- `acceptRemoteEnvelope` -/
def acceptRemoteEnvelope (s : RemoteSystem N) (call : RemoteCall N) : RemoteSystem N :=
  match admitRemote host call with
  | .error error => s.ends call (.threw error)
  | .ok (.error reason) => s.ends call (.rejected reason)
  | .ok (.ok admitted) => s.acceptAdmitted host call admitted

def act (s : RemoteSystem N) : RemoteAction N → RemoteSystem N
  | .accept call => s.acceptRemoteEnvelope host call
  | .pop path => { s with files := s.files.delete path }

/-- Nothing has been received. -/
def start : RemoteSystem N := ⟨.empty, .empty, fun _ => none, []⟩

/-- The state after a run. -/
def after (actions : List (RemoteAction N)) : RemoteSystem N := actions.foldl (act host) start

end RemoteSystem

/-! ## What is claimed -/

/-- The envelope of a call that comes fresh to the guard, with the time it was created. -/
def RemoteCall.fresh (host : RemoteHost N) (call : RemoteCall N) : Option (Admitted N × Int) :=
  match admitRemote host call with
  | .ok (.ok admitted) =>
      match checkEnvelopeFreshness host.window admitted.created call.now with
      | .ok created => some (admitted, created)
      | .error _ => none
  | _ => none

/-- The signer a payload names. -/
def RemoteCall.signer (call : RemoteCall N) : JsString := actorInstance call.payload.json

def RemoteAction.isBy (signer : JsString) : RemoteAction N → Bool
  | .accept call => call.signer = signer
  | .pop _ => false

namespace RemoteSystem

/-- What the calls of a signer came to. -/
def outcomesOf (s : RemoteSystem N) (signer : JsString) : List (AcceptOutcome N) :=
  (s.log.filter fun entry => entry.1.signer = signer).map (·.2)

/-- The envelope of a signer in a file. -/
def envelopeOf (s : RemoteSystem N) (signer : JsString) (path : JsString × JsString) :
    Option (Json N) :=
  (s.files.get path).filter fun envelope => actorInstance envelope = signer

/-- The calls of one signer do not show in the outcomes and the envelopes of another. -/
def Apart (host : RemoteHost N) (actions : List (RemoteAction N)) : Prop :=
  ∀ a b : JsString, a ≠ b →
    let without := actions.filter fun action => !action.isBy a
    (after host actions).outcomesOf b = (after host without).outcomesOf b ∧
      ∀ path, (after host actions).envelopeOf b path = (after host without).envelopeOf b path

/-- An envelope whose delivery threw is accepted when it is sent again, is fresh still and can be
delivered. -/
def AcceptedOnRetry (host : RemoteHost N) (log : List (RemoteCall N × AcceptOutcome N)) : Prop :=
  ∀ (before : List (RemoteCall N × AcceptOutcome N)) (retry : RemoteCall N × AcceptOutcome N)
    (after : List (RemoteCall N × AcceptOutcome N)), log = before ++ retry :: after →
    ∀ first ∈ before, first.2 = .deliveryThrew → first.1.payload = retry.1.payload →
      ∀ admitted created, retry.1.fresh host = some (admitted, created) →
        (deliveredTo host retry.1 admitted).isSome = true →
          retry.2 = .accepted admitted.recipient admitted.signer

/-- An envelope that comes fresh to the guard: time has not gone back since another one did, the
guard does not hold its id from another signer or from a delivery that threw, and its file is not
that of an envelope of another signer. -/
def Unmixed (host : RemoteHost N) (s : RemoteSystem N) : RemoteAction N → Prop
  | .pop _ => True
  | .accept call =>
      ∀ admitted created, call.fresh host = some (admitted, created) →
        (∀ entry ∈ s.log, (entry.1.fresh host).isSome = true → entry.1.now ≤ call.now) ∧
        ((s.seen.prune host.window call.now).has admitted.id = true →
          s.holder admitted.id = some ⟨admitted.signer, false⟩) ∧
        ∀ path envelope, deliveredTo host call admitted = some path →
          s.files.get path = some envelope → actorInstance envelope = admitted.signer

end RemoteSystem

end H2a.Remote
