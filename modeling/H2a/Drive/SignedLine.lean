import H2a.Library.Base64
import H2a.Library.Separated
import H2a.Protocol.Envelope
import H2a.Protocol.Replay
/-!
# Signed drive lines

`formatSignedDriveInstruction`, `parseSignedDriveInstruction` and `verifySignedDriveInstruction` of
`packages/h2a/src/runtime/drive/index.ts`: "a visible signed line `[h2a from=… sig=…]
<instruction>`".  The payload is signed, the header is what an agent sees.
-/

namespace H2a.Drive

open H2a.Library H2a.Protocol

variable {N : Type} [JsonNumber N]

/-! ## The line -/

/-- `H2ADriveInstructionPayload`; the ends are its `from` and `to`. -/
structure DriveInstructionPayload where
  fromInstance : JsString
  toInstance : JsString
  instruction : JsString
  nonce : JsString
  at_ : JsString
  deriving DecidableEq

/-- `H2ASignature` -/
@[ext] structure DriveSignature where
  signer : JsString
  alg : JsString
  value : JsString

@[ext] structure ParsedSignedDriveInstruction where
  payload : DriveInstructionPayload
  signature : DriveSignature

def DriveInstructionPayload.json (payload : DriveInstructionPayload) : Json N :=
  .obj [(js "from", .str payload.fromInstance), (js "to", .str payload.toInstance),
    (js "instruction", .str payload.instruction), (js "nonce", .str payload.nonce),
    (js "at", .str payload.at_)]

def DriveSignature.json (signature : DriveSignature) : Json N :=
  .obj [(js "by", .str signature.signer), (js "alg", .str signature.alg),
    (js "value", .str signature.value)]

/-- The line that shows a payload and the value of a signature. -/
def signedLine (payload : DriveInstructionPayload) (value : JsString) : JsString :=
  js "[h2a from=" ++ payload.fromInstance ++ js " to=" ++ payload.toInstance ++ js " nonce=" ++
    payload.nonce ++ js " at=" ++ payload.at_ ++ js " sig=" ++ value ++ js "] " ++
    payload.instruction

/-! ## Writing -/

/-- What the code uses of `node:crypto` to sign. -/
structure SigningCrypto where
  PrivateKey : Type
  /-- `createPrivateKey({ key, format: "pem" })`; `none` where it throws -/
  createPrivateKey : JsString → Option PrivateKey
  /-- `sign(null, message, key)` -/
  sign : List UInt8 → PrivateKey → List UInt8

/-- `signature.toString("base64")` -/
def base64 (bytes : List UInt8) : JsString := js (String.ofList (Base64.encode bytes))

/-- `signCanonical(value, { by, privateKeyPem })` -/
def signCanonical (crypto : SigningCrypto) (value : Json N) (signer privateKeyPem : JsString) :
    Except String DriveSignature :=
  match crypto.createPrivateKey privateKeyPem with
  | none => .error "createPrivateKey"
  | some key => do
      let message ← canonicalize value
      return ⟨signer, js "ed25519", base64 (crypto.sign (Utf8.encode message) key)⟩

/-- `FormatSignedDriveInstructionOptions` -/
structure FormatOptions where
  fromInstance : JsString
  toInstance : JsString
  instruction : JsString
  privateKeyPem : JsString
  nonce : Option JsString
  at_ : Option JsString

/-- The payload of a call; `randomNonce` and `isoNow` are `randomNonce()` and
`new Date(now).toISOString()`. -/
def FormatOptions.payload (options : FormatOptions) (randomNonce isoNow : JsString) :
    DriveInstructionPayload where
  fromInstance := options.fromInstance
  toInstance := options.toInstance
  instruction := options.instruction
  nonce := options.nonce.getD randomNonce
  at_ := options.at_.getD isoNow

variable (N) in
/-- `formatSignedDriveInstruction(options)` -/
def formatSignedDriveInstruction (crypto : SigningCrypto) (randomNonce isoNow : JsString)
    (options : FormatOptions) : Except String JsString := do
  let payload := options.payload randomNonce isoNow
  let signature ← signCanonical crypto (payload.json : Json N) options.fromInstance
    options.privateKeyPem
  return signedLine payload signature.value

/-! ## Reading -/

/-- `/^\[h2a ([^\]]+)\] ([\s\S]*)$/` -/
def matchLine (line : JsString) : Option (List UInt16 × JsString) :=
  if line.startsWith (js "[h2a ") then
    match cut 0x5D (line.units.drop 5) with
    | some (x :: header, 0x20 :: instruction) => some (x :: header, ⟨instruction⟩)
    | _ => none
  else none

/-- The loop over `match[1].split(" ")`. -/
def readAttributes : List (List UInt16) → JsMap JsString JsString →
    Option (JsMap JsString JsString)
  | [], attrs => some attrs
  | part :: parts, attrs =>
      match cut 0x3D part with
      | some (x :: name, value) => readAttributes parts (attrs.set ⟨x :: name⟩ ⟨value⟩)
      | _ => none

/-- `attrs.get(name)`, where it is neither missing nor empty. -/
def nonEmptyAttribute (attrs : JsMap JsString JsString) (name : JsString) : Option JsString :=
  (attrs.get name).filter fun value => decide (value.units ≠ [])

/-- `parseSignedDriveInstruction(line)` -/
def parseSignedDriveInstruction (line : JsString) : Option ParsedSignedDriveInstruction := do
  let (header, instruction) ← matchLine line
  let attrs ← readAttributes (header.splitOn 0x20) .empty
  let fromInstance ← nonEmptyAttribute attrs (js "from")
  let toInstance ← nonEmptyAttribute attrs (js "to")
  let nonce ← nonEmptyAttribute attrs (js "nonce")
  let at_ ← nonEmptyAttribute attrs (js "at")
  let sig ← nonEmptyAttribute attrs (js "sig")
  return ⟨⟨fromInstance, toInstance, instruction, nonce, at_⟩, ⟨fromInstance, js "ed25519", sig⟩⟩

/-! ## Verifying -/

/-- What a replay guard is given of an envelope. -/
structure ReplayEnvelope where
  id : JsString
  createdAt : JsString

/-- `H2AReplayGuard`, over what it remembers; a rejection may name its reason. -/
structure H2AReplayGuard (G : Type) where
  accept : G → ReplayEnvelope → Option Int → Except (Option H2AReplayRejection) Unit × G

/-- `createReplayGuard({ maxAgeMs, maxSkewMs })`, by `Date.parse` and `Date.now()`. -/
def createReplayGuard (window : FreshnessWindow) (parseDate : JsString → Option Int)
    (dateNow : Int) : H2AReplayGuard ReplayGuard where
  accept seen envelope now :=
    match seen.accept window envelope.id (parseDate envelope.createdAt) (now.getD dateNow) with
    | (.ok (), seen) => (.ok (), seen)
    | (.error reason, seen) => (.error (some reason), seen)

/-- `driveReplayEnvelope(payload)` -/
def driveReplayEnvelope (payload : DriveInstructionPayload) : ReplayEnvelope where
  id := js "drive:" ++ payload.fromInstance ++ js ":" ++ payload.toInstance ++ js ":" ++
    payload.nonce
  createdAt := payload.at_

inductive H2ADriveVerifyReason where
  | malformed
  | noPublicKey
  | badSignature
  | replay (reason : H2AReplayRejection)
  deriving DecidableEq

/-- `VerifySignedDriveInstructionOptions` -/
structure VerifyOptions (N G : Type) where
  crypto : NodeCrypto N
  resolvePublicKeys : JsString → List JsString
  replayGuard : H2AReplayGuard G
  now : Option Int

/-- `verifySignedDriveInstruction(line, options)`, and what the guard remembers after it; the
outer error is what `canonicalize` throws. -/
def verifySignedDriveInstruction {G : Type} (options : VerifyOptions N G) (line : JsString)
    (seen : G) : Except String (Except H2ADriveVerifyReason DriveInstructionPayload × G) :=
  match parseSignedDriveInstruction line with
  | none => .ok (.error .malformed, seen)
  | some parsed =>
      let publicKeys := options.resolvePublicKeys parsed.payload.fromInstance
      if publicKeys.length = 0 then .ok (.error .noPublicKey, seen)
      else do
        let signatureOk ← publicKeys.anyM fun pem =>
          verifyCanonical options.crypto (parsed.payload.json : Json N) parsed.signature.json
            (.str pem)
        if signatureOk then
          match options.replayGuard.accept seen (driveReplayEnvelope parsed.payload)
              options.now with
          | (.ok (), seen) => return (.ok parsed.payload, seen)
          | (.error reason, seen) => return (.error (.replay (reason.getD .replayed)), seen)
        else return (.error .badSignature, seen)

end H2a.Drive
