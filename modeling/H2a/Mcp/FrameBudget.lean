import H2a.Library.Decimal
import H2a.Library.JsonInteger
import H2a.Library.JsonSize
import H2a.Mcp.PayloadStore
/-!
# The frame budget

`packages/h2a/src/runtime/mcp/frame-budget.ts`: how an answer is kept within the bytes a client
accepts.  A value is `none` where `JSON.stringify` throws on it or makes no text of it.
-/

namespace H2a.Mcp

open H2a.Library

/-! ## The budget -/

/-- `MCP_MAX_FRAME_BYTES` -/
def mcpMaxFrameBytes : Nat := 1048576

/-- `MCP_MIN_FRAME_BYTES` -/
def mcpMinFrameBytes : Nat := 16 * 1024

/-- `MCP_FRAME_BUDGET_ENV` -/
def mcpFrameBudgetEnv : JsString := js "H2A_MCP_MAX_FRAME_BYTES"

/-- `MCP_MAX_REQUEST_ID_BYTES` -/
def mcpMaxRequestIdBytes : Nat := 128

structure FrameBudget where
  maxBytes : Nat

/-- `Number.parseInt(raw, 10)`; `none` is `NaN` -/
def parseInt (raw : JsString) : Option Int :=
  let units := raw.units.dropWhile JsString.isWhiteSpaceUnit
  let negative := units.head? == some 0x2D
  let unsigned := if negative || units.head? == some 0x2B then units.tail else units
  let digits := unsigned.takeWhile isDigitUnit
  if digits.isEmpty then none
  else if negative then some (-decimalValue digits) else some (decimalValue digits)

/-- An integer a number can be: the others are rounded to an infinity. -/
def isFiniteInt (n : Int) : Bool := |n| < 2 ^ 1024 - 2 ^ 970

/-- `resolveFrameBudget(env)` -/
def resolveFrameBudget (env : JsString → Option JsString) : FrameBudget :=
  match (env mcpFrameBudgetEnv).bind parseInt with
  | some n =>
      if isFiniteInt n && decide (0 < n) then
        ⟨min mcpMaxFrameBytes (max mcpMinFrameBytes n.toNat)⟩
      else ⟨mcpMaxFrameBytes⟩
  | none => ⟨mcpMaxFrameBytes⟩

/-! ## Frames -/

structure EncodedFrame where
  json : List Char
  line : List Char
  bytes : Nat

/-- The code units of a text. -/
def unitsOf (text : List Char) : List UInt16 := text.flatMap JsString.utf16

/-- No string of the language has more code units. -/
def maxStringLength : Nat := 2 ^ 53 - 1

section Source

variable {N : Type} [JsonNumber N]

/-- `encodeFrame(message)`; `none` where it throws -/
def encodeFrame (message : Option (Json N)) : Option EncodedFrame :=
  message.bind fun message =>
    let json := message.render
    let line := json ++ ['\n']
    if (unitsOf line).length ≤ maxStringLength then some ⟨json, line, (Utf8.encode line).length⟩
    else none

/-- `isAcceptableRequestId(id)` -/
def isAcceptableRequestId : Json N → Bool
  | .null => true
  | .num n => JsonNumber.isFinite n
  | .str s => Utf8.byteLength s ≤ mcpMaxRequestIdBytes
  | _ => false

/-- `{ jsonrpc: "2.0", id, result }` -/
def resultFrame (id result : Json N) : Json N :=
  .obj [(js "jsonrpc", .str (js "2.0")), (js "id", id), (js "result", result)]

/-- `{ jsonrpc: "2.0", id, error: { code, message, data } }` -/
def errorFrame (id : Json N) (code : N) (message : JsString) (data : Json N) : Json N :=
  .obj [(js "jsonrpc", .str (js "2.0")), (js "id", id),
    (js "error", .obj [(js "code", .num code), (js "message", .str message), (js "data", data)])]

/-- `PayloadRecoveryRef` in JSON -/
def PayloadRecoveryRef.json (recovery : PayloadRecoveryRef) : Json N :=
  .obj [(js "ref", .str recovery.ref), (js "sha256", .str recovery.sha256),
    (js "totalBytes", .num (JsonNumber.ofNat recovery.totalBytes)),
    (js "expiresAt", .str recovery.expiresAt)]

/-- `...(recovery ? { recovery } : {})` -/
def recoveryMembers (recovery : Option PayloadRecoveryRef) : List (JsString × Json N) :=
  recovery.toList.map fun r => (js "recovery", r.json)

/-- `-32010`, by the token of the number -/
def responseTooLargeCode : N := JsonNumber.ofToken "-32010".toList

/-- `-32603`, by the token of the number -/
def internalErrorCode : N := JsonNumber.ofToken "-32603".toList

def responseTooLargeMessage : JsString := js "MCP response exceeds the configured byte budget"

/-- `buildResponseTooLargeError(id, info)` -/
def buildResponseTooLargeError (id : Json N) (budgetBytes actualBytes : Nat)
    (recovery : Option PayloadRecoveryRef) : Json N :=
  errorFrame id responseTooLargeCode responseTooLargeMessage
    (.obj ([(js "code", Json.str (js "response_too_large")),
      (js "budgetBytes", .num (JsonNumber.ofNat budgetBytes)),
      (js "actualBytes", .num (JsonNumber.ofNat actualBytes))] ++
      recoveryMembers recovery ++ [(js "retryOriginal", Json.bool false)]))

/-- `buildSerializationFailedError(id)` -/
def buildSerializationFailedError (id : Json N) : Json N :=
  errorFrame id internalErrorCode (js "Internal error")
    (.obj [(js "code", .str (js "serialization_failed"))])

/-- `recover(intactJson, intactBytes)`, which may throw and changes what it is given -/
abbrev Recover (σ : Type) :=
  List Char → Nat → σ → Except PayloadStoreError (Option PayloadRecoveryRef) × σ

/-- The reference `recover` gives, if it is there and does not throw. -/
def recovered {σ : Type} (recover : Option (Recover σ)) (json : List Char) (bytes : Nat) (s : σ) :
    Option PayloadRecoveryRef × σ :=
  match recover with
  | none => (none, s)
  | some recover =>
      match recover json bytes s with
      | (.ok recovery, s) => (recovery, s)
      | (.error _, s) => (none, s)

/-- `boundResponseFrame(id, responseObject, budget, recover)`; `none` where it throws -/
def boundResponseFrame {σ : Type} (id : Json N) (responseObject : Option (Json N))
    (budget : FrameBudget) (recover : Option (Recover σ)) (s : σ) : Option EncodedFrame × σ :=
  match encodeFrame responseObject with
  | none => (encodeFrame (some (buildSerializationFailedError id)), s)
  | some encoded =>
      if encoded.bytes ≤ budget.maxBytes then (some encoded, s)
      else
        let (recovery, s) := recovered recover encoded.json encoded.bytes s
        (encodeFrame (some
          (buildResponseTooLargeError id budget.maxBytes encoded.bytes recovery)), s)

/-- `{ content: [{ type: "text", text }], isError: true }` -/
def errorResult (text : List Char) : Json N :=
  .obj [(js "content",
      .arr [.obj [(js "type", .str (js "text")), (js "text", .str ⟨unitsOf text⟩)]]),
    (js "isError", .bool true)]

/-- The text of the result that stands for one that is too large. -/
def tooLargeInfo (budgetBytes actualBytes : Nat) (recovery : Option PayloadRecoveryRef) : Json N :=
  .obj ([(js "code", Json.str (js "response_too_large")),
    (js "message", .str responseTooLargeMessage),
    (js "budgetBytes", .num (JsonNumber.ofNat budgetBytes)),
    (js "actualBytes", .num (JsonNumber.ofNat actualBytes))] ++
    recoveryMembers recovery ++ [(js "retryOriginal", Json.bool false)])

/-- `boundCallToolResult(result, budget, recover)` -/
def boundCallToolResult {σ : Type} (result : Option (Json N)) (budget : FrameBudget)
    (recover : Option (Recover σ)) (s : σ) : Option (Json N) × σ :=
  let limit := max mcpMinFrameBytes (budget.maxBytes - 1024)
  match encodeFrame (result.map (resultFrame (.num (JsonNumber.ofNat 0)))), result with
  | some intact, some value =>
      if intact.bytes ≤ limit then (result, s)
      else
        let (recovery, s) := recovered recover value.render intact.bytes s
        (some (errorResult
          (tooLargeInfo (N := N) budget.maxBytes intact.bytes recovery).render), s)
  | _, _ =>
      (some (errorResult
        (Json.obj (N := N) [(js "code", .str (js "serialization_failed"))]).render), s)

/-! ## Numbers in a frame -/

variable (N) in
/-- `String(n)` of the integers, and of a number of any size. -/
structure PrintsIntegers : Prop where
  token : ∀ n : Int, n.natAbs < 2 ^ 53 →
    JsonNumber.isFinite (JsonNumber.ofToken (JsonInteger.print n) : N) = true ∧
      JsonNumber.print (JsonNumber.ofToken (JsonInteger.print n) : N) = JsonInteger.print n
  counter : ∀ k < 2 ^ 53, JsonNumber.print (JsonNumber.ofNat k : N) = JsonInteger.digits k
  counter_length : ∀ k < 10 ^ 21, (JsonNumber.print (JsonNumber.ofNat k : N)).length ≤ 21

/-- A number of the language takes 25 characters at most. -/
def ShortNumber (id : Json N) : Prop := ∀ n, id = .num n → (JsonNumber.print n).length ≤ 25

end Source

end H2a.Mcp
