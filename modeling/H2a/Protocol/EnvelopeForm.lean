import H2a.Protocol.Journal
/-!
# The form of an envelope

`validateH2AEnvelope` of `packages/h2a/src/envelope.ts`, on parsed values: "collects all
failures rather than stopping at the first".  A valid envelope is valid when it is read
back, with the same id.
-/

namespace H2a.Protocol

open H2a.Library

variable {N : Type}

/-- `H2A_ENVELOPE_TYPES` -/
def envelopeTypes : List JsString :=
  [js "register", js "propose", js "accept", js "reject", js "counter", js "withdraw",
    js "event", js "escalate"]

/-- `typeof value === "string"` -/
def isString : Option (Json N) → Bool
  | some (.str _) => true
  | _ => false

/-- `isRecord(value)` -/
def isRecord : Option (Json N) → Bool
  | some (.arr _) => true
  | some (.obj _) => true
  | _ => false

/-- `isEnvelopeType(value)` -/
def isEnvelopeType (value : Option (Json N)) : Bool :=
  envelopeTypes.any fun type => Json.isText type value

section Source

variable [JsonNumber N]

/-- `JSON.stringify(value)`, in a message. -/
def stringifyMember (value : Option (Json N)) : String :=
  value.elim "undefined" fun value => String.ofList value.render

/-- `if (!condition) errors.push(error)` -/
def requireThat (condition : Bool) (error : String) : List String :=
  if condition then [] else [error]

/-- `value === undefined || typeof value === "string"` -/
def isOptionalString (value : Option (Json N)) : Bool := value.isNone || isString value

/-- The errors of `validateH2AEnvelope(value)`. -/
def validateH2AEnvelope (value : Json N) : List String :=
  if !isRecord (some value) then ["envelope must be a JSON object"]
  else
    requireThat (Json.isText protocolName (value.get (js "protocol")))
      ("protocol must be \"sentropic.h2a\" (saw " ++
        stringifyMember (value.get (js "protocol")) ++ ")") ++
    requireThat (isString (value.get (js "version"))) "version (string) is required" ++
    requireThat (isString (value.get (js "id"))) "id (string) is required" ++
    requireThat (isEnvelopeType (value.get (js "type")))
      ("type must be one of register, propose, accept, reject, counter, withdraw, event, " ++
        "escalate (saw " ++ stringifyMember (value.get (js "type")) ++ ")") ++
    requireThat (isString ((value.get (js "actor")).bind (Json.get (js "instance"))))
      "actor.instance (string) is required" ++
    requireThat (isRecord (value.get (js "body")))
      ("body (object) is required — message content goes under body, not at the top level" ++
        " (e.g. \x7b\"body\":\x7b\"kind\":\"message\",\"text\":\"…\"\x7d\x7d)") ++
    requireThat (isString (value.get (js "createdAt")))
      "createdAt (ISO-8601 string) is required" ++
    requireThat (isOptionalString (value.get (js "threadId")))
      "threadId must be a string when present" ++
    requireThat (isOptionalString (value.get (js "replyTo")))
      "replyTo must be a string when present"

/-- `isH2AEnvelope(value)` -/
def isH2AEnvelope (value : Json N) : Bool := (validateH2AEnvelope value).isEmpty

end Source

/-- A value, where it is a text. -/
def textOf : Option (Json N) → Option JsString
  | some (.str s) => some s
  | _ => none

/-- `envelope.id`, where it is a text -/
def envelopeId (envelope : Json N) : Option JsString := textOf (envelope.get (js "id"))

/-! ## What is read back -/

section ReadBack

variable [JsonNumber N]

/-- What a value has when it has no errors. -/
theorem isH2AEnvelope_iff (value : Json N) :
    isH2AEnvelope value = true ↔ isRecord (some value) = true ∧
      Json.isText protocolName (value.get (js "protocol")) = true ∧
      isString (value.get (js "version")) = true ∧ isString (value.get (js "id")) = true ∧
      isEnvelopeType (value.get (js "type")) = true ∧
      isString ((value.get (js "actor")).bind (Json.get (js "instance"))) = true ∧
      isRecord (value.get (js "body")) = true ∧ isString (value.get (js "createdAt")) = true ∧
      isOptionalString (value.get (js "threadId")) = true ∧
      isOptionalString (value.get (js "replyTo")) = true := by
  have hrequire : ∀ condition error, requireThat condition error = [] ↔ condition = true := by
    intro condition error
    cases condition <;> simp [requireThat]
  rw [isH2AEnvelope, List.isEmpty_iff, validateH2AEnvelope]
  cases isRecord (some value) with
  | false => simp
  | true =>
      simp only [Bool.not_true, Bool.false_eq_true, if_false, List.append_eq_nil_iff, hrequire,
        true_and, and_assoc]

theorem get_readBack {value : Json N} (h : value.Distinct) (k : JsString) :
    value.readBack.get k = (value.get k).map Json.readBack := by
  cases value with
  | obj members =>
      rw [Json.readBack, Json.readBackEach_eq_map]
      exact Json.lookupMember_readBackMembers ((Json.distinct_obj members).mp h).1 k
  | num n =>
      rw [Json.readBack]
      split_ifs <;> rfl
  | _ => rfl

omit [JsonNumber N] in
theorem distinct_get {value member : Json N} (h : value.Distinct) {k : JsString}
    (hget : value.get k = some member) : member.Distinct := by
  cases value with
  | obj members => exact ((Json.distinct_obj members).mp h).2 _ (mem_of_lookupMember hget)
  | _ => simp [Json.get] at hget

/-- What tells the texts and objects apart does not change when a value is read back. -/
theorem readBack_eq_of_kind {α : Type} (f : Option (Json N) → α)
    (hnum : ∀ n, f (some (.num n)) = f (some .null))
    (hobj : ∀ ms, f (some (Json.obj ms).readBack) = f (some (.obj ms)))
    (harr : ∀ es, f (some (Json.arr es).readBack) = f (some (.arr es)))
    (value : Option (Json N)) : f (value.map Json.readBack) = f value := by
  cases value with
  | none => rfl
  | some value =>
      cases value with
      | num n =>
          rw [Option.map_some, Json.readBack]
          split_ifs
          · rfl
          · exact (hnum n).symm
      | obj ms => exact hobj ms
      | arr es => exact harr es
      | _ => rfl

theorem isRecord_readBack (value : Option (Json N)) :
    isRecord (value.map Json.readBack) = isRecord value :=
  readBack_eq_of_kind isRecord (fun _ => rfl) (fun _ => rfl) (fun _ => rfl) value

theorem isText_readBack (s : JsString) (value : Option (Json N)) :
    Json.isText s (value.map Json.readBack) = Json.isText s value :=
  readBack_eq_of_kind (Json.isText s) (fun _ => rfl) (fun _ => rfl) (fun _ => rfl) value

theorem isString_readBack (value : Option (Json N)) :
    isString (value.map Json.readBack) = isString value :=
  readBack_eq_of_kind isString (fun _ => rfl) (fun _ => rfl) (fun _ => rfl) value

/-- An envelope is valid when it is read back. -/
theorem isH2AEnvelope_readBack {value : Json N} (h : value.Distinct) :
    isH2AEnvelope value.readBack = isH2AEnvelope value := by
  have hget : ∀ k, value.readBack.get k = (value.get k).map Json.readBack := get_readBack h
  have hactor : ((value.readBack.get (js "actor")).bind (Json.get (js "instance"))) =
      ((value.get (js "actor")).bind (Json.get (js "instance"))).map Json.readBack := by
    rw [hget]
    cases hactor : value.get (js "actor") with
    | none => rfl
    | some actor => exact get_readBack (distinct_get h hactor) _
  have hself : isRecord (some value.readBack) = isRecord (some value) :=
    isRecord_readBack (some value)
  rw [Bool.eq_iff_iff, isH2AEnvelope_iff, isH2AEnvelope_iff, hactor]
  simp only [hget, hself, isEnvelopeType, isOptionalString, isText_readBack, isString_readBack,
    isRecord_readBack, Option.isNone_map]

theorem envelopeId_readBack {value : Json N} (h : value.Distinct) :
    envelopeId value.readBack = envelopeId value := by
  rw [envelopeId, get_readBack h]
  exact readBack_eq_of_kind textOf (fun _ => rfl) (fun _ => rfl) (fun _ => rfl) _

end ReadBack

end H2a.Protocol
