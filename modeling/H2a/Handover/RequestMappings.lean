import H2a.Library.JsMap
import H2a.Library.JsObject
import H2a.Library.Result
import Mathlib.Data.List.Sort
/-!
# Request mappings

`RequestMappings` of `packages/h2a/src/runtime/handover/request-mappings.js`: the requests that are
open, under their own id and under the id they are sent on with.  "Monotone upstream IDs also fence
late replies and progress after a downstream ID is reused".
-/

namespace H2a.Handover

open H2a.Library

variable {N : Type} [JsonNumber N]

/-! ## Values -/

/-- A text that has a canonical form: surrogates come in pairs. -/
def pairedSurrogates : List UInt16 → Bool
  | [] => true
  | unit :: units =>
      if isHighSurrogate unit then
        match units with
        | [] => false
        | next :: units => isLowSurrogate next && pairedSurrogates units
      else !isLowSurrogate unit && pairedSurrogates units

/-- What `canonicalBytes` throws on a value, if it throws: the members of an object are written in
the order of their keys. -/
def uncanonical : Json N → Option String
  | .null => none
  | .bool _ => none
  | .num n => if JsonNumber.isFinite n then none else some "invalid_json"
  | .str s => if pairedSurrogates s.units then none else some "invalid_unicode"
  | .arr elements => uncanonicalElements elements
  | .obj members =>
      ((uncanonicalMembers members).insertionSort fun m m' => m.1.codes ≤ m'.1.codes).findSome?
        Prod.snd
where
  uncanonicalElements : List (Json N) → Option String
    | [] => none
    | element :: elements => (uncanonical element).or (uncanonicalElements elements)
  uncanonicalMembers : List (JsString × Json N) → List (JsString × Option String)
    | [] => []
    | (key, value) :: members =>
        (key, (if pairedSurrogates key.units then none else some "invalid_unicode").or
          (uncanonical value)) :: uncanonicalMembers members

/-- A value whose digest has been computed, as that of every payload of a verified frame. -/
structure Digested (N : Type) [JsonNumber N] where
  json : Json N
  canonical : uncanonical json = none

/-- The prefix of the ids, SHA-256 over canonical bytes, whether the bridge was started for a
registry, and its own version. -/
structure BridgeHost (N : Type) where
  idPrefix : JsString
  hash : Json N → JsString
  registryTools : Bool
  packageVersion : JsString

/-- `digest(value)` -/
def digest (host : BridgeHost N) (value : Json N) : Except String JsString :=
  match uncanonical value with
  | none => .ok (host.hash value)
  | some error => .error error

theorem mem_uncanonicalMembers {members : List (JsString × Json N)} {m : JsString × Json N}
    (hm : m ∈ members) :
    ∃ error, (m.1, error) ∈ uncanonical.uncanonicalMembers members ∧
      (error = none → uncanonical m.2 = none) := by
  induction members with
  | nil => cases hm
  | cons first members ih =>
      rw [uncanonical.uncanonicalMembers]
      rcases List.mem_cons.mp hm with rfl | hm
      · exact ⟨_, List.mem_cons_self, fun hnone => (Option.or_eq_none_iff.mp hnone).2⟩
      · obtain ⟨error, herror, hvalue⟩ := ih hm
        exact ⟨error, List.mem_cons_of_mem _ herror, hvalue⟩

/-- The digest of a member of a value that has one can be computed. -/
theorem uncanonical_get {value member : Json N} {k : JsString} (h : uncanonical value = none)
    (hget : value.get k = some member) : uncanonical member = none := by
  cases value with
  | obj members =>
      obtain ⟨error, herror, hmember⟩ := mem_uncanonicalMembers (mem_of_lookupMember hget)
      rw [uncanonical, List.findSome?_eq_none_iff] at h
      exact hmember (h _ ((List.mem_insertionSort _).mpr herror))
  | _ => cases hget

/-- `value?.k` -/
def optional (k : JsString) (value : Option (Json N)) : Option (Json N) := value.bind (Json.get k)

/-- `typeof value` -/
def typeOf : Option (Json N) → String
  | none => "undefined"
  | some (.bool _) => "boolean"
  | some (.num _) => "number"
  | some (.str _) => "string"
  | some _ => "object"

/-- `typed(id)` -/
def typed (id : Option (Json N)) : List Char :=
  (typeOf id).toList ++ ':' :: id.elim "undefined".toList Json.render

/-! ## Entries -/

/-- What `sameOwner` compares. -/
structure Transport where
  generation : JsString
  sessionId : Option JsString
  attachmentId : JsString
  transportEpoch : Nat
  deriving DecidableEq

/-- A transport with the generation and the publication epoch of its marker. -/
structure Owner (N : Type) [JsonNumber N] where
  transport : Transport
  markerGeneration : JsString
  publicationEpoch : Digested N

inductive DispatchState where
  | local
  | possible
  | notSent
  deriving DecidableEq

inductive TerminalState where
  | result
  | cancelled
  | closed
  | nonAdmission
  | unknown
  | error

structure Entry (N : Type) [JsonNumber N] where
  key : List Char
  downstreamId : Json N
  requestUid : JsString
  requestNonce : JsString
  upstreamId : JsString
  owner : Option (Owner N)
  notificationOwner : Option Transport
  originalDeadline : Int
  dispatchState : DispatchState
  /-- `cancellationState === 'won'` -/
  cancellationWon : Bool
  terminalState : Option TerminalState
  downstreamProgressToken : Option (Json N)
  progressToken : Option JsString
  requestDigest : Option JsString

/-- The maps hold places in `entries`, which has every entry that was begun. -/
structure RequestMappings (N : Type) [JsonNumber N] where
  requests : JsMap (List Char) Nat
  tokens : JsMap JsString Nat
  counter : Nat
  entries : List (Entry N)

/-- The default capacity. -/
def requestCapacity : Nat := 32

/-- `message.params?._meta?.progressToken` -/
def progressTokenOf (message : Json N) : Option (Json N) :=
  optional (js "progressToken") (optional (js "_meta") (message.get (js "params")))

namespace RequestMappings

variable (host : BridgeHost N) (mappings : RequestMappings N)

def empty : RequestMappings N := ⟨.empty, .empty, 0, []⟩

/-- `nextId()`; `none` where it throws. -/
def nextId (mappings : RequestMappings N) : Option (JsString × RequestMappings N) :=
  if 2 ^ 53 - 1 ≤ mappings.counter then none
  else some (host.idPrefix ++ js ":" ++ js (toString (mappings.counter + 1)),
    { mappings with counter := mappings.counter + 1 })

/-- A change of the fields of an entry. -/
def amend (mappings : RequestMappings N) (place : Nat) (f : Entry N → Entry N) :
    RequestMappings N :=
  { mappings with entries := mappings.entries.modify place f }

/-- `begin(message, undefined, deadline)`, with the two random ids. -/
def begin (message id : Json N) (deadline : Int) (requestUid requestNonce : JsString) :
    RequestMappings N × Except String Nat :=
  let key := typed (some id)
  if mappings.requests.has key then (mappings, .error "duplicate_request_id")
  else if requestCapacity ≤ mappings.requests.keys.length then
    (mappings, .error "request_capacity")
  else
    match mappings.nextId host with
    | none => (mappings, .error "request_id_exhausted")
    | some (upstreamId, mappings) =>
        let place := mappings.entries.length
        let entry : Entry N := {
          key := key
          downstreamId := id
          requestUid := requestUid
          requestNonce := requestNonce
          upstreamId := upstreamId
          owner := none
          notificationOwner := none
          originalDeadline := deadline
          dispatchState := .local
          cancellationWon := false
          terminalState := none
          downstreamProgressToken := none
          progressToken := none
          requestDigest := none }
        match progressTokenOf message with
        | none =>
            ({ mappings with
              requests := mappings.requests.set key place
              entries := mappings.entries ++ [entry] }, .ok place)
        | some downstreamProgressToken =>
            match mappings.nextId host with
            | none => (mappings, .error "request_id_exhausted")
            | some (progressToken, mappings) =>
                ({ mappings with
                  requests := mappings.requests.set key place
                  tokens := mappings.tokens.set progressToken place
                  entries := mappings.entries ++ [{
                    entry with
                    downstreamProgressToken := some downstreamProgressToken
                    progressToken := some progressToken }] }, .ok place)

/-- `settle(entry, terminalState)` -/
def settle (place : Nat) (terminalState : TerminalState) : RequestMappings N × Bool :=
  match mappings.entries[place]? with
  | none => (mappings, false)
  | some entry =>
      if entry.terminalState.isSome then (mappings, false)
      else
        let amended := mappings.amend place fun entry =>
          { entry with terminalState := some terminalState }
        let tokens := entry.progressToken.elim mappings.tokens mappings.tokens.delete
        ({ amended with requests := mappings.requests.delete entry.key, tokens := tokens }, true)

/-- `cancel(id)` -/
def cancel (id : Option (Json N)) : RequestMappings N :=
  match mappings.requests.get (typed id) with
  | none => mappings
  | some place =>
      match mappings.entries[place]? with
      | none => mappings
      | some entry =>
          if entry.terminalState.isSome then mappings
          else
            ((mappings.amend place fun entry => { entry with cancellationWon := true }).settle place
              .cancelled).1

/-- `progress(token, owner)`: the place and the token of the request; `sameOwner` throws where the
entry has no owner yet. -/
def progress (token : Option (Json N)) (owner : Transport) : Except String (Option (Nat × Json N)) :=
  match token with
  | some (.str token) =>
      match mappings.tokens.get token with
      | none => .ok none
      | some place =>
          match mappings.entries[place]? with
          | none => .ok none
          | some entry =>
              if entry.terminalState.isSome then .ok none
              else
                match entry.owner with
                | none => .error "Cannot read properties of undefined (reading 'generation')"
                | some sent =>
                    if sent.transport = owner ∨ entry.notificationOwner = some owner then
                      .ok (entry.downstreamProgressToken.map (Prod.mk place))
                    else .ok none
  | _ => .ok none

/-- Whether a transport is resumed by another one: `resumeNotifications` does not throw. -/
def resumes (previous next : Transport) : Bool :=
  previous.generation = next.generation && previous.attachmentId = next.attachmentId &&
    next.transportEpoch ≤ 2 ^ 53 - 1 && next.transportEpoch = previous.transportEpoch + 1 &&
    next.sessionId.any (!·.units.isEmpty)

/-- One turn of the loop of `resumeNotifications`. -/
def resumeEntry (previous next : Transport) (entry : Entry N) : Entry N :=
  if (entry.notificationOwner <|> entry.owner.map Owner.transport) = some previous then
    { entry with notificationOwner := some next }
  else entry

/-- `resumeNotifications(previous, next)` -/
def resumeNotifications (previous next : Transport) : RequestMappings N :=
  if resumes previous next then
    mappings.requests.values.foldl
      (fun mappings place => mappings.amend place (resumeEntry previous next)) mappings
  else mappings

/-- `close()` -/
def close : RequestMappings N :=
  mappings.requests.values.foldl (fun mappings place => (mappings.settle place .closed).1) mappings

end RequestMappings

/-- `nonAdmissionMatches(proof, entry, message)` -/
def nonAdmissionMatches (host : BridgeHost N) (proof : Json N) (entry : Entry N)
    (owner : Owner N) (message : Json N) : Except String Bool := do
  if proof.truthy && Json.strictEq (proof.get (js "accepted")) (some (.bool false)) &&
      Json.isText (js "not_started") (proof.get (js "execution")) &&
      typeOf (proof.get (js "reason")) == "string" &&
      Json.isText entry.requestUid (proof.get (js "requestUid")) &&
      Json.isText entry.requestNonce (proof.get (js "requestNonce")) &&
      Json.strictEq (proof.get (js "method")) (message.get (js "method")) &&
      Json.strictEq (proof.get (js "requestDigest")) (entry.requestDigest.map .str) &&
      Json.isText owner.markerGeneration (proof.get (js "generation")) then
    match proof.get (js "publicationEpoch") with
    | none => return false
    | some publicationEpoch =>
        let claimed ← digest host publicationEpoch
        let published ← digest host owner.publicationEpoch.json
        return claimed = published
  else return false

end H2a.Handover
