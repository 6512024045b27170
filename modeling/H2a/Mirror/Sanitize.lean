import H2a.Protocol.EnvelopeForm
/-!
# What may cross the mirror boundary

The field plans of `packages/h2a/src/runtime/mirror/sanitize.ts`, which
`packages/h2a/src/runtime/mirror/ingest.ts` applies to what arrives, and `isH2ASession` of
`packages/h2a/src/session.ts`.  A plan is an allowlist: "iterate the PLAN (never the
record's own keys) and copy only what it permits".
-/

namespace H2a.Mirror

open H2a.Library H2a.Protocol

variable {N : Type}

/-! ## Plans -/

/-- How one field is treated at the boundary. -/
inductive MirrorFieldPlan (N : Type) where
  | send
  | withhold
  /-- transmitted through its own nested plan -/
  | narrow (fn : Json N → Json N)

abbrev MirrorPlan (N : Type) := List (JsString × MirrorFieldPlan N)

def isPrimitive : Json N → Bool
  | .str _ => true
  | .num _ => true
  | .bool _ => true
  | _ => false

/-- `isSendableAtRuntime(value)` -/
def isSendableAtRuntime : Json N → Bool
  | .arr elements => elements.all isPrimitive
  | value => isPrimitive value

/-- What one step of a plan makes of a field.  What a `narrow` gives is always built from a
plan here, so that none is dropped for not being so. -/
def planned : MirrorFieldPlan N → Option (Json N) → Option (Json N)
  | .withhold, _ => none
  | _, none => none
  | .narrow fn, some value => some (fn value)
  | .send, some value => if isSendableAtRuntime value then some value else none

/-- `applyPlan(record, plan)` -/
def applyPlan (plan : MirrorPlan N) (record : Json N) : Json N :=
  .obj (plan.filterMap fun (field, step) =>
    (planned step (record.get field)).map fun value => (field, value))

/-- `WORKSPACE_PLAN` -/
def workspacePlan : MirrorPlan N :=
  [(js "id", .send), (js "host", .send), (js "label", .send), (js "path", .withhold),
    (js "repo", .withhold)]

/-- `VERSION_PLAN` -/
def versionPlan : MirrorPlan N := [(js "cli", .send), (js "skill", .send)]

/-- `INTERESTS_PLAN` -/
def interestsPlan : MirrorPlan N := [(js "scopes", .send), (js "negotiations", .send)]

/-- `ENDPOINT_PLAN` -/
def endpointPlan : MirrorPlan N := [(js "kind", .send), (js "uri", .send)]

/-- `PRESENCE_PLAN` -/
def presencePlan : MirrorPlan N :=
  [(js "sessionId", .send), (js "instance", .send), (js "host", .send), (js "name", .send),
    (js "startedAt", .send), (js "heartbeatAt", .send), (js "state", .send),
    (js "interests", .narrow (applyPlan interestsPlan)), (js "subscribedTopics", .send),
    (js "workStatus", .send), (js "lastMcpActivityAt", .send),
    (js "version", .narrow (applyPlan versionPlan)),
    (js "workspace", .narrow (applyPlan workspacePlan)), (js "launchContext", .withhold),
    (js "pid", .withhold), (js "mirroredAt", .withhold)]

/-- `SUBAGENT_PLAN` -/
def subagentPlan : MirrorPlan N :=
  [(js "id", .send), (js "parentInstance", .send), (js "name", .send), (js "capabilities", .send),
    (js "createdAt", .send)]

section Endpoints

-- `new URL(uri).protocol`; `none` where it throws
variable (urlProtocol : Option (Json N) → Option JsString)

/-- `MIRRORABLE_ENDPOINT_SCHEMES` -/
def mirrorableEndpointSchemes : List JsString :=
  [js "http:", js "https:", js "ws:", js "wss:"]

/-- `sanitizeEndpointsForMirror(endpoints)` -/
def sanitizeEndpointsForMirror : Json N → Json N
  | .arr endpoints =>
      .arr ((endpoints.filter fun endpoint =>
        (urlProtocol (endpoint.get (js "uri"))).any mirrorableEndpointSchemes.contains).map
          (applyPlan endpointPlan))
  | _ => .arr []

/-- `REGISTRATION_PLAN` -/
def registrationPlan : MirrorPlan N :=
  [(js "id", .send), (js "instance", .send), (js "roles", .send), (js "scopes", .send),
    (js "capabilities", .send), (js "declaredCapabilities", .send), (js "publicKeys", .send),
    (js "acceptedPolicies", .send), (js "createdAt", .send), (js "principal", .send),
    (js "conductor", .send), (js "agentUuid", .send), (js "name", .send),
    (js "endpoints", .narrow (sanitizeEndpointsForMirror urlProtocol)),
    (js "workspace", .narrow (applyPlan workspacePlan))]

/-- `narrowIngestedRegistration(registration)`: the endpoints are always an array. -/
def narrowIngestedRegistration (registration : Json N) : Json N :=
  match applyPlan (registrationPlan urlProtocol) registration with
  | .obj out =>
      .obj (if hasMember (js "endpoints") out then out
        else out ++ [(js "endpoints", .arr [])])
  | out => out

end Endpoints

/-- `narrowIngestedPresence(session)` -/
def narrowIngestedPresence (session : Json N) : Json N := applyPlan presencePlan session

/-- `narrowIngestedSubagent(binding)` -/
def narrowIngestedSubagent (binding : Json N) : Json N := applyPlan subagentPlan binding

/-! ## Sessions -/

/-- `H2A_SESSION_STATES` -/
def sessionStates : List JsString :=
  [js "opening", js "live", js "draining", js "closed", js "expired"]

/-- `H2A_SESSION_NOTIFICATION_TOPICS` -/
def sessionNotificationTopics : List JsString :=
  [js "presence.peer_joined", js "presence.peer_left", js "inbox.envelope_arrived",
    js "negotiation.event_appended", js "peer.blocked", js "peer.unblocked"]

/-- `H2A_WORK_STATUSES` -/
def workStatuses : List JsString :=
  [js "working", js "paused", js "done", js "blocked", js "out-of-tokens"]

/-- Whether a value is one of some texts. -/
def isOneOf (texts : List JsString) (value : Option (Json N)) : Bool :=
  texts.any fun text => Json.isText text value

def isNonEmptyString : Option (Json N) → Bool
  | some (.str s) => !s.units.isEmpty
  | _ => false

/-- `value === undefined || test(value)` -/
def isOptional (test : Option (Json N) → Bool) (value : Option (Json N)) : Bool :=
  value.isNone || test value

def isStringArray : Option (Json N) → Bool
  | some (.arr elements) => elements.all fun element => isString (some element)
  | _ => false

/-- Whether a value is an object of whose members `test` holds. -/
def isObjectWith (test : (JsString → Option (Json N)) → Bool) (value : Option (Json N)) : Bool :=
  isRecord value && test fun k => value.bind (Json.get k)

/-- `isInterests(value)` -/
def isInterests : Option (Json N) → Bool :=
  isObjectWith fun v => isStringArray (v (js "scopes")) && isStringArray (v (js "negotiations"))

/-- `isLaunchContext(value)` -/
def isLaunchContext : Option (Json N) → Bool :=
  isObjectWith fun v =>
    isString (v (js "cwd")) && isString (v (js "command")) &&
    isOptional isString (v (js "resumeCommand")) && isOptional isString (v (js "tty")) &&
    isOptional (isObjectWith fun t =>
      isString (t (js "session")) && isString (t (js "pane")) &&
      isOptional isString (t (js "window"))) (v (js "tmux")) &&
    isOptional (isObjectWith fun n => isNonEmptyString (n (js "session"))) (v (js "nativePty"))

/-- `isH2AWorkspaceRef(value)` -/
def isH2AWorkspaceRef : Option (Json N) → Bool :=
  isObjectWith fun v =>
    isNonEmptyString (v (js "id")) && isNonEmptyString (v (js "host")) &&
    isNonEmptyString (v (js "label")) && isOptional isNonEmptyString (v (js "path")) &&
    isOptional isString (v (js "repo"))

section Session

variable [JsonNumber N]

def isInteger : Option (Json N) → Bool
  | some (.num n) => (JsonNumber.toInt? n).isSome
  | _ => false

/-- `isH2ASession(value)` -/
def isH2ASession : Option (Json N) → Bool :=
  isObjectWith fun v =>
    isNonEmptyString (v (js "sessionId")) && isNonEmptyString (v (js "instance")) &&
    isString (v (js "startedAt")) && isString (v (js "heartbeatAt")) &&
    isOneOf sessionStates (v (js "state")) && isInterests (v (js "interests")) &&
    isTopics (v (js "subscribedTopics")) && isOptional isString (v (js "host")) &&
    isOptional isInteger (v (js "pid")) &&
    isOptional (isOneOf workStatuses) (v (js "workStatus")) &&
    isOptional isLaunchContext (v (js "launchContext")) &&
    isOptional isH2AWorkspaceRef (v (js "workspace")) && isOptional isString (v (js "name")) &&
    isOptional isString (v (js "mirroredAt")) &&
    isOptional isString (v (js "lastMcpActivityAt")) &&
    isOptional (isObjectWith fun ver =>
      isOptional isString (ver (js "cli")) && isOptional isString (ver (js "skill")))
      (v (js "version"))
where
  isTopics : Option (Json N) → Bool
    | some (.arr topics) => topics.all fun topic => isOneOf sessionNotificationTopics (some topic)
    | _ => false

end Session

end H2a.Mirror
