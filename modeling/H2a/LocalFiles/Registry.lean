import H2a.Library.JsString
/-!
# The registry

The instances and the keyring of `packages/h2a/src/runtime/local-files/store.ts`: the rows
of `instances.jsonl` and `keys.jsonl`, which are only ever appended to.  The active keys
of an instance are those of its registration and those added, without the revoked ones.
-/

namespace H2a.LocalFiles

open H2a.Library

/-! ## Rows -/

/-- `H2A_ROLES` -/
inductive H2ARole where
  | principal
  | executif
  | conductor
  | agents
  | control
  | mandataire
  deriving DecidableEq

/-- A row of `instances.jsonl`, with the fields the authority of an instance rests on. -/
structure H2AActorRegistration where
  id : JsString
  instance_ : JsString
  roles : List H2ARole
  capabilities : List JsString
  publicKeys : List JsString

inductive H2AKeyEventType where
  | added
  | revoked
  deriving DecidableEq

/-- A row of `keys.jsonl`. -/
structure H2AKeyEvent where
  instance_ : JsString
  publicKey : JsString
  type : H2AKeyEventType
  at_ : JsString

/-- `instances.jsonl` and `keys.jsonl`. -/
structure Registry where
  instances : List H2AActorRegistration
  keys : List H2AKeyEvent

namespace Registry

variable (r : Registry)

/-! ## The source -/

/-- `findInstance(id)`: the first row of that id. -/
def findInstance (id : JsString) : Option H2AActorRegistration :=
  r.instances.find? fun entry => entry.id = id

/-- `events.filter((e) => e.type === type).map((e) => e.publicKey)`, for one instance -/
def eventKeys (instanceId : JsString) (type : H2AKeyEventType) : List JsString :=
  (r.keys.filter fun e => e.instance_ = instanceId ∧ e.type = type).map fun e => e.publicKey

/-- `listInstanceKeys(instanceId)`: a set, in the order of insertion. -/
def listInstanceKeys (instanceId : JsString) : List JsString :=
  let fromRegistration := ((r.findInstance instanceId).map (·.publicKeys)).getD []
  let active := (fromRegistration ++ r.eventKeys instanceId .added).eraseDups
  active.filter fun pem => !(r.eventKeys instanceId .revoked).contains pem

/-- `registerInstance(reg)`: no effect when the id is taken. -/
def registerInstance (reg : H2AActorRegistration) : Registry :=
  if (r.findInstance reg.id).isSome then r
  else { r with instances := r.instances ++ [reg] }

/-- The critical section of `addInstanceKey(instanceId, publicKeyPem)`. -/
def addInstanceKey (instanceId publicKeyPem at_ : JsString) : Except String Registry :=
  if (r.findInstance instanceId).isNone then .error s!"Instance not registered: {instanceId}"
  else if (r.listInstanceKeys instanceId).contains publicKeyPem then
    .error s!"Key already registered for {instanceId}"
  else .ok { r with keys := r.keys ++ [⟨instanceId, publicKeyPem, .added, at_⟩] }

/-- The critical section of `revokeInstanceKey(instanceId, publicKeyPem)`. -/
def revokeInstanceKey (instanceId publicKeyPem at_ : JsString) : Except String Registry :=
  if !(r.listInstanceKeys instanceId).contains publicKeyPem then
    .error s!"Key not active for {instanceId}"
  else .ok { r with keys := r.keys ++ [⟨instanceId, publicKeyPem, .revoked, at_⟩] }

/-! ## Active keys -/

variable {r}

/-- Registered or added, and not revoked. -/
theorem mem_listInstanceKeys {instanceId pem : JsString} :
    pem ∈ r.listInstanceKeys instanceId ↔
      (pem ∈ ((r.findInstance instanceId).map (·.publicKeys)).getD [] ∨
        pem ∈ r.eventKeys instanceId .added) ∧ pem ∉ r.eventKeys instanceId .revoked := by
  simp [listInstanceKeys]

theorem mem_eventKeys {instanceId pem : JsString} {type : H2AKeyEventType} :
    pem ∈ r.eventKeys instanceId type ↔
      ∃ e ∈ r.keys, e.instance_ = instanceId ∧ e.type = type ∧ e.publicKey = pem := by
  simp [eventKeys, and_assoc]

end Registry

end H2a.LocalFiles
