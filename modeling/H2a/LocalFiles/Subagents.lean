import H2a.LocalFiles.Registry
/-!
# Subagents

The bindings of `packages/h2a/src/subagents.ts` and the registry of
`packages/h2a/src/runtime/local-files/store.ts` that keeps them.  A binding is never
rewritten: the status of a subagent is derived from the audit log, where "a `revoked`
event flips it".
-/

namespace H2a.LocalFiles

open H2a.Library

/-! ## Bindings -/

structure H2ASubagentBinding where
  id : JsString
  parentInstance : JsString
  name : JsString
  capabilities : Option (List JsString)
  createdAt : JsString

inductive H2ASubagentValidationError where
  | parentNotAgents
  | emptyName
  | nameContainsSeparator
  | idAddressMismatch
  | parentInstanceMismatch
  | capabilitiesExceedParent

def H2ASubagentValidationError.text : H2ASubagentValidationError → String
  | .parentNotAgents => "parent-not-agents"
  | .emptyName => "empty-name"
  | .nameContainsSeparator => "name-contains-separator"
  | .idAddressMismatch => "id-address-mismatch"
  | .parentInstanceMismatch => "parent-instance-mismatch"
  | .capabilitiesExceedParent => "capabilities-exceed-parent"

/-- `subagentAddress(parentInstance, name)` -/
def subagentAddress (parentInstance name : JsString) : JsString :=
  parentInstance ++ js "~" ++ name

/-- `if (condition) errors.push(error)` -/
def pushWhen (condition : Bool) (error : H2ASubagentValidationError) :
    List H2ASubagentValidationError :=
  if condition then [error] else []

/-- `validateSubagentBinding(binding, parent)`: its errors. -/
def validateSubagentBinding (binding : H2ASubagentBinding) (parent : H2AActorRegistration) :
    List H2ASubagentValidationError :=
  pushWhen (!parent.roles.contains .agents) .parentNotAgents ++
  pushWhen binding.name.units.isEmpty .emptyName ++
  pushWhen (binding.name.units.contains 0x7E) .nameContainsSeparator ++
  pushWhen (binding.id != subagentAddress binding.parentInstance binding.name)
    .idAddressMismatch ++
  pushWhen (binding.parentInstance != parent.instance_) .parentInstanceMismatch ++
  pushWhen ((binding.capabilities.getD []).any fun c => !parent.capabilities.contains c)
    .capabilitiesExceedParent

/-! ## The files of the registry -/

inductive H2ASubagentAuditType where
  | registered
  | routed
  | revoked
  deriving DecidableEq

inductive Mailbox where
  | inbox
  | outbox

/-- A row of the audit log. -/
structure H2ASubagentAuditEvent where
  subagent : JsString
  type : H2ASubagentAuditType
  at_ : JsString
  envelopeId : Option JsString
  mailbox : Option Mailbox
  reason : Option JsString

inductive H2ASubagentStatus where
  | active
  | revoked
  deriving DecidableEq

structure H2AOffboardTombstone where
  instance_ : JsString
  reason : Option JsString
  revokedKeys : Nat
  revokedSubagents : List JsString
  at_ : JsString

/-- The append-only files under the registry lock. -/
structure OrgFiles where
  registry : Registry
  subagents : List H2ASubagentBinding
  audit : List H2ASubagentAuditEvent
  offboards : List H2AOffboardTombstone

/-- `reason ? { reason } : {}` -/
def reasonMember (reason : Option JsString) : Option JsString :=
  reason.filter fun reason => !reason.units.isEmpty

namespace OrgFiles

variable (files : OrgFiles)

/-- `findSubagent(id)` -/
def findSubagent (id : JsString) : Option H2ASubagentBinding :=
  files.subagents.find? fun entry => entry.id = id

/-- `listSubagentsOf(parentInstance)` -/
def listSubagentsOf (parentInstance : JsString) : List H2ASubagentBinding :=
  files.subagents.filter fun b => b.parentInstance = parentInstance

/-- `readSubagentAudit(subagentId)` -/
def readSubagentAudit (subagentId : JsString) : List H2ASubagentAuditEvent :=
  files.audit.filter fun e => e.subagent = subagentId

/-- `subagentStatus(subagentId)` -/
def subagentStatus (subagentId : JsString) : H2ASubagentStatus :=
  if (files.readSubagentAudit subagentId).any fun e => e.type = .revoked then .revoked else .active

/-- `appendSubagentAudit(event)` -/
def appendSubagentAudit (event : H2ASubagentAuditEvent) : OrgFiles :=
  { files with audit := files.audit ++ [event] }

/-- The critical section of `revokeSubagent(subagentId, reason)`. -/
def revokeSubagent (subagentId : JsString) (reason : Option JsString) (at_ : JsString) :
    Except String OrgFiles :=
  if (files.findSubagent subagentId).isNone then
    .error s!"Subagent not registered: {subagentId}"
  else if files.subagentStatus subagentId = .revoked then
    .error s!"Subagent already revoked: {subagentId}"
  else .ok (files.appendSubagentAudit
    ⟨subagentId, .revoked, at_, none, none, reasonMember reason⟩)

/-- The critical section of `registerSubagent(binding)`. -/
def registerSubagent (binding : H2ASubagentBinding) (at_ : JsString) : Except String OrgFiles :=
  match files.registry.findInstance binding.parentInstance with
  | none => .error ("Subagent parent not registered: " ++ binding.parentInstance.toText)
  | some parent =>
      let errors := validateSubagentBinding binding parent
      if !errors.isEmpty then
        .error ("Invalid subagent binding (" ++ binding.id.toText ++ "): " ++
          String.intercalate ", " (errors.map (·.text)))
      else if (files.findSubagent binding.id).isSome then
        .error ("Subagent already registered: " ++ binding.id.toText)
      else .ok ({ files with subagents := files.subagents ++ [binding] }.appendSubagentAudit
        ⟨binding.id, .registered, at_, none, none, none⟩)

/-! ## The status of a subagent -/

variable {files}

/-- A subagent is revoked once the audit log has an event that says so. -/
theorem subagentStatus_eq_revoked {id : JsString} :
    files.subagentStatus id = .revoked ↔ ∃ e ∈ files.audit, e.type = .revoked ∧ e.subagent = id := by
  have hany : ((files.readSubagentAudit id).any fun e => e.type = .revoked) = true ↔
      ∃ e ∈ files.audit, e.type = .revoked ∧ e.subagent = id := by
    rw [List.any_eq_true, readSubagentAudit]
    constructor
    · rintro ⟨e, he, htype⟩
      obtain ⟨he, hsubagent⟩ := List.mem_filter.mp he
      exact ⟨e, he, of_decide_eq_true htype, of_decide_eq_true hsubagent⟩
    · rintro ⟨e, he, htype, hsubagent⟩
      exact ⟨e, List.mem_filter.mpr ⟨he, decide_eq_true hsubagent⟩, decide_eq_true htype⟩
  rw [← hany, subagentStatus]
  split_ifs with h <;> simp [h]

/-- No event makes a revoked subagent active again. -/
theorem revoked_of_append {id : JsString} (h : files.subagentStatus id = .revoked)
    {files' : OrgFiles} {events : List H2ASubagentAuditEvent}
    (haudit : files'.audit = files.audit ++ events) : files'.subagentStatus id = .revoked := by
  obtain ⟨e, he, htype, hsubagent⟩ := subagentStatus_eq_revoked.mp h
  exact subagentStatus_eq_revoked.mpr
    ⟨e, haudit ▸ List.mem_append_left _ he, htype, hsubagent⟩

theorem mem_listSubagentsOf {parentInstance : JsString} {b : H2ASubagentBinding} :
    b ∈ files.listSubagentsOf parentInstance ↔
      b ∈ files.subagents ∧ b.parentInstance = parentInstance := by
  simp [listSubagentsOf]

/-! ## What the critical sections do -/

/-- A revocation that returns appends the event that revokes. -/
theorem revokeSubagent_eq_ok {id at_ : JsString} {reason : Option JsString} {files' : OrgFiles}
    (h : files.revokeSubagent id reason at_ = .ok files') :
    files' = files.appendSubagentAudit ⟨id, .revoked, at_, none, none, reasonMember reason⟩ := by
  rw [revokeSubagent] at h
  split_ifs at h
  exact (Except.ok.inj h).symm

/-- A registration that returns appends the binding, and an event that revokes nothing. -/
theorem registerSubagent_eq_ok {binding : H2ASubagentBinding} {at_ : JsString} {files' : OrgFiles}
    (h : files.registerSubagent binding at_ = .ok files') :
    files' = { files with subagents := files.subagents ++ [binding] }.appendSubagentAudit
      ⟨binding.id, .registered, at_, none, none, none⟩ := by
  rw [registerSubagent] at h
  split at h
  · simp at h
  · dsimp only at h
    split_ifs at h
    exact (Except.ok.inj h).symm

end OrgFiles

namespace Registry

variable {r r' : Registry} {instanceId pem at_ : JsString}

/-- A revocation that returns appends the event that revokes. -/
theorem revokeInstanceKey_eq_ok (h : r.revokeInstanceKey instanceId pem at_ = .ok r') :
    r' = { r with keys := r.keys ++ [⟨instanceId, pem, .revoked, at_⟩] } := by
  rw [revokeInstanceKey] at h
  split_ifs at h
  exact (Except.ok.inj h).symm

theorem addInstanceKey_eq_ok (h : r.addInstanceKey instanceId pem at_ = .ok r') :
    r' = { r with keys := r.keys ++ [⟨instanceId, pem, .added, at_⟩] } := by
  rw [addInstanceKey] at h
  split_ifs at h
  exact (Except.ok.inj h).symm

end Registry

end H2a.LocalFiles
