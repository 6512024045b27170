import Mathlib.Logic.Function.Basic
import H2a.Library.Transition
import H2a.LocalFiles.Subagents
/-!
# Offboarding

`offboardInstance` and `routeToSubagent` of
`packages/h2a/src/runtime/local-files/store.ts`, step by step: a read without the lock is
one step, and so is a critical section of the registry lock.  The active keys and
subagents are listed first and revoked one by one, and the status of a subagent is
checked before an envelope is delivered and recorded.
-/

namespace H2a.LocalFiles

open H2a.Library

/-! ## The calls -/

/-- Where `offboardInstance` stands. -/
inductive OffboardPc where
  | called
  | listingKeys
  | revokingKeys (activeKeys : Nat) (pending : List JsString)
  | listingSubagents (activeKeys : Nat)
  /-- in the filter over the bindings of the instance -/
  | checkingStatus (activeKeys : Nat) (active remaining : List H2ASubagentBinding)
  /-- `revoked` are the subagents that this call has revoked -/
  | revokingSubagents (activeKeys : Nat) (activeSubs : List H2ASubagentBinding)
      (revoked : List JsString) (pending : List H2ASubagentBinding)
  | recording (tombstone : H2AOffboardTombstone) (revoked : List JsString)
  /-- `written` are the files as the tombstone was written -/
  | returned (tombstone : H2AOffboardTombstone) (revoked : List JsString) (written : OrgFiles)
  | threw (error : String)

/-- The next step of `offboardInstance(instanceId, reason)`. -/
def OffboardPc.advance (instanceId : JsString) (reason : Option JsString) (now : JsString)
    (files : OrgFiles) : OffboardPc → OffboardPc × OrgFiles
  | .called =>
      if (files.registry.findInstance instanceId).isNone then
        (.threw s!"Instance not registered: {instanceId}", files)
      else (.listingKeys, files)
  | .listingKeys =>
      let activeKeys := files.registry.listInstanceKeys instanceId
      (.revokingKeys activeKeys.length activeKeys, files)
  | .revokingKeys activeKeys [] => (.listingSubagents activeKeys, files)
  | .revokingKeys activeKeys (pem :: pending) =>
      match files.registry.revokeInstanceKey instanceId pem now with
      | .error error => (.threw error, files)
      | .ok registry => (.revokingKeys activeKeys pending, { files with registry })
  | .listingSubagents activeKeys =>
      (.checkingStatus activeKeys [] (files.listSubagentsOf instanceId), files)
  | .checkingStatus activeKeys active [] =>
      (.revokingSubagents activeKeys active [] active, files)
  | .checkingStatus activeKeys active (b :: remaining) =>
      if files.subagentStatus b.id = .active then
        (.checkingStatus activeKeys (active ++ [b]) remaining, files)
      else (.checkingStatus activeKeys active remaining, files)
  | .revokingSubagents activeKeys activeSubs revoked [] =>
      (.recording ⟨instanceId, reasonMember reason, activeKeys, activeSubs.map (·.id), now⟩
        revoked, files)
  | .revokingSubagents activeKeys activeSubs revoked (b :: pending) =>
      match files.revokeSubagent b.id (some (reason.getD (js "offboard"))) now with
      | .error error => (.threw error, files)
      | .ok files => (.revokingSubagents activeKeys activeSubs (revoked ++ [b.id]) pending, files)
  | .recording tombstone revoked =>
      let written := { files with offboards := files.offboards ++ [tombstone] }
      (.returned tombstone revoked written, written)
  | pc => (pc, files)

/-- The arguments of `routeToSubagent`. -/
structure Route where
  subagentId : JsString
  envelopeId : JsString
  mailbox : Mailbox

/-- Where a process stands in `routeToSubagent`. -/
inductive RoutePc where
  | idle
  | finding (route : Route)
  | checking (route : Route)
  | delivering (route : Route)
  | recording (route : Route)

/-- The next step of `routeToSubagent`; `delivered` is whether the put returns. -/
def RoutePc.advance (now : JsString) (delivered : Bool) (files : OrgFiles) :
    RoutePc → RoutePc × OrgFiles
  | .idle => (.idle, files)
  | .finding route =>
      (if (files.findSubagent route.subagentId).isNone then .idle else .checking route, files)
  | .checking route =>
      (if files.subagentStatus route.subagentId = .revoked then .idle else .delivering route, files)
  | .delivering route => (if delivered then .recording route else .idle, files)
  | .recording route =>
      (.idle, files.appendSubagentAudit
        ⟨route.subagentId, .routed, now, some route.envelopeId, some route.mailbox, none⟩)

/-! ## Interleavings -/

/-- One step: of the offboarding, or of another process. -/
inductive OffboardAction (P : Type) where
  | offboard (now : JsString)
  | addInstanceKey (instanceId pem now : JsString)
  | revokeInstanceKey (instanceId pem now : JsString)
  | registerSubagent (binding : H2ASubagentBinding) (now : JsString)
  | revokeSubagent (subagentId : JsString) (reason : Option JsString) (now : JsString)
  /-- the process calls `routeToSubagent` -/
  | route (p : P) (route : Route)
  /-- the next step of its call -/
  | advance (p : P) (now : JsString) (delivered : Bool)

/-- The files, the offboarding, and the calls of the other processes. -/
structure OffboardSystem (P : Type) where
  files : OrgFiles
  pc : OffboardPc
  route : P → RoutePc
  /-- the keys the instance was given after the offboarding had listed its keys -/
  lateKeys : List JsString
  /-- the subagents registered under it after the offboarding had listed its subagents -/
  lateSubagents : List JsString

namespace OffboardPc

/-- The listed keys that are still to be revoked, once they are listed. -/
def pendingKeys : OffboardPc → Option (List JsString)
  | .revokingKeys _ pending => some pending
  | .listingSubagents _ => some []
  | .checkingStatus .. => some []
  | .revokingSubagents .. => some []
  | .recording .. => some []
  | _ => none

/-- The listed subagents that are still to be revoked, once they are listed. -/
def pendingSubagents : OffboardPc → Option (List JsString)
  | .checkingStatus _ active remaining => some ((active ++ remaining).map (·.id))
  | .revokingSubagents _ _ _ pending => some (pending.map (·.id))
  | .recording .. => some []
  | _ => none

end OffboardPc

namespace OffboardSystem

variable {P : Type} [DecidableEq P]

/-- What a step leads to; a critical section that throws leaves the files as they were. -/
def act (instanceId : JsString) (reason : Option JsString) (s : OffboardSystem P) :
    OffboardAction P → OffboardSystem P
  | .offboard now =>
      let next := s.pc.advance instanceId reason now s.files
      { s with pc := next.1, files := next.2 }
  | .addInstanceKey id pem now =>
      match s.files.registry.addInstanceKey id pem now with
      | .error _ => s
      | .ok registry =>
          { s with
            files := { s.files with registry }
            lateKeys :=
              if s.pc.pendingKeys.isSome ∧ id = instanceId then s.lateKeys ++ [pem]
              else s.lateKeys }
  | .revokeInstanceKey id pem now =>
      match s.files.registry.revokeInstanceKey id pem now with
      | .error _ => s
      | .ok registry => { s with files := { s.files with registry } }
  | .registerSubagent binding now =>
      match s.files.registerSubagent binding now with
      | .error _ => s
      | .ok files =>
          { s with
            files
            lateSubagents :=
              if s.pc.pendingSubagents.isSome ∧ binding.parentInstance = instanceId then
                s.lateSubagents ++ [binding.id]
              else s.lateSubagents }
  | .revokeSubagent id reason now =>
      match s.files.revokeSubagent id reason now with
      | .error _ => s
      | .ok files => { s with files }
  | .route p route =>
      match s.route p with
      | .idle => { s with route := Function.update s.route p (.finding route) }
      | _ => s
  | .advance p now delivered =>
      let next := (s.route p).advance now delivered s.files
      { s with route := Function.update s.route p next.1, files := next.2 }

/-- Any store, before the call. -/
def start (files : OrgFiles) : OffboardSystem P := ⟨files, .called, fun _ => .idle, [], []⟩

end OffboardSystem

/-! ## What is claimed -/

/-- From the `n`th event on, no envelope is recorded as routed after the event that revoked
its subagent. -/
def RoutedInOrder (n : Nat) (audit : List H2ASubagentAuditEvent) : Prop :=
  ∀ (before : List H2ASubagentAuditEvent) (event : H2ASubagentAuditEvent)
    (after : List H2ASubagentAuditEvent), audit = before ++ event :: after → n ≤ before.length →
    event.type = .routed → ∀ e ∈ before, e.type = .revoked → e.subagent ≠ event.subagent

/-- As the tombstone was written no key of the instance was active and each of its subagents
was revoked; the tombstone lists what the call revoked. -/
structure Complete (instanceId : JsString) (tombstone : H2AOffboardTombstone)
    (revoked : List JsString) (written : OrgFiles) : Prop where
  keys : written.registry.listInstanceKeys instanceId = []
  subagents : ∀ b ∈ written.listSubagentsOf instanceId, written.subagentStatus b.id = .revoked
  listed : tombstone.revokedSubagents = revoked

namespace OffboardSystem

variable {P : Type}

def Safe (instanceId : JsString) (n : Nat) (s : OffboardSystem P) : Prop :=
  (∀ tombstone revoked written, s.pc = .returned tombstone revoked written →
    Complete instanceId tombstone revoked written) ∧ RoutedInOrder n s.files.audit

/-- What came late is revoked again when the tombstone is written, and a subagent is not
revoked between the check of its status and the record of what is routed to it. -/
def Allowed (instanceId : JsString) (s : OffboardSystem P) : OffboardAction P → Prop
  | .offboard _ => ∀ tombstone revoked, s.pc = .recording tombstone revoked →
      (∀ pem ∈ s.lateKeys, pem ∈ s.files.registry.eventKeys instanceId .revoked) ∧
        ∀ id ∈ s.lateSubagents, s.files.subagentStatus id = .revoked
  | .advance p _ _ => ∀ route, s.route p = .recording route →
      s.files.subagentStatus route.subagentId = .active
  | _ => True

end OffboardSystem

end H2a.LocalFiles
