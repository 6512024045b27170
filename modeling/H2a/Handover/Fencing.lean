import H2a.Handover.Plans
import H2a.Library.Transition
/-!
# Generations over one state directory

Any number of processes, each with the registries of its generations, under one mutation lock.  A
process may die between any two replacements of a mutation; the lock is free then.  Business
writes go through `withWriterMutation` of `packages/h2a/src/runtime/handover/mutation.js`, under
the same lock: "operation rights are distinct from attachment rights".
-/

namespace H2a.Handover

open H2a.Library

variable {V : Type} [DecidableEq V]

/-! ## Business writes -/

/-- `authority(operation, cleanup)` of an `AttachmentParticipant`: an operation is one of its
attachment. -/
structure Authority (V : Type) where
  token : OwnerToken
  operation : Option (Operation V)
  cleanup : Bool
  own : ∀ op, operation = some op → op.attachmentId = token.attachmentId

/-- The registry that made the token. -/
def OwnerToken.registry (token : OwnerToken) : Registry :=
  ⟨token.ownerGeneration, token.ownerProcessIdentity, false⟩

/-- The states in which an authority without an operation is accepted. -/
def Authority.states (authority : Authority V) : List OwnershipState :=
  if authority.cleanup then [.active, .frozen] else [.active]

/-- `withWriterMutation(root, domain, fn)` with the authority of a token, up to `fn`; `presence`
is whether the domain is that. -/
def withWriterMutation (directory : Directory V) (authority : Authority V) (presence : Bool) :
    Except String Unit := do
  let registry := authority.token.registry
  match authority.operation.filter fun _ => !presence with
  | some operation => let _ ← assertOperation registry directory operation
  | none =>
      let _ ← assertOwner registry directory authority.token authority.states
      if directory.gate ≠ .open ∧ !authority.cleanup then .error "store_admission_closed"

/-! ## The system -/

/-- A business write, with the directory and the admitted calls of `begin` at that moment. -/
structure BusinessWrite (V : Type) where
  authority : Authority V
  presence : Bool
  directory : Directory V
  begun : List (OwnerToken × JsString)

structure FencingSystem (V : Type) where
  directory : Directory V
  /-- the processes that have ended -/
  ended : ProcessIdentity → Bool
  /-- the tokens that `claim` and `rebaseline` have returned -/
  participants : List OwnerToken
  /-- the tokens and operation ids of the calls of `begin` that were admitted -/
  begun : List (OwnerToken × JsString)
  writes : List (BusinessWrite V)

inductive FencingAction (V : Type) where
  /-- a mutation of a registry; with `crash`, its process dies after so many writes -/
  | mutate (generation : JsString) (process : ProcessIdentity) (mutation : Mutation V)
      (crash : Option Nat)
  /-- `updateWriterControl` -/
  | control (gate : WriterGate)
  | business (authority : Authority V) (presence : Bool)
  | exit (process : ProcessIdentity)

/-- What a call of `begin` that is admitted begins. -/
def Mutation.begins : Mutation V → List (OwnerToken × JsString)
  | .begin _ token operationId _ => [(token, operationId)]
  | _ => []

def Answer.tokens : Answer V → List OwnerToken
  | .token issued => [issued]
  | _ => []

namespace FencingSystem

/-- The process ends. -/
def exit (s : FencingSystem V) (process : ProcessIdentity) : FencingSystem V :=
  { s with ended := Function.update s.ended process true }

/-- A mutation that has checked everything: its writes up to the crash, and its answer. -/
def perform (s : FencingSystem V) (process : ProcessIdentity) (mutation : Mutation V)
    (plan : Plan V) (crash : Option Nat) : FencingSystem V :=
  let begun := s.begun ++ mutation.begins
  match crash with
  | some count =>
      let result := performWrites s.directory [] (plan.writes.take count)
      { s with directory := result.1, begun := begun }.exit process
  | none =>
      let result := performWrites s.directory [] plan.writes
      let tokens := if result.2.isNone then plan.answer.tokens else []
      { s with directory := result.1, begun := begun, participants := s.participants ++ tokens }

def act (digest : Checkpoint V → JsString) (s : FencingSystem V) :
    FencingAction V → FencingSystem V
  | .mutate generation process mutation crash =>
      if s.ended process then s
      else
        match mutation.plan ⟨generation, process, false⟩ s.directory digest with
        | .error _ => if crash.isSome then s.exit process else s
        | .ok plan => s.perform process mutation plan crash
  | .control gate => { s with directory := { s.directory with gate := gate } }
  | .business authority presence =>
      if authority.token ∈ s.participants ∧ !s.ended authority.token.ownerProcessIdentity then
        match withWriterMutation s.directory authority presence with
        | .error _ => s
        | .ok () => { s with writes := s.writes ++ [⟨authority, presence, s.directory, s.begun⟩] }
      else s
  | .exit process => s.exit process

/-- No process has a registry yet. -/
def start : FencingSystem V := ⟨.opened, fun _ => false, [], [], []⟩

def after (digest : Checkpoint V → JsString) (actions : List (FencingAction V)) :
    FencingSystem V :=
  actions.foldl (act digest) start

/-- `proveEnded` is true only for an owner whose process has really ended. -/
def ProvesEnded (s : FencingSystem V) : FencingAction V → Prop
  | .mutate _ _ (.rebaseline _ proveEnded) _ =>
      ∀ owner, proveEnded owner = true → s.ended owner.ownerProcessIdentity = true
  | _ => True

end FencingSystem

/-! ## What is claimed -/

/-- A token that some registry accepts in some states. -/
def Accepted (directory : Directory V) (token : OwnerToken) : Prop :=
  ∃ registry states old, assertOwner registry directory token states = .ok old

/-- The action aborts the handover of an attachment, or gives it to another generation. -/
def FencingAction.resets (attachmentId : JsString) : FencingAction V → Bool
  | .mutate _ _ (.abort token _) _ => token.attachmentId = attachmentId
  | .mutate _ _ (.rebaseline input _) _ => input.attachmentId = attachmentId
  | _ => false

/-- The record of an attachment after some more actions: the epoch has not decreased, and has
grown with a change of generation; the hash is the same without a reset. -/
structure Advances (attachmentId : JsString) (actions : List (FencingAction V))
    (old new : Ownership) : Prop where
  epoch : old.ownershipEpoch ≤ new.ownershipEpoch
  generation : old.ownerGeneration ≠ new.ownerGeneration → old.ownershipEpoch < new.ownershipEpoch
  checkpointHash : (∀ action ∈ actions, action.resets attachmentId = false) →
    ∀ hash, old.checkpointHash = some hash → new.checkpointHash = some hash

/-- A hash that is recorded names a stored checkpoint of the attachment and its epoch. -/
def CheckpointStored (digest : Checkpoint V → JsString) (directory : Directory V) : Prop :=
  ∀ attachmentId owner hash, directory.ownerships.get attachmentId = some owner →
    owner.checkpointHash = some hash →
      ∃ snapshot, directory.checkpoints.get hash = some snapshot ∧ digest snapshot = hash ∧
        snapshot.attachmentId = attachmentId ∧ snapshot.ownershipEpoch = owner.ownershipEpoch

namespace BusinessWrite

variable (write : BusinessWrite V)

/-- The write belongs to a pending operation that its token has begun. -/
def Begun : Prop :=
  ∃ op admitted, write.authority.operation = some op ∧
    write.directory.operations.get op.operationId = some admitted ∧ admitted.state = .pending ∧
    admitted.attachmentId = write.authority.token.attachmentId ∧
    (write.authority.token, op.operationId) ∈ write.begun

/-- The token owns the attachment, which is not closed, and the gate is open, or this is cleanup,
or the write belongs to an operation. -/
def Owned : Prop :=
  ∃ owner, write.directory.ownerships.get write.authority.token.attachmentId = some owner ∧
    owner.OwnedBy write.authority.token ∧ owner.state ≠ .closed ∧
    (write.directory.gate = .open ∨ write.authority.cleanup = true ∨ write.Begun)

/-- The record names the token, and either `assertOwner` accepts it and the gate is open, or this
is cleanup, or the write belongs to an operation, whatever the state of the attachment. -/
def Rightful : Prop :=
  ∃ owner, write.directory.ownerships.get write.authority.token.attachmentId = some owner ∧
    owner.OwnedBy write.authority.token ∧
    ((owner.state ∈ write.authority.states ∧
        (write.directory.gate = .open ∨ write.authority.cleanup = true)) ∨
      (write.presence = false ∧ write.Begun))

end BusinessWrite

/-- What holds after the actions `before`, and `later` on; `rightful` is what is said of business
writes. -/
structure FencingSystem.Fenced (digest : Checkpoint V → JsString)
    (rightful : BusinessWrite V → Prop) (before later : List (FencingAction V)) : Prop where
  unique : ∀ token token', Accepted (after digest before).directory token →
    Accepted (after digest before).directory token' →
      token.attachmentId = token'.attachmentId → token = token'
  stored : CheckpointStored digest (after digest before).directory
  business : ∀ write ∈ (after digest before).writes, rightful write
  advances : ∀ attachmentId old,
    (after digest before).directory.ownerships.get attachmentId = some old →
      ∃ new, (after digest (before ++ later)).directory.ownerships.get attachmentId = some new ∧
        Advances attachmentId later old new

end H2a.Handover
