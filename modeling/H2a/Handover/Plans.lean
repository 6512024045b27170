import H2a.Handover.Ownership
import H2a.Library.Result
/-!
# What a mutation writes

One lemma for each mutation says what it has found when it writes, and what it writes.
-/

namespace H2a.Handover

open H2a.Library

variable {V : Type}

/-- The record is of the owner that a token names. -/
structure Ownership.OwnedBy (value : Ownership) (token : OwnerToken) : Prop where
  generation : token.ownerGeneration = value.ownerGeneration
  epoch : token.ownershipEpoch = value.ownershipEpoch
  processIdentity : token.ownerProcessIdentity = value.ownerProcessIdentity

/-- What `assertOwner` has found. -/
structure Asserted (registry : Registry) (directory : Directory V) (token : OwnerToken)
    (states : List OwnershipState) (old : Ownership) : Prop where
  determinate : registry.indeterminate = false
  found : directory.ownerships.get token.attachmentId = some old
  owned : old.OwnedBy token
  state : old.state ∈ states

theorem asserted_of_ok {registry : Registry} {directory : Directory V} {token : OwnerToken}
    {states : List OwnershipState} {old : Ownership}
    (h : assertOwner registry directory token states = .ok old) :
    Asserted registry directory token states old := by
  unfold assertOwner at h
  obtain ⟨hdeterminate, h⟩ := ok_of_guard h
  split at h
  · cases h
  case h_2 observed hfound =>
      obtain ⟨hguard, h⟩ := ok_of_guard h
      cases h
      simp only [not_or, not_not] at hguard
      exact ⟨by simpa using hdeterminate, hfound, ⟨hguard.1, hguard.2.1, hguard.2.2.1⟩,
        hguard.2.2.2⟩

/-- What `assertOperation` has found. -/
structure Admitted (registry : Registry) (directory : Directory V) (operation old : Operation V) :
    Prop where
  found : directory.operations.get operation.operationId = some old
  pending : old.state = .pending
  attachment : old.attachmentId = operation.attachmentId
  generation : old.ownerGeneration = operation.ownerGeneration
  executionOwner : old.executionOwner = operation.executionOwner
  processIdentity : old.executionOwner = registry.processIdentity

theorem admitted_of_ok {registry : Registry} {directory : Directory V}
    {operation old : Operation V} (h : assertOperation registry directory operation = .ok old) :
    Admitted registry directory operation old := by
  unfold assertOperation at h
  obtain ⟨-, h⟩ := ok_of_guard h
  split at h
  · cases h
  case h_2 observed hfound =>
      obtain ⟨hguard, h⟩ := ok_of_guard h
      cases h
      simp only [not_or, not_not] at hguard
      exact ⟨hfound, hguard.1, hguard.2.1, hguard.2.2.1, hguard.2.2.2.1, hguard.2.2.2.2⟩

/-- A new record of the registry's own, for `claim` and `rebaseline`. -/
structure Registry.Owns (registry : Registry) (input : ClaimInput) (epoch : Nat)
    (value : Ownership) : Prop where
  token : value.token =
    ⟨input.attachmentId, registry.generation, epoch, registry.processIdentity⟩
  state : value.state = .active
  checkpointHash : value.checkpointHash = none

/-- What a mutation has found and what it writes. -/
inductive Planned (registry : Registry) (directory : Directory V)
    (digest : Checkpoint V → JsString) : Mutation V → Plan V → Prop where
  /-- everything is as asked for -/
  | unchanged (mutation answer) (h : ∀ token, answer ≠ .token token)
      (hbegin : ∀ parent token operationId kind, mutation ≠ .begin parent token operationId kind) :
      Planned registry directory digest mutation ⟨[], answer⟩
  | claimed (input value) (hnew : directory.ownerships.get input.attachmentId = none)
      (hvalue : registry.Owns input 1 value) :
      Planned registry directory digest (.claim input)
        ⟨[.publishOwnership value, .bump], .token value.token⟩
  | rebaselined (input proveEnded old value)
      (hold : directory.ownerships.get input.attachmentId = some old)
      (hgeneration : old.ownerGeneration ≠ registry.generation) (hended : proveEnded old = true)
      (hvalue : registry.Owns input (old.ownershipEpoch + 1) value) :
      Planned registry directory digest (.rebaseline input proveEnded)
        ⟨[.replaceOwnership input.attachmentId old value, .bump], .token value.token⟩
  /-- the owner changes its record, and keeps the hash of its checkpoint or aborts -/
  | amended (mutation token states old value answer)
      (hold : Asserted registry directory token states old) (htoken : value.token = old.token)
      (hhash : value.checkpointHash = old.checkpointHash ∨
        value.checkpointHash = none ∧ ∃ handoverId, mutation = .abort token handoverId)
      (h : ∀ token, answer ≠ .token token)
      (hbegin : ∀ parent token operationId kind, mutation ≠ .begin parent token operationId kind) :
      Planned registry directory digest mutation
        ⟨[.replaceOwnership token.attachmentId old value, .bump], answer⟩
  | checkpointed (token snapshot old answer)
      (hold : Asserted registry directory token [.frozen] old)
      (hattachment : snapshot.attachmentId = token.attachmentId)
      (hepoch : snapshot.ownershipEpoch = token.ownershipEpoch)
      (hhash : ∀ hash, old.checkpointHash = some hash → hash = digest snapshot)
      (h : ∀ token, answer ≠ .token token) :
      Planned registry directory digest (.checkpoint token snapshot)
        ⟨(if (directory.checkpoints.get (digest snapshot)).isNone then
            [FileWrite.publishCheckpoint (digest snapshot) snapshot] else []) ++
          (if old.checkpointHash.isNone then
            [FileWrite.replaceOwnership token.attachmentId old
              { old with checkpointHash := some (digest snapshot) }, .bump] else []), answer⟩
  | begun (parent token operationId kind old value)
      (hold : Asserted registry directory token [.active] old)
      (hgate : directory.gate = .open ∨ ∃ parent' admitted, parent = some parent' ∧
        Admitted registry directory parent' admitted)
      (hnew : directory.operations.get operationId = none)
      (hvalue : value = ⟨1, operationId, token.attachmentId, token.ownerGeneration,
        token.ownerProcessIdentity, kind, .pending, none⟩) :
      Planned registry directory digest (.begin parent token operationId kind)
        ⟨[.publishOperation value, .bump], .operation value⟩
  | finished (operation result unknown old next published)
      (hold : directory.operations.get operation.operationId = some old)
      (hpublished : published = [] ∨
        published = [.publishEffect ⟨operation.operationId, operation.attachmentId, result⟩])
      (hnext : next.state ≠ .pending) (hattachment : next.attachmentId = old.attachmentId)
      (hgeneration : next.ownerGeneration = old.ownerGeneration)
      (howner : next.executionOwner = old.executionOwner) :
      Planned registry directory digest (.finish operation result unknown)
        ⟨published ++ [FileWrite.replaceOperation operation.operationId old next, .bump],
          .operation next⟩
  | published (operation result event) :
      Planned registry directory digest (.publishEffect operation result)
        ⟨[.publishEffect event, .bump], .published event⟩

section Functions

variable {registry : Registry} {directory : Directory V} {digest : Checkpoint V → JsString}
  {plan : Plan V}

theorem claim_planned {input : ClaimInput} (h : claim registry directory input = .ok plan) :
    Planned registry directory digest (.claim input) plan := by
  unfold claim at h
  obtain ⟨hnew, h⟩ := ok_of_guard h
  cases h
  refine .claimed input _ ?_ ⟨rfl, rfl, rfl⟩
  rwa [Bool.not_eq_true, JsMap.has_eq_false_iff] at hnew

theorem rebaseline_planned {input : ClaimInput} {proveEnded : Ownership → Bool}
    (h : rebaseline registry directory input proveEnded = .ok plan) :
    Planned registry directory digest (.rebaseline input proveEnded) plan := by
  unfold rebaseline at h
  split at h
  · cases h
  case h_2 old hold =>
      obtain ⟨hguard, h⟩ := ok_of_guard h
      cases h
      simp only [not_or, Bool.not_eq_false] at hguard
      exact .rebaselined input proveEnded old _ hold hguard.1 hguard.2 ⟨rfl, rfl, rfl⟩

theorem updateIdentity_planned {token : OwnerToken} {session instance' : JsString}
    (h : updateIdentity registry directory token session instance' = .ok plan) :
    Planned registry directory digest (.updateIdentity token session instance') plan := by
  unfold updateIdentity at h
  obtain ⟨old, hold, h⟩ := bind_eq_ok_iff.mp h
  split at h
  · cases h
    exact .unchanged _ _ (by simp) (by simp)
  · cases h
    exact .amended _ token _ old _ _ (asserted_of_ok hold) rfl (.inl rfl) (by simp)
      (by simp)

theorem releasePresence_planned {token : OwnerToken} {sessionId : JsString}
    (h : releasePresence registry directory token sessionId = .ok plan) :
    Planned registry directory digest (.releasePresence token sessionId) plan := by
  unfold releasePresence at h
  obtain ⟨old, hold, h⟩ := bind_eq_ok_iff.mp h
  obtain ⟨-, h⟩ := ok_of_guard h
  cases h
  exact .amended _ token _ old _ _ (asserted_of_ok hold) rfl (.inl rfl) (by simp)
    (by simp)

theorem freeze_planned {token : OwnerToken} {handoverId : JsString}
    (h : freeze registry directory token handoverId = .ok plan) :
    Planned registry directory digest (.freeze token handoverId) plan := by
  unfold freeze at h
  obtain ⟨old, hold, h⟩ := bind_eq_ok_iff.mp h
  split at h
  · obtain ⟨-, h⟩ := ok_of_guard h
    cases h
    exact .unchanged _ _ (by simp) (by simp)
  · cases h
    exact .amended _ token _ old _ _ (asserted_of_ok hold) rfl (.inl rfl) (by simp)
      (by simp)

theorem checkpoint_planned {token : OwnerToken} {snapshot : Checkpoint V}
    (h : checkpoint registry directory digest token snapshot = .ok plan) :
    Planned registry directory digest (.checkpoint token snapshot) plan := by
  unfold checkpoint at h
  obtain ⟨old, hold, h⟩ := bind_eq_ok_iff.mp h
  obtain ⟨-, h⟩ := ok_of_guard h
  obtain ⟨hbinding, h⟩ := ok_of_guard h
  obtain ⟨hconflict, h⟩ := ok_of_guard h
  obtain ⟨-, h⟩ := ok_of_guard h
  cases h
  simp only [not_or, not_not] at hbinding
  refine .checkpointed token snapshot old _ (asserted_of_ok hold) hbinding.1 hbinding.2.1 ?_
    (by simp)
  intro hash hhash
  simpa [hhash] using hconflict

theorem abort_planned {token : OwnerToken} {handoverId : JsString}
    (h : abort registry directory token handoverId = .ok plan) :
    Planned registry directory digest (.abort token handoverId) plan := by
  unfold abort at h
  obtain ⟨old, hold, h⟩ := bind_eq_ok_iff.mp h
  obtain ⟨-, h⟩ := ok_of_guard h
  cases h
  exact .amended _ token _ old _ _ (asserted_of_ok hold) rfl (.inr ⟨rfl, handoverId, rfl⟩)
    (by simp) (by simp)

theorem close_planned {token : OwnerToken} (h : close registry directory token = .ok plan) :
    Planned registry directory digest (.close token) plan := by
  unfold close at h
  obtain ⟨old, hold, h⟩ := bind_eq_ok_iff.mp h
  cases h
  exact .amended _ token _ old _ _ (asserted_of_ok hold) rfl (.inl rfl) (by simp)
    (by simp)

theorem fence_planned {token : OwnerToken} {handoverId checkpointHash : JsString}
    (h : fence registry directory digest token handoverId checkpointHash = .ok plan) :
    Planned registry directory digest (.fence token handoverId checkpointHash) plan := by
  unfold fence at h
  obtain ⟨old, hold, h⟩ := bind_eq_ok_iff.mp h
  obtain ⟨-, h⟩ := ok_of_guard h
  obtain ⟨-, -, h⟩ := bind_eq_ok_iff.mp h
  split at h
  · cases h
    exact .unchanged _ _ (by simp) (by simp)
  · cases h
    exact .amended _ token _ old _ _ (asserted_of_ok hold) rfl (.inl rfl) (by simp)
      (by simp)

theorem begin_planned {parent : Option (Operation V)} {token : OwnerToken}
    {operationId : JsString} {kind : OperationKind}
    (h : begin registry directory parent token operationId kind = .ok plan) :
    Planned registry directory digest (.begin parent token operationId kind) plan := by
  unfold begin at h
  obtain ⟨old, hold, h⟩ := bind_eq_ok_iff.mp h
  have hgate : (directory.gate = .open ∨ ∃ parent' admitted, parent = some parent' ∧
        Admitted registry directory parent' admitted) ∧
      (if directory.operations.has operationId then .error "operation_exists"
        else
          let value : Operation V := ⟨1, operationId, token.attachmentId, token.ownerGeneration,
            token.ownerProcessIdentity, kind, .pending, none⟩
          .ok ⟨[.publishOperation value, .bump], .operation value⟩) = Except.ok plan := by
    by_cases hopen : directory.gate = .open
    · simp only [hopen, ne_eq, not_true_eq_false, if_false] at h
      exact ⟨.inl hopen, h⟩
    · simp only [ne_eq, hopen, not_false_eq_true, if_true] at h
      cases parent with
      | none => cases h
      | some parent' =>
          obtain ⟨admitted, hadmitted, h⟩ := bind_eq_ok_iff.mp h
          exact ⟨.inr ⟨parent', admitted, rfl, admitted_of_ok hadmitted⟩, h⟩
  obtain ⟨hnew, h⟩ := ok_of_guard hgate.2
  cases h
  rw [Bool.not_eq_true, JsMap.has_eq_false_iff] at hnew
  exact .begun parent token operationId kind old _ (asserted_of_ok hold) hgate.1 hnew rfl

variable [DecidableEq V]

theorem finish_planned {operation : Operation V} {result : V} {unknown : Bool}
    (h : finish directory operation result unknown = .ok plan) :
    Planned registry directory digest (.finish operation result unknown) plan := by
  unfold finish at h
  split at h
  · cases h
  case h_2 old hold =>
      obtain ⟨-, h⟩ := ok_of_guard h
      split at h
      · obtain ⟨-, h⟩ := ok_of_guard h
        cases h
        exact .unchanged _ _ (by simp) (by simp)
      · obtain ⟨-, h⟩ := ok_of_guard h
        cases h
        refine .finished operation result unknown old _ _ hold ?_ ?_ rfl rfl rfl
        · split
          · exact .inr rfl
          · exact .inl rfl
        · cases unknown <;> simp

theorem publishEffect_planned {operation : Operation V} {result : V}
    (h : publishEffect directory operation result = .ok plan) :
    Planned registry directory digest (.publishEffect operation result) plan := by
  unfold publishEffect at h
  split at h
  · cases h
  case h_2 saved hsaved =>
      obtain ⟨-, h⟩ := ok_of_guard h
      split at h
      · cases h
        exact .published operation result _
      · cases h
        exact .unchanged _ _ (by simp) (by simp)

/-- What any mutation has found when it writes. -/
theorem Mutation.planned {mutation : Mutation V}
    (h : mutation.plan registry directory digest = .ok plan) :
    Planned registry directory digest mutation plan := by
  unfold Mutation.plan at h
  replace h := (ok_of_guard h).2
  cases mutation with
  | claim => exact claim_planned h
  | rebaseline => exact rebaseline_planned h
  | updateIdentity => exact updateIdentity_planned h
  | releasePresence => exact releasePresence_planned h
  | freeze => exact freeze_planned h
  | checkpoint => exact checkpoint_planned h
  | abort => exact abort_planned h
  | close => exact close_planned h
  | fence => exact fence_planned h
  | begin => exact begin_planned h
  | finish => exact finish_planned h
  | publishEffect => exact publishEffect_planned h

end Functions

end H2a.Handover
