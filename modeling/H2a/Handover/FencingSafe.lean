import H2a.Handover.Fencing
/-!
# The fence holds

Whatever the order of the mutations and the crashes between their writes, a record goes from one
owner to another only when the process of the old one has ended, and a checkpoint is stored before
its hash is recorded.
-/

namespace H2a.Handover

open H2a.Library

variable {V : Type} [DecidableEq V]

/-! ## Some of the writes -/

/-- The directory after some of the writes, from the first on. -/
inductive Published : Directory V → List (FileWrite V) → Directory V → Prop where
  | stop (directory writes) : Published directory writes directory
  | next {directory write writes directory'} (h : write.matchesCurrent directory = true)
      (rest : Published (write.publish directory) writes directory') :
      Published directory (write :: writes) directory'

theorem published_perform (writes : List (FileWrite V)) (faults : List Faults)
    (directory : Directory V) :
    Published directory writes (performWrites directory faults writes).1 := by
  induction writes generalizing faults directory with
  | nil => exact .stop _ _
  | cons write writes ih =>
      cases herror : write.error (faults.headD .none) directory with
      | none =>
          rw [performWrites_of_none herror]
          have hpublishes := FileWrite.publishes_of_error herror
          exact .next (FileWrite.matchesCurrent_of_publishes hpublishes) (ih _ _)
      | some error =>
          rw [performWrites_of_error herror]
          split
          case isTrue hpublishes =>
              exact .next (FileWrite.matchesCurrent_of_publishes hpublishes) (.stop _ _)
          case isFalse => exact .stop _ _

theorem Published.of_take {directory directory' : Directory V} {writes : List (FileWrite V)}
    {count : Nat} (h : Published directory (writes.take count) directory') :
    Published directory writes directory' := by
  induction writes generalizing directory count with
  | nil => rwa [List.take_nil] at h
  | cons write writes ih =>
      cases count with
      | zero =>
          cases h
          exact .stop _ _
      | succ count =>
          rw [List.take_succ_cons] at h
          cases h with
          | stop => exact .stop _ _
          | next hmatches rest => exact .next hmatches (ih rest)

/-- Without an error everything is published. -/
theorem perform_of_none {writes : List (FileWrite V)} {faults : List Faults}
    {directory : Directory V} (h : (performWrites directory faults writes).2 = none) :
    (performWrites directory faults writes).1 =
      writes.foldl (fun directory write => write.publish directory) directory := by
  induction writes generalizing faults directory with
  | nil => rfl
  | cons write writes ih =>
      cases herror : write.error (faults.headD .none) directory with
      | some error =>
          rw [performWrites_of_error herror] at h
          cases h
      | none =>
          rw [performWrites_of_none herror] at h ⊢
          exact ih h

/-- What no write changes stays. -/
theorem Published.keeps {α : Type} {f : Directory V → α} {directory directory' : Directory V}
    {writes : List (FileWrite V)} (h : Published directory writes directory')
    (hkeep : ∀ write ∈ writes, ∀ directory, f (write.publish directory) = f directory) :
    f directory' = f directory := by
  induction h with
  | stop => rfl
  | next _ _ ih =>
      rw [ih fun write hwrite => hkeep write (List.mem_cons_of_mem _ hwrite)]
      exact hkeep _ List.mem_cons_self _

/-- One record and the revision. -/
theorem Published.one {directory directory' : Directory V} {write : FileWrite V}
    (h : Published directory [write, .bump] directory') :
    directory' = directory ∨ ∃ revision,
      directory' = { write.publish directory with revision := revision } := by
  cases h with
  | stop => exact .inl rfl
  | next _ rest =>
      cases rest with
      | stop => exact .inr ⟨_, rfl⟩
      | next _ rest =>
          cases rest
          exact .inr ⟨_, rfl⟩

/-! ## What a mutation does to a record -/

/-- The record of an attachment before and after a mutation. -/
inductive OwnerStep (digest : Checkpoint V → JsString) (mutation : Mutation V)
    (attachmentId : JsString) (directory' : Directory V) :
    Option Ownership → Option Ownership → Prop where
  | same (owner) : OwnerStep digest mutation attachmentId directory' owner owner
  | claimed (new : Ownership) (hhash : new.checkpointHash = none) :
      OwnerStep digest mutation attachmentId directory' none (some new)
  | kept (old new : Ownership) (htoken : new.token = old.token)
      (hhash : new.checkpointHash = old.checkpointHash) :
      OwnerStep digest mutation attachmentId directory' (some old) (some new)
  | aborted (old new : Ownership) (htoken : new.token = old.token)
      (hhash : new.checkpointHash = none) (token handoverId)
      (hmutation : mutation = .abort token handoverId)
      (hattachment : token.attachmentId = attachmentId) :
      OwnerStep digest mutation attachmentId directory' (some old) (some new)
  | recorded (old new : Ownership) (htoken : new.token = old.token) (snapshot : Checkpoint V)
      (hnone : old.checkpointHash = none) (hhash : new.checkpointHash = some (digest snapshot))
      (hattachment : snapshot.attachmentId = attachmentId)
      (hepoch : snapshot.ownershipEpoch = old.ownershipEpoch)
      (hstored : ∃ stored, directory'.checkpoints.get (digest snapshot) = some stored) :
      OwnerStep digest mutation attachmentId directory' (some old) (some new)
  | rebaselined (old new : Ownership) (input proveEnded)
      (hmutation : mutation = .rebaseline input proveEnded) (hended : proveEnded old = true)
      (hattachment : input.attachmentId = attachmentId)
      (hepoch : new.ownershipEpoch = old.ownershipEpoch + 1)
      (hhash : new.checkpointHash = none) :
      OwnerStep digest mutation attachmentId directory' (some old) (some new)

section Planned

variable {registry : Registry} {directory directory' : Directory V}
  {digest : Checkpoint V → JsString} {mutation : Mutation V} {plan : Plan V}

/-- A record that is replaced, with the revision, if it comes to that. -/
theorem ownerStep_of_replace {path attachmentId : JsString} {old value : Ownership}
    (h : Published directory [.replaceOwnership path old value, .bump] directory')
    (hold : directory.ownerships.get path = some old)
    (hstep : path = attachmentId → directory'.checkpoints = directory.checkpoints →
      OwnerStep digest mutation attachmentId directory' (some old) (some value)) :
    OwnerStep digest mutation attachmentId directory' (directory.ownerships.get attachmentId)
      (directory'.ownerships.get attachmentId) := by
  rcases h.one with rfl | ⟨revision, rfl⟩
  · exact .same _
  · simp only [FileWrite.publish, JsMap.get_set]
    split
    case isTrue heq =>
        subst heq
        rw [hold]
        exact hstep rfl rfl
    case isFalse => exact .same _

theorem Planned.ownerStep (h : Planned registry directory digest mutation plan)
    (hpublished : Published directory plan.writes directory') (attachmentId : JsString) :
    OwnerStep digest mutation attachmentId directory' (directory.ownerships.get attachmentId)
      (directory'.ownerships.get attachmentId) := by
  cases h with
  | unchanged =>
      cases hpublished
      exact .same _
  | claimed input value hnew hvalue =>
      have hattachment : value.attachmentId = input.attachmentId :=
        congrArg OwnerToken.attachmentId hvalue.token
      rcases hpublished.one with rfl | ⟨revision, rfl⟩
      · exact .same _
      · simp only [FileWrite.publish, JsMap.get_set]
        split
        case isTrue heq =>
            rw [heq, hattachment, hnew]
            exact .claimed value hvalue.checkpointHash
        case isFalse => exact .same _
  | rebaselined input proveEnded old value hold _ hended hvalue =>
      apply ownerStep_of_replace hpublished hold
      intro hattachment _
      exact .rebaselined old value input proveEnded rfl hended hattachment
        (congrArg OwnerToken.ownershipEpoch hvalue.token) hvalue.checkpointHash
  | amended _ token states old value answer hold htoken hhash =>
      apply ownerStep_of_replace hpublished hold.found
      intro hattachment _
      rcases hhash with hhash | ⟨hhash, handoverId, hmutation⟩
      · exact .kept old value htoken hhash
      · exact .aborted old value htoken hhash token handoverId hmutation hattachment
  | checkpointed token snapshot old answer hold hattachment hepoch =>
      have hrecord : ∀ {mid : Directory V},
          Published mid (if old.checkpointHash.isNone then
            [.replaceOwnership token.attachmentId old
              { old with checkpointHash := some (digest snapshot) }, .bump] else []) directory' →
          mid.ownerships = directory.ownerships →
          (∃ stored, mid.checkpoints.get (digest snapshot) = some stored) →
          OwnerStep digest (.checkpoint token snapshot) attachmentId directory'
            (directory.ownerships.get attachmentId) (directory'.ownerships.get attachmentId) := by
        intro mid hrest hmid hstored
        rw [← hmid]
        split at hrest
        case isTrue hnone =>
            apply ownerStep_of_replace hrest (hmid ▸ hold.found)
            intro hpath hcheckpoints
            exact .recorded old _ rfl snapshot (Option.isNone_iff_eq_none.mp hnone) rfl
              (hattachment.trans hpath) (hepoch.trans hold.owned.epoch)
              (hcheckpoints ▸ hstored)
        case isFalse =>
            cases hrest
            exact .same _
      split at hpublished
      case isTrue =>
          cases hpublished with
          | stop => exact .same _
          | next _ rest =>
              exact hrecord rest rfl ⟨snapshot, JsMap.get_set_self _ _ _⟩
      case isFalse hsome =>
          rw [Option.isNone_iff_eq_none, ← ne_eq, Option.ne_none_iff_exists'] at hsome
          exact hrecord hpublished rfl hsome
  | begun =>
      have hkeep := hpublished.keeps (f := Directory.ownerships) (by simp [FileWrite.publish])
      rw [hkeep]
      exact .same _
  | finished operation result unknown old next published _ hpublishes =>
      have hkeep := hpublished.keeps (f := Directory.ownerships) (by
        rcases hpublishes with rfl | rfl <;> simp [FileWrite.publish])
      rw [hkeep]
      exact .same _
  | published =>
      have hkeep := hpublished.keeps (f := Directory.ownerships) (by simp [FileWrite.publish])
      rw [hkeep]
      exact .same _

/-- A checkpoint is stored at its digest. -/
def Named (digest : Checkpoint V → JsString) (directory : Directory V) : Prop :=
  ∀ hash snapshot, directory.checkpoints.get hash = some snapshot → digest snapshot = hash

omit [DecidableEq V] in
theorem Planned.stores (h : Planned registry directory digest mutation plan) {hash : JsString}
    {snapshot : Checkpoint V} (hwrite : .publishCheckpoint hash snapshot ∈ plan.writes) :
    digest snapshot = hash := by
  cases h with
  | checkpointed token snapshot' old =>
      rcases List.mem_append.mp hwrite with hwrite | hwrite
      · split at hwrite
        · rw [List.mem_singleton, FileWrite.publishCheckpoint.injEq] at hwrite
          rw [hwrite.1, hwrite.2]
        · cases hwrite
      · split at hwrite
        · simp at hwrite
        · cases hwrite
  | finished operation result unknown old next published _ hpublishes =>
      rcases hpublishes with rfl | rfl <;> simp at hwrite
  | _ => simp at hwrite

theorem Published.named {writes : List (FileWrite V)}
    (h : Published directory writes directory')
    (hwrites : ∀ hash snapshot, .publishCheckpoint hash snapshot ∈ writes →
      digest snapshot = hash) (hnamed : Named digest directory) : Named digest directory' := by
  induction h with
  | stop => exact hnamed
  | @next directory write writes directory' _ _ ih =>
      apply ih fun hash snapshot hmem => hwrites hash snapshot (List.mem_cons_of_mem _ hmem)
      cases write with
      | publishCheckpoint hash snapshot =>
          intro hash' snapshot' hget
          simp only [FileWrite.publish, JsMap.get_set] at hget
          split at hget
          case isTrue heq =>
              cases hget
              rw [heq]
              exact hwrites hash snapshot List.mem_cons_self
          case isFalse => exact hnamed hash' snapshot' hget
      | _ => exact hnamed

theorem Published.checkpoints {writes : List (FileWrite V)}
    (h : Published directory writes directory') {hash : JsString} {snapshot : Checkpoint V}
    (hget : directory.checkpoints.get hash = some snapshot) :
    directory'.checkpoints.get hash = some snapshot := by
  induction h with
  | stop => exact hget
  | @next directory write writes directory' hmatches _ ih =>
      apply ih
      cases write with
      | publishCheckpoint hash' snapshot' =>
          have hne : hash ≠ hash' := by
            intro heq
            simp [FileWrite.matchesCurrent, JsMap.has, ← heq, hget] at hmatches
          rw [FileWrite.publish, JsMap.get_set_of_ne _ _ hne]
          exact hget
      | _ => exact hget

theorem Planned.checkpointStored (hdigest : Function.Injective digest)
    (h : Planned registry directory digest mutation plan)
    (hpublished : Published directory plan.writes directory') (hnamed : Named digest directory)
    (hstored : CheckpointStored digest directory) : CheckpointStored digest directory' := by
  intro attachmentId owner hash howner hhash
  have hkept : ∀ old, directory.ownerships.get attachmentId = some old →
      old.checkpointHash = some hash → owner.ownershipEpoch = old.ownershipEpoch →
        ∃ snapshot, directory'.checkpoints.get hash = some snapshot ∧ digest snapshot = hash ∧
          snapshot.attachmentId = attachmentId ∧
          snapshot.ownershipEpoch = owner.ownershipEpoch := by
    intro old hold holdHash hepoch
    obtain ⟨snapshot, hget, hdig, hattachment, hsnapshot⟩ :=
      hstored attachmentId old hash hold holdHash
    exact ⟨snapshot, hpublished.checkpoints hget, hdig, hattachment, hsnapshot.trans hepoch.symm⟩
  have hstep := h.ownerStep hpublished attachmentId
  rw [howner] at hstep
  generalize hold : directory.ownerships.get attachmentId = before at hstep
  cases hstep with
  | same => exact hkept owner hold hhash rfl
  | claimed _ hnone => simp [hnone] at hhash
  | kept old _ htoken hsame =>
      exact hkept old hold (hsame.symm.trans hhash) (congrArg OwnerToken.ownershipEpoch htoken)
  | aborted _ _ _ hnone => simp [hnone] at hhash
  | recorded old _ htoken snapshot _ hrecorded hattachment hepoch hexists =>
      obtain ⟨stored, hget⟩ := hexists
      have hsame : stored = snapshot :=
        hdigest (hpublished.named (fun _ _ => h.stores) hnamed _ _ hget)
      rw [hrecorded, Option.some.injEq] at hhash
      subst hhash
      subst hsame
      have howner' := congrArg OwnerToken.ownershipEpoch htoken
      exact ⟨stored, hget, rfl, hattachment, hepoch.trans howner'.symm⟩
  | rebaselined _ _ _ _ _ _ _ _ hnone => simp [hnone] at hhash

theorem Planned.pending (h : Planned registry directory digest mutation plan)
    (hpublished : Published directory plan.writes directory') {operationId : JsString}
    {op : Operation V} (hop : directory'.operations.get operationId = some op)
    (hpending : op.state = .pending) :
    directory.operations.get operationId = some op ∨
      ∃ token, (token, operationId) ∈ mutation.begins ∧
        token.attachmentId = op.attachmentId ∧ token.ownerProcessIdentity = op.executionOwner := by
  cases h with
  | begun parent token operationId' kind old value hold hgate hnew hvalue =>
      rcases hpublished.one with rfl | ⟨revision, rfl⟩
      · exact .inl hop
      · simp only [FileWrite.publish, hvalue, JsMap.get_set] at hop
        split at hop
        case isTrue heq =>
            cases hop
            exact .inr ⟨token, by simp [Mutation.begins, heq], rfl, rfl⟩
        case isFalse => exact .inl hop
  | finished operation result unknown old next published hold hpublishes hnext =>
      have hreplace : ∀ {mid : Directory V},
          Published mid [.replaceOperation operation.operationId old next, .bump] directory' →
          mid.operations = directory.operations →
          directory.operations.get operationId = some op := by
        intro mid hrest hmid
        rw [← hmid]
        rcases hrest.one with rfl | ⟨revision, rfl⟩
        · exact hop
        · simp only [FileWrite.publish, JsMap.get_set] at hop
          split at hop
          case isTrue =>
              cases hop
              exact absurd hpending hnext
          case isFalse => exact hop
      left
      rcases hpublishes with rfl | rfl
      · exact hreplace hpublished rfl
      · cases hpublished with
        | stop => exact hop
        | next _ rest => exact hreplace rest rfl
  | checkpointed token snapshot old =>
      have hkeep := hpublished.keeps (f := Directory.operations) (by
        intro write hwrite directory
        rcases List.mem_append.mp hwrite with hwrite | hwrite
        · split at hwrite
          · rw [List.mem_singleton.mp hwrite]
            rfl
          · cases hwrite
        · split at hwrite
          · simp only [List.mem_cons, List.not_mem_nil, or_false] at hwrite
            rcases hwrite with rfl | rfl <;> rfl
          · cases hwrite)
      exact .inl (hkeep ▸ hop)
  | _ =>
      have hkeep := hpublished.keeps (f := Directory.operations) (by simp [FileWrite.publish])
      exact .inl (hkeep ▸ hop)

end Planned

/-! ## Tokens -/

/-- The record of its attachment names the token, or its process has ended. -/
def Holds (directory : Directory V) (ended : ProcessIdentity → Bool) (token : OwnerToken) : Prop :=
  ended token.ownerProcessIdentity = true ∨
    ∃ owner, directory.ownerships.get token.attachmentId = some owner ∧ owner.OwnedBy token

theorem Ownership.OwnedBy.of_token {old new : Ownership} {token : OwnerToken}
    (h : old.OwnedBy token) (htoken : new.token = old.token) : new.OwnedBy token where
  generation := h.generation.trans (congrArg OwnerToken.ownerGeneration htoken).symm
  epoch := h.epoch.trans (congrArg OwnerToken.ownershipEpoch htoken).symm
  processIdentity :=
    h.processIdentity.trans (congrArg OwnerToken.ownerProcessIdentity htoken).symm

/-- A record names one token. -/
theorem Ownership.OwnedBy.unique {owner : Ownership} {token token' : OwnerToken}
    (h : owner.OwnedBy token) (h' : owner.OwnedBy token')
    (hattachment : token.attachmentId = token'.attachmentId) : token = token' := by
  cases token
  cases token'
  simp only [OwnerToken.mk.injEq]
  exact ⟨hattachment, h.generation.trans h'.generation.symm, h.epoch.trans h'.epoch.symm,
    h.processIdentity.trans h'.processIdentity.symm⟩

section Tokens

variable {directory directory' : Directory V} {ended ended' : ProcessIdentity → Bool}
  {token : OwnerToken}

omit [DecidableEq V] in
theorem Holds.mono (h : Holds directory ended token)
    (hended : ∀ process, ended process = true → ended' process = true) :
    Holds directory ended' token := by
  rcases h with h | h
  · exact .inl (hended _ h)
  · exact .inr h

omit [DecidableEq V] in
/-- A mutation takes a record from its owner only when the process of the owner has ended. -/
theorem Holds.ownerStep {digest : Checkpoint V → JsString} {mutation : Mutation V}
    (h : Holds directory ended token)
    (hstep : OwnerStep digest mutation token.attachmentId directory'
      (directory.ownerships.get token.attachmentId)
      (directory'.ownerships.get token.attachmentId))
    (hproves : ∀ input proveEnded, mutation = .rebaseline input proveEnded →
      ∀ owner, proveEnded owner = true → ended owner.ownerProcessIdentity = true) :
    Holds directory' ended token := by
  rcases h with h | ⟨owner, howner, howned⟩
  · exact .inl h
  · rw [howner] at hstep
    generalize hnew : directory'.ownerships.get token.attachmentId = after at hstep
    cases hstep with
    | same => exact .inr ⟨owner, hnew, howned⟩
    | kept _ new htoken => exact .inr ⟨new, hnew, howned.of_token htoken⟩
    | aborted _ new htoken => exact .inr ⟨new, hnew, howned.of_token htoken⟩
    | recorded _ new htoken => exact .inr ⟨new, hnew, howned.of_token htoken⟩
    | rebaselined _ _ input proveEnded hmutation hended =>
        left
        rw [howned.processIdentity]
        exact hproves input proveEnded hmutation owner hended

/-- The token that a mutation returns is the one of the record. -/
theorem Planned.holds {registry : Registry} {digest : Checkpoint V → JsString}
    {mutation : Mutation V} {plan : Plan V} (h : Planned registry directory digest mutation plan)
    (htoken : token ∈ plan.answer.tokens) :
    Holds (plan.writes.foldl (fun directory write => write.publish directory) directory) ended
      token := by
  have hnone : ∀ {answer : Answer V}, (∀ token, answer ≠ .token token) →
      token ∉ answer.tokens := by
    intro answer hanswer
    cases answer with
    | token issued => exact absurd rfl (hanswer issued)
    | _ => simp [Answer.tokens]
  cases h with
  | unchanged _ _ hanswer => exact absurd htoken (hnone hanswer)
  | claimed input value _ hvalue =>
      obtain rfl := List.mem_singleton.mp htoken
      exact .inr ⟨value, by simp [FileWrite.publish, Ownership.token], ⟨rfl, rfl, rfl⟩⟩
  | rebaselined input proveEnded old value _ _ _ hvalue =>
      obtain rfl := List.mem_singleton.mp htoken
      have hattachment : value.attachmentId = input.attachmentId :=
        congrArg OwnerToken.attachmentId hvalue.token
      exact .inr ⟨value, by simp [FileWrite.publish, Ownership.token, hattachment],
        ⟨rfl, rfl, rfl⟩⟩
  | amended _ _ _ _ _ _ _ _ _ hanswer => exact absurd htoken (hnone hanswer)
  | checkpointed _ _ _ _ _ _ _ _ hanswer => exact absurd htoken (hnone hanswer)
  | begun => simp [Answer.tokens] at htoken
  | finished => simp [Answer.tokens] at htoken
  | published => simp [Answer.tokens] at htoken

omit [DecidableEq V] in
/-- A call of `begin` that is admitted has a token that the record names. -/
theorem Planned.begins {registry : Registry} {digest : Checkpoint V → JsString}
    {mutation : Mutation V} {plan : Plan V} (h : Planned registry directory digest mutation plan)
    {entry : OwnerToken × JsString} (hentry : entry ∈ mutation.begins) :
    Holds directory ended entry.1 := by
  have hnone : (∀ parent token operationId kind,
      mutation ≠ .begin parent token operationId kind) → entry ∉ mutation.begins := by
    intro hbegin
    cases mutation with
    | begin parent token operationId kind =>
        exact absurd rfl (hbegin parent token operationId kind)
    | _ => simp [Mutation.begins]
  cases h with
  | unchanged _ _ _ hbegin => exact absurd hentry (hnone hbegin)
  | amended _ _ _ _ _ _ _ _ _ _ hbegin => exact absurd hentry (hnone hbegin)
  | begun parent token operationId kind old value hold =>
      obtain rfl := List.mem_singleton.mp hentry
      exact .inr ⟨old, hold.found, hold.owned⟩
  | _ => simp [Mutation.begins] at hentry

end Tokens

/-! ## Runs -/

omit [DecidableEq V] in
theorem Advances.refl (attachmentId : JsString) (owner : Ownership)
    (actions : List (FencingAction V)) : Advances attachmentId actions owner owner where
  epoch := le_refl _
  generation h := absurd rfl h
  checkpointHash _ _ h := h

omit [DecidableEq V] in
theorem Advances.trans {attachmentId : JsString} {action : FencingAction V}
    {actions : List (FencingAction V)} {old mid new : Ownership}
    (h : Advances attachmentId [action] old mid) (h' : Advances attachmentId actions mid new) :
    Advances attachmentId (action :: actions) old new where
  epoch := le_trans h.epoch h'.epoch
  generation hne := by
    by_cases hmid : old.ownerGeneration = mid.ownerGeneration
    · exact lt_of_le_of_lt h.epoch (h'.generation (hmid ▸ hne))
    · exact lt_of_lt_of_le (h.generation hmid) h'.epoch
  checkpointHash hresets hash hhash := by
    apply h'.checkpointHash fun a ha => hresets a (List.mem_cons_of_mem _ ha)
    apply h.checkpointHash _ hash hhash
    intro a ha
    rw [List.mem_singleton.mp ha]
    exact hresets action List.mem_cons_self

namespace FencingSystem

/-- What holds in every state. -/
structure Inv (digest : Checkpoint V → JsString) (s : FencingSystem V) : Prop where
  named : Named digest s.directory
  stored : CheckpointStored digest s.directory
  participants : ∀ token ∈ s.participants, Holds s.directory s.ended token
  begun : ∀ entry ∈ s.begun, Holds s.directory s.ended entry.1
  pending : ∀ operationId op, s.directory.operations.get operationId = some op →
    op.state = .pending → ∃ token, (token, operationId) ∈ s.begun ∧
      token.attachmentId = op.attachmentId ∧ token.ownerProcessIdentity = op.executionOwner
  business : ∀ write ∈ s.writes, write.Rightful

omit [DecidableEq V] in
theorem inv_start (digest : Checkpoint V → JsString) : Inv digest (start : FencingSystem V) where
  named _ _ hget := by cases hget
  stored _ _ _ hget := by cases hget
  participants _ h := by cases h
  begun _ h := by cases h
  pending _ _ hget := by cases hget
  business _ h := by cases h

variable {digest : Checkpoint V → JsString} {s : FencingSystem V}

omit [DecidableEq V] in
theorem ended_exit (process other : ProcessIdentity) (h : s.ended other = true) :
    (s.exit process).ended other = true := by
  by_cases heq : other = process
  · simp [FencingSystem.exit, heq]
  · simpa [FencingSystem.exit, Function.update_of_ne heq] using h

omit [DecidableEq V] in
theorem Inv.exit (h : Inv digest s) (process : ProcessIdentity) : Inv digest (s.exit process) where
  named := h.named
  stored := h.stored
  participants token htoken := (h.participants token htoken).mono (ended_exit process)
  begun entry hentry := (h.begun entry hentry).mono (ended_exit process)
  pending := h.pending
  business := h.business

/-- Some of the writes of a mutation, and what is known of it then. -/
theorem Inv.changed (h : Inv digest s) (hdigest : Function.Injective digest)
    {registry : Registry} {mutation : Mutation V} {plan : Plan V} {directory : Directory V}
    (tokens : List OwnerToken) (hplanned : Planned registry s.directory digest mutation plan)
    (hpublished : Published s.directory plan.writes directory)
    (hproves : ∀ input proveEnded, mutation = .rebaseline input proveEnded →
      ∀ owner, proveEnded owner = true → s.ended owner.ownerProcessIdentity = true)
    (htokens : ∀ token ∈ tokens, Holds directory s.ended token) :
    Inv digest { s with
      directory := directory
      participants := s.participants ++ tokens
      begun := s.begun ++ mutation.begins } where
  named := hpublished.named (fun _ _ => hplanned.stores) h.named
  stored := hplanned.checkpointStored hdigest hpublished h.named h.stored
  participants token htoken := by
    rcases List.mem_append.mp htoken with hold | hnew
    · exact (h.participants token hold).ownerStep (hplanned.ownerStep hpublished _) hproves
    · exact htokens token hnew
  begun entry hentry := by
    have hholds : Holds s.directory s.ended entry.1 := by
      rcases List.mem_append.mp hentry with hold | hnew
      · exact h.begun entry hold
      · exact hplanned.begins hnew
    exact hholds.ownerStep (hplanned.ownerStep hpublished _) hproves
  pending operationId op hop hstate := by
    rcases hplanned.pending hpublished hop hstate with hold | ⟨token, hbegin, hrest⟩
    · obtain ⟨token, hbegun, hrest⟩ := h.pending operationId op hold hstate
      exact ⟨token, List.mem_append_left _ hbegun, hrest⟩
    · exact ⟨token, List.mem_append_right _ hbegin, hrest⟩
  business := h.business

theorem Inv.perform (h : Inv digest s) (hdigest : Function.Injective digest)
    {registry : Registry} {mutation : Mutation V} {plan : Plan V}
    (hplanned : Planned registry s.directory digest mutation plan)
    (hproves : ∀ input proveEnded, mutation = .rebaseline input proveEnded →
      ∀ owner, proveEnded owner = true → s.ended owner.ownerProcessIdentity = true)
    (process : ProcessIdentity) (crash : Option Nat) :
    Inv digest (s.perform process mutation plan crash) := by
  cases crash with
  | some count =>
      have hpublished := (published_perform (plan.writes.take count) [] s.directory).of_take
      have hchanged := h.changed hdigest [] hplanned hpublished hproves (by simp)
      rw [List.append_nil] at hchanged
      exact hchanged.exit process
  | none =>
      apply h.changed hdigest _ hplanned (published_perform plan.writes [] s.directory) hproves
      intro token htoken
      split at htoken
      case isTrue hnone =>
          rw [perform_of_none (Option.isNone_iff_eq_none.mp hnone)]
          exact hplanned.holds htoken
      case isFalse => cases htoken

omit [DecidableEq V] in
/-- A business write that is let through. -/
theorem Inv.rightful (h : Inv digest s) {authority : Authority V} {presence : Bool}
    (hparticipant : authority.token ∈ s.participants)
    (halive : s.ended authority.token.ownerProcessIdentity = false)
    (hlet : withWriterMutation s.directory authority presence = .ok ()) :
    (⟨authority, presence, s.directory, s.begun⟩ : BusinessWrite V).Rightful := by
  have hholds := h.participants authority.token hparticipant
  rw [Holds, halive] at hholds
  obtain ⟨owner, howner, howned⟩ := hholds.resolve_left Bool.false_ne_true
  refine ⟨owner, howner, howned, ?_⟩
  unfold withWriterMutation at hlet
  dsimp only at hlet
  split at hlet
  case h_1 op hop =>
      right
      obtain ⟨hoperation, hpresence⟩ := Option.filter_eq_some_iff.mp hop
      obtain ⟨admitted, hadmitted, -⟩ := bind_eq_ok_iff.mp hlet
      replace hadmitted := admitted_of_ok hadmitted
      have hattachment := hadmitted.attachment.trans (authority.own op hoperation)
      obtain ⟨token, hbegun, htoken, hprocess⟩ :=
        h.pending op.operationId admitted hadmitted.found hadmitted.pending
      -- the token that has begun the operation is the one of the authority
      have hsame : token = authority.token := by
        have hend : s.ended token.ownerProcessIdentity = false := by
          rw [hprocess, hadmitted.processIdentity]
          exact halive
        have hnamed := h.begun _ hbegun
        rw [Holds, hend] at hnamed
        obtain ⟨owner', howner', howned'⟩ := hnamed.resolve_left Bool.false_ne_true
        have hpath := htoken.trans hattachment
        rw [hpath, howner, Option.some.injEq] at howner'
        exact (howner' ▸ howned').unique howned hpath
      refine ⟨by simpa using hpresence, op, admitted, hoperation, hadmitted.found,
        hadmitted.pending, hattachment, ?_⟩
      rw [← hsame]
      exact hbegun
  case h_2 =>
      left
      obtain ⟨old, hold, hgate⟩ := bind_eq_ok_iff.mp hlet
      replace hold := asserted_of_ok hold
      rw [hold.found, Option.some.injEq] at howner
      refine ⟨howner ▸ hold.state, ?_⟩
      split at hgate
      · cases hgate
      case isFalse hopen =>
          simp only [not_and_or, not_not, Bool.not_eq_true', Bool.not_eq_false] at hopen
          exact hopen

theorem Inv.act (h : Inv digest s) (hdigest : Function.Injective digest)
    {action : FencingAction V} (hok : s.ProvesEnded action) : Inv digest (s.act digest action) := by
  cases action with
  | mutate generation process mutation crash =>
      simp only [FencingSystem.act]
      split
      · exact h
      · split
        · split
          · exact h.exit process
          · exact h
        case h_2 plan hplan =>
            apply h.perform hdigest (Mutation.planned hplan)
            rintro input proveEnded rfl
            exact hok
  | control gate => exact ⟨h.named, h.stored, h.participants, h.begun, h.pending, h.business⟩
  | business authority presence =>
      simp only [FencingSystem.act]
      split
      case isTrue hpresent =>
          split
          · exact h
          case h_2 hlet =>
              refine ⟨h.named, h.stored, h.participants, h.begun, h.pending, ?_⟩
              intro write hwrite
              rcases List.mem_append.mp hwrite with hold | hnew
              · exact h.business write hold
              · rw [List.mem_singleton.mp hnew]
                exact h.rightful hpresent.1 (by simpa using hpresent.2) hlet
      case isFalse => exact h
  | exit process => exact h.exit process

/-! ## Records over a run -/

omit [DecidableEq V] in
/-- One mutation. -/
theorem advances_of_ownerStep {mutation : Mutation V} {attachmentId : JsString}
    {directory directory' : Directory V} {old : Ownership} {generation : JsString}
    {process : ProcessIdentity} {crash : Option Nat}
    (hold : directory.ownerships.get attachmentId = some old)
    (hstep : OwnerStep digest mutation attachmentId directory'
      (directory.ownerships.get attachmentId) (directory'.ownerships.get attachmentId)) :
    ∃ new, directory'.ownerships.get attachmentId = some new ∧
      Advances attachmentId [.mutate generation process mutation crash] old new := by
  rw [hold] at hstep
  generalize directory'.ownerships.get attachmentId = after at hstep
  have hsame : ∀ {new : Ownership}, new.token = old.token →
      ((∀ action ∈ [FencingAction.mutate generation process mutation crash],
          action.resets attachmentId = false) →
        ∀ hash, old.checkpointHash = some hash → new.checkpointHash = some hash) →
      ∃ new', some new = some new' ∧
        Advances attachmentId [.mutate generation process mutation crash] old new' := by
    intro new htoken hhash
    refine ⟨new, rfl, ?_, ?_, hhash⟩
    · exact le_of_eq (congrArg OwnerToken.ownershipEpoch htoken).symm
    · exact fun hne => absurd (congrArg OwnerToken.ownerGeneration htoken).symm hne
  cases hstep with
  | same => exact ⟨old, rfl, .refl _ _ _⟩
  | kept _ new htoken hhash =>
      exact hsame htoken fun _ hash hold => hhash.trans hold
  | aborted _ new htoken hhash token handoverId hmutation hattachment =>
      apply hsame htoken
      intro hresets
      have hreset := hresets _ (List.mem_singleton_self _)
      simp [hmutation, FencingAction.resets, hattachment] at hreset
  | recorded _ new htoken _ hnone =>
      apply hsame htoken
      intro _ hash hold
      rw [hnone] at hold
      cases hold
  | rebaselined _ new input proveEnded hmutation _ hattachment hepoch =>
      refine ⟨new, rfl, by omega, fun _ => by omega, ?_⟩
      intro hresets
      have hreset := hresets _ (List.mem_singleton_self _)
      simp [hmutation, FencingAction.resets, hattachment] at hreset

/-- One action. -/
theorem advances_act {action : FencingAction V} {attachmentId : JsString} {old : Ownership}
    (hold : s.directory.ownerships.get attachmentId = some old) :
    ∃ new, (s.act digest action).directory.ownerships.get attachmentId = some new ∧
      Advances attachmentId [action] old new := by
  have hsame : ∀ {t : FencingSystem V}, t.directory.ownerships = s.directory.ownerships →
      ∃ new, t.directory.ownerships.get attachmentId = some new ∧
        Advances attachmentId [action] old new := by
    intro t ht
    exact ⟨old, ht ▸ hold, .refl _ _ _⟩
  cases action with
  | mutate generation process mutation crash =>
      simp only [FencingSystem.act]
      split
      · exact hsame rfl
      · split
        · split
          · exact hsame rfl
          · exact hsame rfl
        case h_2 plan hplan =>
            cases crash with
            | some count =>
                apply advances_of_ownerStep hold
                have hpublished := published_perform (plan.writes.take count) [] s.directory
                exact (Mutation.planned hplan).ownerStep hpublished.of_take attachmentId
            | none =>
                apply advances_of_ownerStep hold
                have hpublished := published_perform plan.writes [] s.directory
                exact (Mutation.planned hplan).ownerStep hpublished attachmentId
  | control gate => exact hsame rfl
  | business authority presence =>
      simp only [FencingSystem.act]
      split
      · split
        · exact hsame rfl
        · exact hsame rfl
      · exact hsame rfl
  | exit process => exact hsame rfl

theorem advances_run {actions : List (FencingAction V)} {attachmentId : JsString}
    {old : Ownership} (hold : s.directory.ownerships.get attachmentId = some old) :
    ∃ new, (actions.foldl (act digest) s).directory.ownerships.get attachmentId = some new ∧
      Advances attachmentId actions old new := by
  induction actions generalizing s old with
  | nil => exact ⟨old, hold, .refl _ _ _⟩
  | cons action actions ih =>
      have hone : ∃ mid, (s.act digest action).directory.ownerships.get attachmentId = some mid ∧
          Advances attachmentId [action] old mid := advances_act hold
      obtain ⟨mid, hmid, hfirst⟩ := hone
      obtain ⟨new, hnew, hrest⟩ := ih hmid
      exact ⟨new, hnew, hfirst.trans hrest⟩

/-- In every run in which only ended processes are proved to have ended, ownership is fenced. -/
theorem ownership_fenced (hdigest : Function.Injective digest)
    (before later : List (FencingAction V))
    (h : EachMeets (act digest) ProvesEnded start (before ++ later)) :
    Fenced digest BusinessWrite.Rightful before later := by
  have hinv : Inv digest (after digest before) :=
    invariant_of_eachMeets (fun _ _ hs hok => hs.act hdigest hok) (inv_start digest)
      (eachMeets_append.mp h).1
  constructor
  · rintro token token' ⟨_, _, old, haccepted⟩ ⟨_, _, old', haccepted'⟩ hattachment
    have hasserted := asserted_of_ok haccepted
    have hasserted' := asserted_of_ok haccepted'
    have hfound := hasserted.found
    rw [hattachment, hasserted'.found, Option.some.injEq] at hfound
    exact hasserted.owned.unique (hfound ▸ hasserted'.owned) hattachment
  · exact hinv.stored
  · exact hinv.business
  · intro attachmentId old hold
    rw [after, List.foldl_append]
    exact advances_run hold

end FencingSystem

/-! ## An operation that outlives its attachment -/

/-- A number, with its end marked. -/
def plainNumber (n : Nat) : List UInt16 := List.replicate n 1 ++ [0]

theorem plainNumber_append {n m : Nat} {a b : List UInt16}
    (h : plainNumber n ++ a = plainNumber m ++ b) : n = m ∧ a = b := by
  induction n generalizing m with
  | zero =>
      cases m with
      | zero => exact ⟨rfl, List.append_cancel_left h⟩
      | succ m => simp [plainNumber, List.replicate_succ] at h
  | succ n ih =>
      cases m with
      | zero => simp [plainNumber, List.replicate_succ] at h
      | succ m =>
          have hrest : plainNumber n ++ a = plainNumber m ++ b := by
            simpa [plainNumber, List.replicate_succ] using h
          exact ⟨congrArg (· + 1) (ih hrest).1, (ih hrest).2⟩

/-- A digest that is all of a checkpoint. -/
def plainDigest (snapshot : Checkpoint Unit) : JsString :=
  ⟨plainNumber snapshot.ownershipEpoch ++ (plainNumber snapshot.producedSequence ++
    (plainNumber snapshot.deliveredSequence ++ (plainNumber snapshot.attachmentId.units.length ++
      (snapshot.attachmentId.units ++ snapshot.downstreamProtocol.units))))⟩

theorem plainDigest_injective : Function.Injective plainDigest := by
  intro a b h
  obtain ⟨hepoch, h⟩ := plainNumber_append (JsString.mk.inj h)
  obtain ⟨hproduced, h⟩ := plainNumber_append h
  obtain ⟨hdelivered, h⟩ := plainNumber_append h
  obtain ⟨hlength, h⟩ := plainNumber_append h
  obtain ⟨hattachment, hprotocol⟩ := List.append_inj h hlength
  cases a
  cases b
  simp only [Checkpoint.mk.injEq, and_true]
  exact ⟨congrArg JsString.mk hattachment, hepoch, congrArg JsString.mk hprotocol, hproduced,
    hdelivered⟩

def claimCall : FencingAction Unit :=
  .mutate plainRegistry.generation plainIdentity (.claim ⟨js "a", js "s", js "i"⟩) none

/-- The call `o` of the attachment. -/
def openCall : Operation Unit :=
  ⟨1, js "o", js "a", plainRegistry.generation, plainIdentity, .call, .pending, none⟩

/-- A call is admitted, the attachment is closed, and the call writes. -/
def outlivingRun : List (FencingAction Unit) :=
  [claimCall,
    .mutate plainRegistry.generation plainIdentity (.begin none plainToken (js "o") .call) none,
    .mutate plainRegistry.generation plainIdentity (.close plainToken) none,
    .business ⟨plainToken, some openCall, false, fun _ h => Option.some.inj h ▸ rfl⟩ false]

theorem operation_outlives_attachment :
    ¬∀ (digest : Checkpoint Unit → JsString) (before later : List (FencingAction Unit)),
      Function.Injective digest →
        EachMeets (FencingSystem.act digest) FencingSystem.ProvesEnded FencingSystem.start
          (before ++ later) →
        FencingSystem.Fenced digest BusinessWrite.Owned before later := by
  intro h
  have hfenced := h plainDigest outlivingRun [] plainDigest_injective
    ⟨trivial, trivial, trivial, trivial, trivial⟩
  have hopen : ∀ write ∈ (FencingSystem.after plainDigest outlivingRun).writes,
      (write.directory.ownerships.get write.authority.token.attachmentId).any
        (·.state ≠ .closed) = true := by
    intro write hwrite
    obtain ⟨owner, howner, -, hstate, -⟩ := hfenced.business write hwrite
    simp [howner, hstate]
  exact absurd hopen (by decide +kernel)

/-- The attachment is claimed and writes; its process ends, and another generation takes over. -/
def takeoverRun : List (FencingAction Unit) :=
  [.exit plainIdentity,
    .mutate (js "33333333-3333-4333-8333-333333333333") { plainIdentity with pid := 2 }
      (.rebaseline ⟨js "a", js "s", js "i"⟩ fun owner =>
        owner.ownerProcessIdentity = plainIdentity) none]

theorem ownership_fenced_takeover :
    FencingSystem.Fenced plainDigest BusinessWrite.Rightful
      [claimCall, .business ⟨plainToken, none, false, fun _ h => nomatch h⟩ false]
      takeoverRun := by
  apply FencingSystem.ownership_fenced plainDigest_injective
  refine ⟨trivial, trivial, trivial, ?_, trivial⟩
  intro owner howner
  rw [of_decide_eq_true howner]
  decide +kernel

end H2a.Handover
