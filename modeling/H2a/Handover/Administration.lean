import H2a.Handover.Records
import H2a.Library.WritePlan
/-!
# The administration of an upgrade

`ColdAdministration` of `packages/h2a/src/runtime/handover/administration.js`: the transaction of an
upgrade, moved by the steps of a coordinator, by its deadline and by the operator.  A call is the
plan of its writes with its result; each write says what it replaces, as `replaceState` compares it.
What the participants, the live source, the installation and the clock answer comes with the call.
Digests that are compared are those of equal values.
-/

namespace H2a.Handover

open H2a.Library

/-! ## Records -/

inductive TransactionState where
  | reserved
  | prechecked
  | barrier
  | frozen
  | published
  | draining
  | retired
  | stopCommitted
  | stopped
  | starting
  | ready
  | successorFailed
  | aborted
  | drainBlocked
  | deferredPaused
  | recoveryBlocked
  deriving DecidableEq

/-- `irrevocable` -/
def TransactionState.irrevocable : TransactionState → Bool
  | .published | .retired | .stopCommitted | .stopped | .starting | .ready | .successorFailed => true
  | _ => false

/-- `blocked` -/
def TransactionState.blocked (state : TransactionState) : Bool :=
  state ∈ [.barrier, .frozen, .draining, .drainBlocked, .recoveryBlocked] || state.irrevocable

inductive UpgradeMode where
  | coldStop
  | liveTransfer
  | catalogue
  deriving DecidableEq

structure PublicationEpoch where
  bootId : JsString
  counter : Nat
  deriving DecidableEq

/-- The members of a marker that the administration reads, `sourceFields` among them. -/
structure UpgradeSource where
  generation : JsString
  publicationEpoch : PublicationEpoch
  processIdentity : ProcessIdentity
  packageVersion : JsString
  buildId : JsString
  manifestDigest : JsString
  deriving DecidableEq

structure UpgradeTarget where
  packageVersion : JsString
  buildId : JsString
  manifestDigest : JsString
  entrypoint : JsString
  deriving DecidableEq

/-- `primitives`, and any other name. -/
inductive Primitive where
  | describe
  | inventory
  | reserve
  | barrier
  | renew
  | freeze
  | checkpoint
  | drainStatus
  | abort
  | retire
  | commitStop
  | stopStatus
  | unknown (name : JsString)
  deriving DecidableEq

/-- What `options.inventory()` answers. -/
structure UpgradeInventory where
  revision : Nat
  transports : Nat
  writerRestrictions : List JsString
  deriving DecidableEq

/-- What `options.drain()` answers; `none` is no safe integer. -/
structure UpgradeDrain where
  revision : Option Int
  calls : Option Int
  children : Option Int
  briefs : Option Int
  callbacks : Option Int
  effects : Option Int
  deriving DecidableEq

inductive StepResult where
  | reserved (state : TransactionState) (handoverId : JsString)
      (authorizationDigest : Option JsString)
  | described (primitives : List Primitive) (generation : JsString) (state : TransactionState)
      (paused : Bool)
  | inventory (inventory : UpgradeInventory)
  | stopStatus (state : TransactionState) (paused : Bool) (generation : JsString)
  | drained (drain : UpgradeDrain) (complete : Bool)
  | barrier (barrierId : JsString)
  | renewed
  | frozen (inventoryRevision : Nat)
  | checkpointed (references : List JsString)
  | aborted
  | published (publicationDigest markerDigest : JsString)
  | retired (generation publicationDigest : JsString)
  | stopCommitted (generation : JsString)
  /-- a record of the starters -/
  | starter (reason : JsString)
  | undefined
  deriving DecidableEq

namespace StepResult

/-- `r.publicationDigest` of a result in state `PUBLISHED` or `RETIRED`; no other result has one. -/
def publicationDigest : StepResult → Option JsString
  | .published publicationDigest _ => some publicationDigest
  | .retired _ publicationDigest => some publicationDigest
  | _ => none

/-- `r.barrierId` -/
def barrierId : StepResult → Option JsString
  | .barrier barrierId => some barrierId
  | _ => none

/-- `r.state === 'RETIRED' && r.publicationDigest === publicationDigest` -/
def isReceipt (publicationDigest : JsString) : StepResult → Bool
  | .retired _ digest => digest = publicationDigest
  | _ => false

end StepResult

structure StepRecord where
  payloadDigest : JsString
  result : StepResult
  deriving DecidableEq

structure SuccessorReservation where
  attempts : Nat
  candidateIdentity : Option ProcessIdentity
  selectionEpoch : Nat
  targetManifestDigest : JsString
  deriving DecidableEq

structure ComponentTransaction where
  revision : Nat
  upgradeId : JsString
  handoverId : JsString
  transactionEpoch : Nat
  mode : UpgradeMode
  source : UpgradeSource
  target : UpgradeTarget
  coordinator : ProcessIdentity
  controllerEpoch : Nat
  inventoryRevision : Nat
  state : TransactionState
  barrierDeadline : Option Int
  precheckEvidenceDigest : Option JsString
  checkpointReferences : List JsString
  stepResults : JsMap JsString StepRecord
  successorReservation : SuccessorReservation
  deriving DecidableEq

/-- `Object.values(tx.stepResults).map(s => s.result)` -/
def ComponentTransaction.results (tx : ComponentTransaction) : List StepResult :=
  tx.stepResults.values.map StepRecord.result

/-- The active transaction is named by its handover. -/
structure ComponentControl where
  revision : Nat
  activeTransaction : Option JsString
  sourceGeneration : JsString
  ownerIdentity : ProcessIdentity
  ownerActive : Bool
  transactionEpoch : Nat
  operatorStopCommitted : Bool
  operatorStopped : Bool
  deriving DecidableEq

structure Pause where
  revision : Nat
  paused : Bool
  requestedAt : Int
  generation : JsString
  deriving DecidableEq

structure ImagePins where
  upgradeId : JsString
  handoverId : JsString
  sourceManifestDigest : JsString
  targetManifestDigest : JsString
  deriving DecidableEq

/-! ## The state directory -/

/-- Transactions and pins are at the leaf of their handover. -/
structure UpgradeFiles where
  control : ComponentControl
  transactions : JsMap JsString ComponentTransaction
  pause : Option Pause
  pins : JsMap JsString ImagePins

namespace UpgradeFiles

variable (files : UpgradeFiles)

/-- `transaction()?.value` -/
def transaction : Option ComponentTransaction :=
  files.control.activeTransaction.bind files.transactions.get

/-- `pause()` -/
def paused : Bool := files.pause.any (·.paused)

end UpgradeFiles

/-- A write, with what it replaces. -/
inductive UpgradeWrite where
  | control (observed value : ComponentControl)
  | transaction (reference : JsString) (observed : Option ComponentTransaction)
      (value : ComponentTransaction)
  | pause (observed : Option Pause) (value : Pause)
  | pins (reference : JsString) (value : ImagePins)

/-- `publishState` and `replaceState`; `none` where another content is found. -/
def UpgradeWrite.apply (files : UpgradeFiles) : UpgradeWrite → Option UpgradeFiles
  | .control observed value =>
      if files.control = observed then some { files with control := value } else none
  | .transaction reference observed value =>
      if files.transactions.get reference = observed then
        some { files with transactions := files.transactions.set reference value }
      else none
  | .pause observed value =>
      if files.pause = observed then some { files with pause := some value } else none
  | .pins reference value =>
      if files.pins.has reference then none
      else some { files with pins := files.pins.set reference value }

/-! ## Calls -/

structure AdministrationStep where
  mode : UpgradeMode
  upgradeId : JsString
  handoverId : JsString
  transactionEpoch : Nat
  expectedGeneration : JsString
  expectedPublicationEpoch : PublicationEpoch
  inventoryRevision : Nat
  stepId : JsString
  payloadDigest : JsString

/-- `validate('administration', step)` -/
def AdministrationStep.valid (step : AdministrationStep) : Bool :=
  isText step.upgradeId && isText step.handoverId && isPositive step.transactionEpoch &&
    isUuid step.expectedGeneration && isUuid step.expectedPublicationEpoch.bootId &&
    isPositive step.expectedPublicationEpoch.counter && isPositive step.inventoryRevision &&
    isText step.stepId && isHash step.payloadDigest

/-- The payload of a step; `none` where a member is missing or not of its type. -/
structure AdministrationPayload where
  target : Option UpgradeTarget
  selectionEpoch : Option Nat
  precheckEvidenceDigest : Option JsString
  controllerEpoch : Option Nat
  authorizationDigest : Option JsString
  deadline : Option Int
  publicationDigest : Option JsString
  barrierId : Option JsString
  sourceGeneration : Option JsString
  sourceProcessIdentity : Option ProcessIdentity
  expectedDrainRevision : Option Int
  expectedInventoryRevision : Option Nat
  targetBuildId : Option JsString
  targetManifestDigest : Option JsString
  targetEntrypoint : Option JsString

/-- `digest(payload)` and `digest({ operation, step, payload, coordinator })` -/
structure UpgradeHost where
  payloadDigest : AdministrationPayload → JsString
  stepDigest : Primitive → AdministrationStep → AdministrationPayload → ProcessIdentity → JsString

/-- A `ColdAdministration`; `liveSource`, `freezes`, `checkpoints` and `prechecks` say which options
it was constructed with. -/
structure Administration where
  marker : UpgradeSource
  liveSource : Bool
  freezes : Bool
  checkpoints : Bool
  prechecks : Bool
  indeterminate : Bool

/-- What an option of the administration may refuse. -/
inductive AdministrationCheck where
  | verifyAuthority
  | reconcileParticipants
  | assertEligible
  | authorizeTarget
  | verifyEntry
  | verifyPrecheck
  | revalidate
  /-- `liveSource.publication` of a transaction that is published -/
  | republication
  | fence
  | barrier
  /-- `reconcileParticipants` after an abort -/
  | reconcileAborted
  | commit

/-- What the clock and the options answer in a call; a missing option that is called throws. -/
structure Answers where
  now : Int
  /-- the second reading of the clock -/
  later : Int
  /-- `liveSource.sourcePublished`, where a live publication is observed -/
  sourcePublished : Except String Bool
  /-- and where it is asked again -/
  stillPublished : Except String Bool
  check : AdministrationCheck → Except String Unit
  inventory : Except String UpgradeInventory
  drain : Except String UpgradeDrain
  /-- `liveSource.reserve` -/
  authorization : Except String JsString
  /-- the `markerDigest` of `liveSource.publication` -/
  publication : Except String JsString
  freeze : Except String Nat
  checkpoint : Except String (List JsString)
  barrierId : JsString
  /-- `reconcileParticipants` and the steps of the file system in `reconcile` -/
  reconcile : Except String Unit

abbrev UpgradePlan := WritePlan UpgradeWrite

namespace ComponentTransaction

/-- `update(observed, changes, step, result)`: the value that replaces the transaction. -/
def update (tx : ComponentTransaction) (changes : ComponentTransaction → ComponentTransaction)
    (record : Option (JsString × StepRecord)) : UpgradePlan ComponentTransaction := do
  let changed := changes tx
  let value := { changed with
    revision := tx.revision + 1
    stepResults := record.elim tx.stepResults fun (stepId, record) =>
      tx.stepResults.set stepId record }
  WritePlan.write (.transaction tx.handoverId (some tx) value)
  return value

def toState (state : TransactionState) (tx : ComponentTransaction) : ComponentTransaction :=
  { tx with state := state }

end ComponentTransaction

namespace Administration

variable (host : UpgradeHost) (admin : Administration) (files : UpgradeFiles) (answers : Answers)

/-! ## What is observed -/

/-- `observeLivePublication(observed)` -/
def observeLivePublication (observed : Option ComponentTransaction) :
    UpgradePlan (Option ComponentTransaction) :=
  match observed with
  | none => pure none
  | some tx =>
      if tx.mode ≠ .liveTransfer ∨
          tx.state ∈ [.aborted, .published, .retired, .recoveryBlocked] then
        pure (some tx)
      else do
        let published ← WritePlan.ofExcept answers.sourcePublished
        if published then return some tx
        else return some (← tx.update (.toState .recoveryBlocked) none)

/-- `drain()`: the counts, and whether they are all zero. -/
def drain : UpgradePlan (UpgradeDrain × Bool) := do
  let drain ← WritePlan.ofExcept answers.drain
  let counts := [drain.calls, drain.children, drain.briefs, drain.callbacks, drain.effects]
  WritePlan.require (drain.revision.isSome ∧ ∀ count ∈ counts, count.any (0 ≤ ·)) "drain_unknown"
  return (drain, counts.all (· = some 0))

/-- `admissionsOpen()` -/
def admissionsOpen : UpgradePlan Bool :=
  if admin.indeterminate ∨ files.paused then pure false
  else do
    let observed ← observeLivePublication answers files.transaction
    let control := files.control
    if control.sourceGeneration ≠ admin.marker.generation ∨ !control.ownerActive ∨
        control.operatorStopCommitted then
      return false
    else
      match observed with
      | none => return true
      | some tx =>
          if tx.state = .ready ∧ tx.source.generation ≠ admin.marker.generation then return true
          else return !tx.state.blocked

/-- `status().state` -/
def statusState : TransactionState :=
  match files.transaction with
  | some tx => tx.state
  | none => if files.control.operatorStopCommitted then .stopCommitted else .ready

/-! ## The steps of a coordinator -/

/-- Whether a step is one of the transaction, by its coordinator. -/
def matchesTransaction (step : AdministrationStep) (coordinator : ProcessIdentity)
    (tx : ComponentTransaction) : Bool :=
  step.upgradeId = tx.upgradeId && step.handoverId = tx.handoverId &&
    step.transactionEpoch = tx.transactionEpoch && step.mode = tx.mode &&
    coordinator = tx.coordinator

/-- The result of a step that is recorded; `none` where the step is to be taken. -/
def replayed (operation : Primitive) (stepId payloadDigest : JsString)
    (tx : ComponentTransaction) : Except String (Option StepResult) :=
  match tx.stepResults.get stepId with
  | none => .ok none
  | some prior =>
      if prior.payloadDigest ≠ payloadDigest then .error "step_conflict"
      else
        match operation, prior.result with
        | .retire, .published publicationDigest _ =>
            -- a retirement left at `PUBLISHED` goes on
            if tx.state = .retired then
              .ok (some ((tx.results.find? (StepResult.isReceipt publicationDigest)).getD .undefined))
            else .ok none
        | _, result => .ok (some result)

/-- A result that is recorded, if there is a transaction. -/
def observation (tx : Option ComponentTransaction) (stepId payloadDigest : JsString)
    (result : StepResult) (changes : ComponentTransaction → ComponentTransaction) :
    UpgradePlan StepResult :=
  match tx with
  | none => pure result
  | some tx => do
      let _ ← tx.update changes (some (stepId, ⟨payloadDigest, result⟩))
      return result

/-- The primitives an administration describes. -/
def describes : Primitive → Bool
  | .retire => admin.liveSource
  | .freeze => admin.freezes
  | .checkpoint => admin.checkpoints
  | _ => true

/-- `primitives` -/
def primitives : List Primitive :=
  [.describe, .inventory, .reserve, .barrier, .renew, .freeze, .checkpoint, .drainStatus, .abort,
    .retire, .commitStop, .stopStatus]

/-- The pins of a transaction. -/
def pinsOf (value : ComponentTransaction) : ImagePins where
  upgradeId := value.upgradeId
  handoverId := value.handoverId
  sourceManifestDigest := value.source.manifestDigest
  targetManifestDigest := value.target.manifestDigest

/-- A transaction as it is reserved. -/
def reservation (step : AdministrationStep) (payload : AdministrationPayload)
    (coordinator : ProcessIdentity) (target : UpgradeTarget) (selectionEpoch : Nat)
    (payloadDigest : JsString) (result : StepResult) (state : TransactionState) :
    ComponentTransaction where
  revision := 1
  upgradeId := step.upgradeId
  handoverId := step.handoverId
  transactionEpoch := step.transactionEpoch
  mode := step.mode
  source := admin.marker
  target := target
  coordinator := coordinator
  controllerEpoch := payload.controllerEpoch.getD 1
  inventoryRevision := step.inventoryRevision
  state := state
  barrierDeadline := none
  precheckEvidenceDigest := payload.precheckEvidenceDigest
  checkpointReferences := []
  stepResults := JsMap.empty.set step.stepId ⟨payloadDigest, result⟩
  successorReservation := ⟨0, none, selectionEpoch, target.manifestDigest⟩

/-- The publication of a transaction, of its pins and of the control that makes it active. -/
def activate (value : ComponentTransaction) : UpgradePlan Unit := do
  match files.transactions.get value.handoverId with
  | some prior => WritePlan.require (prior = value) "transaction_conflict"
  | none => WritePlan.write (.transaction value.handoverId none value)
  match files.pins.get value.handoverId with
  | some pins => WritePlan.require (pins = pinsOf value) "pin_conflict"
  | none => WritePlan.write (.pins value.handoverId (pinsOf value))
  WritePlan.write (.control files.control { files.control with
    revision := files.control.revision + 1
    activeTransaction := some value.handoverId
    transactionEpoch := value.transactionEpoch })

/-- A reservation that is not recorded. -/
def reserveNew (step : AdministrationStep) (payload : AdministrationPayload)
    (coordinator : ProcessIdentity) (payloadDigest : JsString) (tx : Option ComponentTransaction) :
    UpgradePlan StepResult := do
  WritePlan.require (∀ old ∈ tx, old.state = .aborted ∨
    old.state = .ready ∧ old.source.generation ≠ admin.marker.generation) "transaction_reserved"
  WritePlan.require (files.control.transactionEpoch < step.transactionEpoch) "transaction_epoch_stale"
  WritePlan.require (step.mode ∈ [.coldStop, .liveTransfer]) "live_coordinator_unavailable"
  WritePlan.require (step.mode = .liveTransfer → admin.liveSource = true)
    "live_authorization_unavailable"
  let inventory ← WritePlan.ofExcept answers.inventory
  WritePlan.ofExcept (answers.check .assertEligible)
  WritePlan.require (step.inventoryRevision = inventory.revision) "inventory_stale"
  WritePlan.require (¬(0 < inventory.transports ∧
    js "participant_checkpoint_unqualified" ∈ inventory.writerRestrictions))
    "participant_checkpoint_unqualified"
  match payload.selectionEpoch.filter isPositive with
  | none => WritePlan.fail "selection_epoch_invalid"
  | some selectionEpoch =>
      WritePlan.require (admin.prechecks = true) "cold_precheck_unavailable"
      WritePlan.ofExcept (answers.check .authorizeTarget)
      WritePlan.ofExcept (answers.check .verifyEntry)
      WritePlan.ofExcept (answers.check .verifyPrecheck)
      let authorizationDigest ←
        if step.mode = .liveTransfer then some <$> WritePlan.ofExcept answers.authorization
        else pure none
      match payload.target with
      | none => WritePlan.fail "Cannot read properties of undefined (reading 'manifestDigest')"
      | some target =>
          let state := if step.mode = .liveTransfer then .reserved else .prechecked
          let result := .reserved state step.handoverId authorizationDigest
          activate files (admin.reservation step payload coordinator target selectionEpoch
            payloadDigest result state)
          return result

/-- `reserve` -/
def reserve (step : AdministrationStep) (payload : AdministrationPayload)
    (coordinator : ProcessIdentity) (payloadDigest : JsString) (tx : Option ComponentTransaction) :
    UpgradePlan StepResult :=
  if files.paused then WritePlan.fail "deferred_paused"
  else
    match tx.filter (fun tx => step.handoverId = tx.handoverId) with
    | some tx =>
        match tx.stepResults.get step.stepId with
        | some prior =>
            if matchesTransaction step coordinator tx && prior.payloadDigest = payloadDigest then
              pure prior.result
            else WritePlan.fail "step_conflict"
        | none => WritePlan.fail "step_conflict"
    | none => admin.reserveNew files answers step payload coordinator payloadDigest tx

/-- `retire` of a live transfer, from a transaction that is published. -/
def retirePublished (step : AdministrationStep) (payloadDigest publicationDigest : JsString)
    (tx : ComponentTransaction) : UpgradePlan StepResult := do
  WritePlan.ofExcept (answers.check .fence)
  let (_, complete) ← drain answers
  WritePlan.require (complete = true) "drain_blocked"
  let result := .retired admin.marker.generation publicationDigest
  let _ ← tx.update (.toState .retired) (some (step.stepId, ⟨payloadDigest, result⟩))
  return result

/-- `retire` of a live transfer. -/
def retireLive (step : AdministrationStep) (payload : AdministrationPayload)
    (payloadDigest : JsString) (tx : ComponentTransaction) : UpgradePlan StepResult := do
  WritePlan.require (admin.liveSource = true) "live_authorization_unavailable"
  WritePlan.require (tx.state ∈ [.frozen, .recoveryBlocked, .published]) "live_publication_required"
  let inventory ← WritePlan.ofExcept answers.inventory
  WritePlan.require (step.inventoryRevision = tx.inventoryRevision ∧
    inventory.revision = tx.inventoryRevision) "inventory_stale"
  if tx.state ≠ .published then
    WritePlan.require (tx.barrierDeadline.isSome = true) "barrier_required"
    match payload.publicationDigest with
    | none => WritePlan.fail "live_record_digest_invalid"
    | some publicationDigest =>
        let markerDigest ← WritePlan.ofExcept answers.publication
        WritePlan.ofExcept (answers.check .authorizeTarget)
        WritePlan.ofExcept (answers.check .verifyEntry)
        WritePlan.ofExcept (answers.check .verifyPrecheck)
        WritePlan.ofExcept (answers.check .assertEligible)
        let observed ← tx.update (.toState .published)
          (some (step.stepId, ⟨payloadDigest, .published publicationDigest markerDigest⟩))
        admin.retirePublished answers step payloadDigest publicationDigest observed
  else
    match tx.results.findSome? StepResult.publicationDigest with
    | none => WritePlan.fail "live_publication_mismatch"
    | some publicationDigest =>
        WritePlan.require (payload.publicationDigest = some publicationDigest)
          "live_publication_mismatch"
        WritePlan.ofExcept (answers.check .republication)
        admin.retirePublished answers step payloadDigest publicationDigest tx

/-- `abort` -/
def abort (step : AdministrationStep) (payloadDigest : JsString) (tx : ComponentTransaction) :
    UpgradePlan StepResult := do
  let _ ← tx.update (fun tx => { tx with state := .aborted, barrierDeadline := none })
    (some (step.stepId, ⟨payloadDigest, .aborted⟩))
  WritePlan.ofExcept (answers.check .reconcileAborted)
  return .aborted

/-- `barrier` -/
def barrier (step : AdministrationStep) (payload : AdministrationPayload)
    (payloadDigest : JsString) (tx : ComponentTransaction) : UpgradePlan StepResult := do
  WritePlan.require (tx.state ∈ [.prechecked, .reserved] ∧ ¬files.paused = true) "barrier_state_invalid"
  WritePlan.require (payload.deadline.any (answers.now < ·)) "barrier_expired"
  WritePlan.ofExcept (answers.check .authorizeTarget)
  WritePlan.ofExcept (answers.check .verifyEntry)
  WritePlan.ofExcept (answers.check .assertEligible)
  WritePlan.ofExcept (answers.check .barrier)
  let result := .barrier answers.barrierId
  let _ ← tx.update (fun tx => { tx with state := .barrier, barrierDeadline := payload.deadline })
    (some (step.stepId, ⟨payloadDigest, result⟩))
  return result

/-- `renew` -/
def renew (step : AdministrationStep) (payload : AdministrationPayload) (payloadDigest : JsString)
    (tx : ComponentTransaction) : UpgradePlan StepResult := do
  WritePlan.require (payload.deadline.any (answers.later < ·)) "barrier_expired"
  let _ ← tx.update (fun tx => { tx with barrierDeadline := payload.deadline })
    (some (step.stepId, ⟨payloadDigest, .renewed⟩))
  return .renewed

/-- `freeze` -/
def freeze (step : AdministrationStep) (payloadDigest : JsString) (tx : ComponentTransaction) :
    UpgradePlan StepResult := do
  WritePlan.require (admin.freezes = true) "participant_primitive_unavailable"
  let inventoryRevision ← WritePlan.ofExcept answers.freeze
  let result := .frozen inventoryRevision
  let _ ← tx.update (.toState .frozen) (some (step.stepId, ⟨payloadDigest, result⟩))
  return result

/-- `checkpoint` -/
def checkpoint (step : AdministrationStep) (payloadDigest : JsString) (tx : ComponentTransaction) :
    UpgradePlan StepResult := do
  WritePlan.require (admin.checkpoints = true) "participant_primitive_unavailable"
  let references ← WritePlan.ofExcept answers.checkpoint
  let result := .checkpointed references
  let _ ← tx.update (fun tx => { tx with state := .frozen, checkpointReferences := references })
    (some (step.stepId, ⟨payloadDigest, result⟩))
  return result

/-- What the payload of `commit-stop` names. -/
def namesStop (payload : AdministrationPayload) (drained : UpgradeDrain)
    (tx : ComponentTransaction) : Bool :=
  payload.barrierId.any (fun barrierId =>
      tx.results.any fun result => result.barrierId = some barrierId) &&
    payload.sourceGeneration = some admin.marker.generation &&
    payload.sourceProcessIdentity = some admin.marker.processIdentity &&
    payload.expectedDrainRevision = drained.revision &&
    payload.expectedInventoryRevision = some tx.inventoryRevision &&
    payload.targetBuildId = some tx.target.buildId &&
    payload.targetManifestDigest = some tx.target.manifestDigest &&
    payload.targetEntrypoint = some tx.target.entrypoint &&
    payload.selectionEpoch = some tx.successorReservation.selectionEpoch &&
    payload.precheckEvidenceDigest = tx.precheckEvidenceDigest

/-- `commit-stop` -/
def commitStop (step : AdministrationStep) (payload : AdministrationPayload)
    (payloadDigest : JsString) (tx : ComponentTransaction) : UpgradePlan StepResult := do
  WritePlan.require (tx.mode = .coldStop) "cold_stop_mode_required"
  let (drained, complete) ← drain answers
  WritePlan.require (complete = true) "drain_blocked"
  WritePlan.require (¬files.paused = true ∧ admin.namesStop payload drained tx = true)
    "commit_stop_mismatch"
  WritePlan.ofExcept (answers.check .authorizeTarget)
  WritePlan.ofExcept (answers.check .verifyEntry)
  WritePlan.ofExcept (answers.check .verifyPrecheck)
  WritePlan.ofExcept (answers.check .assertEligible)
  let result := .stopCommitted admin.marker.generation
  let _ ← tx.update (.toState .stopCommitted) (some (step.stepId, ⟨payloadDigest, result⟩))
  WritePlan.ofExcept (answers.check .commit)
  return result

/-- The operations that need a barrier which has not expired. -/
def withinBarrier (operation : Primitive) (step : AdministrationStep)
    (payload : AdministrationPayload) (payloadDigest : JsString) (tx : ComponentTransaction) :
    UpgradePlan StepResult := do
  WritePlan.require (tx.state ∈ [.barrier, .frozen, .draining, .drainBlocked] ∧
    tx.barrierDeadline.any (answers.now < ·)) "barrier_expired"
  match operation with
  | .renew => renew answers step payload payloadDigest tx
  | .freeze => admin.freeze answers step payloadDigest tx
  | .checkpoint => admin.checkpoint answers step payloadDigest tx
  | .retire => WritePlan.fail "live_publication_required"
  | .commitStop => admin.commitStop files answers step payload payloadDigest tx
  | _ => WritePlan.fail "administration_state_invalid"

/-- The operations on a transaction that can still be stopped. -/
def revocable (operation : Primitive) (step : AdministrationStep)
    (payload : AdministrationPayload) (payloadDigest : JsString) (tx : ComponentTransaction) :
    UpgradePlan StepResult := do
  WritePlan.require (¬tx.state.irrevocable = true) "stop_irreversible"
  WritePlan.require (tx.state ≠ .aborted) "transaction_aborted"
  if tx.mode = .liveTransfer then
    let published ← WritePlan.ofExcept answers.stillPublished
    if !published then
      if tx.state ≠ .recoveryBlocked then
        let _ ← tx.update (.toState .recoveryBlocked) none
      WritePlan.fail "live_publication_requires_reconciliation"
    WritePlan.require (tx.state ≠ .recoveryBlocked) "reconciliation_required"
    WritePlan.ofExcept (answers.check .revalidate)
  let inventory ← WritePlan.ofExcept answers.inventory
  WritePlan.require (step.inventoryRevision = tx.inventoryRevision ∧
    inventory.revision = tx.inventoryRevision) "inventory_stale"
  match operation with
  | .abort => abort answers step payloadDigest tx
  | .barrier => barrier files answers step payload payloadDigest tx
  | _ => admin.withinBarrier files answers operation step payload payloadDigest tx

/-- A step that is not recorded. -/
def take (operation : Primitive) (step : AdministrationStep) (payload : AdministrationPayload)
    (coordinator : ProcessIdentity) (payloadDigest : JsString) (tx : Option ComponentTransaction) :
    UpgradePlan StepResult :=
  match operation with
  | .describe =>
      observation tx step.stepId payloadDigest
        (.described (primitives.filter admin.describes) admin.marker.generation
          (tx.elim .ready (·.state)) files.paused) id
  | .inventory => do
      let inventory ← WritePlan.ofExcept answers.inventory
      observation tx step.stepId payloadDigest (.inventory inventory) id
  | .stopStatus =>
      observation tx step.stepId payloadDigest
        (.stopStatus (tx.elim (statusState files) (·.state)) files.paused admin.marker.generation) id
  | .drainStatus => do
      let (drained, complete) ← drain answers
      observation tx step.stepId payloadDigest (.drained drained complete) fun tx =>
        if tx.mode = .coldStop ∧ tx.state ∈ [.barrier, .frozen] then { tx with state := .draining }
        else tx
  | .reserve => admin.reserve files answers step payload coordinator payloadDigest tx
  | _ =>
      match tx with
      | none => WritePlan.fail "transaction_missing"
      | some tx =>
          if operation = .retire ∧ tx.mode = .liveTransfer then
            admin.retireLive answers step payload payloadDigest tx
          else admin.revocable files answers operation step payload payloadDigest tx

/-- The checks that stand before every step. -/
def precheck (operation : Primitive) (step : AdministrationStep)
    (payload : AdministrationPayload) : UpgradePlan Unit := do
  WritePlan.require (step.valid = true) "invalid_format"
  WritePlan.require (operation ∈ primitives) "administration_unknown"
  WritePlan.require (step.payloadDigest = host.payloadDigest payload) "payload_digest_mismatch"
  WritePlan.require (step.expectedGeneration = admin.marker.generation ∧
    step.expectedPublicationEpoch = admin.marker.publicationEpoch) "source_authority_mismatch"
  WritePlan.require (¬admin.indeterminate = true) "reconciliation_required"

/-- A step that is recorded gives its result. -/
def replay (operation : Primitive) (step : AdministrationStep) (coordinator : ProcessIdentity)
    (payloadDigest : JsString) (tx : Option ComponentTransaction) :
    UpgradePlan (Option StepResult) :=
  match tx with
  | none => pure none
  | some tx =>
      if operation = .reserve then pure none
      else do
        WritePlan.require (matchesTransaction step coordinator tx = true) "transaction_authority_mismatch"
        WritePlan.ofExcept (replayed operation step.stepId payloadDigest tx)

/-- `execute(operation, step, payload, coordinator)` -/
def execute (operation : Primitive) (step : AdministrationStep) (payload : AdministrationPayload)
    (coordinator : ProcessIdentity) : UpgradePlan StepResult := do
  admin.precheck host operation step payload
  let payloadDigest := host.stepDigest operation step payload coordinator
  let observed ← observeLivePublication answers files.transaction
  WritePlan.ofExcept (answers.check .verifyAuthority)
  WritePlan.ofExcept (answers.check .reconcileParticipants)
  match ← replay operation step coordinator payloadDigest observed with
  | some result => return result
  | none => admin.take files answers operation step payload coordinator payloadDigest observed

/-! ## The deadline and the operator -/

/-- `expire()` -/
def expire : UpgradePlan Bool :=
  match files.transaction with
  | none => pure false
  | some tx =>
      if tx.state.irrevocable ∨ tx.state = .aborted then pure false
      else do
        WritePlan.require (¬admin.indeterminate = true) "reconciliation_required"
        match ← observeLivePublication answers (some tx) with
        | none => return false
        | some tx =>
            if tx.state = .recoveryBlocked ∨ !tx.barrierDeadline.any (· ≤ answers.now) then
              return false
            else
              let (_, complete) ← drain answers
              if complete then
                let _ ← tx.update (fun tx => { tx with state := .aborted, barrierDeadline := none })
                  none
                WritePlan.ofExcept (answers.check .reconcileAborted)
                return true
              else
                if tx.state ≠ .drainBlocked then
                  let _ ← tx.update (.toState .drainBlocked) none
                return false

/-- `writePause(paused)` -/
def writePause (paused : Bool) : UpgradePlan Unit :=
  WritePlan.write (.pause files.pause {
    revision := (files.pause.elim 0 Pause.revision) + 1
    paused := paused
    requestedAt := answers.now
    generation := admin.marker.generation })

/-- `reconcile()`; it writes nothing. -/
def reconcile : UpgradePlan Unit := do
  WritePlan.ofExcept (answers.check .verifyAuthority)
  WritePlan.ofExcept answers.reconcile

/-- `poll()`, where `tx` and `paused` are what is read of the transaction and the pause. -/
def poll (tx : Option ComponentTransaction) (paused : Bool) : UpgradePlan Unit :=
  if admin.indeterminate then reconcile answers
  else do
    let published ←
      if tx.any fun tx => tx.mode = .liveTransfer && tx.state ≠ .aborted then
        WritePlan.ofExcept answers.stillPublished
      else pure true
    if published ∧ paused ∧ !files.control.operatorStopCommitted ∧
        files.control.sourceGeneration = admin.marker.generation then
      let (_, complete) ← drain answers
      if complete then
        WritePlan.ofExcept (answers.check .verifyAuthority)
        WritePlan.write (.control files.control { files.control with
          revision := files.control.revision + 1
          operatorStopCommitted := true })

/-- Whether `operatorStop()` aborts a transaction. -/
def stops (tx : ComponentTransaction) : UpgradePlan Bool :=
  if tx.state.irrevocable ∨ tx.state = .aborted then pure false
  else if tx.mode = .liveTransfer then
    if tx.state = .recoveryBlocked then pure false else WritePlan.ofExcept answers.sourcePublished
  else pure true

/-- The abort of `operatorStop()`, and the transaction after it. -/
def stopTransaction : UpgradePlan (Option ComponentTransaction) :=
  match files.transaction with
  | none => pure none
  | some tx => do
      if ← stops answers tx then
        let aborted ← tx.update (.toState .aborted) none
        WritePlan.ofExcept (answers.check .reconcileAborted)
        return some aborted
      else return some tx

/-- `operatorStop()` -/
def operatorStop : UpgradePlan Unit := do
  if !files.paused then admin.writePause files answers true
  let tx ← stopTransaction files answers
  admin.poll files answers tx true

/-- `resume()` -/
def resume : UpgradePlan Unit := admin.writePause files answers false

end Administration

end H2a.Handover
