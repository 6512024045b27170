import H2a.Handover.Administration
/-!
# Upgrades

The state directory of a service over time: its central processes start and stop, each with a
`ColdAdministration`, starters make a successor, and any of them may die between two writes
(`startCentralMcpServer` of `packages/h2a/src/runtime/mcp-central.ts` and
`packages/h2a/src/runtime/handover/successor.js`).
-/

namespace H2a.Handover

open H2a.Library

/-! ## Calls of an administration -/

inductive UpgradeCall where
  | execute (operation : Primitive) (step : AdministrationStep) (payload : AdministrationPayload)
      (coordinator : ProcessIdentity)
  | expire
  | operatorStop
  | resume
  | poll
  | reconcile
  | admissionsOpen

/-- The writes of a call. -/
def UpgradeCall.plan (host : UpgradeHost) (admin : Administration) (files : UpgradeFiles)
    (answers : Answers) : UpgradeCall → UpgradePlan Unit
  | .execute operation step payload coordinator =>
      (fun _ => ()) <$> admin.execute host files answers operation step payload coordinator
  | .expire => (fun _ => ()) <$> admin.expire files answers
  | .operatorStop => admin.operatorStop files answers
  | .resume => admin.resume files answers
  | .poll => admin.poll files answers files.transaction files.paused
  | .reconcile => Administration.reconcile answers
  | .admissionsOpen => (fun _ => ()) <$> admin.admissionsOpen files answers

/-- Whether a call reconciles. -/
def UpgradeCall.reconciles (admin : Administration) : UpgradeCall → Bool
  | .reconcile => true
  | .poll | .operatorStop => admin.indeterminate
  | _ => false

/-! ## Starters and processes -/

/-- The close of a central process: `closeOwnControl`, and a committed stop is recorded. -/
def stopServer (admin : Administration) (files : UpgradeFiles) : UpgradePlan Unit := do
  let control := files.control
  if control.sourceGeneration = admin.marker.generation ∧
      control.ownerIdentity = admin.marker.processIdentity then
    WritePlan.write (.control control { control with
      revision := control.revision + 1
      ownerActive := false
      operatorStopped := control.operatorStopCommitted })
  match files.transaction with
  | none => pure ()
  | some tx =>
      if tx.state = .stopCommitted then
        let _ ← tx.update (.toState .stopped) none

/-- `reserveSuccessorAttempt`; `authorized` says that the source is dead, that a candidate that is
starting is, and that the selection is the one reserved. -/
def reserveSuccessorAttempt (files : UpgradeFiles) (authorized : Bool) : UpgradePlan Unit :=
  match files.transaction with
  | none => WritePlan.fail "successor_reservation_missing"
  | some tx => do
      WritePlan.require (¬files.paused = true) "deferred_paused"
      WritePlan.require (authorized = true) "source_stop_unproven"
      WritePlan.require (tx.state ∈ [.stopCommitted, .stopped, .starting]) "successor_state_invalid"
      WritePlan.require (tx.successorReservation.attempts < 3) "successor_failed"
      let _ ← tx.update (fun tx => { tx with
        state := .starting
        successorReservation := { tx.successorReservation with
          attempts := tx.successorReservation.attempts + 1
          candidateIdentity := none } }) none

/-- `recordSuccessor` -/
def recordSuccessor (files : UpgradeFiles) (identity : ProcessIdentity) : UpgradePlan Unit :=
  match files.transaction with
  | none => WritePlan.fail "successor_attempt_stale"
  | some tx => do
      WritePlan.require (tx.state = .starting) "successor_attempt_stale"
      WritePlan.require (∀ candidate ∈ tx.successorReservation.candidateIdentity, candidate = identity)
        "candidate_conflict"
      let _ ← tx.update (fun tx => { tx with
        successorReservation := { tx.successorReservation with
          candidateIdentity := some identity } }) none

/-- `failSuccessor` of a candidate that is dead, with the digest of its reason. -/
def failSuccessor (files : UpgradeFiles) (reason reasonDigest : JsString) (fatal : Bool) :
    UpgradePlan Unit :=
  match files.transaction with
  | none => WritePlan.fail "successor_attempt_stale"
  | some tx => do
      WritePlan.require (tx.state = .starting) "successor_attempt_stale"
      let attempts := tx.successorReservation.attempts
      let _ ← tx.update
        (.toState (if fatal ∨ 3 ≤ attempts then .successorFailed else .stopped))
        (some (js "successor-attempt-" ++ js (toString attempts), ⟨reasonDigest, .starter reason⟩))

/-- Whether a transaction lets a central process start. -/
def allowsStart (marker : UpgradeSource) (successor paused : Bool) (tx : ComponentTransaction) :
    Bool :=
  tx.state ∈ [.aborted, .ready] ||
    (successor && tx.state = .starting &&
      tx.successorReservation.candidateIdentity = some marker.processIdentity && !paused)

/-- The start of a central process: the control becomes its own, and a successor makes its
transaction `READY`. -/
def startServer (admin : Administration) (files : UpgradeFiles) (successor : Bool) :
    UpgradePlan Unit := do
  WritePlan.require (∀ tx ∈ files.transaction, allowsStart admin.marker successor files.paused tx = true)
    "successor_reservation_required"
  match files.pause with
  | some pause =>
      if pause.paused then
        WritePlan.write (.pause (some pause) { pause with revision := pause.revision + 1, paused := false })
  | none => pure ()
  WritePlan.write (.control files.control { files.control with
    revision := files.control.revision + 1
    sourceGeneration := admin.marker.generation
    ownerIdentity := admin.marker.processIdentity
    ownerActive := true
    operatorStopCommitted := false
    operatorStopped := false })
  match files.transaction with
  | some tx =>
      if successor ∧ tx.state = .starting then
        let _ ← tx.update (.toState .ready) none
  | none => pure ()

/-! ## The world -/

/-- The directory and the central processes, dead ones as `none`; `generations` are the random
generations that were drawn. -/
structure UpgradeWorld where
  files : UpgradeFiles
  administrations : List (Option Administration)
  generations : List JsString

/-- The first central process, which has constructed its administration. -/
def UpgradeWorld.opened (admin : Administration) : UpgradeWorld where
  files := {
    control := {
      revision := 1
      activeTransaction := none
      sourceGeneration := admin.marker.generation
      ownerIdentity := admin.marker.processIdentity
      ownerActive := true
      transactionEpoch := 0
      operatorStopCommitted := false
      operatorStopped := false }
    transactions := .empty
    pause := none
    pins := .empty }
  administrations := [some { admin with indeterminate := false }]
  generations := [admin.marker.generation]

/-- `fault` is what strikes a write. -/
inductive UpgradeAction where
  | call (which : Nat) (call : UpgradeCall) (answers : Answers) (fault : Option (Nat × WritePlan.Fault))
  | crash (which : Nat)
  | start (admin : Administration) (successor : Bool) (fault : Option (Nat × WritePlan.Fault))
  | stopServer (which : Nat) (fault : Option (Nat × WritePlan.Fault))
  | reserveSuccessorAttempt (authorized : Bool) (fault : Option (Nat × WritePlan.Fault))
  | recordSuccessor (identity : ProcessIdentity) (fault : Option (Nat × WritePlan.Fault))
  | failSuccessor (reason reasonDigest : JsString) (fatal : Bool)
      (fault : Option (Nat × WritePlan.Fault))

namespace UpgradeWorld

variable (host : UpgradeHost) (world : UpgradeWorld)

/-- The files after the writes of a plan. -/
def perform {α : Type} (fault : Option (Nat × WritePlan.Fault)) (plan : UpgradePlan α) :
    UpgradeFiles × WritePlan.Ended :=
  WritePlan.perform UpgradeWrite.apply fault world.files plan.writes

/-- The administration after a call. -/
def after (admin : Administration) (call : UpgradeCall) (answers : Answers) :
    WritePlan.Ended → Option Administration
  | .crashed => none
  | .indeterminate => some { admin with indeterminate := true }
  | .threw => some admin
  | .completed =>
      if call.reconciles admin ∧ (Administration.reconcile answers).result = .ok () then
        some { admin with indeterminate := false }
      else some admin

def step (world : UpgradeWorld) : UpgradeAction → UpgradeWorld
  | .call which call answers fault =>
      match world.administrations[which]? with
      | some (some admin) =>
          let (files, ended) := world.perform fault (call.plan host admin world.files answers)
          { world with
            files := files
            administrations := world.administrations.set which (after admin call answers ended) }
      | _ => world
  | .crash which => { world with administrations := world.administrations.set which none }
  | .start admin successor fault =>
      if admin.marker.generation ∈ world.generations then world
      else
        let (files, ended) := world.perform fault (startServer admin world.files successor)
        { files := files
          administrations := world.administrations ++
            [if ended = .completed then some { admin with indeterminate := false } else none]
          generations := world.generations ++ [admin.marker.generation] }
  | .stopServer which fault =>
      match world.administrations[which]? with
      | some (some admin) =>
          { world with
            files := (world.perform fault (Handover.stopServer admin world.files)).1
            administrations := world.administrations.set which none }
      | _ => world
  | .reserveSuccessorAttempt authorized fault =>
      { world with
        files := (world.perform fault
          (Handover.reserveSuccessorAttempt world.files authorized)).1 }
  | .recordSuccessor identity fault =>
      { world with
        files := (world.perform fault (Handover.recordSuccessor world.files identity)).1 }
  | .failSuccessor reason reasonDigest fatal fault =>
      { world with
        files := (world.perform fault
          (Handover.failSuccessor world.files reason reasonDigest fatal)).1 }

/-- A run from the first process. -/
def run (admin : Administration) (actions : List UpgradeAction) : UpgradeWorld :=
  actions.foldl (step host) (opened admin)

end UpgradeWorld

end H2a.Handover
