import H2a.Handover.CommitmentRuns
/-!
# Commitments are kept

A step that is recorded gives its result and writes nothing, save that a live transfer whose
publication is contradicted is blocked first.
-/

namespace H2a.Handover

open H2a.Library

namespace Administration

/-- What a recorded step passes before it gives its result. -/
structure Passes (host : UpgradeHost) (admin : Administration) (files : UpgradeFiles)
    (answers : Answers) (operation : Primitive) (step : AdministrationStep)
    (payload : AdministrationPayload) (coordinator : ProcessIdentity) (tx : ComponentTransaction) :
    Prop where
  precheck : (admin.precheck host operation step payload).result = .ok ()
  published : tx.mode = .liveTransfer → tx.state ∉ [.aborted, .published, .retired, .recoveryBlocked] →
    answers.sourcePublished = .ok true
  verifyAuthority : answers.check .verifyAuthority = .ok ()
  reconcileParticipants : answers.check .reconcileParticipants = .ok ()
  own : matchesTransaction step coordinator tx = true
  unpaused : operation = .reserve → files.paused = false

section Replays

variable {host : UpgradeHost} {admin : Administration} {files : UpgradeFiles} {answers : Answers}
  {operation : Primitive} {step : AdministrationStep} {payload : AdministrationPayload}
  {coordinator : ProcessIdentity} {payloadDigest stepId : JsString} {tx : ComponentTransaction}
  {prior : StepRecord}

/-- What is left of a step once the transaction is observed. -/
def rest (admin : Administration) (files : UpgradeFiles) (answers : Answers) (operation : Primitive)
    (step : AdministrationStep) (payload : AdministrationPayload) (coordinator : ProcessIdentity)
    (payloadDigest : JsString) (observed : Option ComponentTransaction) : UpgradePlan StepResult := do
  match ← replay operation step coordinator payloadDigest observed with
  | some result => return result
  | none => admin.take files answers operation step payload coordinator payloadDigest observed

end Replays

end Administration

/-! ## Every run -/

/-- Over any run a transaction keeps to the graph of its states and stays the same upgrade; once it
is over it does not move, it has at most three attempts of a successor, and its records are kept. -/
theorem lifecycle_followed (host : UpgradeHost) (admin : Administration)
    (actions more : List UpgradeAction) (ref : JsString) (tx : ComponentTransaction)
    (hget : (UpgradeWorld.run host admin actions).files.transactions.get ref = some tx) :
    ∃ tx', (UpgradeWorld.run host admin (actions ++ more)).files.transactions.get ref = some tx' ∧
      tx'.identity = tx.identity ∧ TransactionState.Leads tx.mode tx.state tx'.state ∧
      (tx.state.final = true → tx'.state = tx.state) ∧
      tx'.successorReservation.attempts ≤ 3 ∧ tx.Remembers tx' := by
  have hinv := UpgradeWorld.inv_run host admin actions
  obtain ⟨tx', hget', hbecomes⟩ := hinv.stays host more hget
  have hrun : UpgradeWorld.run host admin (actions ++ more) =
      more.foldl (UpgradeWorld.step host) (UpgradeWorld.run host admin actions) :=
    List.foldl_append ..
  rw [hrun]
  exact ⟨tx', hget', hbecomes.same, hbecomes.leads, hbecomes.leads.final,
    (hinv.foldl host more).files.attempts ref tx' hget', hbecomes.remembers⟩

/-! ## A cold stop -/

namespace ColdStop

def generation : JsString := js "00000000-0000-4000-8000-000000000001"

def digest : JsString := js "sha256:" ++ ⟨List.replicate 64 48⟩

def identity : ProcessIdentity := ⟨js "machine", js "boot", js "pid", js "net", 1, 1⟩

def source : UpgradeSource :=
  ⟨generation, ⟨generation, 1⟩, identity, js "1.0.0", js "build-1", digest⟩

def target : UpgradeTarget := ⟨js "2.0.0", js "build-2", digest, js "h2a.js"⟩

def host : UpgradeHost := ⟨fun _ => digest, fun _ step _ _ => step.stepId⟩

def admin : Administration := ⟨source, true, false, false, true, false⟩

def payload : AdministrationPayload where
  target := some target
  selectionEpoch := some 1
  precheckEvidenceDigest := none
  controllerEpoch := none
  authorizationDigest := none
  deadline := some 9
  publicationDigest := none
  barrierId := some (js "barrier")
  sourceGeneration := some generation
  sourceProcessIdentity := some identity
  expectedDrainRevision := some 0
  expectedInventoryRevision := some 1
  targetBuildId := some target.buildId
  targetManifestDigest := some target.manifestDigest
  targetEntrypoint := some target.entrypoint

def answers : Answers where
  now := 1
  later := 1
  sourcePublished := .ok true
  stillPublished := .ok true
  check := fun _ => .ok ()
  inventory := .ok ⟨1, 0, []⟩
  drain := .ok ⟨some 0, some 0, some 0, some 0, some 0, some 0⟩
  authorization := .ok digest
  publication := .ok digest
  freeze := .ok 1
  checkpoint := .ok []
  barrierId := js "barrier"
  reconcile := .ok ()

def execute (operation : Primitive) (stepId : JsString) : UpgradeAction :=
  .call 0 (.execute operation ⟨.coldStop, js "upgrade", js "handover", 1, generation,
    ⟨generation, 1⟩, 1, stepId, digest⟩ payload identity) answers none

/-- A coordinator reserves, sets the barrier and commits the stop. -/
def actions : List UpgradeAction :=
  [execute .reserve (js "1"), execute .barrier (js "2"), execute .commitStop (js "3")]

/-- The process stops, and a starter reserves an attempt. -/
def more : List UpgradeAction := [.stopServer 0 none, .reserveSuccessorAttempt true none]

end ColdStop

theorem lifecycle_followed_cold_stop : ∃ tx',
    (UpgradeWorld.run ColdStop.host ColdStop.admin
      (ColdStop.actions ++ ColdStop.more)).files.transactions.get (js "handover") = some tx' ∧
    TransactionState.Leads .coldStop .stopCommitted tx'.state ∧
    tx'.successorReservation.attempts ≤ 3 := by
  have hcommitted : ((UpgradeWorld.run ColdStop.host ColdStop.admin
      ColdStop.actions).files.transactions.get (js "handover")).map
        (fun tx => (tx.mode, tx.state)) = some (.coldStop, .stopCommitted) := by
    decide +kernel
  obtain ⟨tx, hget, hmode⟩ := Option.map_eq_some_iff.mp hcommitted
  obtain ⟨tx', hget', -, hleads, -, hattempts, -⟩ := lifecycle_followed ColdStop.host ColdStop.admin
    ColdStop.actions ColdStop.more (js "handover") tx hget
  obtain ⟨hmode, hstate⟩ := Prod.mk.inj hmode
  rw [hmode, hstate] at hleads
  exact ⟨tx', hget', hleads, hattempts⟩

end H2a.Handover
