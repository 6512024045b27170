import H2a.Handover.Lifecycle
import H2a.Handover.Upgrade
/-!
# What a write can do to an upgrade

Every write of a call, of a starter and of a process that starts or stops is one of a few kinds
(`Legal`), and each kind keeps the invariant of the state directory: while the control belongs to
the source of a transaction that is committed, that transaction is the active one.
-/

namespace H2a.Handover

open H2a.Library

/-! ## Transactions -/

/-- A transaction without what its writes change. -/
def ComponentTransaction.identity (tx : ComponentTransaction) : ComponentTransaction :=
  { tx with
    revision := 0
    state := .reserved
    barrierDeadline := none
    checkpointReferences := []
    stepResults := .empty
    successorReservation := { tx.successorReservation with
      attempts := 0
      candidateIdentity := none } }

/-- The name of the record that a starter leaves of an attempt. -/
def attemptStep (attempts : Nat) : JsString := js "successor-attempt-" ++ js (toString attempts)

/-- A record of a step stays as it is, until a retirement that it published is done, or a starter
leaves its own under that name. -/
def ComponentTransaction.Remembers (old new : ComponentTransaction) : Prop :=
  ∀ stepId record, old.stepResults.get stepId = some record →
    new.stepResults.get stepId = some record ∨
      new.state = .retired ∧ (∃ publicationDigest markerDigest,
        record.result = .published publicationDigest markerDigest) ∨
      ∃ attempts, stepId = attemptStep attempts

/-- A live transfer is irrevocable by its publication only. -/
def ComponentTransaction.Fits (tx : ComponentTransaction) : Prop :=
  tx.mode = .liveTransfer → tx.state.irrevocable = true → tx.state.transferred = true

/-- A publication is recorded from `PUBLISHED` on, there is one digest of it, and a transaction that
is retired has its receipt. -/
structure ComponentTransaction.Receipts (tx : ComponentTransaction) : Prop where
  early : tx.state.transferred = false → ∀ r ∈ tx.results, r.publicationDigest = none
  one : ∀ r ∈ tx.results, ∀ r' ∈ tx.results, ∀ d d', r.publicationDigest = some d →
    r'.publicationDigest = some d' → d = d'
  receipt : tx.state = .retired → ∃ generation d, StepResult.retired generation d ∈ tx.results

/-- What the writes of a call may do: `commits` is what it takes to commit a cold stop of a
transaction, `reserves` what it takes to make a reservation active. -/
structure Licence where
  commits : ComponentTransaction → Prop
  reserves : ComponentTransaction → Prop

/-- A call that does neither. -/
def Licence.none : Licence := ⟨fun _ => False, fun _ => False⟩

section Writes

variable (licence : Licence) (generations : List JsString)

/-- What becomes of the active transaction. -/
structure Move (s : UpgradeFiles) (old new : ComponentTransaction) : Prop where
  same : new.identity = old.identity
  leads : new.state = old.state ∨ TransactionState.leadsTo old.mode old.state new.state = true
  attempts : old.successorReservation.attempts ≤ 3 → new.successorReservation.attempts ≤ 3
  remembers : old.Remembers new
  receipts : new.Receipts
  commits : new.state = .stopCommitted → old.state = .stopCommitted ∨ licence.commits old
  ready : new.state = .ready →
    old.state = .ready ∨ s.control.sourceGeneration ≠ old.source.generation

/-- The kinds of writes. -/
inductive Legal (s : UpgradeFiles) : UpgradeWrite → Prop where
  | moved {tx new : ComponentTransaction} (hactive : s.transaction = some tx)
      (hmove : Move licence s tx new) : Legal s (.transaction tx.handoverId (some tx) new)
  | created {value : ComponentTransaction} (hstate : value.state.irrevocable = false)
      (hattempts : value.successorReservation.attempts = 0) (hreceipts : value.Receipts)
      (hsource : value.source.generation ∈ generations)
      (hactive : s.control.activeTransaction ≠ some value.handoverId) :
      Legal s (.transaction value.handoverId none value)
  | activated {value : ComponentTransaction} {revision : Nat}
      (hthere : s.transactions.get value.handoverId = some value)
      (hreserves : licence.reserves value)
      (hrevoked : ∀ old, s.transaction = some old → old.state.irrevocable = true →
        s.control.sourceGeneration ≠ old.source.generation) :
      Legal s (.control s.control { s.control with
        revision := revision
        activeTransaction := some value.handoverId
        transactionEpoch := value.transactionEpoch })
  | kept {control : ComponentControl}
      (hactive : control.activeTransaction = s.control.activeTransaction)
      (hsource : control.sourceGeneration = s.control.sourceGeneration)
      (hepoch : control.transactionEpoch = s.control.transactionEpoch) :
      Legal s (.control s.control control)
  | started {control : ComponentControl}
      (hactive : control.activeTransaction = s.control.activeTransaction)
      (hsource : control.sourceGeneration ∈ generations)
      (hfresh : ∀ ref tx, s.transactions.get ref = some tx →
        tx.source.generation ≠ control.sourceGeneration)
      (hepoch : control.transactionEpoch = s.control.transactionEpoch) :
      Legal s (.control s.control control)
  | pause {observed : Option Pause} {value : Pause} : Legal s (.pause observed value)
  | pins {reference : JsString} {value : ImagePins} : Legal s (.pins reference value)

section Moves

variable {licence} {s : UpgradeFiles} {old new : ComponentTransaction}

theorem Move.handoverId (h : Move licence s old new) : new.handoverId = old.handoverId :=
  (congrArg ComponentTransaction.handoverId h.same :)

theorem Move.source (h : Move licence s old new) : new.source = old.source :=
  (congrArg ComponentTransaction.source h.same :)

theorem Move.transactionEpoch (h : Move licence s old new) :
    new.transactionEpoch = old.transactionEpoch :=
  (congrArg ComponentTransaction.transactionEpoch h.same :)

theorem Move.mode (h : Move licence s old new) : new.mode = old.mode :=
  (congrArg ComponentTransaction.mode h.same :)

theorem Move.reaches (h : Move licence s old new) :
    TransactionState.Leads old.mode old.state new.state := by
  rcases h.leads with heq | hleads
  · rw [heq]
  · exact .single hleads

theorem Move.fits (h : Move licence s old new) (hold : old.Fits) : new.Fits := by
  intro hmode hnew
  rw [h.mode] at hmode
  rcases h.leads with heq | hleads
  · rw [heq] at hnew ⊢
    exact hold hmode hnew
  · rw [hmode] at hleads
    exact TransactionState.transferred_of_leadsTo hleads (hold hmode) hnew

end Moves

/-! ## The invariant -/

/-- What holds of the state directory between two writes. -/
structure UpgradeInv (s : UpgradeFiles) : Prop where
  named : ∀ ref tx, s.transactions.get ref = some tx → tx.handoverId = ref
  fits : ∀ ref tx, s.transactions.get ref = some tx → tx.Fits
  receipts : ∀ ref tx, s.transactions.get ref = some tx → tx.Receipts
  attempts : ∀ ref tx, s.transactions.get ref = some tx → tx.successorReservation.attempts ≤ 3
  there : ∀ ref, s.control.activeTransaction = some ref → ∃ tx, s.transactions.get ref = some tx
  epoch : ∀ tx, s.transaction = some tx → tx.transactionEpoch ≤ s.control.transactionEpoch
  active : ∀ ref tx, s.transactions.get ref = some tx → tx.state.irrevocable = true →
    s.control.sourceGeneration = tx.source.generation → s.control.activeTransaction = some ref
  ready : ∀ ref tx, s.transactions.get ref = some tx → tx.state = .ready →
    s.control.sourceGeneration ≠ tx.source.generation
  known : ∀ ref tx, s.transactions.get ref = some tx → tx.source.generation ∈ generations
  owner : s.control.sourceGeneration ∈ generations

variable {licence generations} {s s' : UpgradeFiles} {w : UpgradeWrite}

theorem transaction_eq_some {tx : ComponentTransaction} :
    s.transaction = some tx ↔
      ∃ ref, s.control.activeTransaction = some ref ∧ s.transactions.get ref = some tx := by
  rw [UpgradeFiles.transaction, Option.bind_eq_some_iff]

/-- The active transaction is under its name. -/
theorem UpgradeInv.of_active (h : UpgradeInv generations s) {tx : ComponentTransaction}
    (hactive : s.transaction = some tx) :
    s.control.activeTransaction = some tx.handoverId ∧
      s.transactions.get tx.handoverId = some tx := by
  obtain ⟨ref, href, hget⟩ := transaction_eq_some.mp hactive
  have hname := h.named ref tx hget
  rw [hname]
  exact ⟨href, hget⟩

theorem transaction_set {ref : JsString} (hactive : s.control.activeTransaction = some ref)
    (value : ComponentTransaction) :
    UpgradeFiles.transaction { s with transactions := s.transactions.set ref value } = some value :=
  transaction_eq_some.mpr ⟨ref, hactive, JsMap.get_set_self ..⟩

/-- A transaction that is not active is set without a change of the active one. -/
theorem transaction_set_of_inactive {ref : JsString}
    (hactive : s.control.activeTransaction ≠ some ref) (value : ComponentTransaction) :
    UpgradeFiles.transaction { s with transactions := s.transactions.set ref value } =
      s.transaction := by
  apply Option.ext
  intro old
  rw [transaction_eq_some, transaction_eq_some]
  refine exists_congr fun ref' => and_congr_right fun href => ?_
  dsimp only at href ⊢
  rw [JsMap.get_set_of_ne]
  rintro rfl
  exact hactive href

theorem apply_control {observed value : ComponentControl}
    (h : UpgradeWrite.apply s (.control observed value) = some s') :
    s' = { s with control := value } := by
  rw [UpgradeWrite.apply] at h
  split at h
  · exact (Option.some.inj h).symm
  · cases h

theorem apply_transaction {ref : JsString} {observed : Option ComponentTransaction}
    {value : ComponentTransaction}
    (h : UpgradeWrite.apply s (.transaction ref observed value) = some s') :
    s.transactions.get ref = observed ∧
      s' = { s with transactions := s.transactions.set ref value } := by
  rw [UpgradeWrite.apply] at h
  split at h
  · exact ⟨‹_›, (Option.some.inj h).symm⟩
  · cases h

theorem apply_pause {observed : Option Pause} {value : Pause}
    (h : UpgradeWrite.apply s (.pause observed value) = some s') :
    s' = { s with pause := some value } := by
  rw [UpgradeWrite.apply] at h
  split at h
  · exact (Option.some.inj h).symm
  · cases h

theorem apply_pins {ref : JsString} {value : ImagePins}
    (h : UpgradeWrite.apply s (.pins ref value) = some s') :
    s' = { s with pins := s.pins.set ref value } := by
  rw [UpgradeWrite.apply] at h
  split at h
  · cases h
  · exact (Option.some.inj h).symm

/-- A write to a transaction, with what it needs of the new value. -/
theorem UpgradeInv.set (h : UpgradeInv generations s) {value : ComponentTransaction}
    (hfits : value.Fits) (hreceipts : value.Receipts)
    (hattempts : value.successorReservation.attempts ≤ 3)
    (hepoch : s.control.activeTransaction = some value.handoverId →
      value.transactionEpoch ≤ s.control.transactionEpoch)
    (hactive : value.state.irrevocable = true →
      s.control.sourceGeneration = value.source.generation →
        s.control.activeTransaction = some value.handoverId)
    (hready : value.state = .ready → s.control.sourceGeneration ≠ value.source.generation)
    (hknown : value.source.generation ∈ generations) :
    UpgradeInv generations
      { s with transactions := s.transactions.set value.handoverId value } := by
  have hcases : ∀ {ref : JsString} {tx : ComponentTransaction} {P : JsString → ComponentTransaction → Prop},
      (s.transactions.set value.handoverId value).get ref = some tx →
        (∀ ref tx, s.transactions.get ref = some tx → P ref tx) → P value.handoverId value →
          P ref tx := by
    intro ref tx P hget hold hnew
    rw [JsMap.get_set] at hget
    split at hget
    · rename_i heq
      rw [heq, ← Option.some.inj hget]
      exact hnew
    · exact hold ref tx hget
  refine ⟨?_, ?_, ?_, ?_, ?_, ?_, ?_, ?_, ?_, h.owner⟩
  · exact fun ref tx hget => hcases (P := fun ref tx => tx.handoverId = ref) hget h.named rfl
  · exact fun ref tx hget => hcases (P := fun _ tx => tx.Fits) hget h.fits hfits
  · exact fun ref tx hget => hcases (P := fun _ tx => tx.Receipts) hget h.receipts hreceipts
  · exact fun ref tx hget => hcases (P := fun _ tx => tx.successorReservation.attempts ≤ 3) hget
      h.attempts hattempts
  · intro ref href
    dsimp only
    rw [JsMap.get_set]
    split
    · exact ⟨value, rfl⟩
    · exact h.there ref href
  · intro tx htx
    obtain ⟨ref, href, hget⟩ := transaction_eq_some.mp htx
    exact hcases (P := fun ref tx => s.control.activeTransaction = some ref →
      tx.transactionEpoch ≤ s.control.transactionEpoch) hget
      (fun ref tx hget href => h.epoch tx (transaction_eq_some.mpr ⟨ref, href, hget⟩)) hepoch href
  · exact fun ref tx hget => hcases (P := fun ref tx => tx.state.irrevocable = true →
      s.control.sourceGeneration = tx.source.generation →
        s.control.activeTransaction = some ref) hget h.active hactive
  · exact fun ref tx hget => hcases (P := fun _ tx => tx.state = .ready →
      s.control.sourceGeneration ≠ tx.source.generation) hget h.ready hready
  · exact fun ref tx hget => hcases (P := fun _ tx => tx.source.generation ∈ generations) hget
      h.known hknown

/-- Every write that is allowed keeps the invariant. -/
theorem UpgradeInv.apply (h : UpgradeInv generations s) (hw : Legal licence generations s w)
    (happly : UpgradeWrite.apply s w = some s') : UpgradeInv generations s' := by
  cases hw with
  | @moved tx new hactive hmove =>
      obtain ⟨-, rfl⟩ := apply_transaction happly
      obtain ⟨href, hget⟩ := h.of_active hactive
      rw [← hmove.handoverId]
      refine h.set (hmove.fits (h.fits _ tx hget)) hmove.receipts
        (hmove.attempts (h.attempts _ tx hget)) ?_ ?_ ?_ ?_
      · intro _
        rw [hmove.transactionEpoch]
        exact h.epoch tx hactive
      · intro _ _
        rw [hmove.handoverId]
        exact href
      · intro hready
        rw [hmove.source]
        rcases hmove.ready hready with hold | hother
        · exact h.ready _ tx hget hold
        · exact hother
      · rw [hmove.source]
        exact h.known _ tx hget
  | @created value hstate hattempts hreceipts hsource hactive =>
      obtain ⟨-, rfl⟩ := apply_transaction happly
      refine h.set (fun _ hirrevocable => by rw [hstate] at hirrevocable; cases hirrevocable)
        hreceipts (by omega) (fun href => absurd href hactive) ?_ ?_ hsource
      · intro hirrevocable
        rw [hstate] at hirrevocable
        cases hirrevocable
      · intro hready
        rw [hready] at hstate
        cases hstate
  | @activated value revision hthere hreserves hrevoked =>
      obtain rfl := apply_control happly
      refine ⟨h.named, h.fits, h.receipts, h.attempts, ?_, ?_, ?_, h.ready, h.known, h.owner⟩
      · intro ref href
        obtain rfl := Option.some.inj href
        exact ⟨value, hthere⟩
      · intro tx htx
        obtain ⟨ref, href, hget⟩ := transaction_eq_some.mp htx
        obtain rfl := Option.some.inj href
        dsimp only at hget
        rw [hthere] at hget
        obtain rfl := Option.some.inj hget
        exact Nat.le_refl _
      · -- no committed transaction was of this source
        intro ref tx hget hirrevocable hsource
        have hactive := h.active ref tx hget hirrevocable hsource
        have htx : s.transaction = some tx := transaction_eq_some.mpr ⟨ref, hactive, hget⟩
        exact absurd hsource (hrevoked tx htx hirrevocable)
  | @kept control hactive hsource hepoch =>
      obtain rfl := apply_control happly
      refine ⟨h.named, h.fits, h.receipts, h.attempts, ?_, ?_, ?_, ?_, h.known, ?_⟩
      · intro ref href
        exact h.there ref (hactive.symm.trans href)
      · intro tx htx
        obtain ⟨ref, href, hget⟩ := transaction_eq_some.mp htx
        dsimp only
        rw [hepoch]
        exact h.epoch tx (transaction_eq_some.mpr ⟨ref, hactive.symm.trans href, hget⟩)
      · intro ref tx hget hirrevocable hown
        exact hactive.trans (h.active ref tx hget hirrevocable (hsource.symm.trans hown))
      · intro ref tx hget hready hown
        exact h.ready ref tx hget hready (hsource.symm.trans hown)
      · exact hsource ▸ h.owner
  | @started control hactive hsource hfresh hepoch =>
      obtain rfl := apply_control happly
      refine ⟨h.named, h.fits, h.receipts, h.attempts, ?_, ?_, ?_, ?_, h.known, hsource⟩
      · intro ref href
        exact h.there ref (hactive.symm.trans href)
      · intro tx htx
        obtain ⟨ref, href, hget⟩ := transaction_eq_some.mp htx
        dsimp only
        rw [hepoch]
        exact h.epoch tx (transaction_eq_some.mpr ⟨ref, hactive.symm.trans href, hget⟩)
      · intro ref tx hget _ hown
        exact absurd hown.symm (hfresh ref tx hget)
      · intro ref tx hget _ hown
        exact hfresh ref tx hget hown.symm
  | pause =>
      obtain rfl := apply_pause happly
      exact ⟨h.named, h.fits, h.receipts, h.attempts, h.there, h.epoch, h.active, h.ready, h.known,
        h.owner⟩
  | pins =>
      obtain rfl := apply_pins happly
      exact ⟨h.named, h.fits, h.receipts, h.attempts, h.there, h.epoch, h.active, h.ready, h.known,
        h.owner⟩

/-! ## What a call leaves of what it found -/

/-- What a transaction may become. -/
structure ComponentTransaction.Becomes (old new : ComponentTransaction) : Prop where
  same : new.identity = old.identity
  leads : TransactionState.Leads old.mode old.state new.state
  remembers : old.Remembers new

theorem ComponentTransaction.Becomes.refl (tx : ComponentTransaction) : tx.Becomes tx :=
  ⟨rfl, .refl, fun _ _ hget => .inl hget⟩

theorem ComponentTransaction.Becomes.trans {tx tx' tx'' : ComponentTransaction}
    (h : tx.Becomes tx') (h' : tx'.Becomes tx'') : tx.Becomes tx'' := by
  have hmode : tx'.mode = tx.mode := (congrArg ComponentTransaction.mode h.same :)
  have hleads := h'.leads
  rw [hmode] at hleads
  refine ⟨h'.same.trans h.same, h.leads.trans hleads, fun stepId record hget => ?_⟩
  rcases h.remembers stepId record hget with hget' | ⟨hretired, hpublished⟩ | hattempt
  · exact h'.remembers stepId record hget'
  · exact .inr (.inl ⟨(hleads.final (by rw [hretired]; rfl)).trans hretired, hpublished⟩)
  · exact .inr (.inr hattempt)

/-- Of the transactions of `before` none is lost; a cold stop is committed, and the active
transaction replaced, as the licence says. -/
structure Carried (licence : Licence) (before s : UpgradeFiles) : Prop where
  stays : ∀ ref tx, before.transactions.get ref = some tx → ∃ tx',
    s.transactions.get ref = some tx' ∧ tx.Becomes tx'
  commits : ∀ ref tx, s.transactions.get ref = some tx → tx.state = .stopCommitted →
    (∃ old, before.transactions.get ref = some old ∧ old.state = .stopCommitted) ∨
      ∃ old, old.handoverId = ref ∧ licence.commits old
  reserves : s.control.activeTransaction = before.control.activeTransaction ∨
    ∃ value tx, licence.reserves value ∧ s.transaction = some tx ∧
      tx.handoverId = value.handoverId ∧ tx.transactionEpoch = value.transactionEpoch

theorem Carried.refl (licence : Licence) (s : UpgradeFiles) : Carried licence s s :=
  ⟨fun _ tx hget => ⟨tx, hget, .refl tx⟩, fun _ tx hget hstate => .inl ⟨tx, hget, hstate⟩, .inl rfl⟩

variable {before : UpgradeFiles}

theorem Carried.of_same (h : Carried licence before s)
    (htransactions : s'.transactions = s.transactions)
    (hactive : s'.control.activeTransaction = s.control.activeTransaction) :
    Carried licence before s' := by
  have htransaction : s'.transaction = s.transaction := by
    rw [UpgradeFiles.transaction, UpgradeFiles.transaction, htransactions, hactive]
  refine ⟨?_, ?_, ?_⟩
  · rw [htransactions]
    exact h.stays
  · rw [htransactions]
    exact h.commits
  · rw [hactive, htransaction]
    exact h.reserves

theorem Carried.apply (h : Carried licence before s) (hinv : UpgradeInv generations s) (hw : Legal licence generations s w)
    (happly : UpgradeWrite.apply s w = some s') :
    Carried licence before s' := by
  cases hw with
  | @moved tx new hactive hmove =>
      obtain ⟨hold, rfl⟩ := apply_transaction happly
      refine ⟨?_, ?_, ?_⟩
      · intro ref tx₀ hget
        obtain ⟨tx', hget', hbecomes⟩ := h.stays ref tx₀ hget
        dsimp only
        rw [JsMap.get_set]
        split
        · rename_i href
          rw [href, hold] at hget'
          obtain rfl := Option.some.inj hget'
          exact ⟨new, rfl, hbecomes.trans ⟨hmove.same, hmove.reaches, hmove.remembers⟩⟩
        · exact ⟨tx', hget', hbecomes⟩
      · intro ref tx' hget hstate
        dsimp only at hget
        rw [JsMap.get_set] at hget
        split at hget
        · rename_i href
          obtain rfl := Option.some.inj hget
          rcases hmove.commits hstate with hcommitted | hcommits
          · rw [href]
            exact h.commits _ tx hold hcommitted
          · exact .inr ⟨tx, href.symm, hcommits⟩
        · exact h.commits ref tx' hget hstate
      · refine h.reserves.imp id ?_
        rintro ⟨value, tx', hreserves, htx', hid, hepoch⟩
        obtain rfl := Option.some.inj (hactive.symm.trans htx')
        refine ⟨value, new, hreserves, ?_, hmove.handoverId.trans hid,
          hmove.transactionEpoch.trans hepoch⟩
        exact transaction_set (hinv.of_active hactive).1 _
  | @created value hstate hattempts hreceipts hsource hactive =>
      obtain ⟨hnone, rfl⟩ := apply_transaction happly
      refine ⟨?_, ?_, ?_⟩
      · intro ref tx₀ hget
        obtain ⟨tx', hget', hrest⟩ := h.stays ref tx₀ hget
        refine ⟨tx', ?_, hrest⟩
        dsimp only
        rw [JsMap.get_set, if_neg, hget']
        rintro rfl
        rw [hnone] at hget'
        cases hget'
      · intro ref tx' hget hcommitted
        dsimp only at hget
        rw [JsMap.get_set] at hget
        split at hget
        · obtain rfl := Option.some.inj hget
          rw [hcommitted] at hstate
          cases hstate
        · exact h.commits ref tx' hget hcommitted
      · rw [transaction_set_of_inactive hactive]
        exact h.reserves
  | @activated value revision hthere hreserves hrevoked =>
      obtain rfl := apply_control happly
      refine ⟨h.stays, h.commits, .inr ⟨value, value, hreserves, ?_, rfl, rfl⟩⟩
      exact transaction_eq_some.mpr ⟨_, rfl, hthere⟩
  | kept hactive _ _ =>
      obtain rfl := apply_control happly
      exact h.of_same rfl hactive
  | started hactive _ _ _ =>
      obtain rfl := apply_control happly
      exact h.of_same rfl hactive
  | pause =>
      obtain rfl := apply_pause happly
      exact h.of_same rfl rfl
  | pins =>
      obtain rfl := apply_pins happly
      exact h.of_same rfl rfl

end Writes

end H2a.Handover
