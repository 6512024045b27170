import H2a.Handover.Commitment
/-!
# What each call can write

One lemma for each call: every write of its plan is of a kind that is allowed, from what the call
has checked before it.
-/

namespace H2a.Handover

open H2a.Library

/-! ## Records of a transaction -/

namespace ComponentTransaction

variable {tx : ComponentTransaction}

/-- The value that `update` puts in place of a transaction. -/
def updated (tx : ComponentTransaction) (changes : ComponentTransaction → ComponentTransaction)
    (record : Option (JsString × StepRecord)) : ComponentTransaction :=
  { changes tx with
    revision := tx.revision + 1
    stepResults := record.elim tx.stepResults fun (stepId, record) =>
      tx.stepResults.set stepId record }

theorem update_eq (tx : ComponentTransaction) (changes : ComponentTransaction → ComponentTransaction)
    (record : Option (JsString × StepRecord)) :
    tx.update changes record = ⟨[.transaction tx.handoverId (some tx) (tx.updated changes record)],
      .ok (tx.updated changes record)⟩ := rfl

theorem mem_results (tx : ComponentTransaction) (r : StepResult) :
    r ∈ tx.results ↔ ∃ stepId record, tx.stepResults.get stepId = some record ∧ record.result = r := by
  rw [results, List.mem_map]
  simp only [JsMap.mem_values_iff]
  constructor
  · rintro ⟨record, ⟨stepId, hget⟩, hr⟩
    exact ⟨stepId, record, hget, hr⟩
  · rintro ⟨stepId, record, hget, hr⟩
    exact ⟨record, ⟨stepId, hget⟩, hr⟩

variable {changes : ComponentTransaction → ComponentTransaction}
  {record : Option (JsString × StepRecord)}

/-- The results after an update are of before or of the step. -/
theorem mem_results_updated {r : StepResult} (h : r ∈ (tx.updated changes record).results) :
    r ∈ tx.results ∨ ∃ entry ∈ record, r = entry.2.result := by
  obtain ⟨stepId, value, hget, rfl⟩ := (mem_results _ r).mp h
  cases record with
  | none => exact .inl ((mem_results _ _).mpr ⟨stepId, value, hget, rfl⟩)
  | some entry =>
      simp only [updated, Option.elim_some, JsMap.get_set] at hget
      split at hget
      · obtain rfl := Option.some.inj hget
        exact .inr ⟨entry, rfl, rfl⟩
      · exact .inl ((mem_results _ _).mpr ⟨stepId, value, hget, rfl⟩)

/-- A step that is not recorded leaves the results there. -/
theorem mem_results_of_fresh {r : StepResult} (h : r ∈ tx.results)
    (hfresh : ∀ entry ∈ record, tx.stepResults.get entry.1 = none) :
    r ∈ (tx.updated changes record).results := by
  obtain ⟨stepId, value, hget, rfl⟩ := (mem_results _ r).mp h
  refine (mem_results _ _).mpr ⟨stepId, value, ?_, rfl⟩
  cases record with
  | none => exact hget
  | some entry =>
      simp only [updated, Option.elim_some]
      rw [JsMap.get_set_of_ne, hget]
      intro heq
      rw [heq, hfresh entry rfl] at hget
      cases hget

theorem mem_results_record (entry : JsString × StepRecord) :
    entry.2.result ∈ (tx.updated changes (some entry)).results := by
  refine (mem_results _ _).mpr ⟨entry.1, entry.2, ?_, rfl⟩
  exact JsMap.get_set_self ..

/-- Before a publication no result has a digest of one. -/
theorem Receipts.updated_early (h : tx.Receipts) (hold : tx.state.transferred = false)
    (hnew : (changes tx).state.transferred = false)
    (hrecord : ∀ entry ∈ record, entry.2.result.publicationDigest = none) :
    (tx.updated changes record).Receipts := by
  have hnone : ∀ r ∈ (tx.updated changes record).results, r.publicationDigest = none := by
    intro r hr
    rcases mem_results_updated hr with hr | ⟨entry, hentry, rfl⟩
    · exact h.early hold r hr
    · exact hrecord entry hentry
  refine ⟨fun _ => hnone, ?_, ?_⟩
  · intro r hr r' hr' d d' hd
    rw [hnone r hr] at hd
    cases hd
  · intro hretired
    change (changes tx).state = .retired at hretired
    rw [hretired] at hnew
    cases hnew

/-- An observation leaves the publication as it is recorded. -/
theorem Receipts.updated_same (h : tx.Receipts) (hstate : (changes tx).state = tx.state)
    (hfresh : ∀ entry ∈ record, tx.stepResults.get entry.1 = none)
    (hrecord : ∀ entry ∈ record, entry.2.result.publicationDigest = none) :
    (tx.updated changes record).Receipts := by
  have hdigest : ∀ r ∈ (tx.updated changes record).results, ∀ d, r.publicationDigest = some d →
      r ∈ tx.results := by
    intro r hr d hd
    rcases mem_results_updated hr with hr | ⟨entry, hentry, rfl⟩
    · exact hr
    · rw [hrecord entry hentry] at hd
      cases hd
  refine ⟨?_, ?_, ?_⟩
  · intro htransferred r hr
    change (changes tx).state.transferred = false at htransferred
    rw [hstate] at htransferred
    rcases mem_results_updated hr with hr | ⟨entry, hentry, rfl⟩
    · exact h.early htransferred r hr
    · exact hrecord entry hentry
  · intro r hr r' hr' d d' hd hd'
    exact h.one r (hdigest r hr d hd) r' (hdigest r' hr' d' hd') d d' hd hd'
  · intro hretired
    obtain ⟨generation, d, hmem⟩ := h.receipt (hstate.symm.trans hretired)
    exact ⟨generation, d, mem_results_of_fresh hmem hfresh⟩

/-- A publication is recorded with one digest. -/
theorem Receipts.updated_digest {entry : JsString × StepRecord} {d : JsString}
    (hone : ∀ r ∈ tx.results, ∀ d', r.publicationDigest = some d' → d' = d)
    (hrecord : ∀ d', entry.2.result.publicationDigest = some d' → d' = d)
    (htransferred : (changes tx).state.transferred = true)
    (hreceipt : (changes tx).state = .retired → ∃ generation, entry.2.result = .retired generation d) :
    (tx.updated changes (some entry)).Receipts := by
  have hall : ∀ r ∈ (tx.updated changes (some entry)).results, ∀ d',
      r.publicationDigest = some d' → d' = d := by
    intro r hr d' hd'
    rcases mem_results_updated hr with hr | ⟨e, he, rfl⟩
    · exact hone r hr d' hd'
    · obtain rfl := Option.some.inj he
      exact hrecord d' hd'
  refine ⟨?_, ?_, ?_⟩
  · intro hnot
    change (changes tx).state.transferred = false at hnot
    rw [htransferred] at hnot
    cases hnot
  · intro r hr r' hr' d₁ d₂ h₁ h₂
    exact (hall r hr d₁ h₁).trans (hall r' hr' d₂ h₂).symm
  · intro hretired
    obtain ⟨generation, hresult⟩ := hreceipt hretired
    refine ⟨generation, d, ?_⟩
    rw [← hresult]
    exact mem_results_record entry

end ComponentTransaction

/-! ## Moves -/

/-- Changes that follow the graph of the states. -/
structure ComponentTransaction.Change (changes : ComponentTransaction → ComponentTransaction)
    (tx : ComponentTransaction) : Prop where
  same : (changes tx).identity = tx.identity
  leads : (changes tx).state = tx.state ∨
    TransactionState.leadsTo tx.mode tx.state (changes tx).state = true
  attempts : tx.successorReservation.attempts ≤ 3 →
    (changes tx).successorReservation.attempts ≤ 3

/-- A record that takes the place of none, but of what may be forgotten. -/
def ComponentTransaction.Forgets (tx : ComponentTransaction) (state : TransactionState)
    (entry : JsString × StepRecord) : Prop :=
  ∀ record, tx.stepResults.get entry.1 = some record →
    state = .retired ∧ (∃ publicationDigest markerDigest,
      record.result = .published publicationDigest markerDigest) ∨
    ∃ attempts, entry.1 = attemptStep attempts

section Moves

variable {licence : Licence} {s : UpgradeFiles} {tx : ComponentTransaction}
  {changes : ComponentTransaction → ComponentTransaction} {record : Option (JsString × StepRecord)}

theorem ComponentTransaction.remembers_updated
    (h : ∀ entry ∈ record, tx.Forgets (changes tx).state entry) :
    tx.Remembers (tx.updated changes record) := by
  intro stepId value hget
  cases record with
  | none => exact .inl hget
  | some entry =>
      by_cases heq : stepId = entry.1
      · rw [heq] at hget ⊢
        exact .inr (h entry rfl value hget)
      · left
        simp only [ComponentTransaction.updated, Option.elim_some]
        rw [JsMap.get_set_of_ne _ _ heq, hget]

theorem ComponentTransaction.forgets_of_fresh {state : TransactionState}
    (hfresh : ∀ entry ∈ record, tx.stepResults.get entry.1 = none) :
    ∀ entry ∈ record, tx.Forgets state entry := by
  intro entry hentry value hget
  rw [hfresh entry hentry] at hget
  cases hget

/-- A move from a state that is not committed to another one. -/
theorem Move.revocable (hchange : tx.Change changes) (hreceipts : tx.Receipts)
    (hold : tx.state.irrevocable = false) (hnew : (changes tx).state.irrevocable = false)
    (hfresh : ∀ entry ∈ record, tx.stepResults.get entry.1 = none)
    (hrecord : ∀ entry ∈ record, entry.2.result.publicationDigest = none) :
    Move licence s tx (tx.updated changes record) where
  same := hchange.same
  leads := hchange.leads
  attempts := hchange.attempts
  remembers := ComponentTransaction.remembers_updated
    (ComponentTransaction.forgets_of_fresh hfresh)
  receipts := hreceipts.updated_early (TransactionState.not_transferred hold)
    (TransactionState.not_transferred hnew) hrecord
  commits h := by
    change (changes tx).state = .stopCommitted at h
    rw [h] at hnew
    cases hnew
  ready h := by
    change (changes tx).state = .ready at h
    rw [h] at hnew
    cases hnew

/-- A step that is recorded without a change of the state. -/
theorem Move.same_state (hchange : tx.Change changes) (hreceipts : tx.Receipts)
    (hstate : (changes tx).state = tx.state)
    (hfresh : ∀ entry ∈ record, tx.stepResults.get entry.1 = none)
    (hrecord : ∀ entry ∈ record, entry.2.result.publicationDigest = none) :
    Move licence s tx (tx.updated changes record) where
  same := hchange.same
  leads := hchange.leads
  attempts := hchange.attempts
  remembers := ComponentTransaction.remembers_updated
    (ComponentTransaction.forgets_of_fresh hfresh)
  receipts := hreceipts.updated_same hstate hfresh hrecord
  commits h := .inl (hstate.symm.trans h)
  ready h := .inl (hstate.symm.trans h)

/-- A move of a cold stop among the states that are irrevocable, or to `STOP_COMMITTED`. -/
theorem Move.cold (hchange : tx.Change changes) (hreceipts : tx.Receipts)
    (hold : tx.state.transferred = false) (hnew : (changes tx).state.transferred = false)
    (hforgets : ∀ entry ∈ record, tx.Forgets (changes tx).state entry)
    (hrecord : ∀ entry ∈ record, entry.2.result.publicationDigest = none)
    (hcommits : (changes tx).state = .stopCommitted → licence.commits tx)
    (hready : (changes tx).state = .ready → s.control.sourceGeneration ≠ tx.source.generation) :
    Move licence s tx (tx.updated changes record) where
  same := hchange.same
  leads := hchange.leads
  attempts := hchange.attempts
  remembers := ComponentTransaction.remembers_updated hforgets
  receipts := hreceipts.updated_early hold hnew hrecord
  commits h := .inr (hcommits h)
  ready h := .inr (hready h)

/-- A move of a live transfer to `PUBLISHED` or `RETIRED`. -/
theorem Move.transfer {entry : JsString × StepRecord} {d : JsString} (hchange : tx.Change changes)
    (hone : ∀ r ∈ tx.results, ∀ d', r.publicationDigest = some d' → d' = d)
    (hrecord : ∀ d', entry.2.result.publicationDigest = some d' → d' = d)
    (htransferred : (changes tx).state.transferred = true)
    (hforgets : tx.Forgets (changes tx).state entry)
    (hreceipt : (changes tx).state = .retired →
      ∃ generation, entry.2.result = .retired generation d) :
    Move licence s tx (tx.updated changes (some entry)) where
  same := hchange.same
  leads := hchange.leads
  attempts := hchange.attempts
  remembers := by
    apply ComponentTransaction.remembers_updated
    rintro e ⟨⟩
    exact hforgets
  receipts := ComponentTransaction.Receipts.updated_digest hone hrecord htransferred hreceipt
  commits h := by
    change (changes tx).state = .stopCommitted at h
    rw [h] at htransferred
    cases htransferred
  ready h := by
    change (changes tx).state = .ready at h
    rw [h] at htransferred
    cases htransferred

end Moves

/-! ## Plans -/

/-- Every write of a plan is allowed when its turn comes, and `post` holds at the end. -/
abbrev Permitted {α : Type} (licence : Licence) (generations : List JsString)
    (post : α → UpgradeFiles → Prop) (s : UpgradeFiles) (plan : UpgradePlan α) : Prop :=
  WritePlan.Wp UpgradeWrite.apply (Legal licence generations) post s plan

section Plans

variable {α : Type} {licence : Licence} {generations : List JsString} {s : UpgradeFiles}
  {tx : ComponentTransaction} {changes : ComponentTransaction → ComponentTransaction}
  {record : Option (JsString × StepRecord)}

/-- The transaction that is active moves, and the plan goes on. -/
theorem permitted_update_bind {post : α → UpgradeFiles → Prop}
    {f : ComponentTransaction → UpgradePlan α} (hinv : UpgradeInv generations s)
    (hactive : s.transaction = some tx) (hmove : Move licence s tx (tx.updated changes record))
    (h : ∀ s', UpgradeInv generations s' → s'.transaction = some (tx.updated changes record) →
      s'.control = s.control →
        Permitted licence generations post s' (f (tx.updated changes record))) :
    Permitted licence generations post s (tx.update changes record >>= f) := by
  have hallowed : Legal licence generations s
      (.transaction tx.handoverId (some tx) (tx.updated changes record)) := .moved hactive hmove
  refine WritePlan.wp_bind ⟨hallowed, ?_⟩
  intro s' happly value hvalue
  obtain rfl : tx.updated changes record = value := Except.ok.inj hvalue
  have hinv' := hinv.apply hallowed happly
  obtain ⟨-, rfl⟩ := apply_transaction happly
  exact h _ hinv' (transaction_set (hinv.of_active hactive).1 _) rfl

/-- A plan that does not write. -/
theorem permitted_of_quiet {plan : UpgradePlan α} (h : plan.writes = []) :
    Permitted licence generations (fun _ _ => True) s plan := by
  rw [Permitted, WritePlan.Wp, h]
  exact fun _ _ => trivial

theorem permitted_return {a : α} :
    Permitted licence generations (fun _ _ => True) s (pure a) := permitted_of_quiet rfl

theorem permitted_fail {error : String} :
    Permitted licence generations (fun (_ : α) _ => True) s (WritePlan.fail error) :=
  permitted_of_quiet rfl

end Plans

theorem UpgradeInv.receipts_of_active {generations : List JsString} {s : UpgradeFiles}
    (h : UpgradeInv generations s) {tx : ComponentTransaction} (hactive : s.transaction = some tx) :
    tx.Receipts := h.receipts _ tx (h.of_active hactive).2

theorem UpgradeInv.fits_of_active {generations : List JsString} {s : UpgradeFiles}
    (h : UpgradeInv generations s) {tx : ComponentTransaction} (hactive : s.transaction = some tx) :
    tx.Fits := h.fits _ tx (h.of_active hactive).2

namespace Administration

/-- What is there once the live publication has been observed. -/
structure Observed (generations : List JsString) (files : UpgradeFiles)
    (observed : Option ComponentTransaction) (s : UpgradeFiles) : Prop where
  inv : UpgradeInv generations s
  control : s.control = files.control
  transaction : s.transaction = observed
  same : s = files ∨ ∃ tx, observed = some tx ∧ tx.state = .recoveryBlocked

section Calls

variable {licence : Licence} {generations : List JsString} {host : UpgradeHost}
  {admin : Administration} {files s : UpgradeFiles} {answers : Answers}
  {operation : Primitive} {step : AdministrationStep} {payload : AdministrationPayload}
  {coordinator : ProcessIdentity} {payloadDigest : JsString} {tx : ComponentTransaction}

theorem drain_writes : (drain answers).writes = [] := by
  rw [drain]
  cases answers.drain with
  | error error => rfl
  | ok drained =>
      rw [WritePlan.bind_of_ok]
      by_cases hknown : drained.revision.isSome ∧ ∀ count ∈ [drained.calls, drained.children,
          drained.briefs, drained.callbacks, drained.effects], count.any (0 ≤ ·)
      · rw [WritePlan.require_bind_of hknown]
        rfl
      · rw [WritePlan.require_bind_of_not hknown]
        rfl

theorem permitted_drain_bind {α : Type} {post : α → UpgradeFiles → Prop}
    {f : UpgradeDrain × Bool → UpgradePlan α}
    (h : ∀ drained complete, (drain answers).result = .ok (drained, complete) →
      Permitted licence generations post s (f (drained, complete))) :
    Permitted licence generations post s (drain answers >>= f) := by
  refine WritePlan.wp_quiet_bind drain_writes ?_
  intro a ha
  exact h a.1 a.2 ha

theorem permitted_observe (hinv : UpgradeInv generations files) :
    Permitted licence generations (Observed generations files) files
      (observeLivePublication answers files.transaction) := by
  rw [observeLivePublication.eq_def]
  split
  · rename_i hnone
    exact WritePlan.wp_pure ⟨hinv, rfl, hnone, .inl rfl⟩
  · rename_i tx hactive
    split_ifs with hstate
    · exact WritePlan.wp_pure ⟨hinv, rfl, hactive, .inl rfl⟩
    · refine WritePlan.wp_ofExcept_bind fun published _ => ?_
      split_ifs
      · exact WritePlan.wp_pure ⟨hinv, rfl, hactive, .inl rfl⟩
      · -- a live transfer that is not published is not irrevocable
        have hmode : tx.mode = .liveTransfer := by
          by_contra hmode
          exact hstate (.inl hmode)
        have hrevocable : tx.state.irrevocable = false := by
          rw [← Bool.not_eq_true]
          intro hirrevocable
          have htransferred := hinv.fits_of_active hactive hmode hirrevocable
          apply hstate
          right
          revert htransferred
          cases tx.state <;> simp [TransactionState.transferred]
        have hleads : TransactionState.leadsTo tx.mode tx.state .recoveryBlocked = true := by
          have haborted : tx.state ≠ .aborted := fun h => hstate (.inr (by rw [h]; decide))
          simp [TransactionState.leadsTo, TransactionState.isOpen, hmode, hrevocable, haborted]
        refine permitted_update_bind hinv hactive (.revocable ⟨rfl, .inr hleads, id⟩
          (hinv.receipts_of_active hactive) hrevocable rfl (by simp) (by simp)) ?_
        intro s' hinv' hactive' hcontrol
        exact WritePlan.wp_pure ⟨hinv', hcontrol, hactive', .inr ⟨_, rfl, rfl⟩⟩

/-! ### Steps of a coordinator -/

/-- The changes of a step that is observed only. -/
theorem permitted_observation {observed : Option ComponentTransaction} {result : StepResult}
    {changes : ComponentTransaction → ComponentTransaction} (hinv : UpgradeInv generations s)
    (hactive : s.transaction = observed)
    (hfresh : ∀ tx ∈ observed, tx.stepResults.get step.stepId = none)
    (hresult : result.publicationDigest = none)
    (hmove : ∀ tx, s.transaction = some tx → tx.Change changes ∧ ((changes tx).state = tx.state ∨
      tx.state.irrevocable = false ∧ (changes tx).state.irrevocable = false)) :
    Permitted licence generations (fun _ _ => True) s
      (observation observed step.stepId payloadDigest result changes) := by
  cases observed with
  | none => exact permitted_return
  | some tx =>
      obtain ⟨hchange, hstate⟩ := hmove tx hactive
      have hnew : ∀ entry ∈ some (step.stepId, StepRecord.mk payloadDigest result),
          tx.stepResults.get entry.1 = none := by
        rintro entry ⟨⟩
        exact hfresh tx rfl
      have hrecord : ∀ entry ∈ some (step.stepId, StepRecord.mk payloadDigest result),
          entry.2.result.publicationDigest = none := by
        rintro entry ⟨⟩
        exact hresult
      refine permitted_update_bind hinv hactive ?_ fun _ _ _ _ => permitted_return
      rcases hstate with hsame | ⟨hold, hopen⟩
      · exact .same_state hchange (hinv.receipts_of_active hactive) hsame hnew hrecord
      · exact .revocable hchange (hinv.receipts_of_active hactive) hold hopen hnew hrecord

/-- The pins and the activation of a reservation that is there. -/
theorem permitted_pinned {value : ComponentTransaction} {pinned : Option _}
    (hcontrol : s.control = files.control)
    (hthere : s.transactions.get value.handoverId = some value) (hreserves : licence.reserves value)
    (hrevoked : ∀ old, s.transaction = some old → old.state.irrevocable = true →
      files.control.sourceGeneration ≠ old.source.generation) :
    Permitted licence generations (fun _ _ => True) s (do
      match pinned with
      | some pins => WritePlan.require (pins = pinsOf value) "pin_conflict"
      | none => WritePlan.write (.pins value.handoverId (pinsOf value))
      WritePlan.write (.control files.control { files.control with
        revision := files.control.revision + 1
        activeTransaction := some value.handoverId
        transactionEpoch := value.transactionEpoch })) := by
  have hwrite (s' : UpgradeFiles) (hsame : s'.control = s.control)
      (hthere' : s'.transactions.get value.handoverId = some value)
      (htransaction : s'.transaction = s.transaction) :
      Permitted licence generations (fun _ _ => True) s'
        (WritePlan.write (.control files.control { files.control with
          revision := files.control.revision + 1
          activeTransaction := some value.handoverId
          transactionEpoch := value.transactionEpoch })) := by
    refine WritePlan.wp_write ?_ fun _ _ => trivial
    rw [← hcontrol, ← hsame]
    refine .activated hthere' hreserves fun old hold => ?_
    rw [hsame, hcontrol]
    exact hrevoked old (htransaction.symm.trans hold)
  split
  · exact WritePlan.wp_require_bind fun _ => hwrite s rfl hthere rfl
  · refine WritePlan.wp_bind (WritePlan.wp_write .pins fun s' hs' => ?_)
    obtain rfl := apply_pins hs'
    exact hwrite _ rfl hthere rfl

/-- `activate` of a reservation that does not replace a transaction that is committed. -/
theorem permitted_activate {value : ComponentTransaction} (hinv : UpgradeInv generations files)
    (hstate : value.state.irrevocable = false)
    (hattempts : value.successorReservation.attempts = 0) (hreceipts : value.Receipts)
    (hsource : value.source.generation ∈ generations) (hreserves : licence.reserves value)
    (hother : ∀ old, files.transaction = some old → old.handoverId ≠ value.handoverId)
    (hrevoked : ∀ old, files.transaction = some old → old.state.irrevocable = true →
      files.control.sourceGeneration ≠ old.source.generation) :
    Permitted licence generations (fun _ _ => True) files (activate files value) := by
  have hactive : files.control.activeTransaction ≠ some value.handoverId := by
    intro hactive
    obtain ⟨old, hold⟩ := hinv.there _ hactive
    exact hother old (transaction_eq_some.mpr ⟨_, hactive, hold⟩) (hinv.named _ old hold)
  rw [activate]
  split
  · rename_i prior hprior
    refine WritePlan.wp_require_bind fun heq => ?_
    exact permitted_pinned rfl (heq ▸ hprior) hreserves hrevoked
  · refine WritePlan.wp_bind (WritePlan.wp_write
      (.created hstate hattempts hreceipts hsource hactive)
      fun s' hs' => ?_)
    obtain ⟨-, rfl⟩ := apply_transaction hs'
    refine permitted_pinned rfl (JsMap.get_set_self ..) hreserves fun old hold => hrevoked old ?_
    exact (transaction_set_of_inactive hactive value).symm.trans hold

/-- What takes the place of a transaction, and when a cold stop is committed. -/
def executeLicence (admin : Administration) (files : UpgradeFiles) (answers : Answers)
    (operation : Primitive) (step : AdministrationStep) : Licence where
  commits tx := operation = .commitStop ∧ files.transaction = some tx ∧ tx.mode = .coldStop ∧
    files.paused = false ∧ tx.barrierDeadline.any (answers.now < ·) = true ∧
      ∃ drained, (drain answers).result = .ok (drained, true)
  reserves value := operation = .reserve ∧ value.handoverId = step.handoverId ∧
    files.control.transactionEpoch < value.transactionEpoch ∧
      ∀ old, files.transaction = some old → old.state = .aborted ∨
        old.state = .ready ∧ old.source.generation ≠ admin.marker.generation

/-- What a reservation replaces. -/
def Replaces (admin : Administration) (files : UpgradeFiles) (step : AdministrationStep) : Prop :=
  files.control.transactionEpoch < step.transactionEpoch ∧
    ∀ old, files.transaction = some old → old.handoverId ≠ step.handoverId ∧
      (old.state = .aborted ∨ old.state = .ready ∧ old.source.generation ≠ admin.marker.generation)

theorem permitted_reservation {target : UpgradeTarget} {selectionEpoch : Nat} {result : StepResult}
    {state : TransactionState} (hinv : UpgradeInv generations files)
    (hmarker : admin.marker.generation ∈ generations) (hreplaces : Replaces admin files step)
    (hstate : state.irrevocable = false) (hresult : result.publicationDigest = none) :
    Permitted (executeLicence admin files answers .reserve step) generations (fun _ _ => True) files
      (activate files (admin.reservation step payload coordinator target selectionEpoch
        payloadDigest result state)) := by
  apply permitted_activate hinv hstate rfl
  · have hnone : ∀ r ∈ (admin.reservation step payload coordinator target selectionEpoch
        payloadDigest result state).results, r.publicationDigest = none := by
      intro r hr
      obtain ⟨stepId, record, hget, rfl⟩ := (ComponentTransaction.mem_results _ r).mp hr
      simp only [reservation, JsMap.get_set, JsMap.get_empty] at hget
      split at hget
      · rw [← Option.some.inj hget]
        exact hresult
      · cases hget
    refine ⟨fun _ => hnone, fun r hr r' hr' d d' hd => ?_, fun hretired => ?_⟩
    · rw [hnone r hr] at hd
      cases hd
    · change state = .retired at hretired
      rw [hretired] at hstate
      cases hstate
  · exact hmarker
  · exact ⟨rfl, rfl, hreplaces.1, fun old hold => (hreplaces.2 old hold).2⟩
  · exact fun old hold => (hreplaces.2 old hold).1
  · intro old hold hirrevocable
    rcases (hreplaces.2 old hold).2 with haborted | ⟨hready, -⟩
    · rw [haborted] at hirrevocable
      cases hirrevocable
    · exact hinv.ready _ old (hinv.of_active hold).2 hready

theorem permitted_reserveNew {observed : Option ComponentTransaction}
    (hmarker : admin.marker.generation ∈ generations)
    (hobserved : Observed generations files observed s)
    (hother : ∀ old ∈ observed, old.handoverId ≠ step.handoverId) :
    Permitted (executeLicence admin files answers .reserve step) generations (fun _ _ => True) s
      (admin.reserveNew files answers step payload coordinator payloadDigest observed) := by
  rw [reserveNew]
  refine WritePlan.wp_require_bind fun hreplaced => ?_
  have hsame : s = files := by
    rcases hobserved.same with hsame | ⟨tx, htx, hblocked⟩
    · exact hsame
    · rcases hreplaced tx htx with h | ⟨h, -⟩ <;> · rw [hblocked] at h; cases h
  have htransaction : files.transaction = observed := hsame ▸ hobserved.transaction
  have hinv : UpgradeInv generations files := hsame ▸ hobserved.inv
  rw [hsame]
  refine WritePlan.wp_require_bind fun hepoch => ?_
  have hreplaces : Replaces admin files step :=
    ⟨hepoch, fun old hold => ⟨hother old (htransaction ▸ hold), hreplaced old (htransaction ▸ hold)⟩⟩
  refine WritePlan.wp_require_bind fun _ => ?_
  refine WritePlan.wp_require_bind fun _ => ?_
  refine WritePlan.wp_ofExcept_bind fun inventory _ => ?_
  refine WritePlan.wp_ofExcept_bind fun _ _ => ?_
  refine WritePlan.wp_require_bind fun _ => ?_
  refine WritePlan.wp_require_bind fun _ => ?_
  split
  · exact permitted_fail
  refine WritePlan.wp_require_bind fun _ => ?_
  refine WritePlan.wp_ofExcept_bind fun _ _ => ?_
  refine WritePlan.wp_ofExcept_bind fun _ _ => ?_
  refine WritePlan.wp_ofExcept_bind fun _ _ => ?_
  dsimp only
  split_ifs
  · refine WritePlan.wp_quiet_bind (by cases answers.authorization <;> rfl) fun digest _ => ?_
    split
    · exact permitted_fail
    · exact WritePlan.wp_bind ((permitted_reservation hinv hmarker hreplaces rfl rfl).mono
        fun _ _ _ => permitted_return)
  · refine WritePlan.wp_quiet_bind rfl fun digest _ => ?_
    split
    · exact permitted_fail
    · exact WritePlan.wp_bind ((permitted_reservation hinv hmarker hreplaces rfl rfl).mono
        fun _ _ _ => permitted_return)

theorem permitted_reserve {observed : Option ComponentTransaction}
    (hmarker : admin.marker.generation ∈ generations)
    (hobserved : Observed generations files observed s) :
    Permitted (executeLicence admin files answers .reserve step) generations (fun _ _ => True) s
      (admin.reserve files answers step payload coordinator payloadDigest observed) := by
  rw [reserve]
  split_ifs
  · exact permitted_fail
  split
  · split
    · split_ifs
      · exact permitted_return
      · exact permitted_fail
    · exact permitted_fail
  · rename_i hnone
    apply permitted_reserveNew hmarker hobserved
    intro old hold heq
    rw [hold, Option.filter_some, if_pos (by simpa using heq.symm)] at hnone
    cases hnone

/-- A live transfer that is published retires. -/
theorem permitted_retirePublished {publicationDigest : JsString} (hinv : UpgradeInv generations s)
    (hactive : s.transaction = some tx)
    (hlive : tx.mode = .liveTransfer) (hpublished : tx.state = .published)
    (hone : ∀ r ∈ tx.results, ∀ d, r.publicationDigest = some d → d = publicationDigest)
    (hprior : ∀ prior, tx.stepResults.get step.stepId = some prior →
      ∃ d markerDigest, prior.result = .published d markerDigest) :
    Permitted licence generations (fun _ _ => True) s
      (admin.retirePublished answers step payloadDigest publicationDigest tx) := by
  rw [retirePublished]
  refine WritePlan.wp_ofExcept_bind fun _ _ => ?_
  refine permitted_drain_bind fun drained complete _ => ?_
  refine WritePlan.wp_require_bind fun _ => ?_
  refine permitted_update_bind hinv hactive ?_ fun _ _ _ _ => permitted_return
  have hleads : TransactionState.leadsTo tx.mode tx.state .retired = true := by
    simp [TransactionState.leadsTo, hlive, hpublished]
  apply Move.transfer (d := publicationDigest) ⟨rfl, .inr hleads, id⟩ hone
  · exact fun d' hd' => (Option.some.inj hd').symm
  · rfl
  · exact fun prior hget => .inl ⟨rfl, hprior prior hget⟩
  · exact fun _ => ⟨_, rfl⟩

theorem findSome?_publicationDigest (hreceipts : tx.Receipts) {d : JsString}
    (h : tx.results.findSome? StepResult.publicationDigest = some d) :
    ∀ r ∈ tx.results, ∀ d', r.publicationDigest = some d' → d' = d := by
  obtain ⟨r, hr, hd⟩ := List.exists_of_findSome?_eq_some h
  exact fun r' hr' d' hd' => hreceipts.one r' hr' r hr d' d hd' hd

theorem permitted_retireLive (hinv : UpgradeInv generations s) (hactive : s.transaction = some tx)
    (hlive : tx.mode = .liveTransfer)
    (hprior : ∀ prior, tx.stepResults.get step.stepId = some prior →
      ∃ d markerDigest, prior.result = .published d markerDigest) :
    Permitted licence generations (fun _ _ => True) s
      (admin.retireLive answers step payload payloadDigest tx) := by
  have hreceipts := hinv.receipts_of_active hactive
  rw [retireLive]
  refine WritePlan.wp_require_bind fun _ => ?_
  refine WritePlan.wp_require_bind fun hstate => ?_
  refine WritePlan.wp_ofExcept_bind fun inventory _ => ?_
  refine WritePlan.wp_require_bind fun _ => ?_
  split_ifs with hpublished
  · refine WritePlan.wp_require_bind fun _ => ?_
    split
    · exact permitted_fail
    rename_i publicationDigest _
    refine WritePlan.wp_ofExcept_bind fun markerDigest _ => ?_
    refine WritePlan.wp_ofExcept_bind fun _ _ => ?_
    refine WritePlan.wp_ofExcept_bind fun _ _ => ?_
    refine WritePlan.wp_ofExcept_bind fun _ _ => ?_
    refine WritePlan.wp_ofExcept_bind fun _ _ => ?_
    -- before the publication no result has a digest of one
    have hopen : tx.state = .frozen ∨ tx.state = .recoveryBlocked := by
      simp only [List.mem_cons, List.not_mem_nil, or_false] at hstate
      rcases hstate with h | h | h
      · exact .inl h
      · exact .inr h
      · exact absurd h hpublished
    have hearly : ∀ r ∈ tx.results, r.publicationDigest = none := by
      apply hreceipts.early
      rcases hopen with h | h <;> · rw [h]; rfl
    have hfresh : ∀ prior, tx.stepResults.get step.stepId ≠ some prior := by
      intro prior hget
      obtain ⟨d, markerDigest, hresult⟩ := hprior prior hget
      have hnone := hearly prior.result
        ((ComponentTransaction.mem_results _ _).mpr ⟨_, prior, hget, rfl⟩)
      rw [hresult] at hnone
      cases hnone
    have hleads : TransactionState.leadsTo tx.mode tx.state .published = true := by
      rcases hopen with h | h <;> simp [TransactionState.leadsTo, hlive, h]
    have hone : ∀ r ∈ tx.results, ∀ d, r.publicationDigest = some d → d = publicationDigest := by
      intro r hr d hd
      rw [hearly r hr] at hd
      cases hd
    have hrecord : ∀ d, (StepResult.published publicationDigest markerDigest).publicationDigest =
        some d → d = publicationDigest := fun d hd => (Option.some.inj hd).symm
    refine permitted_update_bind hinv hactive (.transfer ⟨rfl, .inr hleads, id⟩ hone hrecord rfl
      (fun prior hget => absurd hget (hfresh prior)) (fun h => by cases h))
      fun s' hinv' hactive' _ => ?_
    apply permitted_retirePublished hinv' hactive' hlive rfl
    · intro r hr d hd
      rcases ComponentTransaction.mem_results_updated hr with hr | ⟨entry, hentry, rfl⟩
      · exact hone r hr d hd
      · obtain rfl := Option.some.inj hentry
        exact hrecord d hd
    · intro prior hget
      have hrecorded : (tx.updated (.toState .published) (some (step.stepId,
          ⟨payloadDigest, .published publicationDigest markerDigest⟩))).stepResults.get step.stepId =
            some ⟨payloadDigest, .published publicationDigest markerDigest⟩ := JsMap.get_set_self ..
      rw [hrecorded] at hget
      rw [← Option.some.inj hget]
      exact ⟨_, _, rfl⟩
  · split
    · exact permitted_fail
    rename_i publicationDigest hfind
    refine WritePlan.wp_require_bind fun _ => ?_
    refine WritePlan.wp_ofExcept_bind fun _ _ => ?_
    exact permitted_retirePublished hinv hactive hlive (not_not.mp hpublished)
      (findSome?_publicationDigest hreceipts hfind) hprior

/-- A step on a transaction that is not committed. -/
theorem permitted_record {α : Type} {result : StepResult}
    {changes : ComponentTransaction → ComponentTransaction}
    {f : ComponentTransaction → UpgradePlan α} (hinv : UpgradeInv generations s)
    (hactive : s.transaction = some tx) (hchange : tx.Change changes)
    (hold : tx.state.irrevocable = false) (hnew : (changes tx).state.irrevocable = false)
    (hfresh : tx.stepResults.get step.stepId = none) (hresult : result.publicationDigest = none)
    (hquiet : (f (tx.updated changes (some (step.stepId, ⟨payloadDigest, result⟩)))).writes = []) :
    Permitted licence generations (fun _ _ => True) s
      (tx.update changes (some (step.stepId, ⟨payloadDigest, result⟩)) >>= f) := by
  refine permitted_update_bind hinv hactive (.revocable hchange (hinv.receipts_of_active hactive)
    hold hnew ?_ ?_) fun _ _ _ _ => permitted_of_quiet hquiet
  · rintro entry ⟨⟩
    exact hfresh
  · rintro entry ⟨⟩
    exact hresult

theorem permitted_commitStop (hinv : UpgradeInv generations s) (hactive : s.transaction = some tx)
    (hold : tx.state.barred = true) (hfresh : tx.stepResults.get step.stepId = none)
    (hcommits : tx.mode = .coldStop → files.paused = false →
      (∃ drained, (drain answers).result = .ok (drained, true)) → licence.commits tx) :
    Permitted licence generations (fun _ _ => True) s
      (admin.commitStop files answers step payload payloadDigest tx) := by
  rw [commitStop]
  refine WritePlan.wp_require_bind fun hmode => ?_
  refine permitted_drain_bind fun drained complete hdrain => ?_
  refine WritePlan.wp_require_bind fun hcomplete => ?_
  refine WritePlan.wp_require_bind fun hnames => ?_
  refine WritePlan.wp_ofExcept_bind fun _ _ => ?_
  refine WritePlan.wp_ofExcept_bind fun _ _ => ?_
  refine WritePlan.wp_ofExcept_bind fun _ _ => ?_
  refine WritePlan.wp_ofExcept_bind fun _ _ => ?_
  have hleads : TransactionState.leadsTo tx.mode tx.state .stopCommitted = true := by
    simp [TransactionState.leadsTo, hmode, hold]
  have htransferred : tx.state.transferred = false := by
    revert hold
    cases tx.state <;> decide
  refine permitted_update_bind hinv hactive (.cold ⟨rfl, .inr hleads, id⟩
    (hinv.receipts_of_active hactive) htransferred rfl ?_ ?_ ?_ (fun h => by cases h))
    fun _ _ _ _ => WritePlan.wp_ofExcept_bind fun _ _ => permitted_return
  · apply ComponentTransaction.forgets_of_fresh
    rintro entry ⟨⟩
    exact hfresh
  · rintro entry ⟨⟩
    rfl
  · intro _
    apply hcommits hmode
    · simpa using hnames.1
    · exact ⟨drained, hcomplete ▸ hdrain⟩

theorem permitted_withinBarrier (hinv : UpgradeInv generations s) (hactive : s.transaction = some tx)
    (hold : tx.state.irrevocable = false)
    (hfresh : operation ≠ .retire → tx.stepResults.get step.stepId = none)
    (hcommits : operation = .commitStop → tx.state ≠ .recoveryBlocked → tx.mode = .coldStop →
      files.paused = false → tx.barrierDeadline.any (answers.now < ·) = true →
        (∃ drained, (drain answers).result = .ok (drained, true)) → licence.commits tx) :
    Permitted licence generations (fun _ _ => True) s
      (admin.withinBarrier files answers operation step payload payloadDigest tx) := by
  rw [withinBarrier.eq_def]
  refine WritePlan.wp_require_bind fun hbarrier => ?_
  have hbarred : tx.state.barred = true := decide_eq_true hbarrier.1
  split
  · rw [renew]
    refine WritePlan.wp_require_bind fun _ => ?_
    exact permitted_record hinv hactive ⟨rfl, .inl rfl, id⟩ hold hold (hfresh (by decide)) rfl rfl
  · rw [freeze]
    refine WritePlan.wp_require_bind fun _ => ?_
    refine WritePlan.wp_ofExcept_bind fun inventoryRevision _ => ?_
    exact permitted_record hinv hactive ⟨rfl, .inr hbarred, id⟩ hold rfl (hfresh (by decide)) rfl rfl
  · rw [checkpoint]
    refine WritePlan.wp_require_bind fun _ => ?_
    refine WritePlan.wp_ofExcept_bind fun references _ => ?_
    exact permitted_record hinv hactive ⟨rfl, .inr hbarred, id⟩ hold rfl (hfresh (by decide)) rfl rfl
  · exact permitted_fail
  · apply permitted_commitStop hinv hactive hbarred (hfresh (by decide))
    intro hmode hpaused hdrain
    refine hcommits rfl ?_ hmode hpaused hbarrier.2 hdrain
    intro hblocked
    rw [hblocked] at hbarrier
    exact absurd hbarrier.1 (by decide)
  · exact permitted_fail

/-- The steps that leave a transaction revocable. -/
theorem permitted_open (hinv : UpgradeInv generations s) (hactive : s.transaction = some tx)
    (hold : tx.state.irrevocable = false) (haborted : tx.state ≠ .aborted)
    (hblocked : ¬(tx.mode = .liveTransfer ∧ tx.state = .recoveryBlocked))
    (hfresh : operation ≠ .retire → tx.stepResults.get step.stepId = none)
    (hcommits : operation = .commitStop → tx.state ≠ .recoveryBlocked → tx.mode = .coldStop →
      files.paused = false → tx.barrierDeadline.any (answers.now < ·) = true →
        (∃ drained, (drain answers).result = .ok (drained, true)) → licence.commits tx) :
    Permitted licence generations (fun _ _ => True) s (
      match operation with
      | .abort => abort answers step payloadDigest tx
      | .barrier => barrier files answers step payload payloadDigest tx
      | _ => admin.withinBarrier files answers operation step payload payloadDigest tx) := by
  split
  · rw [abort]
    have hleads : TransactionState.leadsTo tx.mode tx.state .aborted = true := by
      simp [TransactionState.leadsTo, TransactionState.isOpen, hold, haborted,
        not_and_or.mp hblocked]
    exact permitted_record hinv hactive ⟨rfl, .inr hleads, id⟩ hold rfl (hfresh (by decide)) rfl
      (by cases answers.check .reconcileAborted <;> rfl)
  · rw [barrier]
    refine WritePlan.wp_require_bind fun hstate => ?_
    refine WritePlan.wp_require_bind fun _ => ?_
    refine WritePlan.wp_ofExcept_bind fun _ _ => ?_
    refine WritePlan.wp_ofExcept_bind fun _ _ => ?_
    refine WritePlan.wp_ofExcept_bind fun _ _ => ?_
    refine WritePlan.wp_ofExcept_bind fun _ _ => ?_
    exact permitted_record hinv hactive ⟨rfl, .inr (decide_eq_true hstate.1), id⟩ hold rfl
      (hfresh (by decide)) rfl rfl
  · exact permitted_withinBarrier hinv hactive hold hfresh hcommits

theorem permitted_revocable (hinv : UpgradeInv generations s) (hactive : s.transaction = some tx)
    (hfresh : operation ≠ .retire → tx.stepResults.get step.stepId = none)
    (hcommits : operation = .commitStop → tx.state ≠ .recoveryBlocked → tx.mode = .coldStop →
      files.paused = false → tx.barrierDeadline.any (answers.now < ·) = true →
        (∃ drained, (drain answers).result = .ok (drained, true)) → licence.commits tx) :
    Permitted licence generations (fun _ _ => True) s
      (admin.revocable files answers operation step payload payloadDigest tx) := by
  rw [revocable.eq_def]
  refine WritePlan.wp_require_bind fun hrevocable => ?_
  have hold : tx.state.irrevocable = false := by simpa using hrevocable
  refine WritePlan.wp_require_bind fun haborted => ?_
  dsimp only
  by_cases hlive : tx.mode = .liveTransfer
  · rw [if_pos hlive]
    refine WritePlan.wp_ofExcept_bind fun published _ => ?_
    by_cases hpublished : (!published) = true
    · rw [if_pos hpublished]
      have hleads : TransactionState.leadsTo tx.mode tx.state .recoveryBlocked = true := by
        simp [TransactionState.leadsTo, TransactionState.isOpen, hlive, hold, haborted]
      split_ifs
      · exact permitted_update_bind hinv hactive (.revocable ⟨rfl, .inr hleads, id⟩
          (hinv.receipts_of_active hactive) hold rfl (by simp) (by simp))
          fun _ _ _ _ => permitted_of_quiet rfl
      · exact permitted_of_quiet rfl
    · rw [if_neg hpublished]
      refine WritePlan.wp_require_bind fun hblocked => ?_
      refine WritePlan.wp_ofExcept_bind fun _ _ => ?_
      refine WritePlan.wp_ofExcept_bind fun _ _ => WritePlan.wp_require_bind fun _ => ?_
      exact permitted_open hinv hactive hold haborted (fun h => hblocked h.2) hfresh hcommits
  · rw [if_neg hlive]
    refine WritePlan.wp_ofExcept_bind fun _ _ => WritePlan.wp_require_bind fun _ => ?_
    exact permitted_open hinv hactive hold haborted (fun h => hlive h.1) hfresh hcommits

theorem permitted_take {observed : Option ComponentTransaction}
    (hmarker : admin.marker.generation ∈ generations)
    (hobserved : Observed generations files observed s)
    (hprior : operation ≠ .reserve → ∀ tx ∈ observed, ∀ prior,
      tx.stepResults.get step.stepId = some prior →
        operation = .retire ∧ ∃ d markerDigest, prior.result = .published d markerDigest) :
    Permitted (executeLicence admin files answers operation step) generations (fun _ _ => True) s
      (admin.take files answers operation step payload coordinator payloadDigest observed) := by
  have hinv := hobserved.inv
  have hactive := hobserved.transaction
  have hfresh : operation ≠ .reserve → operation ≠ .retire →
      ∀ tx ∈ observed, tx.stepResults.get step.stepId = none := by
    intro hreserve hretire tx htx
    rw [Option.eq_none_iff_forall_ne_some]
    intro prior hget
    exact hretire (hprior hreserve tx htx prior hget).1
  have hobservation : ∀ result : StepResult, result.publicationDigest = none →
      operation ≠ .reserve → operation ≠ .retire →
        Permitted (executeLicence admin files answers operation step) generations (fun _ _ => True) s
          (observation observed step.stepId payloadDigest result id) :=
    fun result hresult hreserve hretire => permitted_observation hinv hactive
      (hfresh hreserve hretire) hresult fun _ _ => ⟨⟨rfl, .inl rfl, id⟩, .inl rfl⟩
  rw [take.eq_def]
  split
  · exact hobservation _ rfl (by decide) (by decide)
  · refine WritePlan.wp_ofExcept_bind fun inventory _ => ?_
    exact hobservation _ rfl (by decide) (by decide)
  · exact hobservation _ rfl (by decide) (by decide)
  · refine permitted_drain_bind fun drained complete _ => ?_
    refine permitted_observation hinv hactive (hfresh (by decide) (by decide)) rfl fun tx _ => ?_
    by_cases hdraining : tx.mode = .coldStop ∧ tx.state ∈ [.barrier, .frozen]
    · have hleads : TransactionState.leadsTo tx.mode tx.state .draining = true := by
        simp [TransactionState.leadsTo, hdraining.1, List.mem_pair.mp hdraining.2]
      rw [if_pos hdraining]
      refine ⟨⟨?_, ?_, ?_⟩, .inr ⟨?_, rfl⟩⟩
      · rw [if_pos hdraining]
        rfl
      · rw [if_pos hdraining]
        exact .inr hleads
      · rw [if_pos hdraining]
        exact id
      · rcases List.mem_pair.mp hdraining.2 with h | h <;> · rw [h]; rfl
    · rw [if_neg hdraining]
      refine ⟨⟨?_, ?_, ?_⟩, .inl rfl⟩
      · rw [if_neg hdraining]
      · rw [if_neg hdraining]
        exact .inl rfl
      · rw [if_neg hdraining]
        exact id
  · exact permitted_reserve hmarker hobserved
  · split
    · exact permitted_fail
    · rename_i tx
      have hreserve : operation ≠ .reserve := by assumption
      split_ifs with hretire
      · exact permitted_retireLive hinv hactive hretire.2 fun prior hget =>
          (hprior (by rw [hretire.1]; decide) tx rfl prior hget).2
      · apply permitted_revocable hinv hactive fun hother => hfresh hreserve hother tx rfl
        intro hoperation hblocked hmode hpaused hdeadline hdrain
        refine ⟨hoperation, ?_, hmode, hpaused, hdeadline, hdrain⟩
        rcases hobserved.same with rfl | ⟨tx', htx', hblocked'⟩
        · exact hactive
        · obtain rfl := Option.some.inj htx'
          exact absurd hblocked' hblocked

/-- A step that is to be taken is not recorded, a retirement that is published apart. -/
theorem prior_of_replay {observed : Option ComponentTransaction}
    (h : (replay operation step coordinator payloadDigest observed).result = .ok none)
    (hreserve : operation ≠ .reserve) :
    ∀ tx ∈ observed, ∀ prior, tx.stepResults.get step.stepId = some prior →
      operation = .retire ∧ ∃ d markerDigest, prior.result = .published d markerDigest := by
  rintro tx ⟨⟩ prior hprior
  rw [replay] at h
  simp only [hreserve, if_false, WritePlan.result_bind] at h
  cases hmatches : (WritePlan.require (matchesTransaction step coordinator tx = true)
      "transaction_authority_mismatch" : UpgradePlan Unit).result with
  | error error =>
      rw [hmatches] at h
      cases h
  | ok _ =>
      rw [hmatches] at h
      change replayed operation step.stepId payloadDigest tx = .ok none at h
      rw [replayed, hprior] at h
      dsimp only at h
      by_cases hdigest : prior.payloadDigest ≠ payloadDigest
      · rw [if_pos hdigest] at h
        cases h
      · rw [if_neg hdigest] at h
        split at h
        · rename_i hpublished
          exact ⟨rfl, _, _, hpublished⟩
        · cases h

theorem replay_writes {observed : Option ComponentTransaction} :
    (replay operation step coordinator payloadDigest observed).writes = [] := by
  cases observed with
  | none => rfl
  | some tx =>
      rw [replay]
      split_ifs
      · rfl
      · by_cases hmatches : matchesTransaction step coordinator tx = true
        · rw [WritePlan.require_bind_of hmatches]
          rfl
        · rw [WritePlan.require_bind_of_not hmatches]
          rfl

/-- Every write of a step is allowed. -/
theorem permitted_execute (hmarker : admin.marker.generation ∈ generations)
    (hinv : UpgradeInv generations files) :
    Permitted (executeLicence admin files answers operation step) generations (fun _ _ => True)
      files (admin.execute host files answers operation step payload coordinator) := by
  rw [execute, precheck]
  refine WritePlan.wp_bind ?_
  refine WritePlan.wp_require_bind fun _ => ?_
  refine WritePlan.wp_require_bind fun _ => ?_
  refine WritePlan.wp_require_bind fun _ => ?_
  refine WritePlan.wp_require_bind fun _ => ?_
  refine WritePlan.wp_require fun _ => ?_
  refine WritePlan.wp_bind ((permitted_observe hinv).mono fun observed s hobserved => ?_)
  refine WritePlan.wp_ofExcept_bind fun _ _ => ?_
  refine WritePlan.wp_ofExcept_bind fun _ _ => ?_
  refine WritePlan.wp_quiet_bind replay_writes fun replayed hreplayed => ?_
  cases replayed with
  | some result => exact permitted_return
  | none => exact permitted_take hmarker hobserved (prior_of_replay hreplayed)

/-! ### The deadline and the operator -/

theorem permitted_abort {α : Type} {changes : ComponentTransaction → ComponentTransaction}
    {f : ComponentTransaction → UpgradePlan α} (hinv : UpgradeInv generations s)
    (hactive : s.transaction = some tx) (hchange : tx.Change changes)
    (hold : tx.state.irrevocable = false) (hnew : (changes tx).state.irrevocable = false)
    {post : α → UpgradeFiles → Prop}
    (h : ∀ s', UpgradeInv generations s' → s'.control = s.control →
      Permitted licence generations post s' (f (tx.updated changes none))) :
    Permitted licence generations post s (tx.update changes none >>= f) :=
  permitted_update_bind hinv hactive (.revocable hchange (hinv.receipts_of_active hactive) hold hnew
    (by simp) (by simp)) fun s' hinv' _ hcontrol => h s' hinv' hcontrol

theorem permitted_expire (hinv : UpgradeInv generations files) :
    Permitted licence generations (fun _ _ => True) files (admin.expire files answers) := by
  rw [expire]
  split
  · exact permitted_return
  rename_i tx hactive
  split_ifs with hrevocable
  · exact permitted_return
  refine WritePlan.wp_require_bind fun _ => ?_
  rw [← hactive]
  refine WritePlan.wp_bind ((permitted_observe hinv).mono fun observed s hobserved => ?_)
  split
  · exact permitted_return
  rename_i tx'
  by_cases hdeadline : tx'.state = .recoveryBlocked ∨ (!tx'.barrierDeadline.any (· ≤ answers.now)) = true
  · rw [if_pos hdeadline]
    exact permitted_return
  rw [if_neg hdeadline]
  rw [not_or] at hdeadline hrevocable
  have hopen : tx'.state.irrevocable = false ∧ tx'.state ≠ .aborted := by
    rcases hobserved.same with rfl | ⟨tx'', htx'', hblocked⟩
    · obtain rfl : tx = tx' := Option.some.inj (hactive.symm.trans hobserved.transaction)
      exact ⟨by simpa using hrevocable.1, hrevocable.2⟩
    · obtain rfl := Option.some.inj htx''
      exact absurd hblocked hdeadline.1
  have hleads : TransactionState.leadsTo tx'.mode tx'.state .aborted = true ∧
      TransactionState.leadsTo tx'.mode tx'.state .drainBlocked = true := by
    simp [TransactionState.leadsTo, TransactionState.isOpen, hopen, hdeadline.1]
  refine permitted_drain_bind fun drained complete _ => ?_
  dsimp only
  split_ifs
  · exact permitted_abort hobserved.inv hobserved.transaction ⟨rfl, .inr hleads.1, id⟩ hopen.1 rfl
      fun _ _ _ => WritePlan.wp_ofExcept_bind fun _ _ => permitted_return
  · exact permitted_abort hobserved.inv hobserved.transaction ⟨rfl, .inr hleads.2, id⟩ hopen.1 rfl
      fun _ _ _ => permitted_return
  · exact permitted_return

theorem permitted_poll {paused : Bool} {observed : Option ComponentTransaction}
    (hcontrol : s.control = files.control) :
    Permitted licence generations (fun _ _ => True) s
      (admin.poll files answers observed paused) := by
  rw [poll]
  split_ifs
  · apply permitted_of_quiet
    rw [reconcile]
    cases answers.check .verifyAuthority <;> rfl
  all_goals
    refine WritePlan.wp_quiet_bind rfl fun published _ => ?_
    dsimp only
    split_ifs
    · refine permitted_drain_bind fun drained complete _ => ?_
      dsimp only
      split_ifs
      · refine WritePlan.wp_ofExcept_bind fun _ _ => ?_
        refine WritePlan.wp_write ?_ fun _ _ => trivial
        rw [← hcontrol]
        exact .kept rfl rfl rfl
      · exact permitted_return
    · exact permitted_return

theorem permitted_writePause {paused : Bool} {post : Unit → UpgradeFiles → Prop}
    (h : ∀ pause, post () { s with pause := some pause }) :
    Permitted licence generations post s (admin.writePause files answers paused) := by
  refine WritePlan.wp_write .pause fun s' hs' => ?_
  obtain rfl := apply_pause hs'
  exact h _

/-- `operatorStop()` aborts no transaction that is committed. -/
theorem permitted_operatorStop (hinv : UpgradeInv generations files) :
    Permitted licence generations (fun _ _ => True) files (admin.operatorStop files answers) := by
  have hrest : ∀ s : UpgradeFiles, UpgradeInv generations s → s.control = files.control →
      s.transaction = files.transaction →
        Permitted licence generations (fun _ _ => True) s (do
          let tx ← stopTransaction files answers
          admin.poll files answers tx true) := by
    intro s hinv hcontrol htransaction
    refine WritePlan.wp_bind ?_
    rw [stopTransaction]
    split
    · exact WritePlan.wp_pure (permitted_poll hcontrol)
    rename_i tx hactive
    rw [hactive] at htransaction
    have hstops : (stops answers tx).writes = [] ∧ ((stops answers tx).result = .ok true →
        tx.state.irrevocable = false ∧
          TransactionState.leadsTo tx.mode tx.state .aborted = true) := by
      rw [stops]
      split_ifs with hrevocable hlive hblocked
      · exact ⟨rfl, fun h => by cases h⟩
      · exact ⟨rfl, fun h => by cases h⟩
      all_goals
        rw [not_or, Bool.not_eq_true] at hrevocable
        refine ⟨rfl, fun _ => ⟨hrevocable.1, ?_⟩⟩
        simp [TransactionState.leadsTo, TransactionState.isOpen, *]
    refine WritePlan.wp_quiet_bind hstops.1 fun stopped hstopped => ?_
    split_ifs with h
    · rw [h] at hstopped
      obtain ⟨hold, hleads⟩ := hstops.2 hstopped
      exact permitted_abort hinv htransaction ⟨rfl, .inr hleads, id⟩ hold rfl fun s' _ hcontrol' =>
        WritePlan.wp_ofExcept_bind fun _ _ => WritePlan.wp_pure
          (permitted_poll (hcontrol'.trans hcontrol))
    · exact WritePlan.wp_pure (permitted_poll hcontrol)
  rw [operatorStop]
  dsimp only
  split_ifs
  · refine WritePlan.wp_bind (permitted_writePause fun pause => ?_)
    exact hrest _ ⟨hinv.named, hinv.fits, hinv.receipts, hinv.attempts, hinv.there, hinv.epoch,
      hinv.active, hinv.ready, hinv.known, hinv.owner⟩ rfl rfl
  · exact hrest files hinv rfl rfl

end Calls

end Administration

end H2a.Handover
