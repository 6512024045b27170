import H2a.Handover.CommitmentSteps
/-!
# An upgrade does not go back

The starters and the processes that start and stop write what is allowed, too.  So every step of an
upgrade keeps the invariant of the state directory, and every run does.
-/

namespace H2a.Handover

open H2a.Library

theorem UpgradeInv.grow {generations : List JsString} {s : UpgradeFiles}
    (h : UpgradeInv generations s) (generation : JsString) :
    UpgradeInv (generations ++ [generation]) s :=
  ⟨h.named, h.fits, h.receipts, h.attempts, h.there, h.epoch, h.active, h.ready,
    fun ref tx hget => List.mem_append_left _ (h.known ref tx hget),
    List.mem_append_left _ h.owner⟩

/-! ## Starters and processes -/

section Processes

variable {licence : Licence} {generations : List JsString} {admin : Administration}
  {files s : UpgradeFiles} {tx : ComponentTransaction}

/-- A move of a cold stop that is committed. -/
theorem permitted_forward {α : Type} {changes : ComponentTransaction → ComponentTransaction}
    {record : Option (JsString × StepRecord)} {a : α} (hinv : UpgradeInv generations s)
    (hactive : s.transaction = some tx) (hchange : tx.Change changes)
    (hold : tx.state ∈ [.stopCommitted, .stopped, .starting])
    (hnew : (changes tx).state ∈ [.stopped, .starting, .successorFailed, .ready])
    (hforgets : ∀ entry ∈ record, tx.Forgets (changes tx).state entry)
    (hrecord : ∀ entry ∈ record, entry.2.result.publicationDigest = none)
    (hready : (changes tx).state = .ready → s.control.sourceGeneration ≠ tx.source.generation) :
    Permitted licence generations (fun _ _ => True) s (do
      let _ ← tx.update changes record
      return a) := by
  have hold' : tx.state.transferred = false := by
    revert hold
    cases tx.state <;> decide
  have hnew' : (changes tx).state.transferred = false ∧ (changes tx).state ≠ .stopCommitted := by
    revert hnew
    cases (changes tx).state <;> decide
  exact permitted_update_bind hinv hactive (.cold hchange (hinv.receipts_of_active hactive) hold'
    hnew'.1 hforgets hrecord (fun h => absurd h hnew'.2) hready) fun _ _ _ _ => permitted_return

/-- A transaction that has come to its stop is told so. -/
theorem permitted_stopped {s : UpgradeFiles} {active : Option ComponentTransaction}
    (hinv : UpgradeInv generations s) (hactive : s.transaction = active) :
    Permitted licence generations (fun _ _ => True) s (
      match active with
      | none => pure ()
      | some tx =>
          if tx.state = .stopCommitted then do
            let _ ← tx.update (.toState .stopped) none
          else pure ()) := by
  split
  · exact permitted_return
  rename_i tx
  split_ifs with hcommitted
  · have hleads : TransactionState.leadsTo tx.mode tx.state .stopped = true := by
      rw [hcommitted]
      rfl
    exact permitted_forward hinv hactive ⟨rfl, .inr hleads, id⟩
      (by rw [hcommitted]; decide) (by simp [ComponentTransaction.toState]) (by simp) (by simp)
      (fun h => by cases h)
  · exact permitted_return

theorem permitted_stopServer (hinv : UpgradeInv generations files) :
    Permitted licence generations (fun _ _ => True) files (stopServer admin files) := by
  rw [stopServer]
  dsimp only
  split_ifs
  · have hallowed : Legal licence generations files (.control files.control { files.control with
        revision := files.control.revision + 1
        ownerActive := false
        operatorStopped := files.control.operatorStopCommitted }) := .kept rfl rfl rfl
    refine WritePlan.wp_bind (WritePlan.wp_write hallowed fun s' hs' => ?_)
    have hinv' := hinv.apply hallowed hs'
    obtain rfl := apply_control hs'
    exact permitted_stopped hinv' rfl
  · exact permitted_stopped hinv rfl

theorem permitted_reserveSuccessorAttempt {authorized : Bool} (hinv : UpgradeInv generations files) :
    Permitted licence generations (fun _ _ => True) files
      (reserveSuccessorAttempt files authorized) := by
  rw [reserveSuccessorAttempt]
  split
  · exact permitted_fail
  rename_i tx hactive
  refine WritePlan.wp_require_bind fun _ => ?_
  refine WritePlan.wp_require_bind fun _ => ?_
  refine WritePlan.wp_require_bind fun hstate => ?_
  refine WritePlan.wp_require_bind fun hattempts => ?_
  exact permitted_forward hinv hactive ⟨rfl, .inr (decide_eq_true hstate), fun _ => hattempts⟩ hstate
    (by simp) (by simp) (by simp) (fun h => by cases h)

theorem permitted_recordSuccessor {identity : ProcessIdentity} (hinv : UpgradeInv generations files) :
    Permitted licence generations (fun _ _ => True) files (recordSuccessor files identity) := by
  rw [recordSuccessor]
  split
  · exact permitted_fail
  rename_i tx hactive
  refine WritePlan.wp_require_bind fun hstate => ?_
  refine WritePlan.wp_require_bind fun _ => ?_
  exact permitted_forward hinv hactive ⟨rfl, .inl rfl, id⟩ (by rw [hstate]; decide)
    (by dsimp only; rw [hstate]; decide) (by simp) (by simp)
    (fun h => by rw [hstate] at h; cases h)

theorem permitted_failSuccessor {reason reasonDigest : JsString} {fatal : Bool}
    (hinv : UpgradeInv generations files) :
    Permitted licence generations (fun _ _ => True) files
      (failSuccessor files reason reasonDigest fatal) := by
  rw [failSuccessor]
  split
  · exact permitted_fail
  rename_i tx hactive
  refine WritePlan.wp_require_bind fun hstate => ?_
  refine permitted_forward hinv hactive ⟨rfl, .inr ?_, id⟩ (by rw [hstate]; decide) ?_ ?_ ?_ ?_
  · rw [hstate]
    dsimp only [ComponentTransaction.toState]
    split_ifs <;> rfl
  · dsimp only [ComponentTransaction.toState]
    split_ifs <;> decide
  · rintro entry ⟨⟩ record _
    exact .inr ⟨_, rfl⟩
  · rintro entry ⟨⟩
    rfl
  · dsimp only [ComponentTransaction.toState]
    split_ifs <;> exact fun h => by cases h

/-- A transaction that was starting is ready, under a generation it does not name. -/
theorem permitted_started {s : UpgradeFiles} {active : Option ComponentTransaction}
    (successor : Bool) (hinv : UpgradeInv generations s) (hactive : s.transaction = active)
    (hother : ∀ tx, active = some tx → tx.source.generation ≠ s.control.sourceGeneration) :
    Permitted licence generations (fun _ _ => True) s (
      match active with
      | some tx =>
          if successor ∧ tx.state = .starting then do
            let _ ← tx.update (.toState .ready) none
          else pure ()
      | none => pure ()) := by
  split
  · rename_i tx
    split_ifs with hstarting
    · have hleads : TransactionState.leadsTo tx.mode tx.state .ready = true :=
        decide_eq_true hstarting.2
      exact permitted_forward hinv hactive ⟨rfl, .inr hleads, id⟩
        (by rw [hstarting.2]; decide) (by simp [ComponentTransaction.toState]) (by simp) (by simp)
        fun _ => (hother tx rfl).symm
    · exact permitted_return
  · exact permitted_return

/-- A process starts under a generation that no transaction names. -/
theorem permitted_startServer (successor : Bool) (hinv : UpgradeInv generations files)
    (hfresh : admin.marker.generation ∉ generations) :
    Permitted licence (generations ++ [admin.marker.generation]) (fun _ _ => True) files
      (startServer admin files successor) := by
  have hgrown := hinv.grow admin.marker.generation
  have hother : ∀ ref tx, files.transactions.get ref = some tx →
      tx.source.generation ≠ admin.marker.generation := by
    intro ref tx hget heq
    exact hfresh (heq ▸ hinv.known ref tx hget)
  have hallowed (s : UpgradeFiles) (hcontrol : s.control = files.control)
      (htransactions : s.transactions = files.transactions) :
      Legal licence (generations ++ [admin.marker.generation]) s
        (.control files.control { files.control with
          revision := files.control.revision + 1
          sourceGeneration := admin.marker.generation
          ownerIdentity := admin.marker.processIdentity
          ownerActive := true
          operatorStopCommitted := false
          operatorStopped := false }) := by
    rw [← hcontrol]
    refine .started rfl (List.mem_append_right _ (List.mem_singleton_self _)) ?_ rfl
    rw [htransactions]
    exact hother
  have hactive : ∀ tx, files.transaction = some tx →
      tx.source.generation ≠ admin.marker.generation := by
    intro tx htx
    obtain ⟨ref, -, hget⟩ := transaction_eq_some.mp htx
    exact hother ref tx hget
  rw [startServer]
  refine WritePlan.wp_require_bind fun _ => ?_
  dsimp only
  split
  · split_ifs
    · refine WritePlan.wp_bind (WritePlan.wp_write .pause fun s' hs' => ?_)
      have hpaused := apply_pause hs'
      have hlegal := hallowed s' (by rw [hpaused]) (by rw [hpaused])
      refine WritePlan.wp_bind (WritePlan.wp_write hlegal fun s'' hs'' => ?_)
      have hinv' : UpgradeInv (generations ++ [admin.marker.generation]) s' := by
        rw [hpaused]
        exact ⟨hgrown.named, hgrown.fits, hgrown.receipts, hgrown.attempts, hgrown.there,
          hgrown.epoch, hgrown.active, hgrown.ready, hgrown.known, hgrown.owner⟩
      have hinv'' := hinv'.apply hlegal hs''
      obtain rfl := apply_control hs''
      obtain rfl := hpaused
      exact permitted_started successor hinv'' rfl hactive
    · refine WritePlan.wp_bind (WritePlan.wp_write (hallowed _ rfl rfl) fun s' hs' => ?_)
      have hinv' := hgrown.apply (hallowed _ rfl rfl) hs'
      obtain rfl := apply_control hs'
      exact permitted_started successor hinv' rfl hactive
  · refine WritePlan.wp_bind (WritePlan.wp_write (hallowed _ rfl rfl) fun s' hs' => ?_)
    have hinv' := hgrown.apply (hallowed _ rfl rfl) hs'
    obtain rfl := apply_control hs'
    exact permitted_started successor hinv' rfl hactive

end Processes

/-! ## Calls and steps -/

/-- What a call may do: only a step of a coordinator commits a cold stop or makes a reservation. -/
def UpgradeCall.licence (admin : Administration) (files : UpgradeFiles) (answers : Answers) :
    UpgradeCall → Licence
  | .execute operation step _ _ => admin.executeLicence files answers operation step
  | _ => .none

theorem permitted_call {generations : List JsString} {admin : Administration}
    {files : UpgradeFiles} (host : UpgradeHost) (answers : Answers) (call : UpgradeCall)
    (hmarker : admin.marker.generation ∈ generations) (hinv : UpgradeInv generations files) :
    Permitted (call.licence admin files answers) generations (fun _ _ => True) files
      (call.plan host admin files answers) := by
  cases call with
  | execute operation step payload coordinator =>
      exact WritePlan.wp_map (Administration.permitted_execute hmarker hinv)
  | expire => exact WritePlan.wp_map (Administration.permitted_expire hinv)
  | operatorStop => exact Administration.permitted_operatorStop hinv
  | resume => exact Administration.permitted_writePause fun _ => trivial
  | poll => exact Administration.permitted_poll rfl
  | reconcile =>
      apply permitted_of_quiet
      rw [UpgradeCall.plan, Administration.reconcile]
      cases answers.check .verifyAuthority <;> rfl
  | admissionsOpen =>
      rw [UpgradeCall.plan]
      apply WritePlan.wp_map
      rw [Administration.admissionsOpen]
      split_ifs
      · exact permitted_return
      refine WritePlan.wp_bind ((Administration.permitted_observe hinv).mono fun observed s _ => ?_)
      apply permitted_of_quiet
      dsimp only
      split_ifs
      · rfl
      · split
        · rfl
        · split_ifs <;> rfl

namespace UpgradeWorld

variable {world : UpgradeWorld}

/-- The directory is in order, and no process lives under a generation that was not drawn. -/
structure Inv (world : UpgradeWorld) : Prop where
  files : UpgradeInv world.generations world.files
  drawn : ∀ admin, some admin ∈ world.administrations → admin.marker.generation ∈ world.generations

/-- What the step of an action may do. -/
def licence (world : UpgradeWorld) : UpgradeAction → Licence
  | .call which call answers _ =>
      match world.administrations[which]? with
      | some (some admin) => call.licence admin world.files answers
      | _ => .none
  | _ => .none

/-- What a plan that is permitted leaves, whatever strikes it. -/
theorem performed {α : Type} (licence : Licence) {generations : List JsString}
    {plan : UpgradePlan α} (fault : Option (Nat × WritePlan.Fault))
    (hinv : UpgradeInv generations world.files)
    (hplan : Permitted licence generations (fun _ _ => True) world.files plan) :
    UpgradeInv generations (world.perform fault plan).1 ∧
      Carried licence world.files (world.perform fault plan).1 :=
  WritePlan.perform_along (I := fun s => UpgradeInv generations s ∧ Carried licence world.files s)
    (fun _ _ _ hs hw happly => ⟨hs.1.apply hw happly, hs.2.apply hs.1 hw happly⟩) fault
    ⟨hinv, .refl licence world.files⟩ hplan

theorem after_marker {admin admin' : Administration} {call : UpgradeCall} {answers : Answers}
    {ended : WritePlan.Ended} (h : after admin call answers ended = some admin') :
    admin'.marker = admin.marker := by
  rw [after.eq_def] at h
  split at h
  · cases h
  · obtain rfl := Option.some.inj h
    rfl
  · obtain rfl := Option.some.inj h
    rfl
  · split_ifs at h <;> · obtain rfl := Option.some.inj h; rfl

/-- Every step keeps the invariant, and leaves what its licence says. -/
theorem Inv.step (h : Inv world) (host : UpgradeHost) (action : UpgradeAction) :
    Inv (step host world action) ∧
      Carried (world.licence action) world.files (UpgradeWorld.step host world action).files := by
  have hstays : Inv world ∧ Carried (world.licence action) world.files world.files :=
    ⟨h, .refl _ _⟩
  cases action with
  | call which call answers fault =>
      rw [UpgradeWorld.step, licence]
      cases hslot : world.administrations[which]? with
      | none => exact ⟨h, .refl _ _⟩
      | some slot =>
          cases slot with
          | none => exact ⟨h, .refl _ _⟩
          | some admin =>
              have hmarker := h.drawn admin (List.mem_of_getElem? hslot)
              obtain ⟨hfiles, hcarried⟩ := performed _ fault h.files
                (permitted_call host answers call hmarker h.files)
              refine ⟨⟨hfiles, ?_⟩, hcarried⟩
              intro admin' hadmin'
              rcases List.mem_or_eq_of_mem_set hadmin' with hold | hnew
              · exact h.drawn admin' hold
              · rw [after_marker hnew.symm]
                exact hmarker
  | crash which =>
      refine ⟨⟨h.files, ?_⟩, .refl _ _⟩
      intro admin hadmin
      rcases List.mem_or_eq_of_mem_set hadmin with hold | hnew
      · exact h.drawn admin hold
      · cases hnew
  | start admin successor fault =>
      rw [UpgradeWorld.step]
      split_ifs with hdrawn
      · exact hstays
      · obtain ⟨hfiles, hcarried⟩ := performed .none fault
          (h.files.grow admin.marker.generation) (permitted_startServer successor
            h.files hdrawn)
        refine ⟨⟨hfiles, ?_⟩, hcarried⟩
        intro admin' hadmin'
        rcases List.mem_append.mp hadmin' with hold | hnew
        · exact List.mem_append_left _ (h.drawn admin' hold)
        · dsimp only at hnew ⊢
          split_ifs at hnew
          · rw [List.mem_singleton, Option.some.injEq] at hnew
            rw [hnew]
            exact List.mem_append_right _ (List.mem_singleton_self _)
          · simp at hnew
  | stopServer which fault =>
      rw [UpgradeWorld.step]
      split
      · obtain ⟨hfiles, hcarried⟩ := performed .none fault h.files
          (permitted_stopServer h.files)
        refine ⟨⟨hfiles, ?_⟩, hcarried⟩
        intro admin' hadmin'
        rcases List.mem_or_eq_of_mem_set hadmin' with hold | hnew
        · exact h.drawn admin' hold
        · cases hnew
      · exact hstays
  | reserveSuccessorAttempt authorized fault =>
      obtain ⟨hfiles, hcarried⟩ := performed .none fault h.files
        (permitted_reserveSuccessorAttempt h.files)
      exact ⟨⟨hfiles, h.drawn⟩, hcarried⟩
  | recordSuccessor identity fault =>
      obtain ⟨hfiles, hcarried⟩ := performed .none fault h.files
        (permitted_recordSuccessor h.files)
      exact ⟨⟨hfiles, h.drawn⟩, hcarried⟩
  | failSuccessor reason reasonDigest fatal fault =>
      obtain ⟨hfiles, hcarried⟩ := performed .none fault h.files
        (permitted_failSuccessor h.files)
      exact ⟨⟨hfiles, h.drawn⟩, hcarried⟩

theorem inv_opened (admin : Administration) : Inv (opened admin) where
  files := {
    named := fun ref tx hget => by cases hget
    fits := fun ref tx hget => by cases hget
    receipts := fun ref tx hget => by cases hget
    attempts := fun ref tx hget => by cases hget
    there := fun ref href => by cases href
    epoch := fun tx htx => by cases htx
    active := fun ref tx hget => by cases hget
    ready := fun ref tx hget => by cases hget
    known := fun ref tx hget => by cases hget
    owner := List.mem_singleton_self _ }
  drawn := by
    intro admin' hadmin'
    rw [opened, List.mem_singleton, Option.some.injEq] at hadmin'
    rw [hadmin']
    exact List.mem_singleton_self _

theorem Inv.foldl (h : Inv world) (host : UpgradeHost) (actions : List UpgradeAction) :
    Inv (actions.foldl (UpgradeWorld.step host) world) := by
  induction actions generalizing world with
  | nil => exact h
  | cons action actions ih => exact ih (h.step host action).1

/-- Every run keeps the directory in order. -/
theorem inv_run (host : UpgradeHost) (admin : Administration) (actions : List UpgradeAction) :
    Inv (run host admin actions) := (inv_opened admin).foldl host actions

/-- A transaction goes on as one of its own, over any run. -/
theorem Inv.stays (h : Inv world) (host : UpgradeHost) (actions : List UpgradeAction)
    {ref : JsString} {tx : ComponentTransaction} (hget : world.files.transactions.get ref = some tx) :
    ∃ tx', (actions.foldl (UpgradeWorld.step host) world).files.transactions.get ref = some tx' ∧
      tx.Becomes tx' := by
  induction actions generalizing world tx with
  | nil => exact ⟨tx, hget, .refl tx⟩
  | cons action actions ih =>
      obtain ⟨hinv, hcarried⟩ := h.step host action
      obtain ⟨tx', hget', hbecomes⟩ := hcarried.stays ref tx hget
      obtain ⟨tx'', hget'', hbecomes'⟩ := ih hinv hget'
      exact ⟨tx'', hget'', hbecomes.trans hbecomes'⟩

/-- A transaction that is committed is observed as it is. -/
theorem observe_committed {tx : ComponentTransaction} {answers : Answers} (hfits : tx.Fits)
    (hirrevocable : tx.state.irrevocable = true) :
    Administration.observeLivePublication answers (some tx) = pure (some tx) := by
  rw [Administration.observeLivePublication]
  apply if_pos
  by_cases hmode : tx.mode = .liveTransfer
  · right
    have htransferred := hfits hmode hirrevocable
    revert htransferred
    cases tx.state <;> decide
  · exact .inl hmode

/-- Admissions are closed under the source of a transaction that is committed. -/
theorem Inv.closed (h : Inv world) {ref : JsString} {tx : ComponentTransaction}
    (hget : world.files.transactions.get ref = some tx) (hirrevocable : tx.state.irrevocable = true)
    {admin : Administration} (hmarker : admin.marker.generation = tx.source.generation)
    (answers : Answers) : (admin.admissionsOpen world.files answers).result ≠ .ok true := by
  rw [Administration.admissionsOpen]
  split_ifs
  · exact fun h => by cases h
  by_cases hown : world.files.control.sourceGeneration = admin.marker.generation
  · have hactive : world.files.transaction = some tx :=
      transaction_eq_some.mpr ⟨ref, h.files.active ref tx hget hirrevocable (hown.trans hmarker), hget⟩
    have hblocked : tx.state.blocked = true := by
      rw [TransactionState.blocked, hirrevocable, Bool.or_true]
    rw [hactive, observe_committed (h.files.fits ref tx hget) hirrevocable, WritePlan.result_bind]
    change (WritePlan.result (if world.files.control.sourceGeneration ≠ admin.marker.generation ∨
      _ ∨ _ then _ else _ : UpgradePlan Bool)) ≠ _
    split_ifs
    · exact fun h => by cases h
    · dsimp only
      rw [if_neg fun hready => hready.2 hmarker.symm, hblocked]
      exact fun h => by cases h
  · -- another generation has the control
    rw [WritePlan.result_bind]
    cases (Administration.observeLivePublication answers world.files.transaction).result with
    | error error => exact fun h => by cases h
    | ok observed =>
        change (WritePlan.result (if world.files.control.sourceGeneration ≠
          admin.marker.generation ∨ _ ∨ _ then _ else _ : UpgradePlan Bool)) ≠ _
        rw [if_pos (.inl hown)]
        exact fun h => by cases h

end UpgradeWorld

end H2a.Handover
