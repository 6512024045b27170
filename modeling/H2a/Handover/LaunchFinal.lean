import H2a.Handover.LaunchMemo
import H2a.Handover.Plans
import H2a.Library.Transition
/-!
# The result of a launch is final

An executor is called at most once for an attachment and name.  Its launch has one final result as
long as no answer of an executor replaces the result that a receipt has proven: `finish` does not
look at the memo that it replaces.
-/

namespace H2a.Handover

open H2a.Library
open LaunchFiles

variable {N : Type}

/-! ## Names of operations -/

theorem childId_ne_briefId (a b : JsString) :
    launchOperationId a .child ≠ launchOperationId b .brief := by
  intro h
  have hunits : a.units ++ (js ":child").units = b.units ++ (js ":brief").units :=
    congrArg JsString.units h
  have hsuffix := (List.append_inj' hunits (by decide)).2
  exact absurd hsuffix (by decide)

theorem briefId_injective {a b : JsString}
    (h : launchOperationId a .brief = launchOperationId b .brief) : a = b := by
  have hunits : a.units ++ (js ":brief").units = b.units ++ (js ":brief").units :=
    congrArg JsString.units h
  exact JsString.ext_units (List.append_cancel_right hunits)

/-! ## Drains -/

def DrainCounts.total (value : DrainCounts) : Nat :=
  value.calls + value.children + value.briefs + value.callbacks + value.effects

theorem total_add (value : DrainCounts) (op : Operation (Json N)) :
    value.total ≤ (value.add none op).total ∧
      (op.state ≠ .completed → value.total < (value.add none op).total) := by
  have hcount : value.total < (value.count op.kind).total := by
    cases op.kind <;> simp only [DrainCounts.count, DrainCounts.total] <;> omega
  unfold DrainCounts.add
  rw [if_neg (by simp)]
  split
  · next h => exact ⟨Nat.le_refl _, fun hne => absurd h hne⟩
  · dsimp only
    split
    · have hmore : (value.count op.kind).total <
          ({ value.count op.kind with effects := (value.count op.kind).effects + 1 } :
            DrainCounts).total := by
        simp only [DrainCounts.total]
        omega
      exact ⟨(hcount.trans hmore).le, fun _ => hcount.trans hmore⟩
    · exact ⟨hcount.le, fun _ => hcount⟩

/-- A drain that is complete has found every operation completed. -/
theorem completed_of_foldl (ops : List (Operation (Json N))) (value : DrainCounts)
    (h : (ops.foldl (DrainCounts.add none) value).total = 0) :
    value.total = 0 ∧ ∀ op ∈ ops, op.state = .completed := by
  induction ops generalizing value with
  | nil => exact ⟨h, by simp⟩
  | cons op ops ih =>
      obtain ⟨hzero, hops⟩ := ih _ h
      obtain ⟨hle, hlt⟩ := total_add value op
      refine ⟨by omega, ?_⟩
      intro other hother
      rcases List.mem_cons.mp hother with rfl | hother
      · apply Classical.byContradiction
        intro hopen
        have := hlt hopen
        omega
      · exact hops other hother

theorem completed_of_drained [DecidableEq N] {operations : JsMap JsString (Operation (Json N))}
    (h : (drainCounts none operations).complete = true) {id : JsString}
    {op : Operation (Json N)} (hop : operations.get id = some op) : op.state = .completed := by
  have hzero : (drainCounts none operations).total = 0 := by
    have heq : drainCounts none operations = ⟨0, 0, 0, 0, 0⟩ := by
      simpa [DrainCounts.complete] using h
    rw [heq]
    rfl
  exact (completed_of_foldl _ _ hzero).2 op ((operations.mem_values_iff op).mpr ⟨id, hop⟩)

/-! ## The invariant -/

/-- What ties the files of launches together. -/
structure LaunchInv (executed : List LaunchKey) (files : LaunchFiles N) : Prop where
  keyed : ∀ key memo, files.memos.get key = some memo →
    key = (memo.attachmentId, memo.launchName)
  operations : ∀ id op, files.ledger.operations.get id = some op → op.operationId = id
  located : ∀ key memo, files.memos.get key = some memo → files.locations.has memo.launchId = true
  apart : ∀ key key' memo memo', files.memos.get key = some memo →
    files.memos.get key' = some memo' → memo.launchId = memo'.launchId → key = key'
  proven : ∀ key memo, files.memos.get key = some memo → memo.state = .completed →
    ∃ result, memo.terminalResult = some result ∧ isComplete result = true ∧
      isBriefKnown result = true
  pending : ∀ key ∈ executed, ∃ memo, files.memos.get key = some memo ∧
    (memo.state ≠ .completed → ∃ op,
      files.ledger.operations.get (launchOperationId memo.launchId .brief) = some op ∧
        op.state ≠ .completed)

/-- Memos stay those of their launches, and completed ones keep their results. -/
def MemosKept (files files' : LaunchFiles N) : Prop :=
  ∀ key memo, files.memos.get key = some memo → ∃ memo', files'.memos.get key = some memo' ∧
    memo'.launchId = memo.launchId ∧
    (memo.state = .completed → memo'.state = .completed ∧
      memo'.terminalResult = memo.terminalResult)

theorem MemosKept.refl (files : LaunchFiles N) : MemosKept files files :=
  fun _ memo h => ⟨memo, h, rfl, fun hstate => ⟨hstate, rfl⟩⟩

theorem MemosKept.trans {a b c : LaunchFiles N} (hab : MemosKept a b) (hbc : MemosKept b c) :
    MemosKept a c := by
  intro key memo h
  obtain ⟨memo', h', hid, hkept⟩ := hab key memo h
  obtain ⟨memo'', h'', hid', hkept'⟩ := hbc key memo' h'
  refine ⟨memo'', h'', hid'.trans hid, fun hstate => ?_⟩
  obtain ⟨hstate', hresult⟩ := hkept hstate
  obtain ⟨hstate'', hresult'⟩ := hkept' hstate'
  exact ⟨hstate'', hresult'.trans hresult⟩

theorem MemosKept.of_same {a b : LaunchFiles N} (h : b.memos = a.memos) : MemosKept a b := by
  intro key memo hget
  exact ⟨memo, by rw [h, hget], rfl, fun hstate => ⟨hstate, rfl⟩⟩

/-! ## Writes of the ledger -/

variable {executed : List LaunchKey} {start files : LaunchFiles N}

/-- Every state that a call leaves. -/
def LaunchesSound (executed : List LaunchKey) (start files : LaunchFiles N) : Prop :=
  LaunchInv executed files ∧ MemosKept start files

/-- The operation is not the brief of a launch that is not completed. -/
def Finishable (executed : List LaunchKey) (files : LaunchFiles N) (operationId : JsString) : Prop :=
  ∀ key ∈ executed, ∀ memo, files.memos.get key = some memo → memo.state ≠ .completed →
    launchOperationId memo.launchId .brief ≠ operationId

theorem finishable_child (launchId : JsString) :
    Finishable executed files (launchOperationId launchId .child) :=
  fun _ _ memo _ _ h => childId_ne_briefId launchId memo.launchId h.symm

/-- The brief of a launch that is completed. -/
theorem LaunchInv.finishable_brief (h : LaunchInv executed files) {key : LaunchKey}
    {memo : LaunchMemo N} (hget : files.memos.get key = some memo)
    (hstate : memo.state = .completed) :
    Finishable executed files (launchOperationId memo.launchId .brief) := by
  intro key' _ memo' hget' hopen heq
  obtain rfl := h.apart _ _ _ _ hget' hget (briefId_injective heq)
  rw [hget] at hget'
  exact hopen (Option.some.inj hget' ▸ hstate)

theorem Finishable.of_same {files' : LaunchFiles N} {id : JsString}
    (h : Finishable executed files id) (hmemos : files'.memos = files.memos) :
    Finishable executed files' id := by
  intro key hkey memo hget
  rw [hmemos] at hget
  exact h key hkey memo hget

/-- A write that leaves open the briefs of launches that are not completed. -/
def Allowed (executed : List LaunchKey) (files : LaunchFiles N) : FileWrite (Json N) → Prop
  | .publishOperation _ | .publishEffect _ | .bump => True
  | .replaceOperation id _ next =>
      next.operationId = id ∧ (next.state = .completed → Finishable executed files id)
  | _ => False

/-- Operations that keep those of open briefs open. -/
theorem LaunchesSound.ledger (h : LaunchesSound executed start files) {ledger : Directory (Json N)}
    (hids : ∀ id op, ledger.operations.get id = some op → op.operationId = id)
    (hopen : ∀ key ∈ executed, ∀ memo, files.memos.get key = some memo → memo.state ≠ .completed →
      ∀ op, files.ledger.operations.get (launchOperationId memo.launchId .brief) = some op →
        op.state ≠ .completed → ∃ op',
          ledger.operations.get (launchOperationId memo.launchId .brief) = some op' ∧
            op'.state ≠ .completed) :
    LaunchesSound executed start { files with ledger } where
  left := {
    keyed := h.1.keyed
    operations := hids
    located := h.1.located
    apart := h.1.apart
    proven := h.1.proven
    pending := by
      intro key hkey
      obtain ⟨memo, hget, hpending⟩ := h.1.pending key hkey
      refine ⟨memo, hget, fun hstate => ?_⟩
      obtain ⟨op, hop, hop'⟩ := hpending hstate
      exact hopen key hkey memo hget hstate op hop hop' }
  right := h.2

theorem Allowed.of_same {files' : LaunchFiles N} {write : FileWrite (Json N)}
    (h : Allowed executed files write) (hmemos : files'.memos = files.memos) :
    Allowed executed files' write := by
  cases write with
  | replaceOperation id expected next =>
      exact ⟨h.1, fun hcompleted => (h.2 hcompleted).of_same hmemos⟩
  | _ => exact h

/-! ## What is promised -/

variable [DecidableEq N]

/-- What is promised of a state. -/
structure LaunchesHold (digest : Json N → JsString) (world : LaunchWorld N) : Prop where
  once : world.executed.Nodup
  refused : ∀ action key argumentsDigest memo,
    LaunchAction.named digest action = some (key, argumentsDigest) →
    world.files.memos.get key = some memo → memo.initialArgumentsDigest ≠ argumentsDigest →
    (world.step digest action).executed = world.executed ∧ world.answer digest action = none
  answered : ∀ action key memo result,
    LaunchAction.named digest action = some (key, memo.initialArgumentsDigest) →
    world.files.memos.get key = some memo → memo.state = .completed →
    world.answer digest action = some result → memo.terminalResult = some result
  drained : world.drained = true → ∀ key ∈ world.executed,
    ∃ memo, world.files.memos.get key = some memo ∧ memo.state = .completed

/-- The world after a run. -/
def LaunchWorld.run (digest : Json N → JsString) (actions : List (LaunchAction N)) :
    LaunchWorld N :=
  actions.foldl (LaunchWorld.step digest) .start

/-- A memo that is completed stays so, with its result. -/
def FinalFrom (world world' : LaunchWorld N) : Prop :=
  ∀ key memo, world.files.memos.get key = some memo → memo.state = .completed →
    ∃ memo', world'.files.memos.get key = some memo' ∧ memo'.state = .completed ∧
      memo'.terminalResult = memo.terminalResult

/-- What is promised of a run. -/
def LaunchesFinal (digest : Json N → JsString) (actions : List (LaunchAction N)) : Prop :=
  LaunchesHold digest (LaunchWorld.run digest actions) ∧
    ∀ earlier later, actions = earlier ++ later →
      FinalFrom (LaunchWorld.run digest earlier) (LaunchWorld.run digest actions)

/-- An executor does not answer a launch that is completed with another result. -/
def AnswersInTime (world : LaunchWorld N) : LaunchAction N → Prop
  | .replied _ n outcome _ =>
      ∀ waiting memo, world.waiting[n]? = some waiting →
        world.files.memos.get waiting.key = some memo → memo.state = .completed →
        memo.terminalResult = some (outcome.terminal waiting.launchId)
  | _ => True

theorem LaunchesSound.publish (h : LaunchesSound executed start files) {write : FileWrite (Json N)}
    (hallowed : Allowed executed files write)
    (hmatches : write.matchesCurrent files.ledger = true) :
    LaunchesSound executed start { files with ledger := write.publish files.ledger } := by
  cases write with
  | publishOperation value =>
      apply h.ledger
      · intro id op hget
        rw [FileWrite.publish, JsMap.get_set] at hget
        split at hget
        · next hid => rw [← Option.some.inj hget, hid]
        · exact h.1.operations id op hget
      · intro key hkey memo hmemo hstate op hop hopen
        refine ⟨op, ?_, hopen⟩
        have hne : launchOperationId memo.launchId .brief ≠ value.operationId := by
          intro heq
          rw [heq] at hop
          simp [FileWrite.matchesCurrent, JsMap.has, hop] at hmatches
        rw [FileWrite.publish, JsMap.get_set_of_ne _ _ hne]
        exact hop
  | replaceOperation id expected next =>
      obtain ⟨hid, hfinish⟩ := hallowed
      apply h.ledger
      · intro id' op hget
        rw [FileWrite.publish, JsMap.get_set] at hget
        split at hget
        · next heq => rw [← Option.some.inj hget, heq, hid]
        · exact h.1.operations id' op hget
      · intro key hkey memo hmemo hstate op hop hopen
        by_cases heq : launchOperationId memo.launchId .brief = id
        · refine ⟨next, ?_, ?_⟩
          · rw [FileWrite.publish, JsMap.get_set, if_pos heq]
          · intro hcompleted
            exact hfinish hcompleted key hkey memo hmemo hstate heq
        · refine ⟨op, ?_, hopen⟩
          rw [FileWrite.publish, JsMap.get_set_of_ne _ _ heq]
          exact hop
  | publishEffect event =>
      exact h.ledger h.1.operations fun _ _ _ _ _ op hop hopen => ⟨op, hop, hopen⟩
  | bump => exact h.ledger h.1.operations fun _ _ _ _ _ op hop hopen => ⟨op, hop, hopen⟩
  | publishOwnership => exact hallowed.elim
  | replaceOwnership => exact hallowed.elim
  | publishCheckpoint => exact hallowed.elim

theorem safe_writeEach {writes : List (FileWrite (Json N))} (h : LaunchesSound executed start files)
    (hallowed : ∀ write ∈ writes, Allowed executed files write) :
    Durable.Safe (LaunchesSound executed start) (fun _ t => t.memos = files.memos)
      (writeEach writes) files := by
  induction writes generalizing files with
  | nil => exact Durable.safe_pure h rfl
  | cons write writes ih =>
      refine Durable.safe_bind (Q := fun _ t => t.memos = files.memos) ?_ ?_
      · refine Durable.safe_write h fun t ht => ?_
        split at ht
        · next hok =>
          obtain rfl := Except.ok.inj ht
          rw [Bool.and_eq_true] at hok
          exact ⟨h.publish (hallowed write List.mem_cons_self) hok.2, rfl⟩
        · cases ht
      · intro _ t ht hmemos
        refine (ih ht fun w hw => ?_).mono fun _ t' _ h' => h'.trans hmemos
        exact (hallowed w (List.mem_cons_of_mem _ hw)).of_same hmemos

theorem safe_mutate {plan : Directory (Json N) → Except String (Plan (Json N))}
    (h : LaunchesSound executed start files)
    (hallowed : ∀ p, plan files.ledger = .ok p → ∀ write ∈ p.writes, Allowed executed files write) :
    Durable.Safe (LaunchesSound executed start) (fun _ t => t.memos = files.memos)
      (mutate plan) files := by
  refine Durable.safe_bind (Q := fun p t => t = files ∧ plan files.ledger = .ok p) ?_ ?_
  · exact Durable.safe_reads h fun p hp => ⟨rfl, hp⟩
  · rintro p t ht ⟨rfl, hp⟩
    refine Durable.safe_bind (safe_writeEach h (hallowed p hp)) ?_
    intro _ t' ht' hmemos
    exact Durable.safe_pure ht' hmemos

theorem safe_bump (h : LaunchesSound executed start files) :
    Durable.Safe (LaunchesSound executed start)
      (fun _ t => t.memos = files.memos ∧ t.ledger.operations = files.ledger.operations)
      bump files := by
  refine Durable.safe_bind (Q := fun _ t => t.memos = files.memos ∧
    t.ledger.operations = files.ledger.operations) ?_ fun _ _ ht hsame => Durable.safe_pure ht hsame
  refine Durable.safe_write h fun t ht => ?_
  split at ht
  · next hok =>
    cases ht
    rw [Bool.and_eq_true] at hok
    exact ⟨h.publish trivial hok.2, rfl, rfl⟩
  · cases ht

/-! ## Calls of the ledger -/

theorem allowed_finish (h : LaunchesSound executed start files) {operation : Operation (Json N)}
    {result : Json N} {unknown : Bool}
    (hfinish : unknown = false → Finishable executed files operation.operationId)
    {p : Plan (Json N)} (hp : finish files.ledger operation result unknown = .ok p) :
    ∀ write ∈ p.writes, Allowed executed files write := by
  unfold finish at hp
  split at hp
  · cases hp
  · next old hold =>
    split at hp
    · cases hp
    · split at hp
      · split at hp
        · cases hp
        · cases hp
          simp
      · dsimp only at hp
        split at hp
        · cases hp
        · cases hp
          intro write hwrite
          rcases List.mem_append.mp hwrite with hwrite | hwrite
          · split at hwrite
            · rw [List.mem_singleton.mp hwrite]
              trivial
            · cases hwrite
          · rcases List.mem_cons.mp hwrite with rfl | hwrite
            · refine ⟨h.1.operations _ old hold, fun hcompleted => hfinish ?_⟩
              cases unknown with
              | false => rfl
              | true => cases hcompleted
            · rw [List.mem_singleton.mp hwrite]
              trivial

theorem allowed_publishEffect {operation : Operation (Json N)} {result : Json N}
    {p : Plan (Json N)} (hp : publishEffect files.ledger operation result = .ok p) :
    ∀ write ∈ p.writes, Allowed executed files write := by
  unfold publishEffect at hp
  split at hp
  · cases hp
  · split at hp
    · cases hp
    · dsimp only at hp
      split at hp
      · cases hp
        intro write hwrite
        rcases List.mem_cons.mp hwrite with rfl | hwrite
        · trivial
        · rw [List.mem_singleton.mp hwrite]
          trivial
      · cases hp
        simp

omit [DecidableEq N] in
theorem safe_operation (h : LaunchesSound executed start files) (memo : LaunchMemo N)
    (kind : OperationKind) :
    Durable.Safe (LaunchesSound executed start)
      (fun op t => t = files ∧
        ∀ found, op = some found → found.operationId = launchOperationId memo.launchId kind)
      (operation memo kind) files := by
  refine Durable.safe_reads h fun op hop => ⟨rfl, ?_⟩
  rintro found rfl
  exact h.1.operations _ found (Except.ok.inj hop)

theorem safe_finishOpen (h : LaunchesSound executed start files) {op : Option (Operation (Json N))}
    {result : Json N}
    (hfinish : ∀ found, op = some found → Finishable executed files found.operationId) :
    Durable.Safe (LaunchesSound executed start) (fun _ t => t.memos = files.memos)
      (finishOpen op result) files := by
  unfold finishOpen
  split
  · exact Durable.safe_pure h rfl
  · next found =>
    split
    · exact Durable.safe_pure h rfl
    · refine Durable.safe_bind (safe_mutate h fun p hp => ?_) fun _ t ht hmemos =>
        Durable.safe_pure ht hmemos
      exact allowed_finish h (fun _ => hfinish found rfl) hp

theorem safe_publishDelegation (h : LaunchesSound executed start files) (memo : LaunchMemo N)
    (result : Json N) :
    Durable.Safe (LaunchesSound executed start) (fun _ t => t.memos = files.memos)
      (publishDelegation memo result) files := by
  refine Durable.safe_bind (Q := fun _ t => t = files) (Durable.safe_reads h fun _ _ => rfl) ?_
  rintro location t ht rfl
  split
  · exact Durable.safe_pure ht rfl
  · refine Durable.safe_bind (safe_operation ht memo .child) ?_
    rintro child t' ht' ⟨rfl, -⟩
    split
    · exact Durable.safe_fail ht'
    · refine Durable.safe_bind (safe_mutate ht' fun p hp => allowed_publishEffect hp) ?_
      intro _ t'' ht'' hmemos
      exact Durable.safe_pure ht'' hmemos

/-! ## Writes of memos -/

omit [DecidableEq N] in
/-- A memo is replaced by one of the same launch that keeps a final result. -/
theorem LaunchesSound.replace (h : LaunchesSound executed start files) {key : LaunchKey} {old memo : LaunchMemo N}
    (hget : files.memos.get key = some old)
    (hsame : memo.attachmentId = old.attachmentId ∧ memo.launchName = old.launchName ∧
      memo.launchId = old.launchId)
    (hkept : old.state = .completed → memo.state = .completed ∧
      memo.terminalResult = old.terminalResult)
    (hproven : memo.state = .completed → ∃ result, memo.terminalResult = some result ∧
      isComplete result = true ∧ isBriefKnown result = true) :
    LaunchesSound executed start { files with memos := files.memos.set key memo } := by
  have hstep : MemosKept files { files with memos := files.memos.set key memo } := by
    intro key' memo' hmemo'
    by_cases hkey : key' = key
    · subst hkey
      rw [hget] at hmemo'
      cases hmemo'
      exact ⟨memo, JsMap.get_set_self _ _ _, hsame.2.2, hkept⟩
    · refine ⟨memo', ?_, rfl, fun hstate => ⟨hstate, rfl⟩⟩
      rw [JsMap.get_set_of_ne _ _ hkey]
      exact hmemo'
  -- every memo is of a launch that had one
  have hold : ∀ key' memo', (files.memos.set key memo).get key' = some memo' →
      ∃ old', files.memos.get key' = some old' ∧ memo'.attachmentId = old'.attachmentId ∧
        memo'.launchName = old'.launchName ∧ memo'.launchId = old'.launchId := by
    intro key' memo' hmemo'
    rw [JsMap.get_set] at hmemo'
    split at hmemo'
    · next hkey =>
      cases hmemo'
      exact ⟨old, by rw [hkey, hget], hsame⟩
    · exact ⟨memo', hmemo', rfl, rfl, rfl⟩
  constructor
  · constructor
    · intro key' memo' hmemo'
      obtain ⟨old', hold', hattachment, hname, -⟩ := hold key' memo' hmemo'
      rw [hattachment, hname]
      exact h.1.keyed key' old' hold'
    · exact h.1.operations
    · intro key' memo' hmemo'
      obtain ⟨old', hold', -, -, hid⟩ := hold key' memo' hmemo'
      rw [hid]
      exact h.1.located key' old' hold'
    · intro key' key'' memo' memo'' hmemo' hmemo'' hid
      obtain ⟨old', hold', -, -, hid'⟩ := hold key' memo' hmemo'
      obtain ⟨old'', hold'', -, -, hid''⟩ := hold key'' memo'' hmemo''
      exact h.1.apart key' key'' old' old'' hold' hold'' (hid'.symm.trans (hid.trans hid''))
    · intro key' memo' hmemo' hstate
      rw [JsMap.get_set] at hmemo'
      split at hmemo'
      · cases hmemo'
        exact hproven hstate
      · exact h.1.proven key' memo' hmemo' hstate
    · intro key' hkey'
      obtain ⟨old', hold', hpending⟩ := h.1.pending key' hkey'
      obtain ⟨memo', hmemo', hid, hstays⟩ := hstep key' old' hold'
      refine ⟨memo', hmemo', fun hopen => ?_⟩
      rw [hid]
      exact hpending fun hcompleted => hopen (hstays hcompleted).1
  · exact h.2.trans hstep

theorem safe_replaceMemo (h : LaunchesSound executed start files) {key : LaunchKey}
    {old memo : LaunchMemo N}
    (hsame : memo.attachmentId = old.attachmentId ∧ memo.launchName = old.launchName ∧
      memo.launchId = old.launchId)
    (hkept : old.state = .completed → memo.state = .completed ∧
      memo.terminalResult = old.terminalResult)
    (hproven : memo.state = .completed → ∃ result, memo.terminalResult = some result ∧
      isComplete result = true ∧ isBriefKnown result = true) :
    Durable.Safe (LaunchesSound executed start) (fun _ t => t.memos = files.memos.set key memo ∧
        t.ledger = files.ledger)
      (replaceMemo key memo (some old)) files := by
  refine Durable.safe_write h fun t ht => ?_
  dsimp only at ht
  split at ht
  · next hget =>
    cases ht
    exact ⟨h.replace hget hsame hkept hproven, rfl, rfl⟩
  · cases ht

/-! ## Reconciliation -/

/-- The operation of a completed launch is finished. -/
theorem safe_finishLaunched (h : LaunchesSound executed start files) {key : LaunchKey}
    {memo : LaunchMemo N} (hget : files.memos.get key = some memo)
    (hstate : memo.state = .completed) {op : Option (Operation (Json N))} {launchId : JsString}
    (hlaunch : launchId = memo.launchId) {kind : OperationKind}
    (hop : ∀ found, op = some found → found.operationId = launchOperationId launchId kind)
    (hkind : kind = .child ∨ kind = .brief) (result : Json N) :
    Durable.Safe (LaunchesSound executed start) (fun _ t => t.memos = files.memos)
      (finishOpen op result) files := by
  apply safe_finishOpen h
  intro found hfound
  rw [hop found hfound, hlaunch]
  rcases hkind with rfl | rfl
  · exact finishable_child _
  · exact h.1.finishable_brief hget hstate

theorem safe_settleCompleted (h : LaunchesSound executed start files) {key : LaunchKey}
    {memo : LaunchMemo N} (hget : files.memos.get key = some memo)
    (hstate : memo.state = .completed) :
    Durable.Safe (LaunchesSound executed start) (fun _ t => t.memos = files.memos)
      (settleCompleted memo) files := by
  unfold settleCompleted
  refine Durable.safe_bind (safe_publishDelegation h memo _) ?_
  intro _ t₁ ht₁ hmemos₁
  refine Durable.safe_bind (safe_operation ht₁ memo .child) ?_
  rintro child t₁ - ⟨rfl, hchild⟩
  have hget₁ : t₁.memos.get key = some memo := by rw [hmemos₁, hget]
  refine Durable.safe_bind (safe_finishLaunched ht₁ hget₁ hstate rfl hchild (.inl rfl) _) ?_
  intro _ t₂ ht₂ hmemos₂
  refine Durable.safe_bind (safe_operation ht₂ memo .brief) ?_
  rintro brief t₂ - ⟨rfl, hbrief⟩
  have hget₂ : t₂.memos.get key = some memo := by rw [hmemos₂, hget₁]
  refine (safe_finishLaunched ht₂ hget₂ hstate rfl hbrief (.inr rfl) _).mono ?_
  intro _ t₃ _ hmemos₃
  rw [hmemos₃, hmemos₂, hmemos₁]

omit [DecidableEq N] in
theorem isComplete_stoppedResult (launchId : JsString) :
    isComplete (stoppedResult launchId : Json N) = true ∧
      isBriefKnown (stoppedResult launchId : Json N) = true := by
  have hstate : (stoppedResult launchId : Json N).get (js "state") =
      some (.str (js "stopped")) := rfl
  constructor
  · simp only [isComplete, hstate, Json.isText]
    decide
  · simp only [isBriefKnown, hstate, Json.isText]
    have hne : (js "stopped" == js "started") = false := by decide
    rw [hne]
    rfl

variable (digest : Json N → JsString)

theorem safe_reconcileMemo (h : LaunchesSound executed start files) {attachmentId : JsString}
    {old : LaunchMemo N} {receipt : Option (Json N)}
    (hget : files.memos.get (attachmentId, old.launchName) = some old) :
    Durable.Safe (LaunchesSound executed start) (fun memo _ => old.state = .completed → memo = old)
      (reconcileMemo digest attachmentId old receipt) files := by
  unfold reconcileMemo
  split
  · next hstate =>
    refine Durable.safe_bind (safe_settleCompleted h hget hstate) fun _ t ht _ => ?_
    exact Durable.safe_pure ht fun _ => rfl
  · next hopen =>
    split
    · exact Durable.safe_pure h fun _ => rfl
    · next receipt =>
      refine Durable.safe_bind (Q := fun _ t => t = files)
        (Durable.safe_reads h fun _ _ => rfl) ?_
      rintro state _ - rfl
      split
      · exact Durable.safe_pure h fun _ => rfl
      · refine Durable.safe_bind (safe_operation h old .child) ?_
        rintro child _ - ⟨rfl, hchild⟩
        split
        · refine Durable.safe_bind (safe_finishOpen h fun found hfound => ?_) fun _ t ht _ =>
            Durable.safe_pure ht fun _ => rfl
          rw [hchild found hfound]
          exact finishable_child _
        · have hstopped := isComplete_stoppedResult (N := N) old.launchId
          refine Durable.safe_bind (safe_replaceMemo h ⟨rfl, rfl, rfl⟩
            (fun hcompleted => absurd hcompleted hopen) fun _ => ⟨_, rfl, hstopped⟩) ?_
          rintro _ t₁ ht₁ ⟨hmemos₁, -⟩
          have hget₁ : t₁.memos.get (attachmentId, old.launchName) = some (stoppedMemo old) := by
            rw [hmemos₁, JsMap.get_set_self]
          refine Durable.safe_bind (safe_bump ht₁) ?_
          rintro _ t₂ ht₂ ⟨hmemos₂, -⟩
          refine Durable.safe_bind (safe_publishDelegation ht₂ old _) ?_
          intro _ t₃ ht₃ hmemos₃
          have hget₃ : t₃.memos.get (attachmentId, old.launchName) = some (stoppedMemo old) := by
            rw [hmemos₃, hmemos₂, hget₁]
          have hlaunch : old.launchId = (stoppedMemo old).launchId := rfl
          refine Durable.safe_bind
            (safe_finishLaunched ht₃ hget₃ rfl hlaunch hchild (.inl rfl) _) ?_
          intro _ t₄ ht₄ hmemos₄
          refine Durable.safe_bind (safe_operation ht₄ old .brief) ?_
          rintro brief t₄ - ⟨rfl, hbrief⟩
          have hget₄ : t₄.memos.get (attachmentId, old.launchName) = some (stoppedMemo old) := by
            rw [hmemos₄, hget₃]
          refine Durable.safe_bind
            (safe_finishLaunched ht₄ hget₄ rfl hlaunch hbrief (.inr rfl) _) ?_
          intro _ t₅ ht₅ _
          exact Durable.safe_pure ht₅ fun hcompleted => absurd hcompleted hopen

/-! ## Launching -/

omit [DecidableEq N] in
/-- A location is published for a launch that is new. -/
theorem LaunchesSound.locate (h : LaunchesSound executed start files) {launchId : JsString}
    {location : LaunchLocation N} :
    LaunchesSound executed start { files with locations := files.locations.set launchId location } := by
  refine ⟨⟨h.1.keyed, h.1.operations, ?_, h.1.apart, h.1.proven, h.1.pending⟩, h.2⟩
  intro key memo hget
  obtain ⟨found, hfound⟩ := (files.locations.has_iff _).mp (h.1.located key memo hget)
  rw [JsMap.has_iff]
  by_cases hid : memo.launchId = launchId
  · exact ⟨location, by rw [hid, JsMap.get_set_self]⟩
  · exact ⟨found, by rw [JsMap.get_set_of_ne _ _ hid, hfound]⟩

omit [DecidableEq N] in
/-- A memo is published for a launch that is new. -/
theorem LaunchesSound.reserve (h : LaunchesSound executed start files) {key : LaunchKey} {memo : LaunchMemo N}
    (habsent : files.memos.get key = none) (hkey : key = (memo.attachmentId, memo.launchName))
    (hlocated : files.locations.has memo.launchId = true)
    (hnew : ∀ key' memo', files.memos.get key' = some memo' → memo'.launchId ≠ memo.launchId)
    (hstate : memo.state ≠ .completed) :
    LaunchesSound executed start { files with memos := files.memos.set key memo } := by
  have hold : ∀ key' memo', (files.memos.set key memo).get key' = some memo' →
      key' = key ∧ memo' = memo ∨ files.memos.get key' = some memo' := by
    intro key' memo' hget
    rw [JsMap.get_set] at hget
    split at hget
    · next heq => exact .inl ⟨heq, (Option.some.inj hget).symm⟩
    · exact .inr hget
  have hstays : ∀ key' memo', files.memos.get key' = some memo' →
      (files.memos.set key memo).get key' = some memo' := by
    intro key' memo' hget
    rw [JsMap.get_set_of_ne]
    · exact hget
    · rintro rfl
      rw [habsent] at hget
      cases hget
  constructor
  · constructor
    · intro key' memo' hget
      rcases hold key' memo' hget with ⟨rfl, rfl⟩ | hget
      · exact hkey
      · exact h.1.keyed key' memo' hget
    · exact h.1.operations
    · intro key' memo' hget
      rcases hold key' memo' hget with ⟨rfl, rfl⟩ | hget
      · exact hlocated
      · exact h.1.located key' memo' hget
    · intro key' key'' memo' memo'' hget' hget'' hid
      rcases hold key' memo' hget' with ⟨rfl, rfl⟩ | hold' <;>
        rcases hold key'' memo'' hget'' with ⟨rfl, rfl⟩ | hold''
      · rfl
      · exact absurd hid.symm (hnew key'' memo'' hold'')
      · exact absurd hid (hnew key' memo' hold')
      · exact h.1.apart key' key'' memo' memo'' hold' hold'' hid
    · intro key' memo' hget hcompleted
      rcases hold key' memo' hget with ⟨rfl, rfl⟩ | hget
      · exact absurd hcompleted hstate
      · exact h.1.proven key' memo' hget hcompleted
    · intro key' hkey'
      obtain ⟨memo', hget, hpending⟩ := h.1.pending key' hkey'
      exact ⟨memo', hstays key' memo' hget, hpending⟩
  · intro key' memo' hget
    obtain ⟨memo'', hget', hkept⟩ := h.2 key' memo' hget
    exact ⟨memo'', hstays key' memo'' hget', hkept⟩

omit [DecidableEq N] in
theorem begin_ok {registry : Registry} {directory : Directory (Json N)}
    {parent : Option (Operation (Json N))} {token : OwnerToken} {operationId : JsString}
    {kind : OperationKind} {p : Plan (Json N)}
    (h : begin registry directory parent token operationId kind = .ok p) :
    ∃ value : Operation (Json N), value.operationId = operationId ∧ value.state = .pending ∧
      p = ⟨[.publishOperation value, .bump], .operation value⟩ := by
  have hplanned : Planned registry directory (fun _ => operationId)
      (.begin parent token operationId kind) p := begin_planned h
  cases hplanned with
  | unchanged _ _ _ hbegin => exact absurd rfl (hbegin parent token operationId kind)
  | amended _ _ _ _ _ _ _ _ _ _ hbegin => exact absurd rfl (hbegin parent token operationId kind)
  | begun _ _ _ _ _ value _ _ _ hvalue => exact ⟨value, by rw [hvalue], by rw [hvalue], rfl⟩

/-- An operation that is begun is pending. -/
theorem safe_begin (h : LaunchesSound executed start files) {registry : Registry}
    {parent : Option (Operation (Json N))} {token : OwnerToken} {operationId : JsString}
    {kind : OperationKind} :
    Durable.Safe (LaunchesSound executed start)
      (fun value t => t.memos = files.memos ∧ value.operationId = operationId ∧
        value.state = .pending ∧ t.ledger.operations.get operationId = some value)
      (beginOperation registry parent token operationId kind) files := by
  unfold beginOperation
  refine Durable.safe_bind
    (Q := fun answer t => t.memos = files.memos ∧ ∃ value : Operation (Json N),
      answer = .operation value ∧ value.operationId = operationId ∧ value.state = .pending ∧
        t.ledger.operations.get operationId = some value) ?_ ?_
  · refine Durable.safe_bind (Q := fun p t => t = files ∧
      begin registry files.ledger parent token operationId kind = .ok p) ?_ ?_
    · exact Durable.safe_reads h fun p hp => ⟨rfl, hp⟩
    · rintro p files - ⟨rfl, hp⟩
      obtain ⟨value, hid, hstate, rfl⟩ := begin_ok hp
      refine Durable.safe_bind (Q := fun _ t => t.memos = files.memos ∧
        t.ledger.operations.get operationId = some value) ?_ ?_
      · refine Durable.safe_bind (Q := fun _ t => t.memos = files.memos ∧
          t.ledger.operations.get operationId = some value) ?_ ?_
        · refine Durable.safe_write h fun t ht => ?_
          split at ht
          · next hok =>
            cases ht
            rw [Bool.and_eq_true] at hok
            refine ⟨h.publish trivial hok.2, rfl, ?_⟩
            rw [FileWrite.publish, hid, JsMap.get_set_self]
          · cases ht
        · rintro _ t ht ⟨hmemos, hget⟩
          refine (safe_bump ht).mono fun _ t' _ hsame => ?_
          rw [hsame.1, hsame.2]
          exact ⟨hmemos, hget⟩
      · rintro _ t ht ⟨hmemos, hget⟩
        exact Durable.safe_pure ht ⟨hmemos, value, rfl, hid, hstate, hget⟩
  · rintro answer t ht ⟨hmemos, value, rfl, hvalue⟩
    exact Durable.safe_pure ht ⟨hmemos, hvalue⟩

/-- The operations of a call of an executor are those of its launch. -/
def LaunchFiles.Waiting.Fits (files : LaunchFiles N) (waiting : Waiting N) : Prop :=
  (∃ memo, files.memos.get waiting.key = some memo ∧ memo.launchId = waiting.launchId) ∧
    waiting.child.operationId = launchOperationId waiting.launchId .child ∧
    waiting.brief.operationId = launchOperationId waiting.launchId .brief

/-- What holds when an executor is about to be called. -/
def Reserved (executed : List LaunchKey) (reservation : Reservation N) (files : LaunchFiles N) :
    Prop :=
  ∀ waiting, reservation = .execute waiting →
    waiting.key ∉ executed ∧ LaunchInv (executed ++ [waiting.key]) files ∧ waiting.Fits files

theorem safe_reserveNew (h : LaunchesSound executed start files) {journal : LaunchJournal}
    {request : LaunchRequest N} {launchId secret : JsString}
    {parent : Option (Operation (Json N))}
    (habsent : files.memos.get (journal.token.attachmentId, request.name) = none) :
    Durable.Safe (LaunchesSound executed start) (Reserved executed)
      (reserveNew digest journal request launchId secret parent) files := by
  unfold reserveNew
  dsimp only
  refine Durable.safe_bind (Q := fun _ t => t = files) (Durable.safe_reads h fun _ _ => rfl) ?_
  rintro owner files - rfl
  split
  · exact Durable.safe_fail h
  · refine Durable.safe_bind (Q := fun _ t => t.memos = files.memos ∧
      t.locations.has launchId = true ∧
        ∀ key memo, files.memos.get key = some memo → memo.launchId ≠ launchId) ?_ ?_
    · refine Durable.safe_write h fun t ht => ?_
      split at ht
      · cases ht
      · next hnew =>
        cases ht
        refine ⟨h.locate, rfl, ?_, ?_⟩
        · rw [JsMap.has_iff]
          exact ⟨_, JsMap.get_set_self _ _ _⟩
        · rintro key memo hget rfl
          exact hnew (h.1.located key memo hget)
    · rintro _ t₁ ht₁ ⟨hmemos₁, hlocated, hnew⟩
      have hkey : (journal.token.attachmentId, request.name) ∉ executed := by
        intro hmem
        obtain ⟨memo, hget, -⟩ := h.1.pending _ hmem
        rw [habsent] at hget
        cases hget
      rw [← hmemos₁] at habsent hnew
      let memo := newMemo digest journal request launchId secret
      refine Durable.safe_bind (Q := fun _ t =>
        t.memos.get (journal.token.attachmentId, request.name) = some memo) ?_ ?_
      · refine Durable.safe_write ht₁ fun t ht => ?_
        split at ht
        · cases ht
        · cases ht
          refine ⟨ht₁.reserve habsent rfl hlocated hnew (by simp [newMemo]), ?_⟩
          exact JsMap.get_set_self _ _ _
      · intro _ t₂ ht₂ hget₂
        refine Durable.safe_bind (safe_bump ht₂) ?_
        rintro _ t₃ ht₃ ⟨hmemos₃, -⟩
        refine Durable.safe_bind (safe_begin ht₃) ?_
        rintro child t₄ ht₄ ⟨hmemos₄, hchild, -⟩
        refine Durable.safe_bind (safe_begin ht₄) ?_
        rintro brief t₅ ht₅ ⟨hmemos₅, hbrief, hpending, hoperation⟩
        refine Durable.safe_bind (Q := fun observed t => t = t₅ ∧ observed = some memo) ?_ ?_
        · refine Durable.safe_reads ht₅ fun observed hobserved => ⟨rfl, ?_⟩
          rw [← Except.ok.inj hobserved, hmemos₅, hmemos₄, hmemos₃, hget₂]
        · rintro observed t₅ - ⟨rfl, rfl⟩
          have hsame : ({ memo with state := .launching } : LaunchMemo N).attachmentId =
              memo.attachmentId ∧ request.name = memo.launchName ∧ launchId = memo.launchId :=
            ⟨rfl, rfl, rfl⟩
          have hreserved : memo.state ≠ .completed := by simp [memo, newMemo]
          have hlaunching : ({ memo with state := .launching } : LaunchMemo N).state ≠
              .completed := by simp
          refine Durable.safe_bind (safe_replaceMemo ht₅ hsame
            (fun hcompleted => absurd hcompleted hreserved)
            fun hcompleted => absurd hcompleted hlaunching) ?_
          rintro _ t₆ ht₆ ⟨hmemos₆, hledger₆⟩
          refine Durable.safe_bind (safe_bump ht₆) ?_
          rintro _ t₇ ht₇ ⟨hmemos₇, hoperations₇⟩
          refine Durable.safe_pure ht₇ ?_
          rintro waiting hwaiting
          cases hwaiting
          have hget₇ : t₇.memos.get (journal.token.attachmentId, request.name) =
              some { memo with state := .launching } := by
            rw [hmemos₇, hmemos₆, JsMap.get_set_self]
          refine ⟨hkey, ?_, ⟨_, hget₇, rfl⟩, hchild, hbrief⟩
          refine { ht₇.1 with pending := ?_ }
          intro key' hkey'
          rcases List.mem_append.mp hkey' with hkey' | hkey'
          · exact ht₇.1.pending key' hkey'
          · rw [List.mem_singleton.mp hkey']
            refine ⟨_, hget₇, fun _ => ⟨brief, ?_, ?_⟩⟩
            · rw [hoperations₇, hledger₆]
              exact hoperation
            · rw [hpending]
              simp

/-! ## Calls -/

omit [DecidableEq N] in
theorem safe_withLock {α : Type} {Q : α → LaunchFiles N → Prop} {registry : Registry}
    {x : Durable (LaunchFiles N) α} (h : LaunchesSound executed start files)
    (hx : Durable.Safe (LaunchesSound executed start) Q x files) :
    Durable.Safe (LaunchesSound executed start) Q (withLock registry x) files := by
  unfold withLock
  split
  · exact Durable.safe_fail h
  · exact hx

omit [DecidableEq N] in
/-- The memo that is read at a key. -/
theorem safe_readMemo (h : LaunchesSound executed start files) (key : LaunchKey) :
    Durable.Safe (LaunchesSound executed start) (fun memo t => t = files ∧ memo = files.memos.get key)
      (Durable.reads fun files => .ok (files.memos.get key)) files :=
  Durable.safe_reads h fun _ hmemo => ⟨rfl, (Except.ok.inj hmemo).symm⟩

theorem safe_launch (h : LaunchesSound executed start files) {receipts : Receipts N}
    {journal : LaunchJournal} {request : LaunchRequest N} {launchId secret : JsString}
    {parent : Option (Operation (Json N))} :
    Durable.Safe (LaunchesSound executed start) (Reserved executed)
      (launch digest receipts journal request launchId secret parent) files := by
  apply safe_withLock h
  split
  · exact Durable.safe_fail h
  · refine Durable.safe_bind (safe_readMemo h _) ?_
    rintro old files - ⟨rfl, hold⟩
    split
    · exact safe_reserveNew digest h hold.symm
    · next old =>
      split
      · exact Durable.safe_fail h
      · have hname : old.launchName = request.name :=
          (congrArg Prod.snd (h.1.keyed _ old hold.symm)).symm
        rw [← hname] at hold
        refine Durable.safe_bind (safe_reconcileMemo digest h hold.symm) fun _ t ht _ => ?_
        refine Durable.safe_pure ht ?_
        rintro waiting hwaiting
        cases hwaiting

theorem safe_onSpawn (h : LaunchesSound executed start files) {registry : Registry} {waiting : Waiting N}
    {identity : ProcessIdentity} :
    Durable.Safe (LaunchesSound executed start) (fun _ _ => True)
      (onSpawn registry waiting identity) files := by
  apply safe_withLock h
  refine Durable.safe_bind (safe_readMemo h _) ?_
  rintro old files - ⟨rfl, hold⟩
  split
  · exact Durable.safe_fail h
  · next old =>
    refine Durable.safe_bind (safe_replaceMemo h ⟨rfl, rfl, rfl⟩ (fun hstate => ⟨hstate, rfl⟩)
      (h.1.proven waiting.key old hold.symm)) ?_
    rintro _ t ht -
    exact (safe_bump ht).mono fun _ _ _ _ => trivial

/-- The answer of an executor, that does not replace another result. -/
theorem safe_finishLaunch (h : LaunchesSound executed start files) {registry : Registry}
    {waiting : Waiting N} (hfits : waiting.Fits files) {terminal : Json N}
    (hintime : ∀ memo, files.memos.get waiting.key = some memo → memo.state = .completed →
      memo.terminalResult = some terminal) :
    Durable.Safe (LaunchesSound executed start) (fun _ _ => True)
      (finishLaunch registry waiting terminal) files := by
  apply safe_withLock h
  refine Durable.safe_bind (safe_readMemo h _) ?_
  rintro old files - ⟨rfl, hold⟩
  split
  · exact Durable.safe_fail h
  · next old =>
    obtain ⟨⟨memo, hget, hlaunch⟩, hchild, hbrief⟩ := hfits
    obtain rfl : memo = old := Option.some.inj (hget.symm.trans hold.symm)
    have hfinished : (finishedMemo memo terminal).state = .completed →
        isComplete terminal = true ∧ isBriefKnown terminal = true := by
      intro hstate
      simp only [finishedMemo] at hstate
      split at hstate
      · next hboth => exact Bool.and_eq_true_iff.mp hboth
      · cases hstate
    have hkept : memo.state = .completed → (finishedMemo memo terminal).state = .completed ∧
        (finishedMemo memo terminal).terminalResult = memo.terminalResult := by
      intro hstate
      have hresult := hintime memo hget hstate
      obtain ⟨result, hproven, hcomplete, hknown⟩ := h.1.proven _ memo hget hstate
      rw [hresult] at hproven
      cases hproven
      simp only [finishedMemo, hcomplete, hknown, hresult]
      exact ⟨rfl, trivial⟩
    dsimp only
    refine Durable.safe_bind (safe_replaceMemo h ⟨rfl, rfl, rfl⟩ hkept
      fun hstate => ⟨terminal, rfl, hfinished hstate⟩) ?_
    rintro _ t₁ ht₁ ⟨hmemos₁, -⟩
    refine Durable.safe_bind (safe_bump ht₁) ?_
    rintro _ t₂ ht₂ ⟨hmemos₂, -⟩
    refine Durable.safe_bind (safe_publishDelegation ht₂ _ _) ?_
    intro _ t₃ ht₃ hmemos₃
    have hget₃ : t₃.memos.get waiting.key = some (finishedMemo memo terminal) := by
      rw [hmemos₃, hmemos₂, hmemos₁, JsMap.get_set_self]
    refine Durable.safe_bind (safe_mutate ht₃ fun p hp => allowed_finish ht₃ (fun _ => ?_) hp) ?_
    · rw [hchild]
      exact finishable_child _
    · intro _ t₄ ht₄ hmemos₄
      have hget₄ : t₄.memos.get waiting.key = some (finishedMemo memo terminal) := by
        rw [hmemos₄, hget₃]
      refine Durable.safe_bind (safe_mutate ht₄ fun p hp => allowed_finish ht₄ ?_ hp) ?_
      · intro hknown
        have hcompleted : (finishedMemo memo terminal).state = .completed := by
          simp only [Bool.or_eq_false_iff, Bool.not_eq_false'] at hknown
          simp only [finishedMemo, hknown.1, hknown.2]
          rfl
        have hfinish := ht₄.1.finishable_brief hget₄ hcompleted
        rw [hbrief, ← hlaunch]
        exact hfinish
      · intro _ t₅ ht₅ _
        exact Durable.safe_pure ht₅ trivial

theorem safe_reconcile (h : LaunchesSound executed start files) {receipts : Receipts N}
    {journal : LaunchJournal} {request : LaunchRequest N} :
    Durable.Safe (LaunchesSound executed start) (fun _ _ => True)
      (reconcile digest receipts journal request) files := by
  apply safe_withLock h
  refine Durable.safe_bind (safe_readMemo h _) ?_
  rintro old files - ⟨rfl, hold⟩
  split
  · exact Durable.safe_fail h
  · next old =>
    split
    · exact Durable.safe_fail h
    · have hname : old.launchName = request.name :=
        (congrArg Prod.snd (h.1.keyed _ old hold.symm)).symm
      rw [← hname] at hold
      refine Durable.safe_bind (safe_reconcileMemo digest h hold.symm) fun _ t ht _ => ?_
      exact Durable.safe_pure ht trivial

theorem safe_reconcileEach (h : LaunchesSound executed start files) {receipts : Receipts N}
    {scope : Option DrainScope} (keys : List LaunchKey) :
    Durable.Safe (LaunchesSound executed start) (fun _ _ => True)
      (reconcileEach digest receipts scope keys) files := by
  induction keys generalizing files with
  | nil => exact Durable.safe_pure h trivial
  | cons key rest ih =>
      refine Durable.safe_bind (safe_readMemo h key) ?_
      rintro memo files - ⟨rfl, hmemo⟩
      split
      · exact Durable.safe_fail h
      · next memo =>
        split
        · exact ih h
        · refine Durable.safe_bind (Q := fun _ t => t = files)
            (Durable.safe_reads h fun _ _ => rfl) ?_
          rintro location files - rfl
          split
          · exact ih h
          · split
            · exact ih h
            · rw [h.1.keyed key memo hmemo.symm] at hmemo
              refine Durable.safe_bind (safe_reconcileMemo digest h hmemo.symm) ?_
              intro _ t ht _
              exact ih ht

theorem safe_reconcileAll (h : LaunchesSound executed start files) {receipts : Receipts N}
    {registry : Registry} {scope : Option DrainScope} :
    Durable.Safe (LaunchesSound executed start) (fun _ _ => True)
      (reconcileAll digest receipts registry scope) files := by
  apply safe_withLock h
  refine Durable.safe_bind (Q := fun _ t => t = files) (Durable.safe_reads h fun _ _ => rfl) ?_
  rintro keys files - rfl
  exact safe_reconcileEach digest h keys

/-! ## Steps -/

/-- The invariant of a world. -/
structure LaunchWorld.Inv (world : LaunchWorld N) : Prop where
  files : LaunchInv world.executed world.files
  once : world.executed.Nodup
  waiting : ∀ waiting ∈ world.waiting, waiting.Fits world.files

omit [DecidableEq N] in
theorem LaunchFiles.Waiting.Fits.kept {waiting : Waiting N} {files' : LaunchFiles N}
    (h : waiting.Fits files) (hkept : MemosKept files files') : waiting.Fits files' := by
  obtain ⟨⟨memo, hget, hid⟩, hoperations⟩ := h
  obtain ⟨memo', hget', hid', -⟩ := hkept waiting.key memo hget
  exact ⟨⟨memo', hget', hid'.trans hid⟩, hoperations⟩

omit [DecidableEq N] in
/-- The files that a call leaves keep the invariant, wherever it is cut. -/
theorem LaunchWorld.Inv.after {world : LaunchWorld N} (h : world.Inv) {α : Type}
    {Q : α → LaunchFiles N → Prop} {x : Durable (LaunchFiles N) α}
    (hsafe : Durable.Safe (LaunchesSound world.executed world.files) Q x world.files) (cut : Option Nat) :
    (world.after x cut).Inv ∧ MemosKept world.files (world.after x cut).files := by
  obtain ⟨hfiles, hkept⟩ := hsafe.left ⟨h.files, .refl _⟩ cut
  exact ⟨⟨hfiles, h.once, fun w hw => (h.waiting w hw).kept hkept⟩, hkept⟩

omit [DecidableEq N] in
theorem LaunchWorld.Inv.erase {world : LaunchWorld N} (h : world.Inv) (n : Nat) :
    ({ world with waiting := world.waiting.eraseIdx n } : LaunchWorld N).Inv :=
  ⟨h.files, h.once, fun w hw => h.waiting w (List.mem_of_mem_eraseIdx hw)⟩

theorem LaunchWorld.Inv.step {world : LaunchWorld N} (h : world.Inv) (action : LaunchAction N)
    (hintime : AnswersInTime world action) :
    (world.step digest action).Inv ∧ MemosKept world.files (world.step digest action).files := by
  have hstart : LaunchesSound world.executed world.files world.files := ⟨h.files, .refl _⟩
  cases action with
  | launch journal request launchId secret parent cut =>
      have hsafe : Durable.Safe (LaunchesSound world.executed world.files) (Reserved world.executed)
          (launch digest world.receipts journal request launchId secret parent) world.files :=
        safe_launch digest hstart
      simp only [LaunchWorld.step]
      split
      · next waiting hresult =>
        obtain ⟨hnew, hfiles, hfits⟩ := hsafe.result _ hresult waiting rfl
        obtain ⟨hinv, hkept⟩ := h.after hsafe none
        refine ⟨⟨hfiles, ?_, ?_⟩, hkept⟩
        · rw [List.nodup_append]
          refine ⟨h.once, by simp, ?_⟩
          intro key hkey key' hkey' heq
          rw [heq, List.mem_singleton.mp hkey'] at hkey
          exact hnew hkey
        · intro w hw
          rcases List.mem_append.mp hw with hw | hw
          · exact hinv.waiting w hw
          · rw [List.mem_singleton.mp hw]
            exact hfits
      · exact h.after hsafe _
  | spawned registry n identity cut =>
      simp only [LaunchWorld.step]
      split
      · exact ⟨h, .refl _⟩
      · exact h.after (safe_onSpawn hstart) cut
  | replied registry n outcome cut =>
      simp only [LaunchWorld.step]
      split
      · exact ⟨h, .refl _⟩
      · next waiting hwaiting =>
        have hfits := h.waiting waiting (List.mem_of_getElem? hwaiting)
        exact (h.erase n).after (safe_finishLaunch hstart hfits fun memo hget hstate =>
          hintime waiting memo hwaiting hget hstate) cut
  | lost n => exact ⟨h.erase n, .refl _⟩
  | reconcile journal request cut => exact h.after (safe_reconcile digest hstart) cut
  | reconcileAll registry scope cut => exact h.after (safe_reconcileAll digest hstart) cut
  | receiptWritten root reference receipt => exact ⟨⟨h.files, h.once, h.waiting⟩, .refl _⟩
  | owned ownerships gate =>
      exact ⟨⟨⟨h.files.keyed, h.files.operations, h.files.located, h.files.apart, h.files.proven,
        h.files.pending⟩, h.once, h.waiting⟩, .of_same rfl⟩

/-! ## What a state promises -/

omit [DecidableEq N] in
/-- What comes after a read of a memo. -/
theorem bind_readMemo {α : Type} (key : LaunchKey)
    (f : Option (LaunchMemo N) → Durable (LaunchFiles N) α) (files : LaunchFiles N) :
    ((Durable.reads fun files => .ok (files.memos.get key)) >>= f) files =
      ⟨files :: (f (files.memos.get key) files).passed, (f (files.memos.get key) files).ended,
        (f (files.memos.get key) files).result⟩ := rfl

/-- A call with other arguments throws before it does anything. -/
theorem refused_launch {receipts : Receipts N} {journal : LaunchJournal}
    {request : LaunchRequest N} {launchId secret : JsString}
    {parent : Option (Operation (Json N))} {memo : LaunchMemo N}
    (hget : files.memos.get (journal.token.attachmentId, request.name) = some memo)
    (hne : memo.initialArgumentsDigest ≠ digest request.arguments) (reservation : Reservation N) :
    (launch digest receipts journal request launchId secret parent files).result ≠
      .ok reservation := by
  intro h
  unfold launch withLock at h
  split at h
  · cases h
  · split at h
    · cases h
    · rw [bind_readMemo, hget] at h
      dsimp only at h
      rw [if_pos hne] at h
      cases h

theorem refused_reconcile {receipts : Receipts N} {journal : LaunchJournal}
    {request : LaunchRequest N} {memo : LaunchMemo N}
    (hget : files.memos.get (journal.token.attachmentId, request.name) = some memo)
    (hne : memo.initialArgumentsDigest ≠ digest request.arguments) (result : Json N) :
    (reconcile digest receipts journal request files).result ≠ .ok result := by
  intro h
  unfold reconcile withLock at h
  split at h
  · cases h
  · rw [bind_readMemo, hget] at h
    dsimp only at h
    rw [if_pos hne] at h
    cases h

/-- What is answered for a completed launch is its terminal result. -/
theorem answered_result {receipt : Option (Json N)} (h : LaunchInv executed files)
    {key : LaunchKey} {memo found : LaunchMemo N} (hget : files.memos.get key = some memo)
    (hstate : memo.state = .completed)
    (hresult : (reconcileMemo digest key.1 memo receipt files).result = .ok found) :
    memo.terminalResult = some found.result := by
  have hkey := h.keyed key memo hget
  have hname : files.memos.get (key.1, memo.launchName) = some memo := by
    rw [hkey] at hget ⊢
    exact hget
  have hsafe : Durable.Safe (LaunchesSound executed files) (fun found _ => memo.state = .completed →
      found = memo) (reconcileMemo digest key.1 memo receipt) files :=
    safe_reconcileMemo digest ⟨h, .refl _⟩ hname
  obtain rfl := hsafe.result found hresult hstate
  obtain ⟨result, hproven, -⟩ := h.proven key found hget hstate
  rw [LaunchMemo.result, hproven]
  rfl

theorem launch_answered {receipts : Receipts N} {journal : LaunchJournal}
    {request : LaunchRequest N} {launchId secret : JsString}
    {parent : Option (Operation (Json N))} {memo found : LaunchMemo N}
    (h : LaunchInv executed files)
    (hget : files.memos.get (journal.token.attachmentId, request.name) = some memo)
    (hstate : memo.state = .completed)
    (hresult : (launch digest receipts journal request launchId secret parent files).result =
      .ok (.existing found)) : memo.terminalResult = some found.result := by
  unfold launch withLock at hresult
  split at hresult
  · cases hresult
  · split at hresult
    · cases hresult
    · rw [bind_readMemo, hget] at hresult
      dsimp only at hresult
      split at hresult
      · cases hresult
      · obtain ⟨found', hfound, heq⟩ := Durable.result_of_bind hresult
        cases heq
        exact answered_result digest h hget hstate hfound

theorem reconcile_answered {receipts : Receipts N} {journal : LaunchJournal}
    {request : LaunchRequest N} {memo : LaunchMemo N} {result : Json N}
    (h : LaunchInv executed files)
    (hget : files.memos.get (journal.token.attachmentId, request.name) = some memo)
    (hstate : memo.state = .completed)
    (hresult : (reconcile digest receipts journal request files).result = .ok result) :
    memo.terminalResult = some result := by
  unfold reconcile withLock at hresult
  split at hresult
  · cases hresult
  · rw [bind_readMemo, hget] at hresult
    dsimp only at hresult
    split at hresult
    · cases hresult
    · obtain ⟨found, hfound, heq⟩ := Durable.result_of_bind hresult
      cases heq
      exact answered_result digest h hget hstate hfound

/-- The invariant gives what is promised of a state. -/
theorem LaunchWorld.Inv.holds {world : LaunchWorld N} (h : world.Inv) :
    LaunchesHold digest world where
  once := h.once
  refused := by
    intro action key argumentsDigest memo hnamed hget hne
    cases action with
    | launch journal request launchId secret parent cut =>
        cases hnamed
        constructor
        · simp only [LaunchWorld.step]
          split
          · next hresult => exact absurd hresult (refused_launch digest hget hne _)
          · rfl
        · cases cut with
          | some writes => rfl
          | none =>
              simp only [LaunchWorld.answer]
              split
              · next hresult => exact absurd hresult (refused_launch digest hget hne _)
              · rfl
    | reconcile journal request cut =>
        cases hnamed
        refine ⟨rfl, ?_⟩
        cases cut with
        | some writes => rfl
        | none =>
            simp only [LaunchWorld.answer]
            cases hresult : (reconcile digest world.receipts journal request world.files).result with
            | error error => rfl
            | ok result => exact absurd hresult (refused_reconcile digest hget hne result)
    | _ => cases hnamed
  answered := by
    intro action key memo result hnamed hget hstate hanswer
    cases action with
    | launch journal request launchId secret parent cut =>
        simp only [LaunchAction.named, Option.some.injEq, Prod.mk.injEq] at hnamed
        obtain ⟨rfl, -⟩ := hnamed
        cases cut with
        | some writes => cases hanswer
        | none =>
            simp only [LaunchWorld.answer] at hanswer
            split at hanswer
            · next found hresult =>
              cases hanswer
              exact launch_answered digest h.files hget hstate hresult
            · cases hanswer
    | reconcile journal request cut =>
        simp only [LaunchAction.named, Option.some.injEq, Prod.mk.injEq] at hnamed
        obtain ⟨rfl, -⟩ := hnamed
        cases cut with
        | some writes => cases hanswer
        | none =>
            simp only [LaunchWorld.answer] at hanswer
            cases hresult : (reconcile digest world.receipts journal request world.files).result with
            | error error =>
                rw [hresult] at hanswer
                cases hanswer
            | ok found =>
                rw [hresult] at hanswer
                cases hanswer
                exact reconcile_answered digest h.files hget hstate hresult
    | _ => cases hnamed
  drained := by
    intro hdrained key hkey
    obtain ⟨memo, hget, hpending⟩ := h.files.pending key hkey
    refine ⟨memo, hget, ?_⟩
    apply Classical.byContradiction
    intro hopen
    obtain ⟨op, hop, hstate⟩ := hpending hopen
    exact hstate (completed_of_drained hdrained hop)

/-! ## Launches are final -/

omit [DecidableEq N] in
theorem LaunchWorld.start_inv : (LaunchWorld.start : LaunchWorld N).Inv where
  files := by
    constructor
    · intro key memo hget
      cases hget
    · intro id op hget
      cases hget
    · intro key memo hget
      cases hget
    · intro key key' memo memo' hget
      cases hget
    · intro key memo hget
      cases hget
    · intro key hkey
      cases hkey
  once := List.nodup_nil
  waiting := by
    intro waiting hwaiting
    cases hwaiting

theorem LaunchWorld.Inv.run {world : LaunchWorld N} (h : world.Inv)
    {actions : List (LaunchAction N)}
    (hintime : EachMeets (LaunchWorld.step digest) AnswersInTime world actions) :
    (actions.foldl (LaunchWorld.step digest) world).Inv ∧
      MemosKept world.files (actions.foldl (LaunchWorld.step digest) world).files := by
  induction actions generalizing world with
  | nil => exact ⟨h, .refl _⟩
  | cons action actions ih =>
      obtain ⟨hinv, hkept⟩ := h.step digest action hintime.1
      obtain ⟨hinv', hkept'⟩ := ih hinv hintime.2
      exact ⟨hinv', hkept.trans hkept'⟩

/-- In a run where no executor answers a launch that is completed with another result, launches
run once, and their results are final. -/
theorem launches_final (actions : List (LaunchAction N))
    (hintime : EachMeets (LaunchWorld.step digest) AnswersInTime .start actions) :
    LaunchesFinal digest actions := by
  have hrun := LaunchWorld.start_inv.run digest hintime
  refine ⟨hrun.1.holds digest, ?_⟩
  rintro earlier later rfl key memo hget hstate
  obtain ⟨hearlier, hlater⟩ := eachMeets_append.mp hintime
  have hinv := (LaunchWorld.start_inv.run digest hearlier).1
  obtain ⟨memo', hget', -, hkept⟩ := (hinv.run digest hlater).2 key memo hget
  refine ⟨memo', ?_, hkept hstate⟩
  rw [LaunchWorld.run, List.foldl_append]
  exact hget'

/-! ## A late answer -/

/-- A digest that tells texts apart. -/
def textDigest : Json Nat → JsString
  | .str s => s
  | _ => js "arguments"

/-- The owner of the attachment `a` is the plain registry. -/
def plainOwnership : Ownership where
  attachmentId := js "a"
  ownerGeneration := plainRegistry.generation
  ownershipEpoch := 1
  ownerProcessIdentity := plainIdentity
  state := .active
  handoverId := none
  checkpointVersion := 1
  checkpointHash := none
  presenceSessionId := js "p"
  expectedInstance := js "i"

def plainJournal : LaunchJournal := ⟨plainRegistry, plainToken, js "/w"⟩

def plainLaunch : LaunchRequest Nat := ⟨js "n", js "launch.json", none, .null⟩

/-- A launch whose executor is called. -/
def launched : List (LaunchAction Nat) :=
  [.owned (JsMap.empty.set (js "a") plainOwnership) .open,
    .launch plainJournal plainLaunch (js "l") (js "t") none none]

/-- The child writes that it stopped, and the launch is reconciled. -/
def reconciled : List (LaunchAction Nat) :=
  launched ++ [LaunchAction.receiptWritten (js "/w") (js "launch.json")
      (some (.obj [(js "state", .str (js "stopped")), (js "token", .str (js "t"))])),
    .reconcile plainJournal plainLaunch none]

/-- The state of the memo after a run. -/
def stateAfter (actions : List (LaunchAction Nat)) : Option LaunchMemoState :=
  ((LaunchWorld.run textDigest actions).files.memos.get (js "a", js "n")).map (·.state)

theorem stateAfter_of_get {actions : List (LaunchAction Nat)} {memo : LaunchMemo Nat}
    (h : (LaunchWorld.run textDigest actions).files.memos.get (js "a", js "n") = some memo) :
    stateAfter actions = some memo.state := by
  rw [stateAfter, h, Option.map_some]

/-- The executor throws after its launch was reconciled: its error replaces the result. -/
theorem late_answer_replaces_result :
    ¬LaunchesFinal textDigest
      (reconciled ++ [.replied plainRegistry 0 (.threw (js "Error: exit 1")) none]) := by
  rintro ⟨-, hfinal⟩
  have hcompleted : stateAfter reconciled = some .completed := by decide +kernel
  have hlate : stateAfter
      (reconciled ++ [.replied plainRegistry 0 (.threw (js "Error: exit 1")) none]) =
        some .unknown := by decide +kernel
  rw [stateAfter, Option.map_eq_some_iff] at hcompleted
  obtain ⟨memo, hget, hstate⟩ := hcompleted
  obtain ⟨memo', hget', hstate', -⟩ := hfinal reconciled _ rfl _ memo hget hstate
  rw [stateAfter_of_get hget', hstate'] at hlate
  cases hlate

/-- The answer of an executor that stopped. -/
def stoppedAnswer : LaunchAction Nat :=
  .replied plainRegistry 0 (.returned (.obj [(js "state", .str (js "stopped"))])) none

theorem stoppedAnswer_inTime :
    AnswersInTime (LaunchWorld.run textDigest launched) stoppedAnswer := by
  unfold stoppedAnswer
  simp only [AnswersInTime]
  intro waiting memo hwaiting hget hstate
  have hlaunching : stateAfter launched = some .launching := by decide +kernel
  have hkey : (LaunchWorld.run textDigest launched).waiting.map (·.key) =
      [(js "a", js "n")] := by decide +kernel
  have hmem := List.mem_map_of_mem (f := (·.key)) (List.mem_of_getElem? hwaiting)
  rw [hkey, List.mem_singleton] at hmem
  rw [hmem] at hget
  rw [stateAfter_of_get hget, hstate] at hlaunching
  cases hlaunching

/-- The executor answers in time. -/
theorem launches_final_in_time :
    stateAfter (launched ++ [stoppedAnswer]) = some .completed ∧
      LaunchesFinal textDigest (launched ++ [stoppedAnswer]) := by
  have hcompleted : stateAfter (launched ++ [stoppedAnswer]) = some .completed := by
    decide +kernel
  have hlaunched : EachMeets (LaunchWorld.step textDigest) AnswersInTime .start launched :=
    ⟨trivial, trivial, trivial⟩
  have hanswer := stoppedAnswer_inTime
  rw [LaunchWorld.run] at hanswer
  exact ⟨hcompleted, launches_final textDigest _
    (eachMeets_append.mpr ⟨hlaunched, hanswer, trivial⟩)⟩

end H2a.Handover
