import H2a.Loop.RefsRollup
/-!
# A loop closes on its own targets

A plan closes a loop exactly when every ref that counts is looked up as `DONE`.  What is looked
up is a row of the id of some ref; the loop closes on its own targets when that row stands for
the rows of the ref in its own workspace.
-/

namespace H2a.Loop

open H2a.Library

/-! ## When a plan closes -/

/-- The refs a close depends on. -/
def CountsForClose (loop : H2AObjectiveLoop) (ref : H2ALoopTrackRef) : Prop :=
  isTarget ref = true ∨ ref.role = js "blocker" ∨
    ref.role = js "decision-gate" ∧ loop.policy.decisionGatePolicy ≠ .advisoryOnly

/-- The plan closes the loop. -/
def TickPlan.Closes (plan : TickPlan) : Prop := ∃ a ∈ plan.actions, a.type = .close

namespace TickInput

variable {input : TickInput} {toLowerCase : JsString → JsString}

theorem not_close_of_mem_gateActions {ref : H2ALoopTrackRef} {a : TickAction}
    (h : a ∈ (gateActions ref).1) : a.type ≠ .close := by
  unfold gateActions at h
  split at h
  · cases h
  · rw [List.mem_singleton.mp h]
    simp

theorem not_close_of_mem_routePending {reason : JsString} {a : TickAction}
    (h : a ∈ input.routePending reason) : a.type ≠ .close := by
  obtain ⟨d, -, rfl⟩ := List.mem_map.mp h
  simp

theorem not_close_of_mem_agentActions {agent : H2ALoopAgent} {a : TickAction}
    (h : a ∈ (input.agentActions toLowerCase agent).1) : a.type ≠ .close := by
  unfold agentActions at h
  grind

theorem not_close_of_mem_followUps {a : TickAction} (h : a ∈ (input.followUps toLowerCase).1) :
    a.type ≠ .close := by
  unfold followUps at h
  simp only [List.mem_append, List.mem_flatMap] at h
  rcases h with (⟨gate, hgate, ha⟩ | hpending) | ⟨agent, hagent, ha⟩
  · split at hgate
    · cases hgate
    · obtain ⟨ref, -, rfl⟩ := List.mem_map.mp hgate
      exact not_close_of_mem_gateActions ha
  · split at hpending
    · cases hpending
    · exact not_close_of_mem_routePending hpending
  · split at hagent
    · obtain ⟨agent, -, rfl⟩ := List.mem_map.mp hagent
      exact not_close_of_mem_agentActions ha
    · cases hagent

end TickInput

theorem planLoopTick_closes_iff (toLowerCase : JsString → JsString) (input : TickInput) :
    (planLoopTick toLowerCase input).Closes ↔
      input.refs.degraded = false ∧ input.closes = true := by
  unfold planLoopTick TickPlan.Closes
  cases hdegraded : input.refs.degraded with
  | true =>
      simp only [if_true, TickInput.degradedPlan]
      constructor
      · rintro ⟨a, ha, htype⟩
        exact absurd htype (TickInput.not_close_of_mem_routePending ha)
      · rintro ⟨⟨⟩, -⟩
  | false =>
      simp only [Bool.false_eq_true, if_false, true_and]
      cases hcloses : input.closes with
      | true => simp
      | false =>
          simp only [Bool.false_eq_true, if_false, List.nil_append, iff_false]
          rintro ⟨a, ha, htype⟩
          split at ha
          · rw [List.mem_singleton.mp ha] at htype
            cases htype
          · exact TickInput.not_close_of_mem_followUps ha htype

/-- Nothing of a role is open. -/
theorem filter_open_eq_nil_iff {α : Type} {l : List α} {role closed : α → Bool} :
    ((l.filter role).filter fun a => !closed a) = [] ↔
      ∀ a ∈ l, role a = true → closed a = true := by
  simp only [List.filter_eq_nil_iff, List.mem_filter, and_imp, Bool.not_eq_true',
    Bool.not_eq_false]

namespace TickInput

variable (input : TickInput)

theorem allTargetsSatisfied_iff :
    input.allTargetsSatisfied = true ↔ (∃ ref ∈ input.loop.refs, isTarget ref = true) ∧
      ∀ ref ∈ input.loop.refs, isTarget ref = true → (input.statusOf ref).satisfied = true := by
  simp only [allTargetsSatisfied, targetRefs, decide_eq_true_eq, List.length_pos_iff_exists_mem,
    List.mem_filter, List.all_eq_true, and_imp]

theorem openBlockers_eq_nil_iff :
    input.openBlockers = [] ↔
      ∀ ref ∈ input.loop.refs, ref.role = js "blocker" → (input.statusOf ref).satisfied = true := by
  rw [openBlockers, filter_open_eq_nil_iff]
  simp only [decide_eq_true_eq]

theorem blockingDecisionGates_eq_nil_iff :
    input.blockingDecisionGates = [] ↔
      ∀ ref ∈ input.loop.refs, ref.role = js "decision-gate" →
        input.loop.policy.decisionGatePolicy ≠ .advisoryOnly →
          (input.statusOf ref).satisfied = true := by
  unfold blockingDecisionGates
  split
  case isTrue hadvisory => simp [hadvisory]
  case isFalse hblocking =>
      rw [openDecisionGates, filter_open_eq_nil_iff]
      simp only [decide_eq_true_eq, ne_eq, hblocking, not_false_eq_true, true_imp_iff]

/-- A target that is satisfied is not rejected. -/
theorem anyTargetRejected_eq_false (h : input.allTargetsSatisfied = true) :
    input.anyTargetRejected = false := by
  simp only [allTargetsSatisfied, decide_eq_true_eq, List.all_eq_true] at h
  simp only [anyTargetRejected, List.any_eq_false, decide_eq_true_eq]
  intro ref href hrejected
  have hsatisfied := h.2 ref href
  rw [hrejected] at hsatisfied
  cases hsatisfied

theorem rollupOutcome_eligible_iff :
    input.rollupOutcome.1 = .eligibleForClose ↔
      input.openBlockers = [] ∧ input.hasOpenDecision = false ∧
        input.allTargetsSatisfied = true := by
  have hrejected := input.anyTargetRejected_eq_false
  unfold rollupOutcome
  cases hblockers : input.openBlockers with
  | cons ref refs => simp; split <;> simp
  | nil =>
      cases hdecision : input.hasOpenDecision with
      | true => simp; split <;> simp
      | false =>
          cases hall : input.allTargetsSatisfied with
          | true => simp [hrejected hall]
          | false =>
              simp only [List.length_nil, lt_irrefl, Bool.false_eq_true, if_false, and_false,
                iff_false]
              split
              · simp
              · split
                · simp
                · split <;> simp

/-- The plan closes a loop that may close when nothing that counts is open. -/
theorem closes_iff :
    input.closes = true ↔
      input.loop.policy.closeWhenRefsSatisfied = true ∧ input.pendingDecisions = [] ∧
        (∃ ref ∈ input.loop.refs, isTarget ref = true) ∧
        ∀ ref ∈ input.loop.refs, CountsForClose input.loop ref →
          (input.statusOf ref).satisfied = true := by
  have hdecision : input.hasOpenDecision = false ↔
      input.pendingDecisions = [] ∧ input.blockingDecisionGates = [] := by
    simp [hasOpenDecision]
  rw [closes, decide_eq_true_eq, rollupOutcome_eligible_iff, hdecision,
    openBlockers_eq_nil_iff, blockingDecisionGates_eq_nil_iff, allTargetsSatisfied_iff]
  constructor
  · rintro ⟨⟨hblockers, ⟨hpending, hgates⟩, htarget, htargets⟩, hpolicy⟩
    refine ⟨hpolicy, hpending, htarget, fun ref href hcounts => ?_⟩
    rcases hcounts with hrole | hrole | ⟨hrole, hblocking⟩
    · exact htargets ref href hrole
    · exact hblockers ref href hrole
    · exact hgates ref href hrole hblocking
  · rintro ⟨hpolicy, hpending, htarget, hall⟩
    refine ⟨⟨fun ref href hrole => hall ref href (.inr (.inl hrole)), ⟨hpending, ?_⟩, htarget,
      fun ref href hrole => hall ref href (.inl hrole)⟩, hpolicy⟩
    intro ref href hrole hblocking
    exact hall ref href (.inr (.inr ⟨hrole, hblocking⟩))

end TickInput

/-! ## What is looked up -/

section Rows

variable (letters : LetterCase) (rows : List TrackQueryRow)

/-- A row of a ref, in its own workspace. -/
def TrackQueryRow.IsOf (row : TrackQueryRow) (ref : H2ALoopTrackRef) : Prop :=
  row.id = some ref.aggregateId ∧ row.workspace = some ref.workspace

/-- A ref is reported in its own workspace, and is `DONE` wherever it is. -/
def Achieved (ref : H2ALoopTrackRef) : Prop :=
  (∃ row ∈ rows, row.IsOf ref) ∧ ∀ row ∈ rows, row.IsOf ref → row.isDone letters = true

/-- The row found for a ref is `DONE`. -/
def LooksDone (refs : List H2ALoopTrackRef) (ref : H2ALoopTrackRef) : Prop :=
  (rowFor refs rows ref).any (·.isDone letters) = true

/-- The row found for a ref stands for the rows of the ref in its own workspace: there is one, and
whether they are `DONE` is told by the row that is found. -/
def Represented (refs : List H2ALoopTrackRef) (ref : H2ALoopTrackRef) : Prop :=
  (∃ row ∈ rows, row.IsOf ref) ∧
    ∀ row ∈ rows, row.IsOf ref → (row.isDone letters = true ↔ LooksDone letters rows refs ref)

variable {letters rows}

theorem represented_iff_achieved {refs : List H2ALoopTrackRef} {ref : H2ALoopTrackRef}
    (h : LooksDone letters rows refs ref) :
    Represented letters rows refs ref ↔ Achieved letters rows ref := by
  unfold Represented Achieved
  simp only [h, iff_true]

end Rows

/-- The directories, the answers of `track`, and all else a tick reads. -/
structure TickWorld where
  cwd : JsString
  query : JsString → Option (List TrackQueryRow)
  agents : AgentsSnapshot
  presence : JsString → Option PresenceView
  pendingDecisions : List PendingDecision
  now : Int

namespace TickWorld

variable (letters : LetterCase) (world : TickWorld) (loop : H2AObjectiveLoop)

/-- The plan of a tick of a loop. -/
def plan : TickPlan :=
  planLoopTick letters.toLowerCase
    ⟨loop, world.agents, world.presence, readRefsRollup letters world.cwd world.query loop,
      world.pendingDecisions, world.now⟩

/-- The rows that are reported. -/
def rows : List TrackQueryRow := (queryAnswers world.cwd world.query loop).flatten

/-- A plan that closes the loop does so on its own targets. -/
def ClosesOnOwnTargets : Prop :=
  (world.plan letters loop).Closes →
    (∃ ref ∈ loop.refs, isTarget ref = true) ∧
      (∀ ref ∈ loop.refs, CountsForClose loop ref → Achieved letters (world.rows loop) ref) ∧
      world.pendingDecisions = []

/-- The loop may close, nothing is pending, and every ref that counts looks `DONE`. -/
def LooksClosable : Prop :=
  loop.policy.closeWhenRefsSatisfied = true ∧ world.pendingDecisions = [] ∧
    (∃ ref ∈ loop.refs, isTarget ref = true) ∧
    ∀ ref ∈ loop.refs, CountsForClose loop ref →
      LooksDone letters (world.rows loop) loop.refs ref

theorem plan_closes_iff : (world.plan letters loop).Closes ↔ world.LooksClosable letters loop := by
  rw [plan, planLoopTick_closes_iff, TickInput.closes_iff]
  unfold LooksClosable
  by_cases hrefs : loop.refs = []
  · simp [hrefs]
  by_cases hanswers : queryAnswers world.cwd world.query loop = []
  · have hdegraded : readRefsRollup letters world.cwd world.query loop = ⟨true, []⟩ := by
      simp [readRefsRollup, hrefs, hanswers]
    have hrows : world.rows loop = [] := by
      rw [rows, hanswers, List.flatten_nil]
    simp only [hdegraded, Bool.true_eq_false, false_and, false_iff]
    rintro ⟨-, -, ⟨ref, href, htarget⟩, hall⟩
    have hdone := hall ref href (.inl htarget)
    simp [LooksDone, rowFor, itemsById, hrows] at hdone
  · have hrollup : readRefsRollup letters world.cwd world.query loop =
        ⟨false, loop.refs.map fun ref => ⟨loopRefLocator ref,
          mapTrackAggregateToRefStatus letters
            (itemsById (world.rows loop) ref.aggregateId)⟩⟩ := by
      simp [readRefsRollup, hrefs, hanswers, rows]
    simp only [hrollup, true_and, TickInput.statusOf, statusByLocator_map, LooksDone]

/-- A loop closes on its own targets exactly when, where it looks closable, each ref that counts
is represented by the row that is found for it. -/
theorem closes_on_own_targets_iff :
    world.ClosesOnOwnTargets letters loop ↔
      (world.LooksClosable letters loop → ∀ ref ∈ loop.refs, CountsForClose loop ref →
        Represented letters (world.rows loop) loop.refs ref) := by
  unfold ClosesOnOwnTargets
  rw [plan_closes_iff]
  constructor
  · intro h hlooks ref href hcounts
    have hdone := hlooks.2.2.2 ref href hcounts
    exact (represented_iff_achieved hdone).mpr ((h hlooks).2.1 ref href hcounts)
  · intro h hlooks
    refine ⟨hlooks.2.2.1, fun ref href hcounts => ?_, hlooks.2.1⟩
    have hdone := hlooks.2.2.2 ref href hcounts
    exact (represented_iff_achieved hdone).mp (h hlooks ref href hcounts)

end TickWorld

/-! ## Two ledgers with one id -/

/-- An item of one id and bucket in a workspace. -/
def itemRow (workspace bucket : String) : TrackQueryRow :=
  ⟨some (js "I1"), some (js workspace), some (js bucket), none, none⟩

def primaryRef : H2ALoopTrackRef :=
  ⟨js "repo-a", js "ws-a", .item, js "I1", js "primary", none, none⟩

/-- A loop on two repositories, with one target in the first. -/
def twoReposLoop : H2AObjectiveLoop :=
  { id := js "loop-1", name := js "x", goal := js "x", status := .running
    repos := [⟨js "/a", none, none⟩, ⟨js "/b", none, none⟩], refs := [primaryRef], agents := []
    createdAt := 0, updatedAt := 0
    policy := ⟨60000, 900000, 3, none, true, .allTargetsAccepted, .allGoOrWaived⟩ }

/-- The target is to do in its own repository; the other one has an item of the same id. -/
def sameIdWorld : TickWorld where
  cwd := js "/"
  query dir :=
    if dir = js "/a" then some [itemRow "ws-a" "TO-DO"]
    else if dir = js "/b" then some [itemRow "ws-b" "DONE"]
    else none
  agents := ⟨false, []⟩
  presence _ := none
  pendingDecisions := []
  now := 0

theorem closes_on_foreign_target :
    ¬∀ (letters : LetterCase) (world : TickWorld) (loop : H2AObjectiveLoop),
      world.ClosesOnOwnTargets letters loop := by
  intro h
  have hcloses : (sameIdWorld.plan ⟨id, id⟩ twoReposLoop).Closes := by
    refine ⟨⟨.close, js "refs satisfied and policy.closeWhenRefsSatisfied", none, none, none,
      none⟩, ?_, rfl⟩
    decide +kernel
  have hachieved := (h ⟨id, id⟩ sameIdWorld twoReposLoop hcloses).2.1 primaryRef
    (List.mem_singleton_self _) (.inl (by decide +kernel))
  have hown := hachieved.2 (itemRow "ws-a" "TO-DO") (by decide +kernel) ⟨rfl, rfl⟩
  revert hown
  decide +kernel

end H2a.Loop
