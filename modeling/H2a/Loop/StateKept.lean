import H2a.Loop.State
/-!
# No join is lost and a stopped loop stays stopped

What each operation makes of the loop it has read keeps the enrolled agents and the stop.  So
the file keeps them, while what a call writes over is what it has read.
-/

namespace H2a.Loop

open H2a.Library

/-! ## One operation -/

/-- The enrolled agents of one loop are those of the other, and a stop stays. -/
structure Grows (base next : H2AObjectiveLoop) : Prop where
  enrolled : ∀ id instance_, Enrolled base id instance_ → Enrolled next id instance_
  stopped : base.status = .stopped → next.status = .stopped

theorem Grows.of_agents_eq {base next : H2AObjectiveLoop} (hagents : next.agents = base.agents)
    (hstopped : base.status = .stopped → next.status = .stopped) : Grows base next := by
  constructor
  · intro id instance_ h
    unfold Enrolled
    rw [hagents]
    exact h
  · exact hstopped

theorem find?_replaceAgent {agents : List H2ALoopAgent} {id : JsString} {agent : H2ALoopAgent}
    (hid : agent.id = id) (id' : JsString) :
    (replaceAgent agents id agent).find? (·.id = id') =
      (agents.find? (·.id = id')).map fun a => if a.id = id then agent else a := by
  unfold replaceAgent
  rw [List.find?_map]
  congr 1
  congr 1
  funext a
  by_cases ha : a.id = id
  · simp [ha, hid]
  · simp [ha]

/-- An agent that takes the place of the one of its id enrols its instance, and no other agent
is lost when there was no other instance. -/
theorem enrolled_replaceAgent {loop : H2AObjectiveLoop} {existing agent : H2ALoopAgent}
    {id instance_ : JsString} {now : Int} (hexisting : loop.agents.find? (·.id = id) = some existing)
    (hid : agent.id = id) (hagent : agent.h2aInstance = some instance_)
    (hfree : existing.h2aInstance = none ∨ existing.h2aInstance = some instance_) :
    Grows loop { loop with agents := replaceAgent loop.agents id agent, updatedAt := now } ∧
      Enrolled { loop with agents := replaceAgent loop.agents id agent, updatedAt := now }
        id instance_ := by
  have hexistingId : existing.id = id := by simpa using List.find?_some hexisting
  constructor
  · constructor
    · rintro id' instance' ⟨a, ha, hinstance⟩
      refine ⟨if a.id = id then agent else a, ?_, ?_⟩
      · rw [find?_replaceAgent hid, ha, Option.map_some]
      · split
        case isTrue hsame =>
            have haId : a.id = id' := by simpa using List.find?_some ha
            rw [← haId, hsame, hexisting] at ha
            cases ha
            rw [hagent]
            rcases hfree with hnone | hown
            · rw [hnone] at hinstance
              cases hinstance
            · rw [← hown]
              exact hinstance
        case isFalse => exact hinstance
    · exact fun h => h
  · refine ⟨agent, ?_, hagent⟩
    rw [find?_replaceAgent hid, hexisting, Option.map_some, if_pos hexistingId]

/-- What a join makes of the loop enrols its instance. -/
def LoopEffect.Enrols (loop : H2AObjectiveLoop) (id instance_ : JsString) : LoopEffect → Prop
  | .keep => Enrolled loop id instance_
  | .write next _ => Grows loop next ∧ Enrolled next id instance_

theorem joinAgain_enrols {input : LoopJoinInput} {launch : Option H2ALoopLaunchSpec} {now : Int}
    {loop : H2AObjectiveLoop} {existing : H2ALoopAgent} {effect : LoopEffect}
    (hexisting : loop.agents.find? (·.id = input.id) = some existing)
    (hinstance : existing.h2aInstance = some input.instance_)
    (h : joinAgain input launch now loop existing = .ok effect) :
    effect.Enrols loop input.id input.instance_ := by
  have hid : existing.id = input.id := by simpa using List.find?_some hexisting
  unfold joinAgain at h
  split at h
  · cases h
  split at h
  · cases h
  split at h
  · split at h
    · cases h
    · cases h
      exact enrolled_replaceAgent hexisting hid hinstance (.inr hinstance)
  · cases h
    exact ⟨existing, hexisting, hinstance⟩

theorem fillPlannedSlot_enrols {input : LoopJoinInput} {launch : Option H2ALoopLaunchSpec}
    {host : H2ALoopHost} {now : Int} {loop : H2AObjectiveLoop} {existing : H2ALoopAgent}
    {effect : LoopEffect} (hexisting : loop.agents.find? (·.id = input.id) = some existing)
    (h : fillPlannedSlot input launch host now loop existing = .ok effect) :
    effect.Enrols loop input.id input.instance_ := by
  have hid : existing.id = input.id := by simpa using List.find?_some hexisting
  unfold fillPlannedSlot at h
  split at h
  · cases h
  case isFalse hfree =>
      split at h
      · cases h
      split at h
      · cases h
      · cases h
        exact enrolled_replaceAgent hexisting hid rfl (.inl (not_not.mp hfree).1)

theorem joinNew_enrols {input : LoopJoinInput} {launch : Option H2ALoopLaunchSpec}
    {host : H2ALoopHost} {now : Int} {loop : H2AObjectiveLoop}
    (hnew : loop.agents.find? (·.id = input.id) = none) :
    (joinNew input launch host now loop).Enrols loop input.id input.instance_ := by
  constructor
  · constructor
    · rintro id instance_ ⟨a, ha, hinstance⟩
      refine ⟨a, ?_, hinstance⟩
      rw [List.find?_append, ha, Option.some_or]
    · exact fun h => h
  · unfold Enrolled
    simp [List.find?_append, hnew]

theorem joinObjectiveLoop_enrols {input : LoopJoinInput} {now : Int} {loop : H2AObjectiveLoop}
    {effect : LoopEffect} (h : joinObjectiveLoop input now loop = .ok effect) :
    effect.Enrols loop input.id input.instance_ := by
  have hwith : ∃ launch, joinWith input launch now loop = .ok effect := by
    unfold joinObjectiveLoop at h
    split at h
    · cases h
    split at h
    · cases h
    split at h
    · exact ⟨none, h⟩
    · obtain ⟨launch, -, hlaunch⟩ := bind_eq_ok_iff.mp h
      exact ⟨some launch, hlaunch⟩
  obtain ⟨launch, hlaunch⟩ := hwith
  simp only [joinWith] at hlaunch
  split at hlaunch
  · cases hlaunch
  split at hlaunch
  case h_1 existing hexisting =>
      split at hlaunch
      case isTrue hinstance => exact joinAgain_enrols hexisting hinstance hlaunch
      case isFalse => exact fillPlannedSlot_enrols hexisting hlaunch
  case h_2 hnew =>
      cases hlaunch
      exact joinNew_enrols hnew

/-- What a call that writes has done to the loop it has read. -/
structure LoopCall.Writes (call : LoopCall) (base next : H2AObjectiveLoop) : Prop where
  grows : Grows base next
  enrolled : ∀ x ∈ call.enrols, Enrolled next x.1 x.2
  stopped : call.isStop = true → next.status = .stopped

/-- A call that enrols no one and does not touch the agents. -/
theorem LoopCall.Writes.of_agents_eq {call : LoopCall} {base next : H2AObjectiveLoop}
    (hagents : next.agents = base.agents) (henrols : call.enrols = none)
    (hkept : base.status = .stopped → next.status = .stopped)
    (hstopped : call.isStop = true → next.status = .stopped) : call.Writes base next := by
  constructor
  · exact .of_agents_eq hagents hkept
  · rw [henrols]
    rintro x ⟨⟩
  · exact hstopped

theorem finishReport_writes {input : LoopReportInput} {now : Int}
    {base next : H2AObjectiveLoop} {events : List H2ALoopEvent}
    (h : finishReport input now base = .ok (.write next events)) :
    (LoopCall.report input).Writes base next := by
  unfold finishReport at h
  split at h
  · cases h
  · cases h
    exact .of_agents_eq rfl rfl (fun h => h) (by simp [LoopCall.isStop])

/-- Every call but `updateObjectiveLoopStatus("done")` keeps a stop. -/
theorem LoopCall.writes_of_decide {call : LoopCall} {now : Int} {base next : H2AObjectiveLoop}
    {events : List H2ALoopEvent} (h : call.decide now base = .ok (.effect (.write next events)))
    (hlive : ∀ reason, call = .updateStatusDone reason → base.status ≠ .stopped) :
    call.Writes base next := by
  cases call with
  | join input =>
      obtain ⟨effect, hjoin, heffect⟩ := map_eq_ok_iff.mp h
      cases heffect
      have henrols : LoopEffect.Enrols base input.id input.instance_ (.write next events) :=
        joinObjectiveLoop_enrols hjoin
      constructor
      · exact henrols.1
      · rintro x ⟨⟩
        exact henrols.2
      · rintro ⟨⟩
  | report input =>
      simp only [LoopCall.decide, reportObjectiveLoop] at h
      split at h
      · cases h
      split at h
      · cases h
      split at h
      · split at h
        · cases h
        · split at h <;> cases h
      · obtain ⟨effect, hfinish, heffect⟩ := map_eq_ok_iff.mp h
        cases heffect
        exact finishReport_writes hfinish
  | declareDone input =>
      obtain ⟨effect, hdone, heffect⟩ := map_eq_ok_iff.mp h
      cases heffect
      simp only [declareObjectiveLoopDone] at hdone
      by_cases hclosed : base.status = .done ∨ base.status = .stopped
      · rw [if_pos hclosed] at hdone
        cases hdone
      · rw [if_neg hclosed] at hdone
        cases (ok_of_guard (ok_of_guard hdone).2).2
        refine .of_agents_eq rfl rfl (fun hstopped => ?_) (by rintro ⟨⟩)
        exact absurd (.inr hstopped) hclosed
  | stop input =>
      simp only [LoopCall.decide, stopObjectiveLoop] at h
      split at h
      · cases h
      · cases h
        exact .of_agents_eq rfl rfl (fun _ => rfl) (fun _ => rfl)
  | enableAutoTick =>
      simp only [LoopCall.decide, enableObjectiveLoopAutoTick] at h
      split at h
      · cases h
      · cases h
        exact .of_agents_eq rfl rfl (fun h => h) (by rintro ⟨⟩)
  | updateStatusDone reason =>
      simp only [LoopCall.decide, updateObjectiveLoopStatus] at h
      split at h
      · cases h
      · cases h
        exact .of_agents_eq rfl rfl (fun hstopped => absurd hstopped (hlive reason rfl))
          (by rintro ⟨⟩)

/-- A join that writes nothing finds its agent enrolled. -/
theorem LoopCall.enrolled_of_keep {call : LoopCall} {now : Int} {base : H2AObjectiveLoop}
    (h : call.decide now base = .ok (.effect .keep)) :
    ∀ x ∈ call.enrols, Enrolled base x.1 x.2 := by
  cases call with
  | join input =>
      obtain ⟨effect, hjoin, heffect⟩ := map_eq_ok_iff.mp h
      cases heffect
      rintro x ⟨⟩
      exact joinObjectiveLoop_enrols hjoin
  | report input => rintro x ⟨⟩
  | declareDone input => rintro x ⟨⟩
  | stop input => rintro x ⟨⟩
  | enableAutoTick => rintro x ⟨⟩
  | updateStatusDone reason => rintro x ⟨⟩

/-! ## Runs -/

/-- What a process is about to write, or has written, when the file is as it is. -/
def LoopPc.Sound (file : H2AObjectiveLoop) : LoopPc → Prop
  | .writing call _ base next _ _ => call.Writes base next
  | .appending call _ _ _ _ =>
      (∀ x ∈ call.enrols, Enrolled file x.1 x.2) ∧ (call.isStop = true → file.status = .stopped)
  | _ => True

theorem LoopPc.Sound.grows {file file' : H2AObjectiveLoop} (hgrows : Grows file file')
    {pc : LoopPc} (h : pc.Sound file) : pc.Sound file' := by
  cases pc with
  | idle => trivial
  | reading call now for_ => trivial
  | writing call now base next events for_ => exact h
  | appending call now next events for_ =>
      constructor
      · intro x hx
        exact hgrows.enrolled _ _ (h.1 x hx)
      · intro hstop
        exact hgrows.stopped (h.2 hstop)

namespace LoopSystem

variable {P : Type} [DecidableEq P]

structure Inv (s : LoopSystem P) : Prop where
  joined : ∀ x ∈ s.joined, Enrolled s.file x.1 x.2
  stopped : s.stopReturned = true → s.file.status = .stopped
  sound : ∀ p, (s.pc p).Sound s.file

omit [DecidableEq P] in
theorem start_inv (loop : H2AObjectiveLoop) : (start (P := P) loop).Inv := by
  constructor
  · rintro x ⟨⟩
  · rintro ⟨⟩
  · intro p
    trivial

omit [DecidableEq P] in
theorem Inv.kept {toLowerCase : JsString → JsString} {s : LoopSystem P} (h : s.Inv) :
    s.Kept toLowerCase := by
  constructor
  · intro id instance_ hmem
    obtain ⟨a, ha, hinstance⟩ := h.joined _ hmem
    exact ⟨a, List.mem_of_find?_eq_some ha, by simpa using List.find?_some ha, hinstance⟩
  · intro hreturned
    have hstopped := h.stopped hreturned
    exact ⟨hstopped, not_isLoopAutoTickEligible (by rw [hstopped]; rfl)⟩

theorem Inv.goto {s : LoopSystem P} (h : s.Inv) (p : P) {pc : LoopPc} (hpc : pc.Sound s.file) :
    (s.goto p pc).Inv := by
  constructor
  · exact h.joined
  · exact h.stopped
  · intro q
    change (Function.update s.pc p pc q).Sound s.file
    by_cases hq : q = p
    · rw [hq, Function.update_self]
      exact hpc
    · rw [Function.update_of_ne hq]
      exact h.sound q

omit [DecidableEq P] in
/-- A write that keeps the agents and the stop of the file it replaces. -/
theorem Inv.write {s : LoopSystem P} (h : s.Inv) {next : H2AObjectiveLoop}
    (hgrows : Grows s.file next) : Inv { s with file := next } := by
  constructor
  · intro x hx
    exact hgrows.enrolled _ _ (h.joined x hx)
  · intro hreturned
    exact hgrows.stopped (h.stopped hreturned)
  · intro p
    exact (h.sound p).grows hgrows

theorem Inv.returns {s : LoopSystem P} (h : s.Inv) (p : P) {call : LoopCall} {now : Int}
    {loop : H2AObjectiveLoop} {for_ : Option LoopReportInput}
    (henrolled : ∀ x ∈ call.enrols, Enrolled s.file x.1 x.2)
    (hstopped : call.isStop = true → loop.status = .stopped → s.file.status = .stopped) :
    (s.returns p call now loop for_).Inv := by
  have hreturned : Inv { s with
      joined := s.joined ++ call.enrols.toList
      stopReturned := s.stopReturned || call.isStop && loop.status == .stopped } := by
    constructor
    · intro x hx
      rcases List.mem_append.mp hx with hold | hnew
      · exact h.joined x hold
      · exact henrolled x (Option.mem_toList.mp hnew)
    · intro hreturned
      rcases Bool.or_eq_true_iff.mp hreturned with hold | hnew
      · exact h.stopped hold
      · rw [Bool.and_eq_true_iff, beq_iff_eq] at hnew
        exact hstopped hnew.1 hnew.2
    · exact h.sound
  unfold LoopSystem.returns
  cases for_ with
  | none => exact hreturned.goto p (by trivial)
  | some report =>
      cases hfinish : finishReport report now loop with
      | error e =>
          simp only [hfinish]
          exact hreturned.goto p (by trivial)
      | ok effect =>
          cases effect with
          | keep =>
              simp only [hfinish]
              exact hreturned.goto p (by trivial)
          | write next events =>
              simp only [hfinish]
              exact hreturned.goto p (finishReport_writes hfinish)

/-- The step of a process, where nothing raced it. -/
theorem Inv.next {s : LoopSystem P} (h : s.Inv) (p : P) (hok : Unraced s (.step p)) :
    (s.next p).Inv := by
  have hsound := h.sound p
  simp only [Unraced] at hok
  unfold LoopSystem.next
  cases hpc : s.pc p with
  | idle => exact h
  | reading call now for_ =>
      cases hdecide : call.decide now s.file with
      | error e =>
          simp only [hdecide]
          exact h.goto p (by trivial)
      | ok decision =>
          cases decision with
          | autoJoin input report =>
              simp only [hdecide]
              exact h.goto p (by trivial)
          | effect effect =>
              cases effect with
              | keep =>
                  simp only [hdecide]
                  exact h.returns p (LoopCall.enrolled_of_keep hdecide) fun _ hstopped => hstopped
              | write next events =>
                  simp only [hdecide]
                  refine h.goto p (LoopCall.writes_of_decide hdecide ?_)
                  rintro reason rfl
                  rw [hpc] at hok
                  exact hok
  | writing call now base next events for_ =>
      rw [hpc] at hok hsound
      have hwrites : call.Writes base next := hsound
      have hgrows : Grows s.file next := by
        constructor
        · intro id instance_ henrolled
          exact hwrites.grows.enrolled _ _ (hok.1 id instance_ henrolled)
        · intro hstopped
          rcases hok.2 hstopped with hbase | hstop
          · exact hwrites.grows.stopped hbase
          · exact hwrites.stopped hstop
      exact (h.write hgrows).goto p ⟨hwrites.enrolled, hwrites.stopped⟩
  | appending call now next events for_ =>
      rw [hpc] at hsound
      have hjournal : Inv { s with journal := s.journal ++ events } :=
        ⟨h.joined, h.stopped, h.sound⟩
      exact hjournal.returns p hsound.1 fun hstop _ => hsound.2 hstop

theorem Inv.act {s : LoopSystem P} (h : s.Inv) (a : LoopAction P) (hok : Unraced s a) :
    (s.act a).Inv := by
  cases a with
  | call p call now =>
      simp only [LoopSystem.act]
      cases s.pc p with
      | idle => exact h.goto p (by trivial)
      | reading _ _ _ => exact h
      | writing _ _ _ _ _ _ => exact h
      | appending _ _ _ _ _ => exact h
  | step p => exact h.next p hok
  | crash p => exact h.goto p (by trivial)

/-- While no call writes over an agent or a stop it has not read, and no stopped loop is closed,
no join is lost and a stopped loop stays stopped. -/
theorem loop_state_kept (toLowerCase : JsString → JsString) (loop : H2AObjectiveLoop)
    (actions : List (LoopAction P)) (hok : EachMeets act Unraced (start loop) actions) :
    Throughout act (Kept toLowerCase) (start loop) actions :=
  throughout_of_eachMeets (I := Inv) (fun _ h => h.kept) (fun _ a h ha => h.act a ha)
    (start_inv loop) hok

end LoopSystem

/-! ## Calls that race -/

/-- A process makes a call, and the call is taken to its end. -/
def wholeLoopCall (p : Bool) (call : LoopCall) : List (LoopAction Bool) :=
  [.call p call 0, .step p, .step p, .step p]

def joinOf (instance_ : String) : LoopCall := .join ⟨js instance_, none, none, none, none, none⟩

def stopOf : LoopCall := .stop ⟨none⟩

def runningLoop : H2AObjectiveLoop :=
  { id := js "loop-1", name := js "x", goal := js "x", status := .running, repos := [], refs := []
    agents := [], createdAt := 0, updatedAt := 0
    policy := ⟨60000, 900000, 3, none, false, .explicitDone, .allGoOrWaived⟩ }

theorem loop_state_kept_join :
    Throughout LoopSystem.act (LoopSystem.Kept id) (LoopSystem.start (P := Bool) runningLoop)
      (wholeLoopCall false (joinOf "claude:a")) := by
  apply LoopSystem.loop_state_kept
  refine ⟨trivial, trivial, ⟨?_, ?_⟩, trivial, trivial⟩
  · intro id instance_ h
    exact h
  · intro h
    exact .inl h

/-- Two joins read the loop before either writes it. -/
def lostJoinRun : List (LoopAction Bool) :=
  [LoopAction.call false (joinOf "claude:a") 0, .step false] ++
    wholeLoopCall true (joinOf "claude:b") ++ [LoopAction.step false]

/-- The loop is stopped between the read and the write of a join. -/
def undoneStopRun : List (LoopAction Bool) :=
  [LoopAction.call false (joinOf "claude:a") 0, .step false] ++ wholeLoopCall true stopOf ++
    [LoopAction.step false]

/-- A stopped loop is closed by an executor. -/
def closedStopRun : List (LoopAction Bool) :=
  wholeLoopCall true stopOf ++ wholeLoopCall false (.updateStatusDone none)

/-- What has returned, and what the file then shows. -/
def outcomeOf (actions : List (LoopAction Bool)) :
    List (JsString × JsString) × List JsString × Bool × H2ALoopStatus :=
  let s := actions.foldl LoopSystem.act (LoopSystem.start runningLoop)
  (s.joined, s.file.agents.map (·.id), s.stopReturned, s.file.status)

/-- A join is lost, a stop is undone, and a stopped loop becomes done. -/
theorem loop_state_lost :
    outcomeOf lostJoinRun =
        ([(js "claude:b", js "claude:b")], [js "claude:a"], false, .running) ∧
      outcomeOf undoneStopRun = ([], [js "claude:a"], true, .running) ∧
      outcomeOf closedStopRun = ([], [], true, .done) ∧
      ¬∀ (toLowerCase : JsString → JsString) (loop : H2AObjectiveLoop)
        (actions : List (LoopAction Bool)),
        Throughout LoopSystem.act (LoopSystem.Kept toLowerCase) (LoopSystem.start loop)
          actions := by
  have hundone : outcomeOf undoneStopRun = ([], [js "claude:a"], true, .running) := by
    decide +kernel
  refine ⟨by decide +kernel, hundone, by decide +kernel, fun h => ?_⟩
  have hkept := (h id runningLoop undoneStopRun).last
  have hreturned := congrArg (·.2.2.1) hundone
  have hstatus := congrArg (·.2.2.2) hundone
  cases (hkept.stopped hreturned).1.symm.trans hstatus

end H2a.Loop
