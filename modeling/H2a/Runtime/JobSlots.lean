import Mathlib.Data.List.Chain
import H2a.Library.Transition
import H2a.Runtime.Registry
/-!
# Job slots and the job lifecycle

The runs of `tryClaimSlot`, `advanceJob`, `enroll` and `prune` on one registry file, by any number
of processes.  The rows that occupy a slot never exceed the cap.  The states of a job follow
`JOB_TRANSITIONS` exactly as long as no claim is granted a job that has ended: `tryClaimSlot`
writes `running` over whatever state the row is in.
-/

namespace H2a.Runtime

open H2a.Library

/-! ## Runs -/

/-- An operation on the jobs of the registry, by some process. -/
inductive JobAct where
  | tryClaimSlot (input : EnrollInput) (now : JsString)
  | advanceJob (id : JsString) (next : JobState) (now : JsString)
  | enroll (input : EnrollInput) (now : JsString)
  | prune (maxAgeHours : ℚ) (opts : LivenessOpts) (nowMs : Int) (now : JsString)

/-- The file after a mutation, which may have thrown. -/
def fileAfter {α : Type} (file : RegistryFile) :
    Except JsString (RegistryFile × α) → RegistryFile
  | .ok (file, _) => file
  | .error _ => file

/-- One operation under the lock, with the cap of all claims. -/
def jobStep (cap : Int) (file : RegistryFile) : JobAct → RegistryFile
  | .tryClaimSlot input now =>
      fileAfter file (runUnderRegistryLock file now (tryClaimSlot input cap now))
  | .advanceJob id next now =>
      fileAfter file (runUnderRegistryLock file now fun entries =>
        .ok (advanceJob id next now entries))
  | .enroll input now => fileAfter file (runUnderRegistryLock file now (enroll input now))
  | .prune maxAgeHours opts nowMs now =>
      fileAfter file (runUnderRegistryLock file now fun entries =>
        .ok (prune maxAgeHours opts nowMs entries))

/-- The files of a run, the first one included. -/
def filesOf (cap : Int) (file : RegistryFile) : List JobAct → List RegistryFile
  | [] => [file]
  | act :: acts => file :: filesOf cap (jobStep cap file act) acts

/-- The state of the job with an id, where there is one. -/
def jobState? (entries : List RegistryEntry) (id : JsString) : Option JobState :=
  (entries.find? fun e => e.id = id ∧ e.role = some .job).map (·.state)

/-- The operations in question: a job is enrolled once and as `pending`, and it is `tryClaimSlot`
that takes it to `running`. -/
def Admitted (file : RegistryFile) : JobAct → Prop
  | .advanceJob id next _ => next = .running → jobState? file.entries id ≠ some .pending
  | .enroll input _ =>
      input.role = some .job ∧ input.jobState = some .pending ∧
        jobState? file.entries input.id = none
  | _ => True

instance (file : RegistryFile) (act : JobAct) : Decidable (Admitted file act) :=
  match act with
  | .advanceJob _ _ _ => inferInstanceAs (Decidable (_ → _))
  | .enroll _ _ => inferInstanceAs (Decidable (_ ∧ _))
  | .tryClaimSlot _ _ => isTrue trivial
  | .prune _ _ _ _ => isTrue trivial

/-- The state may come next, or the row may come or go. -/
def Follows : Option JobState → Option JobState → Prop
  | some s, some t => s = t ∨ canTransitionJob s t = true
  | _, _ => True

/-- The states that nothing follows. -/
def JobState.ended (s : JobState) : Prop := s = .done ∨ s = .failed

instance (s : JobState) : Decidable s.ended := inferInstanceAs (Decidable (_ ∨ _))

/-- The slots that are taken never exceed the cap. -/
def CapKept (cap : Int) (files : List RegistryFile) : Prop :=
  ∀ file ∈ files, (running file.entries : Int) ≤ max cap 0

/-- The states of each job are a path of `JOB_TRANSITIONS`, and while the row of an ended job is
there it stays in that state. -/
structure LifecycleKept (files : List RegistryFile) : Prop where
  path : ∀ id, (files.map fun file => jobState? file.entries id).IsChain Follows
  final : ∀ id s, s.ended → ∀ stretch, stretch <:+: files →
    (∀ file ∈ stretch, (jobState? file.entries id).isSome) →
    (stretch.head?.map fun file => jobState? file.entries id) = some (some s) →
    ∀ file ∈ stretch, jobState? file.entries id = some s

/-- No claim for background work that finds a slot names a job that has ended. -/
def ClaimsOpen (cap : Int) (file : RegistryFile) : JobAct → Prop
  | .tryClaimSlot input _ =>
      slotFree file.entries input.id cap → input.sessionClass = .background →
        ∀ s ∈ jobState? file.entries input.id, ¬s.ended
  | _ => True

instance (cap : Int) (file : RegistryFile) (act : JobAct) : Decidable (ClaimsOpen cap file act) :=
  match act with
  | .tryClaimSlot _ _ => inferInstanceAs (Decidable (_ → _ → ∀ s ∈ jobState? _ _, _))
  | .advanceJob _ _ _ => isTrue trivial
  | .enroll _ _ => isTrue trivial
  | .prune _ _ _ _ => isTrue trivial

/-! ## What a file holds -/

theorem readable_eq_some {row : RegistryRow} {e : RegistryEntry} (h : row.readable = some e) :
    row = .entry e ∧ isRegistryEntry e = true := by
  cases row with
  | entry e' =>
      simp only [RegistryRow.readable, Option.ite_none_right_eq_some, Option.some.injEq] at h
      exact ⟨by rw [h.2], by rw [← h.2]; exact h.1⟩
  | raw row => simp [RegistryRow.readable] at h

theorem isRegistryEntry_of_mem {file : RegistryFile} {e : RegistryEntry}
    (he : e ∈ file.entries) : isRegistryEntry e = true := by
  obtain ⟨row, -, hrow⟩ := List.mem_filterMap.mp he
  exact (readable_eq_some hrow).2

/-- What was readable is still so after a save, and nothing else is. -/
theorem entries_save (file : RegistryFile) (entries : List RegistryEntry) (now : JsString) :
    (file.save entries now).entries = entries.filter isRegistryEntry := by
  have hpreserved : file.preserved.filterMap (·.readable) = [] := by
    rw [List.filterMap_eq_nil_iff]
    intro row hrow
    simpa using (List.mem_filter.mp hrow).2
  have hentries : (entries.map RegistryRow.entry).filterMap (·.readable) =
      entries.filter isRegistryEntry := by
    induction entries with
    | nil => rfl
    | cons e entries ih =>
        rw [List.map_cons, List.filterMap_cons, ih]
        cases he : isRegistryEntry e <;> simp [RegistryRow.readable, he]
  simp [RegistryFile.entries, RegistryFile.save, RegistryFile.rawRows, hpreserved, hentries]

theorem filter_entries (file : RegistryFile) :
    file.entries.filter isRegistryEntry = file.entries :=
  List.filter_eq_self.mpr fun _ he => isRegistryEntry_of_mem he

/-- The rows after a mutation that does not throw. -/
theorem entries_mutated {α : Type} {file : RegistryFile} {now : JsString}
    {fn : List RegistryEntry → Except JsString (Mutated α)} {done : Mutated α}
    (h : fn file.entries = .ok done) (hsave : done.save = false → done.entries = file.entries) :
    (fileAfter file (runUnderRegistryLock file now fn)).entries =
      done.entries.filter isRegistryEntry := by
  have hrun : runUnderRegistryLock file now fn =
      .ok (if done.save then file.save done.entries now else file, done.result) := by
    simp [runUnderRegistryLock, h, bind, Except.bind, pure, Except.pure]
  rw [hrun]
  cases hcase : done.save with
  | true => simp [fileAfter, entries_save]
  | false => simp [fileAfter, hsave hcase, filter_entries]

theorem fileAfter_error {α : Type} {file : RegistryFile} {now error : JsString}
    {fn : List RegistryEntry → Except JsString (Mutated α)} (h : fn file.entries = .error error) :
    fileAfter file (runUnderRegistryLock file now fn) = file := by
  simp [runUnderRegistryLock, h, bind, Except.bind, fileAfter]

/-! ## One row per job -/

/-- No row after the first one of an id is a job. -/
def JobsFirst (entries : List RegistryEntry) : Prop :=
  entries.Pairwise fun a b => a.id = b.id → b.role ≠ some .job

theorem mem_putEntry {entry e : RegistryEntry} {entries : List RegistryEntry}
    (h : e ∈ putEntry entry entries) : e = entry ∨ e ∈ entries := by
  induction entries with
  | nil => simpa [putEntry] using h
  | cons x entries ih =>
      rw [putEntry] at h
      split at h
      · rcases List.mem_cons.mp h with rfl | h
        · exact .inl rfl
        · exact .inr (List.mem_cons_of_mem x h)
      · rcases List.mem_cons.mp h with rfl | h
        · exact .inr List.mem_cons_self
        · exact (ih h).imp_right (List.mem_cons_of_mem x)

theorem mem_putEntry_self (entry : RegistryEntry) (entries : List RegistryEntry) :
    entry ∈ putEntry entry entries := by
  induction entries with
  | nil => simp [putEntry]
  | cons x entries ih =>
      rw [putEntry]
      split
      · exact List.mem_cons_self
      · exact List.mem_cons_of_mem x ih

theorem mem_putEntry_of_ne {entry e : RegistryEntry} {entries : List RegistryEntry}
    (he : e ∈ entries) (hne : e.id ≠ entry.id) : e ∈ putEntry entry entries := by
  induction entries with
  | nil => simp at he
  | cons x entries ih =>
      rw [putEntry]
      rcases List.mem_cons.mp he with rfl | he
      · rw [if_neg hne]
        exact List.mem_cons_self
      · split
        · exact List.mem_cons_of_mem entry he
        · exact List.mem_cons_of_mem x (ih he)

theorem JobsFirst.putEntry {entries : List RegistryEntry} (h : JobsFirst entries)
    (entry : RegistryEntry) : JobsFirst (putEntry entry entries) := by
  induction entries with
  | nil => simp [JobsFirst, Runtime.putEntry]
  | cons x entries ih =>
      obtain ⟨hx, hrest⟩ := List.pairwise_cons.mp h
      rw [Runtime.putEntry]
      split
      · case isTrue hid =>
          exact List.pairwise_cons.mpr ⟨fun e he => hid ▸ hx e he, hrest⟩
      · case isFalse hid =>
          refine List.pairwise_cons.mpr ⟨fun e he hxe => ?_, ih hrest⟩
          rcases mem_putEntry he with rfl | he
          · exact absurd hxe hid
          · exact hx e he hxe

theorem jobState?_eq_some {entries : List RegistryEntry} (h : JobsFirst entries) {id : JsString}
    {s : JobState} :
    jobState? entries id = some s ↔
      ∃ e ∈ entries, e.id = id ∧ e.role = some .job ∧ e.state = s := by
  induction entries with
  | nil => simp [jobState?]
  | cons x entries ih =>
      obtain ⟨hx, hrest⟩ := List.pairwise_cons.mp h
      by_cases hjob : x.id = id ∧ x.role = some .job
      · have hlater : ¬∃ e ∈ entries, e.id = id ∧ e.role = some .job ∧ e.state = s :=
          fun ⟨e, he, hid, hrole, _⟩ => hx e he (hjob.1.trans hid.symm) hrole
        simp [jobState?, hjob, hlater]
      · have hhere : ¬(x.id = id ∧ x.role = some .job ∧ x.state = s) :=
          fun hall => hjob ⟨hall.1, hall.2.1⟩
        have hfind : jobState? (x :: entries) id = jobState? entries id := by
          simp [jobState?, hjob]
        simp [hfind, ih hrest, hhere]

/-! ## What an operation does to the rows -/

theorem running_putEntry (entry : RegistryEntry) (entries : List RegistryEntry) :
    running (putEntry entry entries) + selfRunning entries entry.id =
      running entries + if entry.occupies then 1 else 0 := by
  induction entries with
  | nil => cases h : entry.occupies <;> simp [putEntry, running, selfRunning, findEntry, h]
  | cons x entries ih =>
      rw [putEntry]
      by_cases hid : x.id = entry.id
      · rw [if_pos hid]
        cases h : entry.occupies <;> cases hx : x.occupies <;>
          simp [running, selfRunning, findEntry, hid, h, hx]
      · have hself : selfRunning (x :: entries) entry.id = selfRunning entries entry.id := by
          simp [selfRunning, findEntry, hid]
        rw [if_neg hid, hself]
        cases hx : x.occupies with
        | true =>
            have hput : running (x :: putEntry entry entries) =
                running (putEntry entry entries) + 1 := by simp [running, hx]
            have hold : running (x :: entries) = running entries + 1 := by simp [running, hx]
            omega
        | false =>
            have hput : running (x :: putEntry entry entries) =
                running (putEntry entry entries) := by simp [running, hx]
            have hold : running (x :: entries) = running entries := by simp [running, hx]
            omega

theorem running_filter_le (p : RegistryEntry → Bool) (entries : List RegistryEntry) :
    running (entries.filter p) ≤ running entries :=
  (List.filter_sublist.filter _).length_le

/-- Where the job rows come first, the row an id finds is the row of its job. -/
theorem findEntry_of_jobState {entries : List RegistryEntry} (h : JobsFirst entries)
    {id : JsString} {s : JobState} (hs : jobState? entries id = some s) :
    ∃ e, findEntry entries id = some e ∧ e.role = some .job ∧ e.state = s := by
  induction entries with
  | nil => simp [jobState?] at hs
  | cons x entries ih =>
      obtain ⟨hx, hrest⟩ := List.pairwise_cons.mp h
      obtain ⟨e, he, hid, hrole, hstate⟩ := (jobState?_eq_some h).mp hs
      rcases List.mem_cons.mp he with rfl | he
      · exact ⟨e, by simp [findEntry, hid], hrole, hstate⟩
      · have hne : x.id ≠ id := fun hxid => hx e he (hxid.trans hid.symm) hrole
        obtain ⟨e', hfind, he'⟩ :=
          ih hrest ((jobState?_eq_some hrest).mpr ⟨e, he, hid, hrole, hstate⟩)
        exact ⟨e', by simpa [findEntry, hne] using hfind, he'⟩

theorem jobState_of_findEntry {entries : List RegistryEntry} (h : JobsFirst entries)
    {id : JsString} {e : RegistryEntry} (he : findEntry entries id = some e)
    (hrole : e.role = some .job) : jobState? entries id = some e.state := by
  have hid : e.id = id := by simpa using List.find?_some he
  exact (jobState?_eq_some h).mpr ⟨e, List.mem_of_find?_eq_some he, hid, hrole, rfl⟩

theorem JobsFirst.filter {entries : List RegistryEntry} (h : JobsFirst entries)
    (p : RegistryEntry → Bool) : JobsFirst (entries.filter p) :=
  List.Pairwise.filter p h

/-- What an operation may do to the rows: leave some out, or put one row.  The row put takes no
slot that is not free, and where `legal` holds its state may follow the one it replaces. -/
inductive Moved (cap : Int) (entries : List RegistryEntry) (legal : Prop) :
    List RegistryEntry → Prop
  | kept (p : RegistryEntry → Bool) : Moved cap entries legal (entries.filter p)
  | put (e : RegistryEntry)
      (hcap : e.occupies = true →
        (running entries : Int) - selfRunning entries e.id < cap ∨ selfRunning entries e.id = 1)
      (hstate : legal → isRegistryEntry e = true → ∀ s, jobState? entries e.id = some s →
        s = e.state ∨ canTransitionJob s e.state = true) :
      Moved cap entries legal ((putEntry e entries).filter isRegistryEntry)

theorem Moved.unchanged {cap : Int} {entries : List RegistryEntry} {legal : Prop} :
    Moved cap entries legal entries := by
  have h : Moved cap entries legal (entries.filter fun _ => true) := Moved.kept fun _ => true
  rwa [List.filter_eq_self.mpr fun _ _ => rfl] at h

theorem Moved.jobsFirst {cap : Int} {entries after : List RegistryEntry} {legal : Prop}
    (hmoved : Moved cap entries legal after) (h : JobsFirst entries) : JobsFirst after := by
  cases hmoved with
  | kept p => exact h.filter p
  | put e hcap hstate => exact (h.putEntry e).filter isRegistryEntry

theorem Moved.running_le {cap : Int} {entries after : List RegistryEntry} {legal : Prop}
    (hmoved : Moved cap entries legal after) (h : (running entries : Int) ≤ max cap 0) :
    (running after : Int) ≤ max cap 0 := by
  cases hmoved with
  | kept p =>
      have hle := running_filter_le p entries
      omega
  | put e hcap hstate =>
      have hle := running_filter_le isRegistryEntry (putEntry e entries)
      have hput := running_putEntry e entries
      cases hcase : e.occupies with
      | true =>
          rw [hcase] at hput
          rcases hcap hcase with hfree | hself
          · simp only [if_true] at hput
            omega
          · simp only [if_true] at hput
            omega
      | false =>
          simp only [hcase, Bool.false_eq_true, if_false] at hput
          omega

theorem follows_none_right (s : Option JobState) : Follows s none := by
  cases s <;> trivial

theorem follows_refl (s : Option JobState) : Follows s s := by
  cases s with
  | none => trivial
  | some s => exact .inl rfl

theorem Moved.follows {cap : Int} {entries after : List RegistryEntry} {legal : Prop}
    (hmoved : Moved cap entries legal after) (h : JobsFirst entries) (hlegal : legal)
    (id : JsString) : Follows (jobState? entries id) (jobState? after id) := by
  cases hnew : jobState? after id with
  | none => exact follows_none_right _
  | some t =>
      obtain ⟨x, hx, hid, hrole, hxt⟩ := (jobState?_eq_some (hmoved.jobsFirst h)).mp hnew
      have hsame (hmem : x ∈ entries) : Follows (jobState? entries id) (some t) := by
        rw [(jobState?_eq_some h).mpr ⟨x, hmem, hid, hrole, hxt⟩]
        exact follows_refl _
      cases hmoved with
      | kept p => exact hsame (List.mem_of_mem_filter hx)
      | put e hcap hstate =>
          obtain ⟨hput, hreadable⟩ := List.mem_filter.mp hx
          rcases mem_putEntry hput with rfl | hmem
          · cases hold : jobState? entries id with
            | none => trivial
            | some s =>
                have hnext := hstate hlegal hreadable s (hid ▸ hold)
                rwa [hxt] at hnext
          · exact hsame hmem

theorem mergeEnroll_id (input : EnrollInput) (prev : Option RegistryEntry) (now : JsString) :
    (mergeEnroll input prev now).id = input.id := rfl

theorem mergeEnroll_role (input : EnrollInput) (prev : Option RegistryEntry) (now : JsString) :
    (mergeEnroll input prev now).role = input.role.or (prev.bind (·.role)) := rfl

theorem mergeEnroll_class (input : EnrollInput) (prev : Option RegistryEntry) (now : JsString) :
    (mergeEnroll input prev now).sessionClass = some input.sessionClass := rfl

theorem mergeEnroll_state (input : EnrollInput) (prev : Option RegistryEntry) (now : JsString)
    {s : JobState} (h : input.jobState = some s) : (mergeEnroll input prev now).state = s := by
  simp [mergeEnroll, RegistryEntry.state, h]

/-- An enrollment over the row of a job is one of a job. -/
theorem mergeEnroll_job (input : EnrollInput) {prev : RegistryEntry} (now : JsString)
    (h : prev.role = some .job) : (mergeEnroll input (some prev) now).role = some .job := by
  rw [mergeEnroll_role]
  cases hrole : input.role with
  | none => simpa using h
  | some role =>
      cases role
      rfl

theorem isRegistryEntry_job {e : RegistryEntry} (hrole : e.role = some .job) :
    isRegistryEntry e = true ↔ e.sessionClass ≠ some .human := by
  simp [isRegistryEntry, hrole]

section Step

variable {cap : Int} {file : RegistryFile}

/-- The state of a job that has not ended may be followed by `running`. -/
theorem running_follows {s : JobState} (h : ¬s.ended) :
    s = .running ∨ canTransitionJob s .running = true := by
  cases s with
  | pending => exact .inr rfl
  | running => exact .inl rfl
  | throttled => exact .inr rfl
  | done => exact absurd (.inl rfl) h
  | failed => exact absurd (.inr rfl) h

theorem moved_tryClaimSlot (input : EnrollInput) (now : JsString)
    (hfirst : JobsFirst file.entries) :
    Moved cap file.entries (ClaimsOpen cap file (.tryClaimSlot input now))
      (jobStep cap file (.tryClaimSlot input now)).entries := by
  by_cases hfree : slotFree file.entries input.id cap
  · let claim : EnrollInput := { input with jobState := some .running }
    let e := mergeEnroll claim (findEntry file.entries input.id) now
    cases hclass : assertEnrollmentClass claim with
    | error error =>
        have hthrow : tryClaimSlot input cap now file.entries = .error error := by
          simp only [tryClaimSlot, if_pos hfree, applyEnroll]
          rw [hclass]
          rfl
        rw [jobStep, fileAfter_error hthrow]
        exact .unchanged
    | ok _ =>
        have hok : tryClaimSlot input cap now file.entries =
            .ok ⟨putEntry e file.entries, some e, true⟩ := by
          simp only [tryClaimSlot, if_pos hfree, applyEnroll]
          rw [hclass]
          rfl
        rw [jobStep, entries_mutated hok (by simp)]
        refine .put e (fun _ => .inl hfree.2) fun hlegal hreadable s hs => ?_
        obtain ⟨prev, hprev, hrole, -⟩ := findEntry_of_jobState hfirst hs
        have hjob : e.role = some .job := by
          have h := mergeEnroll_job claim now hrole
          rwa [← show findEntry file.entries input.id = some prev from hprev] at h
        have hbackground : input.sessionClass = .background := by
          have h := (isRegistryEntry_job hjob).mp hreadable
          cases hcase : input.sessionClass with
          | human => exact absurd (congrArg some hcase) h
          | background => rfl
        rw [show e.state = .running from mergeEnroll_state _ _ _ rfl]
        exact running_follows (hlegal hfree hbackground s hs)
  · have hok : tryClaimSlot input cap now file.entries = .ok ⟨file.entries, none, false⟩ := by
      simp only [tryClaimSlot, if_neg hfree]
    rw [jobStep, entries_mutated hok (by simp), filter_entries]
    exact .unchanged

/-- A granted claim on the job of an ended row, for background work, is a run of it. -/
theorem revived {input : EnrollInput} {now : JsString} (hfirst : JobsFirst file.entries)
    (h : ¬ClaimsOpen cap file (.tryClaimSlot input now)) :
    ∃ s, s.ended ∧ jobState? file.entries input.id = some s ∧
      jobState? (jobStep cap file (.tryClaimSlot input now)).entries input.id =
        some .running := by
  simp only [ClaimsOpen, not_forall, not_not] at h
  obtain ⟨hfree, hbackground, s, hs, hended⟩ := h
  let claim : EnrollInput := { input with jobState := some .running }
  let e := mergeEnroll claim (findEntry file.entries input.id) now
  have hok : tryClaimSlot input cap now file.entries =
      .ok ⟨putEntry e file.entries, some e, true⟩ := by
    have hclass : assertEnrollmentClass claim = .ok () := by
      simp [assertEnrollmentClass, claim, hbackground]
    simp only [tryClaimSlot, if_pos hfree, applyEnroll]
    rw [hclass]
    rfl
  obtain ⟨prev, hprev, hrole, -⟩ := findEntry_of_jobState hfirst hs
  have hjob : e.role = some .job := by
    have h := mergeEnroll_job claim now hrole
    rwa [← show findEntry file.entries input.id = some prev from hprev] at h
  have hreadable : isRegistryEntry e = true := by
    rw [isRegistryEntry_job hjob, show e.sessionClass = some input.sessionClass from rfl,
      hbackground]
    simp
  refine ⟨s, hended, hs, ?_⟩
  rw [jobStep, entries_mutated hok (by simp),
    jobState?_eq_some ((hfirst.putEntry e).filter isRegistryEntry)]
  exact ⟨e, List.mem_filter.mpr ⟨mem_putEntry_self e _, hreadable⟩, rfl, hjob,
    mergeEnroll_state _ _ _ rfl⟩

theorem moved_advanceJob {id : JsString} {next : JobState} {now : JsString}
    (hfirst : JobsFirst file.entries) (hadmitted : Admitted file (.advanceJob id next now)) :
    Moved cap file.entries True (jobStep cap file (.advanceJob id next now)).entries := by
  have hkept (h : advanceJob id next now file.entries = ⟨file.entries, none, false⟩) :
      Moved cap file.entries True (jobStep cap file (.advanceJob id next now)).entries := by
    rw [jobStep, entries_mutated (congrArg Except.ok h) (by simp), filter_entries]
    exact .unchanged
  cases hfind : findEntry file.entries id with
  | none => exact hkept (by simp [advanceJob, hfind])
  | some entry =>
      by_cases hrole : entry.role = some .job
      · by_cases hnext : entry.state = next ∨ canTransitionJob entry.state next = true
        · have hid : entry.id = id := by simpa using List.find?_some hfind
          have hstate := jobState_of_findEntry hfirst hfind hrole
          have hok : advanceJob id next now file.entries =
              ⟨putEntry (advanced entry next now) file.entries,
                some (advanced entry next now), true⟩ := by
            have hlegal : ¬(entry.state ≠ next ∧ ¬canTransitionJob entry.state next = true) := by
              rintro ⟨hne, hno⟩
              exact hnext.elim hne hno
            simp only [advanceJob, hfind, hrole, ne_eq, not_true, if_false, if_neg hlegal]
          rw [jobStep, entries_mutated (congrArg Except.ok hok) (by simp)]
          refine .put (advanced entry next now) (fun hoccupies => .inr ?_) fun _ _ s hs => ?_
          · -- only a claim takes a slot, so the row holds one already
            have hslot : entry.occupies = true := by
              have hocc : occupiesSlot next = true := by
                simpa [RegistryEntry.occupies, advanced, hrole, RegistryEntry.state]
                  using hoccupies
              have hpending : next = .running → entry.state ≠ .pending :=
                fun hrunning hp => hadmitted hrunning (hp ▸ hstate)
              have hold : occupiesSlot entry.state = true := by
                revert hnext hocc hpending
                cases entry.state <;> cases next <;> decide
              simp [RegistryEntry.occupies, hrole, hold]
            simp [selfRunning, advanced, hid, hfind, hslot]
          · rw [show (advanced entry next now).id = id from hid, hstate] at hs
            have hs' : entry.state = s := Option.some.inj hs
            rw [← hs']
            exact hnext
        · have hillegal : entry.state ≠ next ∧ ¬canTransitionJob entry.state next = true :=
            not_or.mp hnext
          exact hkept (by simp only [advanceJob, hfind, hrole, ne_eq, not_true, if_false,
            if_pos hillegal])
      · exact hkept (by simp [advanceJob, hfind, hrole])

theorem moved_enroll {input : EnrollInput} {now : JsString}
    (hadmitted : Admitted file (.enroll input now)) :
    Moved cap file.entries True (jobStep cap file (.enroll input now)).entries := by
  obtain ⟨hrole, hpending, hnew⟩ := hadmitted
  let e := mergeEnroll input (findEntry file.entries input.id) now
  cases hclass : assertEnrollmentClass input with
  | error error =>
      have hthrow : enroll input now file.entries = .error error := by
        simp only [enroll, applyEnroll]
        rw [hclass]
        rfl
      rw [jobStep, fileAfter_error hthrow]
      exact .unchanged
  | ok _ =>
      have hok : enroll input now file.entries = .ok ⟨putEntry e file.entries, e, true⟩ := by
        simp only [enroll, applyEnroll]
        rw [hclass]
        rfl
      rw [jobStep, entries_mutated hok (by simp)]
      refine .put e (fun hoccupies => ?_) fun _ _ s hs => ?_
      · have hstate : e.state = .pending := mergeEnroll_state _ _ _ hpending
        simp [RegistryEntry.occupies, hstate, occupiesSlot] at hoccupies
      · rw [show e.id = input.id from rfl, hnew] at hs
        exact absurd hs (by simp)

theorem moved_prune (maxAgeHours : ℚ) (opts : LivenessOpts) (nowMs : Int) (now : JsString) :
    Moved cap file.entries True
      (jobStep cap file (.prune maxAgeHours opts nowMs now)).entries := by
  by_cases hall : (file.entries.filter (keptByPrune maxAgeHours opts nowMs)).length =
      file.entries.length
  · have hok : prune maxAgeHours opts nowMs file.entries = ⟨file.entries, 0, false⟩ := by
      simp only [prune, if_pos hall]
    rw [jobStep, entries_mutated (congrArg Except.ok hok) (by simp), filter_entries]
    exact .unchanged
  · have hok : prune maxAgeHours opts nowMs file.entries =
        ⟨file.entries.filter (keptByPrune maxAgeHours opts nowMs),
          file.entries.length -
            (file.entries.filter (keptByPrune maxAgeHours opts nowMs)).length, true⟩ := by
      simp only [prune, if_neg hall]
    rw [jobStep, entries_mutated (congrArg Except.ok hok) (by simp), List.filter_filter]
    exact .kept _

/-- What an operation of a run does. -/
theorem moved {act : JobAct} (hfirst : JobsFirst file.entries) (hadmitted : Admitted file act) :
    Moved cap file.entries (ClaimsOpen cap file act) (jobStep cap file act).entries := by
  cases act with
  | tryClaimSlot input now => exact moved_tryClaimSlot input now hfirst
  | advanceJob id next now => exact moved_advanceJob hfirst hadmitted
  | enroll input now => exact moved_enroll hadmitted
  | prune maxAgeHours opts nowMs now => exact moved_prune maxAgeHours opts nowMs now

end Step

/-! ## Runs -/

/-- What every state of a run meets. -/
def SlotsKept (cap : Int) (file : RegistryFile) : Prop :=
  JobsFirst file.entries ∧ (running file.entries : Int) ≤ max cap 0

theorem SlotsKept.step {cap : Int} {file : RegistryFile} {act : JobAct}
    (h : SlotsKept cap file) (hadmitted : Admitted file act) :
    SlotsKept cap (jobStep cap file act) :=
  ⟨(moved h.1 hadmitted).jobsFirst h.1, (moved h.1 hadmitted).running_le h.2⟩

theorem slotsKept_start {cap : Int} {file : RegistryFile}
    (h : ∀ e ∈ file.entries, e.role ≠ some .job) : SlotsKept cap file := by
  have hnone : running file.entries = 0 := by
    rw [running, List.length_eq_zero_iff, List.filter_eq_nil_iff]
    intro e he hoccupies
    have hrole : e.role = some .job := by
      simpa using (Bool.and_eq_true_iff.mp hoccupies).1
    exact h e he hrole
  constructor
  · exact List.pairwise_of_forall_mem_list fun _ _ e he _ => h e he
  · rw [hnone]
    exact le_max_right cap 0

theorem capKept_run {cap : Int} {file : RegistryFile} {acts : List JobAct}
    (h : SlotsKept cap file) (hacts : EachMeets (jobStep cap) Admitted file acts) :
    CapKept cap (filesOf cap file acts) := by
  induction acts generalizing file with
  | nil =>
      intro g hg
      rw [List.mem_singleton.mp hg]
      exact h.2
  | cons act acts ih =>
      intro g hg
      rcases List.mem_cons.mp hg with rfl | hg
      · exact h.2
      · exact ih (h.step hacts.1) hacts.2 g hg

theorem head_filesOf (cap : Int) (file : RegistryFile) (acts : List JobAct) :
    ∃ rest, filesOf cap file acts = file :: rest := by
  cases acts with
  | nil => exact ⟨[], rfl⟩
  | cons act acts => exact ⟨_, rfl⟩

/-- The path of a run, one operation longer. -/
theorem path_cons {cap : Int} {file : RegistryFile} {act : JobAct} {acts : List JobAct}
    {id : JsString} :
    ((filesOf cap file (act :: acts)).map fun g => jobState? g.entries id).IsChain Follows ↔
      Follows (jobState? file.entries id) (jobState? (jobStep cap file act).entries id) ∧
        ((filesOf cap (jobStep cap file act) acts).map fun g =>
          jobState? g.entries id).IsChain Follows := by
  obtain ⟨rest, hrest⟩ := head_filesOf cap (jobStep cap file act) acts
  simp [filesOf, hrest]

theorem path_run {cap : Int} {file : RegistryFile} {acts : List JobAct}
    (h : SlotsKept cap file) (hacts : EachMeets (jobStep cap) Admitted file acts) :
    (∀ id, ((filesOf cap file acts).map fun g => jobState? g.entries id).IsChain Follows) ↔
      EachMeets (jobStep cap) (ClaimsOpen cap) file acts := by
  induction acts generalizing file with
  | nil => simp [filesOf, EachMeets]
  | cons act acts ih =>
      have hrest := ih (h.step hacts.1) hacts.2
      simp only [path_cons, forall_and, EachMeets]
      rw [hrest]
      apply and_congr_left
      intro _
      constructor
      · intro hfollows
        by_contra hclosed
        cases act with
        | tryClaimSlot input now =>
            obtain ⟨s, hended, hold, hnew⟩ := revived h.1 hclosed
            have hnext := hfollows input.id
            rw [hold, hnew] at hnext
            rcases hended with rfl | rfl
            · simp [Follows, canTransitionJob, JobState.transitions] at hnext
            · simp [Follows, canTransitionJob, JobState.transitions] at hnext
        | advanceJob id next now => exact hclosed trivial
        | enroll input now => exact hclosed trivial
        | prune maxAgeHours opts nowMs now => exact hclosed trivial
      · exact fun hopen id => (moved h.1 hacts.1).follows h.1 hopen id

/-- On a path, the state of an ended job stays as long as its row does. -/
theorem ended_stays {states : List (Option JobState)} (hpath : states.IsChain Follows)
    {s : JobState} (hended : s.ended) (hsome : ∀ x ∈ states, x.isSome)
    (hhead : states.head? = some (some s)) : ∀ x ∈ states, x = some s := by
  induction states with
  | nil => simp
  | cons x states ih =>
      obtain rfl : x = some s := by simpa using hhead
      intro y hy
      rcases List.mem_cons.mp hy with rfl | hlater
      · rfl
      · cases states with
        | nil => simp at hlater
        | cons z states =>
            obtain ⟨hnext, htail⟩ := List.isChain_cons_cons.mp hpath
            obtain ⟨t, rfl⟩ := Option.isSome_iff_exists.mp (hsome z (by simp))
            have hst : t = s := by
              rcases hnext with h | h
              · exact h.symm
              · rcases hended with rfl | rfl
                · simp [canTransitionJob, JobState.transitions] at h
                · simp [canTransitionJob, JobState.transitions] at h
            subst hst
            exact ih htail (fun x hx => hsome x (List.mem_cons_of_mem _ hx)) rfl y hlater

theorem lifecycleKept_of_path {files : List RegistryFile}
    (h : ∀ id, (files.map fun file => jobState? file.entries id).IsChain Follows) :
    LifecycleKept files := by
  refine ⟨h, fun id s hended stretch hstretch hsome hhead file hfile => ?_⟩
  have hpath : (stretch.map fun g => jobState? g.entries id).IsChain Follows := by
    obtain ⟨before, after, hwhole⟩ := hstretch
    have hall := h id
    rw [← hwhole, List.map_append, List.map_append] at hall
    exact hall.left_of_append.right_of_append
  have hstays := ended_stays hpath hended
    (fun x hx => by
      obtain ⟨g, hg, rfl⟩ := List.mem_map.mp hx
      exact hsome g hg)
    (by rw [List.head?_map, hhead])
  exact hstays _ (List.mem_map_of_mem hfile)

/-- Any operations of any processes, one after the other under the lock, from a file without jobs:
the slots taken never exceed the cap, and the jobs keep to their lifecycle exactly when no claim
is granted a job that has ended. -/
theorem job_slots_and_lifecycle (cap : Int) (file : RegistryFile) (acts : List JobAct)
    (hstart : ∀ e ∈ file.entries, e.role ≠ some .job)
    (hacts : EachMeets (jobStep cap) Admitted file acts) :
    CapKept cap (filesOf cap file acts) ∧
      (LifecycleKept (filesOf cap file acts) ↔
        EachMeets (jobStep cap) (ClaimsOpen cap) file acts) := by
  have hslots : SlotsKept cap file := slotsKept_start hstart
  refine ⟨capKept_run hslots hacts, ?_⟩
  rw [← path_run hslots hacts]
  exact ⟨fun h => h.path, lifecycleKept_of_path⟩

/-- The job of `h2a delegate --name nightly`. -/
def nightlyJob : EnrollInput :=
  { id := js "nightly", tool := .codex, kind := .localNative, cwd := js "/w", source := .run,
    sessionClass := .background, role := some .job, jobState := some .pending }

/-- It is enrolled, claims the one slot, is throttled, and is resumed. -/
def resumedRun : List JobAct :=
  [.enroll nightlyJob (js "t1"), .tryClaimSlot nightlyJob (js "t2"),
    .advanceJob (js "nightly") .throttled (js "t3"), .tryClaimSlot nightlyJob (js "t4")]

theorem job_slots_and_lifecycle_resumed :
    CapKept 1 (filesOf 1 (.known [] none) resumedRun) ∧
      LifecycleKept (filesOf 1 (.known [] none) resumedRun) := by
  have h := job_slots_and_lifecycle 1 (.known [] none) resumedRun (by decide)
    ⟨by decide +kernel, trivial, by decide +kernel, trivial, trivial⟩
  exact ⟨h.1, h.2.mpr ⟨trivial, by decide +kernel, trivial, by decide +kernel, trivial⟩⟩

/-- It is enrolled, is cancelled before the claim, and claims the slot all the same. -/
def cancelledRun : List JobAct :=
  [.enroll nightlyJob (js "t1"), .advanceJob (js "nightly") .failed (js "t2"),
    .tryClaimSlot nightlyJob (js "t3")]

/-- The job that has failed runs. -/
theorem cancelled_job_runs :
    (∀ e ∈ (RegistryFile.known [] none).entries, e.role ≠ some .job) ∧
      EachMeets (jobStep 1) Admitted (.known [] none) cancelledRun ∧
      ¬LifecycleKept (filesOf 1 (.known [] none) cancelledRun) := by
  refine ⟨by decide, ⟨by decide +kernel, by decide +kernel, trivial, trivial⟩, fun h => ?_⟩
  have hpath := h.path (js "nightly")
  have hstates : (filesOf 1 (.known [] none) cancelledRun).map
      (fun file => jobState? file.entries (js "nightly")) =
        [none, some .pending, some .failed, some .running] := by decide +kernel
  rw [hstates] at hpath
  simp [Follows, canTransitionJob, JobState.transitions] at hpath

end H2a.Runtime
