import H2a.Handover.Plans
import H2a.Handover.Revision
/-!
# The revision witnesses every change

A mutation that is not cut short changes no record, or brings a new revision.
-/

namespace H2a.Handover

open H2a.Library

variable {R V : Type} [DecidableEq R] [DecidableEq V]

/-! ## One write -/

namespace FileWrite

variable {directory : Directory V} {write : FileWrite V}

theorem publish_records (h : write.isRecord = false) :
    (write.publish directory).records = directory.records := by
  cases write <;> first | rfl | cases h

theorem publish_revision (h : write.isRecord = true ∨ ∃ hash snapshot,
    write = .publishCheckpoint hash snapshot) :
    (write.publish directory).revision = directory.revision := by
  cases write with
  | bump => simp [isRecord] at h
  | _ => rfl

end FileWrite

/-! ## The writes of a mutation -/

/-- Checkpoints may come first; where a record is written, the revision comes last. -/
def RevisionLast (writes : List (FileWrite V)) : Prop :=
  ∃ stored changed : List (FileWrite V), writes = stored ++ changed ∧
    (∀ write ∈ stored, ∃ hash snapshot, write = .publishCheckpoint hash snapshot) ∧
    (changed = [] ∨ ∃ first records, changed = first :: records ++ [FileWrite.bump] ∧
      ∀ write ∈ first :: records, write.isRecord = true)

omit [DecidableEq V] in
theorem revisionLast_nil : RevisionLast ([] : List (FileWrite V)) :=
  ⟨[], [], rfl, by simp, .inl rfl⟩

omit [DecidableEq V] in
theorem revisionLast_one {write : FileWrite V} (h : write.isRecord = true) :
    RevisionLast [write, .bump] :=
  ⟨[], [write, .bump], rfl, by simp, .inr ⟨write, [], rfl, by simpa using h⟩⟩

omit [DecidableEq V] in
theorem Planned.revisionLast {registry : Registry} {directory : Directory V}
    {digest : Checkpoint V → JsString} {mutation : Mutation V} {plan : Plan V}
    (h : Planned registry directory digest mutation plan) : RevisionLast plan.writes := by
  cases h with
  | unchanged => exact revisionLast_nil
  | claimed => exact revisionLast_one rfl
  | rebaselined => exact revisionLast_one rfl
  | amended => exact revisionLast_one rfl
  | checkpointed token snapshot old =>
      refine ⟨_, _, rfl, ?_, ?_⟩
      · intro write hwrite
        split at hwrite
        · exact ⟨_, _, List.mem_singleton.mp hwrite⟩
        · cases hwrite
      · split
        · exact .inr ⟨_, [], rfl, fun write hwrite => List.mem_singleton.mp hwrite ▸ rfl⟩
        · exact .inl rfl
  | begun => exact revisionLast_one rfl
  | finished operation result unknown old next published _ hpublished =>
      rcases hpublished with rfl | rfl
      · exact revisionLast_one rfl
      · refine ⟨[], _, rfl, by simp, .inr ⟨_, [_], rfl, ?_⟩⟩
        intro write hwrite
        simp only [List.mem_cons, List.not_mem_nil, or_false] at hwrite
        rcases hwrite with rfl | rfl <;> rfl
  | published => exact revisionLast_one rfl

/-- Writes that settle bring a new revision. -/
theorem perform_settles {records : List (FileWrite V)}
    (hrecords : ∀ write ∈ records, write.isRecord = true) {directory : Directory V}
    {faults : List Faults} (h : Settles directory faults (records ++ [FileWrite.bump])) :
    (performWrites directory faults (records ++ [FileWrite.bump])).1.revision =
        directory.revision + 1 ∧
      (performWrites directory faults (records ++ [FileWrite.bump])).2 ≠ some .other := by
  induction records generalizing directory faults with
  | nil =>
      obtain ⟨hpublishes, herror | ⟨-, herror⟩, -⟩ := h
      · rw [List.nil_append, performWrites_of_none herror]
        simp [performWrites, FileWrite.publish]
      · rw [List.nil_append, performWrites_of_error herror, if_pos hpublishes]
        simp [FileWrite.publish]
  | cons write records ih =>
      obtain ⟨-, herror | ⟨hlast, -⟩, hrest⟩ := h
      · have hrevision : (write.publish directory).revision = directory.revision :=
          FileWrite.publish_revision (.inl (hrecords write List.mem_cons_self))
        rw [List.cons_append, performWrites_of_none herror, ← hrevision]
        exact ih (fun w hw => hrecords w (List.mem_cons_of_mem _ hw)) hrest
      · exact absurd hlast (by simp)

/-- What a mutation that is not cut short leads to. -/
theorem perform_uncut {writes : List (FileWrite V)} (hshape : RevisionLast writes)
    {directory : Directory V} {faults : List Faults} (h : Uncut directory faults writes) :
    let result := performWrites directory faults writes
    (result.1.revision = directory.revision ∧ result.1.records = directory.records) ∨
      (result.1.revision = directory.revision + 1 ∧ result.2 ≠ some .other) := by
  obtain ⟨stored, changed, rfl, hstored, hchanged⟩ := hshape
  induction stored generalizing directory faults with
  | nil =>
      rcases hchanged with rfl | ⟨first, records, rfl, hrecords⟩
      · exact .inl ⟨rfl, rfl⟩
      · simp only [List.nil_append, List.cons_append, Uncut,
          if_pos (hrecords first List.mem_cons_self)] at h
        by_cases hpublishes : first.publishes (faults.headD .none) directory = true
        · exact .inr (perform_settles hrecords (h hpublishes))
        · left
          have herror := FileWrite.error_of_not_publishes hpublishes
          rw [List.nil_append, List.cons_append, performWrites_of_error herror,
            if_neg hpublishes]
          exact ⟨rfl, rfl⟩
  | cons write stored ih =>
      obtain ⟨hash, snapshot, rfl⟩ := hstored write List.mem_cons_self
      let write : FileWrite _ := .publishCheckpoint hash snapshot
      have hrecords : (write.publish directory).records = directory.records :=
        FileWrite.publish_records rfl
      have hrevision : (write.publish directory).revision = directory.revision :=
        FileWrite.publish_revision (.inr ⟨hash, snapshot, rfl⟩)
      cases herror : (FileWrite.publishCheckpoint hash snapshot).error (faults.headD .none)
        directory with
      | none =>
          rw [List.cons_append, performWrites_of_none herror, ← hrevision, ← hrecords]
          exact ih (h herror) fun w hw => hstored w (List.mem_cons_of_mem _ hw)
      | some error =>
          left
          rw [List.cons_append, performWrites_of_error herror]
          split
          · exact ⟨hrevision, hrecords⟩
          · exact ⟨rfl, rfl⟩

/-! ## Runs -/

namespace RevisionSystem

/-- What was read before is no later than the revision, and is what there is where it is the
same. -/
structure Inv (s : RevisionSystem R V) : Prop extends Witnessed s where
  current : ∀ a ∈ s.reads, a.revision < s.directory.revision ∨
    a.revision = s.directory.revision ∧ a.records = s.directory.records

omit [DecidableEq R] [DecidableEq V] in
theorem inv_start (registry : R → Registry) : Inv (start registry : RevisionSystem R V) where
  reads a ha := by cases ha
  drains a ha := by cases ha
  ends e he := by cases he
  current a ha := by cases ha

variable {digest : Checkpoint V → JsString} {s : RevisionSystem R V}

omit [DecidableEq V] in
theorem Inv.wrote (h : Inv s) (r : R) {directory : Directory V} {error : Option WriteError}
    (hchange : (directory.revision = s.directory.revision ∧
        directory.records = s.directory.records) ∨
      directory.revision = s.directory.revision + 1 ∧ error ≠ some .other) :
    Inv (s.wrote r directory error) where
  reads := h.reads
  drains := h.drains
  ends e he := by
    simp only [RevisionSystem.wrote, List.mem_append, List.mem_singleton] at he
    rcases he with hold | rfl
    · exact h.ends e hold
    · intro hthrew hmark
      rcases hchange with ⟨-, hrecords⟩ | ⟨-, hother⟩
      · exact hrecords.symm
      · cases error with
        | none => cases hthrew
        | some error =>
            cases error with
            | indeterminate => simp [mark] at hmark
            | other => exact absurd rfl hother
  current a ha := by
    rcases h.current a ha with hlt | ⟨heq, hrecords⟩
    · left
      show a.revision < directory.revision
      omega
    · rcases hchange with ⟨hrevision, hsame⟩ | ⟨hrevision, -⟩
      · exact .inr ⟨heq.trans hrevision.symm, hrecords.trans hsame.symm⟩
      · left
        show a.revision < directory.revision
        omega

theorem Inv.act (h : Inv s) {action : RevisionAction R V} (hok : s.Unbroken digest action) :
    Inv (s.act digest action) := by
  cases action with
  | mutate r mutation faults =>
      simp only [RevisionSystem.act]
      split
      · exact h.wrote r (.inl ⟨rfl, rfl⟩)
      case h_2 plan hplan =>
          exact h.wrote r (perform_uncut (Mutation.planned hplan).revisionLast (hok plan hplan))
  | revision r =>
      have hsame : ∀ a ∈ s.reads ++ [⟨r, (s.registry r).indeterminate, s.directory.revision,
          s.directory.records⟩], ∀ b ∈ s.reads ++ [⟨r, (s.registry r).indeterminate,
          s.directory.revision, s.directory.records⟩], a.SameRevision b →
            a.records = b.records := by
        intro a ha b hb hab
        rw [List.mem_append, List.mem_singleton] at ha hb
        have hrevision := hab.2.2.2
        rcases ha with ha | rfl
        · rcases hb with hb | rfl
          · exact h.reads a ha b hb hab
          · rcases h.current a ha with hlt | ⟨-, hrecords⟩
            · exact absurd hrevision (Nat.ne_of_lt hlt)
            · exact hrecords
        · rcases hb with hb | rfl
          · rcases h.current b hb with hlt | ⟨-, hrecords⟩
            · exact absurd hrevision.symm (Nat.ne_of_lt hlt)
            · exact hrecords.symm
          · rfl
      refine ⟨⟨hsame, ?_, h.ends⟩, ?_⟩
      · intro a ha b hb hab scope
        rw [hsame a ha b hb hab]
      · intro a ha
        rw [RevisionSystem.act, List.mem_append, List.mem_singleton] at ha
        rcases ha with ha | rfl
        · exact h.current a ha
        · exact .inr ⟨rfl, rfl⟩
  | reconcile r => exact ⟨⟨h.reads, h.drains, h.ends⟩, h.current⟩

/-- In every run whose mutations are not cut short between a record and the revision, the
revision witnesses every change. -/
theorem revision_witnesses (digest : Checkpoint V → JsString) (registry : R → Registry)
    {actions : List (RevisionAction R V)}
    (h : EachMeets (act digest) (Unbroken digest) (start registry) actions) :
    Throughout (act digest) Witnessed (start registry) actions :=
  throughout_of_eachMeets (I := Inv) (fun _ hinv => hinv.toWitnessed)
    (fun _ _ hinv hok => hinv.act hok) (inv_start registry) h

end RevisionSystem

/-! ## A revision that is not written -/

/-- A claim, an update of the presence whose writes have the given faults, and a read after
each. -/
def updateRun (faults : List Faults) : List (RevisionAction Unit Unit) :=
  [.mutate () (.claim ⟨js "a", js "s", js "i"⟩) [], .revision (),
    .mutate () (.updateIdentity plainToken (js "t") (js "i")) faults, .revision ()]

/-- The disk is full when the revision is written. -/
def fullDisk : List Faults := [.none, fun step => step = .writeTemp]

theorem revision_misses_change :
    ¬∀ (digest : Checkpoint Unit → JsString) (registry : Unit → Registry)
      (actions : List (RevisionAction Unit Unit)),
      Throughout (RevisionSystem.act digest) RevisionSystem.Witnessed
        (RevisionSystem.start registry) actions := by
  intro h
  have hlast := (h (fun _ => ⟨[]⟩) (fun _ => plainRegistry) (updateRun fullDisk)).last
  have hreads : ∀ a ∈ ((updateRun fullDisk).foldl (RevisionSystem.act fun _ => ⟨[]⟩)
        (RevisionSystem.start fun _ => plainRegistry)).reads,
      ∀ b ∈ ((updateRun fullDisk).foldl (RevisionSystem.act fun _ => ⟨[]⟩)
        (RevisionSystem.start fun _ => plainRegistry)).reads,
      a.indeterminate = false → b.indeterminate = false → a.revision = b.revision →
        a.records.1.get (js "a") = b.records.1.get (js "a") := by
    intro a ha b hb hmarkA hmarkB hrevision
    rw [hlast.reads a ha b hb ⟨rfl, hmarkA, hmarkB, hrevision⟩]
  exact absurd hreads (by decide +kernel)

theorem revision_witnesses_update :
    Throughout (RevisionSystem.act fun _ => ⟨[]⟩) RevisionSystem.Witnessed
      (RevisionSystem.start fun _ => plainRegistry) (updateRun []) := by
  apply RevisionSystem.revision_witnesses
  refine ⟨?_, trivial, ?_, trivial, trivial⟩
  · rintro plan ⟨⟩ -
    exact ⟨by decide +kernel, .inl (by decide +kernel), by decide +kernel,
      .inl (by decide +kernel), trivial⟩
  · rintro plan ⟨⟩ -
    exact ⟨by decide +kernel, .inl (by decide +kernel), by decide +kernel,
      .inl (by decide +kernel), trivial⟩

end H2a.Handover
