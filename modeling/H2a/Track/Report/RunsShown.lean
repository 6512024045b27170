import H2a.Track.Report.Traversals
/-!
# What the state shows of an ingested report

`ingestRuns` leaves out a result that the log has as the latest of its evidence,
commit, environment and runner.  The state shows the latest run of an evidence over
all of these, so that a result left out may not be the one shown.
-/

namespace H2a.Track

open H2a.Library H2a.Library.Program H2a.Library.Concurrent H2a.Track.Model
open H2a.Track.Facade (RunReportEntry RunKey logLatest reportResults)
open H2a.Track.Events (Sha256)

/-- The last result a report has for a locator. -/
def lastResult (entries : List RunReportEntry) (locator : JsString) : Option RunResult :=
  (entries.reverse.find? fun entry => entry.locator = locator).map (·.result)

/-- A report has `r` for an evidence of a criterion there is. -/
structure Matched (s : State) (entries : List RunReportEntry) (evidence : EvidenceState)
    (r : RunResult) : Prop where
  listed : s.evidence.get evidence.id = some evidence
  criterion : (s.criteria.get evidence.criterionId).isSome
  result : lastResult entries evidence.locator = some r

/-- The run shown is of this commit, environment and runner, and has this result. -/
def ShowsRun (commit env runner : JsString) (r : RunResult) (latestRun : Option TestRun) : Prop :=
  ∃ run, latestRun = some run ∧ run.commit = commit ∧ run.env = env ∧ run.runner = runner ∧
    run.result = r

/-! ## What a report asserts -/

section Asserted

variable {s : State} {entries : List RunReportEntry}

theorem lastResult_append (entries : List RunReportEntry) (entry : RunReportEntry)
    (locator : JsString) : lastResult (entries ++ [entry]) locator =
      if entry.locator = locator then some entry.result else lastResult entries locator := by
  simp only [lastResult, List.reverse_append, List.reverse_singleton, List.singleton_append,
    List.find?_cons]
  by_cases h : entry.locator = locator <;> simp [h]

/-- What is asserted of an evidence: the item of its criterion, and its last result. -/
def asserted (s : State) (entries : List RunReportEntry) (x : JsString) :
    Option (ItemId × RunResult) := do
  let evidence ← s.evidence.get x
  let criterion ← s.criteria.get evidence.criterionId
  let r ← lastResult entries evidence.locator
  return (criterion.itemId, r)

theorem asserted_some {x : JsString} {evidence : EvidenceState}
    (h : s.evidence.get x = some evidence) : asserted s entries x =
      (s.criteria.get evidence.criterionId).bind fun criterion =>
        (lastResult entries evidence.locator).map fun r => (criterion.itemId, r) := by
  rw [asserted, h]
  change (s.criteria.get evidence.criterionId).bind _ = _
  cases s.criteria.get evidence.criterionId with
  | none => rfl
  | some criterion => cases lastResult entries evidence.locator <;> rfl

/-- What one entry of a report makes of what the earlier ones assert of an evidence. -/
def assertedBy (s : State) (entry : RunReportEntry) (evidence : EvidenceState)
    (before : Option (ItemId × RunResult)) : Option (ItemId × RunResult) :=
  if evidence.locator = entry.locator then
    match s.criteria.get evidence.criterionId with
    | none => before
    | some criterion => some ((before.map Prod.fst).getD criterion.itemId, entry.result)
  else before

/-- The walk of one entry over the evidence. -/
theorem get_foldl_evidence (entry : RunReportEntry) (evidence : List EvidenceState)
    (hnodup : (evidence.map (·.id)).Nodup) (results : JsMap JsString (ItemId × RunResult))
    (x : JsString) :
    (evidence.foldl (fun results evidence =>
      if evidence.locator = entry.locator then
        match s.criteria.get evidence.criterionId with
        | none => results
        | some criterion =>
            let itemId := ((results.get evidence.id).map Prod.fst).getD criterion.itemId
            results.set evidence.id (itemId, entry.result)
      else results) results).get x =
        match evidence.find? (fun e => e.id = x) with
        | none => results.get x
        | some e => assertedBy s entry e (results.get x) := by
  induction evidence generalizing results with
  | nil => rfl
  | cons e rest ih =>
      rw [List.map_cons, List.nodup_cons] at hnodup
      obtain ⟨hnew, hrest⟩ := hnodup
      rw [List.foldl_cons, ih hrest, List.find?_cons]
      by_cases hx : e.id = x
      · have hnone : rest.find? (fun e => e.id = x) = none := by
          rw [List.find?_eq_none]
          intro e' he' heq
          exact hnew (List.mem_map.mpr ⟨e', he', by rw [hx]; simpa using heq⟩)
        subst hx
        simp only [hnone, decide_true, assertedBy]
        split
        · cases s.criteria.get e.criterionId with
          | none => rfl
          | some criterion => exact JsMap.get_set_self _ _ _
        · rfl
      · have hsame : (if e.locator = entry.locator then
            match s.criteria.get e.criterionId with
            | none => results
            | some criterion =>
                let itemId := ((results.get e.id).map Prod.fst).getD criterion.itemId
                results.set e.id (itemId, entry.result)
          else results).get x = results.get x := by
          split
          · cases s.criteria.get e.criterionId with
            | none => rfl
            | some criterion => exact JsMap.get_set_of_ne _ _ (Ne.symm hx)
          · rfl
        simp only [hx, decide_false]
        rw [hsame]

/-- The report asserts of each evidence the last result for its locator. -/
theorem reportResults_get (hkeyed : ∀ x evidence, s.evidence.get x = some evidence → evidence.id = x)
    (x : JsString) : (reportResults s entries).get x = asserted s entries x := by
  have hfind := s.evidence.find?_values hkeyed x
  induction entries using List.reverseRecOn with
  | nil =>
      cases hget : s.evidence.get x with
      | none => simp [reportResults, asserted, hget]
      | some e => simp [reportResults, asserted, hget, lastResult]
  | append_singleton entries entry ih =>
      have hwalk := get_foldl_evidence entry s.evidence.values (s.evidence.values_map_nodup hkeyed)
        (reportResults s entries) x (s := s)
      rw [hfind, ih] at hwalk
      have hstep : (reportResults s (entries ++ [entry])).get x = match s.evidence.get x with
          | none => asserted s entries x
          | some e => assertedBy s entry e (asserted s entries x) := by
        rw [reportResults, List.foldl_append, List.foldl_cons, List.foldl_nil]
        exact hwalk
      rw [hstep]
      cases hget : s.evidence.get x with
      | none => simp [asserted, hget]
      | some e =>
          rw [asserted_some hget, asserted_some hget, lastResult_append]
          simp only [assertedBy]
          cases hcriterion : s.criteria.get e.criterionId with
          | none => simp
          | some criterion =>
              by_cases hlocator : e.locator = entry.locator
              · cases lastResult entries e.locator <;> simp [hlocator]
              · simp [hlocator, Ne.symm hlocator]

theorem matched_iff (hkeyed : ∀ x evidence, s.evidence.get x = some evidence → evidence.id = x)
    {evidence : EvidenceState} {r : RunResult} (hlisted : s.evidence.get evidence.id = some evidence) :
    Matched s entries evidence r ↔
      ∃ itemId, (evidence.id, itemId, r) ∈ (reportResults s entries).entries := by
  simp only [JsMap.mem_entries_iff, reportResults_get hkeyed, asserted_some hlisted,
    Option.bind_eq_some_iff, Option.map_eq_some_iff, Prod.mk.injEq]
  refine ⟨fun ⟨_, hcriterion, hresult⟩ => ?_, fun h => ?_⟩
  · obtain ⟨criterion, hcriterion⟩ := Option.isSome_iff_exists.mp hcriterion
    exact ⟨criterion.itemId, criterion, hcriterion, r, hresult, rfl, rfl⟩
  · obtain ⟨itemId, criterion, hcriterion, r', hresult, -, rfl⟩ := h
    exact ⟨hlisted, by simp [hcriterion], hresult⟩

end Asserted

/-! ## What the runs written leave -/

section Written

variable {commit env runner : JsString} {e : Emission}

/-- A run of an evidence, as it is written. -/
def runPart (commit env runner : JsString) (entry : JsString × ItemId × RunResult) : EventPart :=
  ⟨.item, entry.2.1, .acceptanceRun entry.1 ⟨commit, env, runner, entry.2.2⟩⟩

theorem body_of_runPart {entry : JsString × ItemId × RunResult} {ev : Event}
    (h : PersistedAs e (runPart commit env runner entry) ev) :
    ev.core.body = .acceptanceRun entry.1 ⟨commit, env, runner, entry.2.2⟩ :=
  h.body_of rfl (by simp)

theorem logLatest_append (log events : List Event) : logLatest (log ++ events) =
    events.foldl (fun latest e =>
      match e.core.body with
      | .acceptanceRun evidenceId run =>
          latest.set (evidenceId, run.commit, run.env, run.runner) run.result
      | _ => latest) (logLatest log) := by
  rw [logLatest, List.foldl_append]
  rfl

/-- The latest results after a run is written. -/
theorem logLatest_concat {entry : JsString × ItemId × RunResult} {ev : Event}
    (h : PersistedAs e (runPart commit env runner entry) ev) (log : List Event) :
    logLatest (log ++ [ev]) =
      (logLatest log).set (entry.1, commit, env, runner) entry.2.2 := by
  rw [logLatest_append, List.foldl_cons, List.foldl_nil, body_of_runPart h]

/-- The evidence after a run is written. -/
theorem fold_concat_run {entry : JsString × ItemId × RunResult} {ev : Event}
    (h : PersistedAs e (runPart commit env runner entry) ev) (log : List Event) :
    (fold (log ++ [ev])).criteria = (fold log).criteria ∧
      ∃ latestRun : TestRun, latestRun.commit = commit ∧ latestRun.env = env ∧
        latestRun.runner = runner ∧ latestRun.result = entry.2.2 ∧
        (fold (log ++ [ev])).evidence = (fold log).evidence.modify entry.1 fun evidence =>
          { evidence with latestRun := some latestRun } := by
  have hbody := body_of_runPart h
  have happly : rawFold (log ++ [ev]) = { rawFold log with
      evidence := (rawFold log).evidence.modify entry.1 fun evidence => { evidence with
        latestRun := some ⟨entry.1, commit, env, runner, entry.2.2, ev.core.at_⟩ } } := by
    rw [rawFold_concat, applyEvent, hbody]
  rw [fold_criteria, fold_criteria, fold_evidence, fold_evidence, happly]
  exact ⟨rfl, _, rfl, rfl, rfl, rfl, rfl⟩

/-- What the runs written leave of an evidence: the latest result of the report's commit,
environment and runner, and the run shown. -/
structure LeftBy (commit env runner : JsString) (changed : List (JsString × ItemId × RunResult))
    (log log' : List Event) (x : JsString) : Prop where
  latest : ∀ itemId r, (x, itemId, r) ∈ changed →
    (logLatest log').get (x, commit, env, runner) = some r
  latestSame : x ∉ changed.map Prod.fst →
    (logLatest log').get (x, commit, env, runner) = (logLatest log).get (x, commit, env, runner)
  shown : ∀ evidence, (fold log).evidence.get x = some evidence → ∃ latestRun,
    (fold log').evidence.get x = some { evidence with latestRun := latestRun } ∧
      (∀ itemId r, (x, itemId, r) ∈ changed → ShowsRun commit env runner r latestRun) ∧
      (x ∉ changed.map Prod.fst → latestRun = evidence.latestRun)
  absent : (fold log).evidence.get x = none → (fold log').evidence.get x = none
  criteria : (fold log').criteria = (fold log).criteria

theorem leftBy_written {changed : List (JsString × ItemId × RunResult)} {events : List Event}
    (h : List.Forall₂ (PersistedAs e) (changed.map (runPart commit env runner)) events)
    (hnodup : (changed.map Prod.fst).Nodup) (log : List Event) (x : JsString) :
    LeftBy commit env runner changed log (log ++ events) x := by
  induction changed generalizing log events with
  | nil =>
      rw [List.map_nil, List.forall₂_nil_left_iff] at h
      rw [h, List.append_nil]
      exact ⟨by simp, fun _ => rfl, fun evidence hget => ⟨evidence.latestRun, hget, by simp,
        fun _ => rfl⟩, id, rfl⟩
  | cons entry rest ih =>
      obtain ⟨ev, tail, hev, htail, rfl⟩ := List.forall₂_cons_left_iff.mp h
      rw [List.map_cons, List.nodup_cons] at hnodup
      obtain ⟨hnew, hrest⟩ := hnodup
      have hleft := ih htail hrest (log ++ [ev])
      rw [List.append_assoc, List.singleton_append] at hleft
      have hlatest := logLatest_concat hev log
      obtain ⟨hcriteria, run, hcommit, henv, hrunner, hresult, hevidence⟩ := fold_concat_run hev log
      by_cases hx : x = entry.1
      · -- the run of the evidence itself: the rest of the batch leaves it as it is
        subst hx
        have hself : ∀ itemId r, (entry.1, itemId, r) ∈ entry :: rest → r = entry.2.2 := by
          intro itemId r hmem
          rcases List.mem_cons.mp hmem with heq | hmem
          · rw [← heq]
          · exact absurd (List.mem_map_of_mem hmem) hnew
        have hsame := hleft.latestSame hnew
        rw [hlatest, JsMap.get_set_self] at hsame
        refine ⟨fun itemId r hmem => ?_, fun hout => absurd List.mem_cons_self hout, ?_, ?_, ?_⟩
        · rw [hself itemId r hmem]
          exact hsame
        · intro evidence hget
          have hmodified : (fold (log ++ [ev])).evidence.get entry.1 =
              some { evidence with latestRun := some run } := by
            rw [hevidence, JsMap.get_modify, if_pos rfl, hget, Option.map_some]
          obtain ⟨latestRun, hshown, -, hkept⟩ := hleft.shown _ hmodified
          refine ⟨latestRun, hshown, fun itemId r hmem => ?_, fun hout =>
            absurd List.mem_cons_self hout⟩
          rw [hkept hnew, hself itemId r hmem]
          exact ⟨run, rfl, hcommit, henv, hrunner, hresult⟩
        · intro hget
          apply hleft.absent
          rw [hevidence, JsMap.get_modify, if_pos rfl, hget, Option.map_none]
        · rw [hleft.criteria, hcriteria]
      · have hget : (fold (log ++ [ev])).evidence.get x = (fold log).evidence.get x := by
          rw [hevidence, JsMap.get_modify, if_neg hx]
        have hmem : ∀ itemId r, (x, itemId, r) ∈ entry :: rest → (x, itemId, r) ∈ rest := by
          intro itemId r hmem
          rcases List.mem_cons.mp hmem with heq | hmem
          · exact absurd (congrArg Prod.fst heq) hx
          · exact hmem
        have hout : x ∉ (entry :: rest).map Prod.fst → x ∉ rest.map Prod.fst :=
          fun hout hmem => hout (List.mem_cons_of_mem _ hmem)
        refine ⟨fun itemId r h => hleft.latest itemId r (hmem itemId r h), fun h => ?_, ?_, ?_, ?_⟩
        · rw [hleft.latestSame (hout h), hlatest]
          exact JsMap.get_set_of_ne _ _ fun heq => hx (congrArg Prod.fst heq)
        · intro evidence hevidence
          obtain ⟨latestRun, hshown, hin, hkept⟩ := hleft.shown evidence (hget ▸ hevidence)
          exact ⟨latestRun, hshown, fun itemId r h => hin itemId r (hmem itemId r h),
            fun h => hkept (hout h)⟩
        · intro hnone
          exact hleft.absent (hget ▸ hnone)
        · rw [hleft.criteria, hcriteria]

end Written

/-! ## The report taken in -/

section Taken

variable {contentHashOf : EventData → Sha256} {facade : Facade} {entries : List RunReportEntry}
variable {commit env runner : JsString} {log : List Event} {w w' : FacadeWorld} {n : Nat}

/-- What a report changes of the latest results of a log. -/
def changedBy (entries : List RunReportEntry) (commit env runner : JsString) (log : List Event) :
    List (JsString × ItemId × RunResult) :=
  (reportResults (fold log) entries).entries.filter fun entry =>
    (logLatest log).get (entry.1, commit, env, runner) ≠ some entry.2.2

/-- `ingestRuns` on a world: nothing is changed, or the batch is handed to the store. -/
theorem run_ingestRuns (w : FacadeWorld) :
    (facade.ingestRuns entries commit env runner).run (perform contentHashOf) w =
      let parts := (changedBy entries commit env runner w.log).map (runPart commit env runner)
      if parts = [] then (.returned 0, w)
      else match perform contentHashOf w.log (facade.emission parts) (w.choices 0) with
        | (.ok _, log) => (.returned parts.length, w.write log)
        | (.error error, log) => (.thrown error, w.write log) := by
  change Program.run _ (if (changedBy entries commit env runner w.log).map
    (runPart commit env runner) = [] then _ else _) w = _
  dsimp only
  split
  · rfl
  · exact run_emitBatch

/-- What a run of `ingestRuns` that returned has left. -/
theorem written_of_run (hidle : facade.Idle)
    (h : (facade.ingestRuns entries commit env runner).run (perform contentHashOf) w =
      (.returned n, w')) :
    ∃ events, w'.log = w.log ++ events ∧
      List.Forall₂ (PersistedAs (facade.emission
        ((changedBy entries commit env runner w.log).map (runPart commit env runner))))
        ((changedBy entries commit env runner w.log).map (runPart commit env runner)) events := by
  rw [run_ingestRuns] at h
  dsimp only at h
  split at h
  · rename_i hnil
    obtain ⟨-, rfl⟩ := Prod.mk.inj h
    exact ⟨[], (List.append_nil _).symm, hnil ▸ .nil⟩
  · split at h
    · rename_i events log' hperform
      obtain ⟨-, rfl⟩ := Prod.mk.inj h
      exact ⟨events, written_of_perform hidle hperform⟩
    · simp at h

theorem mem_changedBy {x : JsString} {itemId : ItemId} {r : RunResult} :
    (x, itemId, r) ∈ changedBy entries commit env runner log ↔
      asserted (fold log) entries x = some (itemId, r) ∧
        (logLatest log).get (x, commit, env, runner) ≠ some r := by
  rw [changedBy, List.mem_filter, JsMap.mem_entries_iff,
    reportResults_get (keyed_fold log).evidence, decide_eq_true_iff]

theorem changedBy_nodup : ((changedBy entries commit env runner log).map Prod.fst).Nodup :=
  (reportResults (fold log) entries).nodup.sublist (List.filter_sublist.map Prod.fst)

/-- A result the log has as its latest is left out of the batch. -/
theorem not_mem_changedBy {x : JsString} {itemId : ItemId} {r : RunResult}
    (hasserted : asserted (fold log) entries x = some (itemId, r))
    (hlatest : (logLatest log).get (x, commit, env, runner) = some r) :
    x ∉ (changedBy entries commit env runner log).map Prod.fst := by
  intro hmem
  obtain ⟨⟨x, itemId', r'⟩, hchanged, rfl⟩ := List.mem_map.mp hmem
  obtain ⟨hasserted', hne⟩ := mem_changedBy.mp hchanged
  rw [hasserted, Option.some.injEq, Prod.mk.injEq] at hasserted'
  exact hne (hasserted'.2 ▸ hlatest)

/-- The report asserts of an evidence what it did before its runs were written. -/
theorem LeftBy.asserted {changed : List (JsString × ItemId × RunResult)} {log' : List Event}
    {x : JsString} (h : LeftBy commit env runner changed log log' x) :
    asserted (fold log') entries x = asserted (fold log) entries x := by
  cases hget : (fold log).evidence.get x with
  | none =>
      unfold Track.asserted
      rw [h.absent hget, hget]
      rfl
  | some evidence =>
      obtain ⟨latestRun, hshown, -⟩ := h.shown evidence hget
      rw [asserted_some hshown, asserted_some hget, h.criteria]

/-- The state shows the report, and to take it in again does nothing. -/
structure Ingested (contentHashOf : EventData → Sha256) (facade : Facade)
    (entries : List RunReportEntry) (commit env runner : JsString) (log : List Event) : Prop where
  shown : ∀ evidence r, Matched (fold log) entries evidence r →
    ShowsRun commit env runner r evidence.latestRun
  again : ∀ w : FacadeWorld, w.log = log →
    (facade.ingestRuns entries commit env runner).run (perform contentHashOf) w = (.returned 0, w)

/-- After a report is taken in, the state shows it exactly when each result of it that the
log had as the latest of its tuple was the run shown. -/
theorem runs_shown_iff (hidle : facade.Idle)
    (h : (facade.ingestRuns entries commit env runner).run (perform contentHashOf) w =
      (.returned n, w')) :
    Ingested contentHashOf facade entries commit env runner w'.log ↔
      ∀ evidence r, Matched (fold w.log) entries evidence r →
        (logLatest w.log).get (evidence.id, commit, env, runner) = some r →
          ShowsRun commit env runner r evidence.latestRun := by
  obtain ⟨events, hlog, hevents⟩ := written_of_run hidle h
  have hleft : ∀ x, LeftBy commit env runner (changedBy entries commit env runner w.log)
      w.log w'.log x := by
    intro x
    rw [hlog]
    exact leftBy_written hevents changedBy_nodup w.log x
  have hasserted : ∀ {evidence r}, Matched (fold w.log) entries evidence r →
      ∃ itemId, asserted (fold w.log) entries evidence.id = some (itemId, r) := by
    intro evidence r hmatched
    obtain ⟨itemId, hmem⟩ := (matched_iff (keyed_fold w.log).evidence hmatched.listed).mp hmatched
    rw [JsMap.mem_entries_iff, reportResults_get (keyed_fold w.log).evidence] at hmem
    exact ⟨itemId, hmem⟩
  refine ⟨fun hingested evidence r hmatched hlatest => ?_, fun hcondition => ⟨?_, ?_⟩⟩
  · -- the run left out leaves the evidence as it was
    obtain ⟨itemId, hreported⟩ := hasserted hmatched
    obtain ⟨latestRun, hget, -, hkept⟩ := (hleft evidence.id).shown evidence hmatched.listed
    have hsame := hkept (not_mem_changedBy hreported hlatest)
    have hshown := hingested.shown { evidence with latestRun := latestRun } r
      ⟨hget, by rw [(hleft evidence.id).criteria]; exact hmatched.criterion, hmatched.result⟩
    rwa [hsame] at hshown
  · intro evidence' r hmatched
    cases hget : (fold w.log).evidence.get evidence'.id with
    | none =>
        have hnone := (hleft evidence'.id).absent hget
        rw [hmatched.listed] at hnone
        simp at hnone
    | some evidence =>
        obtain ⟨latestRun, hget', hin, hkept⟩ := (hleft evidence'.id).shown evidence hget
        obtain rfl : evidence' = { evidence with latestRun := latestRun } :=
          Option.some.inj (hmatched.listed.symm.trans hget')
        have hbefore : Matched (fold w.log) entries evidence r :=
          ⟨hget, (hleft evidence.id).criteria ▸ hmatched.criterion, hmatched.result⟩
        obtain ⟨itemId, hreported⟩ := hasserted hbefore
        by_cases hlatest : (logLatest w.log).get (evidence.id, commit, env, runner) = some r
        · have hshown := hcondition evidence r hbefore hlatest
          rwa [← hkept (not_mem_changedBy hreported hlatest)] at hshown
        · exact hin itemId r (mem_changedBy.mpr ⟨hreported, hlatest⟩)
  · intro w₂ hw₂
    have hnone : changedBy entries commit env runner w₂.log = [] := by
      rw [List.eq_nil_iff_forall_not_mem]
      rintro ⟨x, itemId, r⟩ hmem
      obtain ⟨hreported, hne⟩ := mem_changedBy.mp hmem
      rw [hw₂] at hreported hne
      rw [(hleft x).asserted] at hreported
      by_cases hlatest : (logLatest w.log).get (x, commit, env, runner) = some r
      · apply hne
        rw [(hleft x).latestSame (not_mem_changedBy hreported hlatest), hlatest]
      · exact hne ((hleft x).latest itemId r (mem_changedBy.mpr ⟨hreported, hlatest⟩))
    rw [run_ingestRuns, hnone]
    rfl

/-- An item with a criterion and an evidence for it. -/
def evidenceLinked : Schedule Unit :=
  createOf () 0 (js "item") none ++
    [callOf () (.addCriterion (js "item") (js "it works")), .read (), .mint () (js "criterion"),
      .append () (.nth 1),
      callOf () (.linkEvidence (js "criterion") .unit (js "spec.ts") (some (js "evidence"))),
      .read (), .append () (.nth 2)]

/-- The tests failed in one environment, passed in another, and fail again in the first. -/
def passedElsewhere : Schedule Unit :=
  evidenceLinked ++
    [callOf () (.recordRun (js "evidence") ⟨js "commit", js "ci", js "vitest", .fail⟩), .read (),
      .append () (.nth 3),
      callOf () (.recordRun (js "evidence") ⟨js "commit", js "local", js "vitest", .pass⟩), .read (),
      .append () (.nth 4)]

/-- The report of a failure, taken in where the item was tested first. -/
def ingestFailure (log : List Event) : Outcome TrackError Nat × FacadeWorld :=
  (Facade.plain.ingestRuns [⟨js "spec.ts", .fail⟩] (js "commit") (js "ci") (js "vitest")).run
    (perform fun e => e.id) (worldOf log)

theorem runs_shown_freshEvidence :
    ∃ s : FacadeSys Unit, Reaches (FacadeStep (fun e => e.id) fun _ _ _ => True) Sys.initial s ∧
      ∃ w', ingestFailure s.log = (.returned 1, w') ∧
        Ingested (fun e => e.id) Facade.plain [⟨js "spec.ts", .fail⟩] (js "commit") (js "ci")
          (js "vitest") w'.log := by
  have hrun : outcome (fun _ _ _ => True) evidenceLinked (fun log =>
      ((ingestFailure log).1, (logLatest log).keys)) = some (.returned 1, []) := by
    decide +kernel
  obtain ⟨s, hreached, hs⟩ := reached_of_outcome hrun
  obtain ⟨hreturned, hkeys⟩ := Prod.mk.inj hs
  have hingest : ingestFailure s.log = (.returned 1, (ingestFailure s.log).2) :=
    Prod.ext hreturned rfl
  refine ⟨s, hreached, _, hingest, ?_⟩
  apply (runs_shown_iff ⟨rfl, rfl⟩ hingest).mpr
  intro evidence r _ hlatest
  have hmem := JsMap.mem_keys_of_get hlatest
  change _ ∈ (logLatest s.log).keys at hmem
  rw [hkeys] at hmem
  simp at hmem

/-- The failure is left out, and the run shown stays the one that passed. -/
theorem runs_shown_falseGreen :
    ∃ s : FacadeSys Unit, Reaches (FacadeStep (fun e => e.id) fun _ _ _ => True) Sys.initial s ∧
      ∃ w', ingestFailure s.log = (.returned 0, w') ∧
        ∃ evidence run, Matched (fold w'.log) [⟨js "spec.ts", .fail⟩] evidence .fail ∧
          evidence.latestRun = some run ∧ run.result = .pass := by
  have hrun : outcome (fun _ _ _ => True) passedElsewhere (fun log =>
      let after := fold (ingestFailure log).2.log
      ((ingestFailure log).1, after.evidence.values.map fun evidence =>
        ((asserted after [⟨js "spec.ts", .fail⟩] evidence.id).map Prod.snd,
          evidence.latestRun.map (·.result)))) =
      some (.returned 0, [(some .fail, some .pass)]) := by
    decide +kernel
  obtain ⟨s, hreached, hs⟩ := reached_of_outcome hrun
  obtain ⟨hreturned, hevidence⟩ := Prod.mk.inj hs
  obtain ⟨evidence, hvalue, hresults⟩ := List.mem_map.mp (hevidence ▸ List.mem_singleton_self _)
  obtain ⟨hreported, hshown⟩ := Prod.mk.inj hresults
  obtain ⟨⟨itemId, r⟩, hreported, rfl⟩ := Option.map_eq_some_iff.mp hreported
  obtain ⟨run, hlatestRun, hpass⟩ := Option.map_eq_some_iff.mp hshown
  have hlisted := (JsMap.mem_values_iff_get _ (keyed_fold _).evidence).mp hvalue
  refine ⟨s, hreached, _, Prod.ext hreturned rfl, evidence, run, ?_, hlatestRun, hpass⟩
  apply (matched_iff (keyed_fold _).evidence hlisted).mpr
  refine ⟨itemId, ?_⟩
  rw [JsMap.mem_entries_iff, reportResults_get (keyed_fold _).evidence]
  exact hreported

end Taken

end H2a.Track
