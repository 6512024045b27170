import H2a.Track.State.Ids
/-!
# Snapshots

`serializeState` and `deserializeState` of `packages/track/src/state/snapshot.ts`.  A snapshot
holds the values of each collection and forgets its keys, all but those of the amendments; they
are read off the values again.
-/

namespace H2a.Track

open H2a.Library H2a.Track.Model

/-- `Partial<SerializedState>`: "an absent array defaults to empty". -/
structure SerializedState where
  items : Option (List ItemState)
  decisions : Option (List DecisionState)
  blockers : Option (List BlockerState)
  criteria : Option (List CriterionState)
  evidence : Option (List EvidenceState)
  verificationRuns : Option (List VerificationRun)
  specAmendments : Option (List (ItemId × List SpecAmendment))
  demands : Option (List DemandState)

/-- `serializeState`; a value is its own structured clone. -/
def serializeState (state : State) : SerializedState where
  items := some state.items.values
  decisions := some state.decisions.values
  blockers := some state.blockers.values
  criteria := some state.criteria.values
  evidence := some state.evidence.values
  verificationRuns := some state.verificationRuns.values
  specAmendments := some state.specAmendments.entries
  demands := some state.demands.values

/-- `deserializeState` -/
def deserializeState (serialized : SerializedState) : State where
  items := .ofEntries ((serialized.items.getD []).map fun i => (i.id, i))
  decisions := .ofEntries ((serialized.decisions.getD []).map fun d => (d.id, d))
  blockers := .ofEntries ((serialized.blockers.getD []).map fun b => (b.id, b))
  criteria := .ofEntries ((serialized.criteria.getD []).map fun c => (c.id, c))
  evidence := .ofEntries ((serialized.evidence.getD []).map fun e => (e.id, e))
  verificationRuns := .ofEntries ((serialized.verificationRuns.getD []).map fun v => (v.runId, v))
  specAmendments := .ofEntries (serialized.specAmendments.getD [])
  demands := .ofEntries ((serialized.demands.getD []).map fun d => (d.id, d))

theorem Keyed.deserializeState_serializeState {s : State} (h : Keyed s) :
    deserializeState (serializeState s) = s := by
  unfold deserializeState serializeState
  simp only [Option.getD_some]
  rw [s.items.ofEntries_values h.items, s.decisions.ofEntries_values h.decisions,
    s.blockers.ofEntries_values h.blockers, s.criteria.ofEntries_values h.criteria,
    s.evidence.ofEntries_values h.evidence,
    s.verificationRuns.ofEntries_values h.verificationRuns, s.specAmendments.ofEntries_entries,
    s.demands.ofEntries_values h.demands]

/-- A snapshot loses nothing: what is read back from it is the fold, in the same order, each
value under the key it says. -/
theorem snapshot_lossless (log : List Event) :
    deserializeState (serializeState (fold log)) = fold log ∧ Keyed (fold log) :=
  ⟨(keyed_fold log).deserializeState_serializeState, keyed_fold log⟩

end H2a.Track
