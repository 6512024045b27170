import H2a.Library.JsMap
import H2a.Library.JsString
/-!
# Replay

The freshness window and the replay guard of `packages/h2a/src/replay.ts`.  The guard
"remembers accepted envelope ids until they fall out of the freshness window".  Times are
in milliseconds.
-/

namespace H2a.Protocol

open H2a.Library

/-- `maxAgeMs` and `maxSkewMs` -/
structure FreshnessWindow where
  maxAgeMs : Int
  maxSkewMs : Int

/-- `H2A_DEFAULT_MAX_AGE_MS` and `H2A_DEFAULT_MAX_SKEW_MS` -/
def defaultWindow : FreshnessWindow := ⟨300000, 60000⟩

inductive H2AReplayRejection where
  | invalidTimestamp
  | expired
  | future
  | replayed
  deriving DecidableEq

/-- `checkEnvelopeFreshness(envelope, options)`; `created` is `Date.parse(createdAt)`, and `none`
where that is not a number. -/
def checkEnvelopeFreshness (window : FreshnessWindow) (created : Option Int) (now : Int) :
    Except H2AReplayRejection Int :=
  match created with
  | none => .error .invalidTimestamp
  | some created =>
      if created > now + window.maxSkewMs then .error .future
      else if created < now - window.maxAgeMs then .error .expired
      else .ok created

/-- The ids that have been accepted, each with its `createdAt`. -/
abbrev ReplayGuard := JsMap JsString Int

namespace ReplayGuard

variable (window : FreshnessWindow)

/-- `prune(now)` -/
def prune (seen : ReplayGuard) (now : Int) : ReplayGuard :=
  seen.filterValues fun created => !decide (created < now - window.maxAgeMs)

/-- `accept(envelope, now)`: the guard after it, and why the envelope is rejected. -/
def accept (seen : ReplayGuard) (id : JsString) (created : Option Int) (now : Int) :
    Except H2AReplayRejection Unit × ReplayGuard :=
  match checkEnvelopeFreshness window created now with
  | .error reason => (.error reason, seen)
  | .ok created =>
      if (prune window seen now).has id then (.error .replayed, prune window seen now)
      else (.ok (), (prune window seen now).set id created)

variable {window}

/-- What is pruned now is pruned later. -/
theorem prune_prune (seen : ReplayGuard) {now later : Int} (h : now ≤ later) (id : JsString) :
    (prune window (prune window seen now) later).get id = (prune window seen later).get id := by
  simp only [prune, JsMap.get_filterValues]
  cases seen.get id with
  | none => rfl
  | some created =>
      by_cases hnow : created < now - window.maxAgeMs
      · have hlater : created < later - window.maxAgeMs := by omega
        simp [Option.filter, hnow, hlater]
      · simp [Option.filter, hnow]

theorem prune_set (seen : ReplayGuard) (later : Int) {id id' : JsString} (h : id' ≠ id)
    (created : Int) :
    (prune window (seen.set id created) later).get id' = (prune window seen later).get id' := by
  simp only [prune, JsMap.get_filterValues, JsMap.get_set_of_ne seen created h]

end ReplayGuard

end H2a.Protocol
