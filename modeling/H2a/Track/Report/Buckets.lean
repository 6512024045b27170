import H2a.Track.State.Fold
/-!
# Acceptance and buckets

`packages/track/src/accept/status.ts`, `report/blocker-status.ts` and
`report/buckets.ts`: the status of an item relative to a baseline commit, and the
bucket a report places it in.
-/

namespace H2a.Track

open H2a.Library H2a.Track.Model

inductive AcceptanceStatus where
  | notApplicable
  | unknown
  | pass
  | fail
  | stale
  | waived
  deriving DecidableEq

section Acceptance

variable (s : State)

def evidenceForCriterion (criterionId : JsString) : List EvidenceState :=
  s.evidence.values.filter fun e => e.criterionId = criterionId

/-- The cascade over the evidence of a criterion: a live `fail` overrides a waiver. -/
def criterionStatus (criterionId : JsString) (baselineCommit : JsString) : AcceptanceStatus :=
  let evidence := evidenceForCriterion s criterionId
  if evidence.any fun e => e.latestRun.any fun run => run.result = .fail then .fail
  else if ((s.criteria.get criterionId).bind (·.waiver)).isSome then .waived
  else if evidence.length = 0 then .unknown
  else if evidence.any fun e => e.latestRun.isNone then .unknown
  else if evidence.any fun e => e.latestRun.any fun run => run.commit ≠ baselineCommit then .stale
  else .pass

/-- The cascade over the criteria of an item. -/
def acceptanceStatus (itemId : ItemId) (baselineCommit : JsString) : AcceptanceStatus :=
  if s.decisions.has itemId then .notApplicable
  else
    let criteria := s.criteria.values.filter fun c => c.itemId = itemId
    if criteria.length = 0 then .unknown
    else
      let statuses := criteria.map fun c => criterionStatus s c.id baselineCommit
      if .fail ∈ statuses then .fail
      else if .unknown ∈ statuses then .unknown
      else if .stale ∈ statuses then .stale
      else if .waived ∈ statuses then .waived
      else .pass

end Acceptance

/-! ## Blockers at a baseline -/

section Blockers

variable (s : State)

/-- The prerequisite was reopened and has not been delivered again. -/
def regressed (ref : ItemState) : Bool :=
  0 < ((ref.reopenings.map (·.length)).getD 0) && ref.realization ≠ .done

/-- `linked-accepted` follows the acceptance of the prerequisite at the baseline;
every other rule is as the fold left it. -/
def effectiveBlockerOpen (blocker : BlockerState) (baselineCommit : JsString) : Bool :=
  if blocker.resolvedByEvent then false
  else
    match blocker.kind, blocker.resolutionRule, blocker.ref with
    | .dependency, some .linkedAccepted, some ref =>
        (s.items.get ref).any regressed || acceptanceStatus s ref baselineCommit ≠ .pass
    | _, _, _ => blocker.open_

def effectiveOpenBlockersForItem (itemId : ItemId) (baselineCommit : JsString) :
    List BlockerState :=
  s.blockers.values.filter fun b => b.targetId = itemId && effectiveBlockerOpen s b baselineCommit

end Blockers

/-! ## Buckets -/

inductive Bucket where
  | awaited
  | dropped
  | done
  | toDo
  deriving DecidableEq

structure ReportConfig where
  baselineCommit : JsString
  requireAccepted : Bool

/-- The first that applies: awaited, dropped, done (accepted if required), to do. -/
def bucketOf (s : State) (item : ItemState) (config : ReportConfig) : Bucket :=
  if (effectiveOpenBlockersForItem s item.id config.baselineCommit).length > 0 then .awaited
  else
    match item.realization with
    | .cancelled | .rejected => .dropped
    | .done =>
        if config.requireAccepted ∧
            acceptanceStatus s item.id config.baselineCommit ≠ .pass then .toDo
        else .done
    | .toDo | .inProgress => .toDo

end H2a.Track
