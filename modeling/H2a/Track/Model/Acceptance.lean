import H2a.Track.Model.Item
/-!
# Acceptance, verification, blockers and spec amendments

`packages/track/src/model/acceptance.ts`, `verification.ts`, `blocker.ts` and
`spec-amend.ts`.
-/

namespace H2a.Track.Model

open H2a.Library

/-! ## Acceptance -/

inductive EvidenceKind where
  | unit
  | integration
  | e2e
  | manual
  deriving DecidableEq

inductive RunResult where
  | pass
  | fail
  deriving DecidableEq

structure TestRun where
  evidenceId : JsString
  commit : JsString
  env : JsString
  runner : JsString
  result : RunResult
  at_ : JsString

structure Waiver where
  criterionId : JsString
  reason : JsString
  by_ : ActorId
  at_ : JsString

structure CriterionState where
  id : JsString
  itemId : ItemId
  statement : JsString
  waiver : Option Waiver

structure EvidenceState where
  id : JsString
  criterionId : JsString
  kind : EvidenceKind
  locator : JsString
  latestRun : Option TestRun
  /-- the delivery that originated the evidence; kept in memory only -/
  originClientToken : Option JsString

/-- What `acceptance.run` records. -/
structure RunFields where
  commit : JsString
  env : JsString
  runner : JsString
  result : RunResult
  deriving DecidableEq

/-! ## Verification -/

inductive Verdict where
  | clean
  | violation
  | conditional
  deriving DecidableEq

structure VerificationRecordedPayload where
  runId : JsString
  runner : JsString
  commit : JsString
  verdict : Verdict
  env : Option JsString
  wpRef : Option ItemId
  violations : Option (List JsString)
  artifactLocator : Option JsString
  deriving DecidableEq

/-- A recorded run: what was recorded, and when. -/
structure VerificationRun extends VerificationRecordedPayload where
  at_ : JsString

def assertVerificationRun (run : VerificationRecordedPayload) :
    Except String VerificationRecordedPayload := do
  if emptyString run.runId then throw "scope.verification: requires a runId"
  if emptyString run.runner then throw "scope.verification: requires a runner"
  if emptyString run.commit then throw "scope.verification: requires a commit"
  if run.wpRef.any emptyString then
    throw "scope.verification: wpRef must be a non-empty item id"
  if run.artifactLocator.any emptyString then
    throw "scope.verification: artifactLocator must be a non-empty string"
  return run

/-! ## Blockers -/

inductive BlockerKind where
  | decision
  | dependency
  deriving DecidableEq

inductive ResolutionRule where
  | linkedDone
  | linkedAccepted
  | manual
  deriving DecidableEq

def ResolutionRule.text : ResolutionRule → String
  | .linkedDone => "linked-done"
  | .linkedAccepted => "linked-accepted"
  | .manual => "manual"

inductive BlockerScope where
  | intra
  | extra
  deriving DecidableEq

structure BlockerState where
  id : BlockerId
  targetId : ItemId
  kind : BlockerKind
  ref : Option ItemId
  reason : JsString
  resolutionRule : Option ResolutionRule
  owner : Option ActorId
  scope : Option BlockerScope
  engagementRef : Option JsString
  openedAt : JsString
  resolvedAt : Option JsString
  resolvedByEvent : Bool
  /-- computed by the fold -/
  open_ : Bool

structure BlockerOpenedPayload where
  blockerId : BlockerId
  targetId : ItemId
  kind : BlockerKind
  ref : Option ItemId
  reason : JsString
  resolutionRule : Option ResolutionRule
  owner : Option ActorId
  scope : Option BlockerScope
  engagementRef : Option JsString
  deriving DecidableEq

def assertManualResolve (blocker : BlockerState) : Except String Unit := do
  if blocker.kind = .decision then
    throw s!"cannot manually resolve a decision blocker ({blocker.id}); it resolves on the decision outcome"
  if blocker.resolutionRule ≠ some .manual then
    throw s!"cannot manually resolve a '{(blocker.resolutionRule.getD .linkedDone).text}' dependency blocker ({blocker.id})"

/-! ## Spec amendments -/

/-- One operation of a JSON patch, recorded verbatim: `rest` is the text of the
members track does not look at. -/
structure JsonPatchOp where
  op : JsString
  path : JsString
  rest : JsString
  deriving DecidableEq

structure SpecAmendPayload where
  itemId : ItemId
  baseHash : JsString
  patch : List JsonPatchOp
  resultHash : JsString
  decisionId : Option ItemId
  liveDocRef : Option JsString
  proposalRef : Option JsString
  summary : Option JsString
  deriving DecidableEq

/-- A recorded amendment: what was recorded, and when. -/
structure SpecAmendment extends SpecAmendPayload where
  at_ : JsString

def assertPatch : Nat → List JsonPatchOp → Except String Unit
  | _, [] => .ok ()
  | i, o :: rest =>
      if emptyString o.op then .error s!"item.spec-amend: patch[{i}].op is required"
      else assertPatch (i + 1) rest

def assertSpecAmend (amend : SpecAmendPayload) : Except String SpecAmendPayload := do
  if emptyString amend.itemId then throw "item.spec-amend: requires an itemId"
  if emptyString amend.baseHash then throw "item.spec-amend: requires a baseHash"
  if emptyString amend.resultHash then throw "item.spec-amend: requires a resultHash"
  assertPatch 0 amend.patch
  return amend

end H2a.Track.Model
