import H2a.Library.Checker
import H2a.Library.JsMap
import H2a.Track.Events.Types
import Mathlib.Data.List.Dedup
/-!
# `validate`

`packages/track/src/events/validate.ts`.  The definitions follow the source
loop by loop and return its findings.
-/

namespace H2a.Track.Events

open H2a.Library

/-- Why a batch is partial. -/
inductive PartialBatchReason where
  | inconsistentN
  | invalidN
  | count
  | invalidI
  | duplicateI (i : Int)
  | missing (positions : List Nat)
  deriving DecidableEq

/-- Why a reopening is illegal. -/
inductive ReopenIllegalReason where
  | missingItemId
  | foreignItemId
  | nothingToReopen (current : JsString)
  deriving DecidableEq

inductive IntegrityFinding (K : Type) where
  | contentHash (index : Nat) (eventId : K) (expected actual : Sha256)
  | prevHash (index : Nat) (eventId : K) (expected actual : Option Sha256)
  | aggregateSeq (index : Nat) (eventId aggregateId : K) (expected actual : Nat)
  | aggregateMismatch (index : Nat) (eventId aggregateId expected : K) (actual : Option K)
  | batchFrame (index : Nat) (eventId : K) (cmdId : Option K) (reason : String)
  | partialBatch (cmdId : K) (expected : Int) (actual : Nat) (reason : PartialBatchReason)
  | batchNoncontiguous (cmdId : K) (index : Nat)
  | truncation (expected actual : Nat)
  | headMismatch (index : Nat) (expected : Option Sha256) (actual : Sha256)
  | blockerScope (index : Nat) (eventId : K) (reason : String)
  | reopenMotive (index : Nat) (eventId : K) (reason : String)
  | reopenIllegal (index : Nat) (eventId : K) (reason : ReopenIllegalReason)
  deriving DecidableEq

/-- The `kind` member of a finding. -/
def IntegrityFinding.kind {K : Type} : IntegrityFinding K → String
  | .contentHash .. => "content-hash"
  | .prevHash .. => "prev-hash"
  | .aggregateSeq .. => "aggregate-seq"
  | .aggregateMismatch .. => "aggregate-mismatch"
  | .batchFrame .. => "batch-frame"
  | .partialBatch .. => "partial-batch"
  | .batchNoncontiguous .. => "batch-noncontiguous"
  | .truncation .. => "truncation"
  | .headMismatch .. => "head-mismatch"
  | .blockerScope .. => "blocker-scope"
  | .reopenMotive .. => "reopen-motive"
  | .reopenIllegal .. => "reopen-illegal"

structure IntegrityResult (K : Type) where
  ok : Bool
  findings : List (IntegrityFinding K)

variable {C K : Type} [EventCore C K] [DecidableEq K]

/-! ## The frame loop -/

/-- The locals of the main loop of `validate`. -/
structure FrameScan (K : Type) where
  prevHash : Option Sha256
  lastSeqByAggregate : JsMap K Nat
  aggregateKind : JsMap K K

def FrameScan.init : FrameScan K := ⟨none, .empty, .empty⟩

/-- The updates one iteration makes. -/
def FrameScan.next (s : FrameScan K) (e : TrackEvent C) : FrameScan K where
  prevHash := some e.contentHash
  lastSeqByAggregate := s.lastSeqByAggregate.set e.aggregateId e.seq
  aggregateKind :=
    match s.aggregateKind.get e.aggregateId, e.aggregate with
    | none, some kind => s.aggregateKind.set e.aggregateId kind
    | _, _ => s.aggregateKind

/-- One `aggregateId` keeps one `aggregate` type. -/
def kindFindings (s : FrameScan K) (index : Nat) (e : TrackEvent C) :
    List (IntegrityFinding K) :=
  match s.aggregateKind.get e.aggregateId with
  | none => []
  | some knownKind =>
      if some knownKind = e.aggregate then []
      else [.aggregateMismatch index e.id e.aggregateId knownKind e.aggregate]

/-- The findings one iteration pushes. -/
def frameFindings (contentHashOf : C → Sha256) (s : FrameScan K) (index : Nat)
    (e : TrackEvent C) : List (IntegrityFinding K) :=
  let expectedHash := contentHashOf e.stripFrame
  let expectedSeq := (s.lastSeqByAggregate.get e.aggregateId).getD 0 + 1
  (if e.contentHash = expectedHash then []
    else [IntegrityFinding.contentHash index e.id expectedHash e.contentHash]) ++
  (if e.prevHash = s.prevHash then []
    else [IntegrityFinding.prevHash index e.id s.prevHash e.prevHash]) ++
  (if e.seq = expectedSeq then []
    else [IntegrityFinding.aggregateSeq index e.id e.aggregateId expectedSeq e.seq]) ++
  kindFindings s index e ++
  (if e.cmdId.isSome && e.cmd.isNone then
    [IntegrityFinding.batchFrame index e.id e.cmdId "cmdId without cmd:\x7bi,n\x7d"] else []) ++
  (if e.cmd.isSome && e.cmdId.isNone then
    [IntegrityFinding.batchFrame index e.id none "cmd:\x7bi,n\x7d without cmdId"] else [])

def scanFrames (contentHashOf : C → Sha256) :
    FrameScan K → Nat → List (TrackEvent C) → List (IntegrityFinding K)
  | _, _, [] => []
  | s, index, e :: es =>
      frameFindings contentHashOf s index e ++ scanFrames contentHashOf (s.next e) (index + 1) es

/-! ## `validateBatches` -/

structure BatchMember where
  index : Nat
  i : Option CmdNumber
  n : Option CmdNumber

def BatchMember.ofCore (index : Nat) (c : C) : BatchMember :=
  ⟨index, (EventCore.cmd c).bind (·.i), (EventCore.cmd c).bind (·.n)⟩

/-- The `batches` map: the members of every `cmdId`, in stream order. -/
def collectBatches :
    Nat → List (TrackEvent C) → JsMap K (List BatchMember) → JsMap K (List BatchMember)
  | _, [], batches => batches
  | index, e :: es, batches =>
      collectBatches (index + 1) es <|
        match e.cmdId with
        | none => batches
        | some cmdId =>
            batches.set cmdId ((batches.get cmdId).getD [] ++ [BatchMember.ofCore index e.core])

/-- The loop over the positions of one batch: its findings, and the positions seen. -/
def positionFindings (cmdId : K) (n : Int) (count : Nat) :
    List Int → List BatchMember → List (IntegrityFinding K) × List Int
  | seen, [] => ([], seen)
  | seen, m :: ms =>
      match m.i with
      | some (.int p) =>
          if p < 0 ∨ n ≤ p then
            let rest := positionFindings cmdId n count seen ms
            (.partialBatch cmdId n count .invalidI :: rest.1, rest.2)
          else
            let rest := positionFindings cmdId n count (p :: seen) ms
            ((if p ∈ seen then [.partialBatch cmdId n count (.duplicateI p)] else []) ++ rest.1,
              rest.2)
      | _ =>
          let rest := positionFindings cmdId n count seen ms
          (.partialBatch cmdId n count .invalidI :: rest.1, rest.2)

/-- `max - min + 1 === members.length` over the members' stream indices. -/
def Contiguous (indices : List Nat) : Prop :=
  indices.max?.getD 0 - indices.min?.getD 0 + 1 = indices.length

instance (indices : List Nat) : Decidable (Contiguous indices) :=
  inferInstanceAs (Decidable (_ = _))

/-- The body of the loop over `batches`. -/
def batchFindings (cmdId : K) (members : List BatchMember) : List (IntegrityFinding K) :=
  match (members.filterMap (·.n)).dedup with
  | _ :: _ :: _ => [.partialBatch cmdId (-1) members.length .inconsistentN]
  | [.int n] =>
      if n ≤ 0 then [.partialBatch cmdId (-1) members.length .invalidN]
      else
        let positions := positionFindings cmdId n members.length [] members
        let missing := (List.range n.toNat).filter fun p => ((p : Nat) : Int) ∉ positions.2
        (if (members.length : Int) = n then [] else [.partialBatch cmdId n members.length .count]) ++
        (if Contiguous (members.map (·.index)) then []
          else [.batchNoncontiguous cmdId ((members.map (·.index)).min?.getD 0)]) ++
        positions.1 ++
        (if missing = [] then []
          else [.partialBatch cmdId n positions.2.dedup.length (.missing missing)])
  | _ => [.partialBatch cmdId (-1) members.length .invalidN]

def validateBatches (events : List (TrackEvent C)) : List (IntegrityFinding K) :=
  (collectBatches 0 events .empty).entries.flatMap fun b => batchFindings b.1 b.2

/-! ## `validateBlockerScope` -/

/-- The reason a `blocker.opened` payload is refused, if it is. -/
def blockerScopeReason (p : BlockerOpenedFields) : Option String :=
  if p.kind = some (js "decision") then
    if p.hasRef then none else some "decision blocker requires a ref"
  else if p.kind = some (js "dependency") then
    if p.scope = some (js "extra") then
      if p.hasRef then some "extra-scope dependency must not carry a local ref"
      else if (p.engagementRef.map (·.length)).getD 0 = 0 then
        some "extra-scope dependency requires a non-empty engagementRef"
      else if p.resolutionRule ≠ none ∧ p.resolutionRule ≠ some (some (js "manual")) then
        some "extra-scope dependency must resolve 'manual' (track cannot see h2a state)"
      else none
    else if p.hasRef then none
    else some "intra-scope dependency requires a ref"
  else none

def validateBlockerScope : Nat → List (TrackEvent C) → List (IntegrityFinding K)
  | _, [] => []
  | index, e :: es =>
      (((EventCore.blockerOpened e.core).bind blockerScopeReason).toList.map
        fun reason => .blockerScope index e.id reason) ++
      validateBlockerScope (index + 1) es

/-! ## `validateReopen` -/

def reopenMotivesAccepted : List JsString :=
  [js "closed-without-owner-uat", js "regression-observed"]

/-- The shape of a reopening payload: a declared motive and a non-blank reason. -/
def reopenShape (p : ReopenedFields) : Option String :=
  if p.motive.any (· ∈ reopenMotivesAccepted) = false then
    some "a reopening requires one of the declared motives (closed-without-owner-uat|regression-observed)"
  else if p.reason.any (fun r => r.trim.length ≠ 0) = false then
    some "a reopening requires a non-empty reason"
  else none

/-- The realizations a reopening corrects. -/
def isClosed (realization : JsString) : Prop :=
  realization = js "done" ∨ realization = js "cancelled"

instance (realization : JsString) : Decidable (isClosed realization) :=
  inferInstanceAs (Decidable (_ ∨ _))

/-- What the loop of `validateReopen` does to `realizationOf`. -/
def reopenNext (realizationOf : JsMap K JsString) (c : C) : JsMap K JsString :=
  match EventCore.lifecycle c with
  | .created => realizationOf.set (EventCore.aggregateId c) (js "to-do")
  | .transition (some dest) => realizationOf.set (EventCore.aggregateId c) dest
  | .transition none => realizationOf
  | .reopened p =>
      match p.itemId, realizationOf.get (EventCore.aggregateId c) with
      | .itself, some current =>
          if isClosed current then
            realizationOf.set (EventCore.aggregateId c) (js "in-progress")
          else realizationOf
      | _, _ => realizationOf
  | .other => realizationOf

/-- The address and legality checks, where `current` is the replayed realization. -/
def reopenLegality (p : ReopenedFields) (current : Option JsString) :
    Option ReopenIllegalReason :=
  match p.itemId, current with
  | .absent, _ => some .missingItemId
  | .foreign, _ => some .foreignItemId
  | .itself, none => none
  | .itself, some realization =>
      if isClosed realization then none else some (.nothingToReopen realization)

/-- The findings the loop of `validateReopen` pushes. -/
def reopenFindings (realizationOf : JsMap K JsString) (index : Nat) (e : TrackEvent C) :
    List (IntegrityFinding K) :=
  match EventCore.lifecycle e.core with
  | .reopened p =>
      ((reopenShape p).toList.map fun reason => .reopenMotive index e.id reason) ++
        (reopenLegality p (realizationOf.get e.aggregateId)).toList.map
          fun reason => .reopenIllegal index e.id reason
  | _ => []

def validateReopen : JsMap K JsString → Nat → List (TrackEvent C) → List (IntegrityFinding K)
  | _, _, [] => []
  | realizationOf, index, e :: es =>
      reopenFindings realizationOf index e ++
        validateReopen (reopenNext realizationOf e.core) (index + 1) es

/-! ## `validateHead` and `validate` -/

def validateHead (events : List (TrackEvent C)) : Option Head → List (IntegrityFinding K)
  | none => []
  | some head =>
      if events.length < head.streamLength then
        [.truncation head.streamLength events.length]
      else if head.streamLength = 0 then []
      else
        match events[head.streamLength - 1]? with
        | none => []
        | some anchor =>
            if some anchor.contentHash = head.lastContentHash then []
            else [.headMismatch (head.streamLength - 1) head.lastContentHash anchor.contentHash]

def validate (contentHashOf : C → Sha256) (events : List (TrackEvent C))
    (head : Option Head) : IntegrityResult K :=
  let findings :=
    scanFrames contentHashOf .init 0 events ++ validateBatches events ++
      validateBlockerScope 0 events ++ validateReopen .empty 0 events ++ validateHead events head
  ⟨findings.isEmpty, findings⟩

end H2a.Track.Events
