import H2a.Track.Facade.Alone
import H2a.Track.Facade.Hierarchy
import H2a.Track.Ingest.Restructure
/-!
# Applying a restructure plan

`packages/track/src/cli/restructure-apply.ts`: the checks of a plan, the dry run against
the graph the plan asks for, the edges applied one by one, and the gates after.
-/

namespace H2a.Track.Cli

open H2a.Library H2a.Track.Model
open H2a.Track.Events (Sha256 Head headOf)
open H2a.Track.Ingest (IngestContext RestructureEvent ingest)

/-- One move: `itemId` under `parentId`. -/
structure RestructureEdge where
  itemId : ItemId
  parentId : ItemId
  deriving DecidableEq

/-- The head of the log the plan was made for; `some none` is `null`. -/
structure PlanBaseline where
  streamLength : Option Int
  lastContentHash : Option (Option Sha256)

structure RestructurePlan where
  edges : List RestructureEdge
  planHash : Option Sha256
  baseline : Option PlanBaseline
  restructureRef : Option JsString

structure ApplyResult where
  planHash : Sha256
  edges : Nat
  applied : Nat
  alreadyApplied : Int

/-- `clientToken = f(planHash, itemId)`. -/
def tokenOf (planHash : Sha256) (e : RestructureEdge) : JsString :=
  planHash ++ js ":" ++ e.itemId

/-! ## Before any append -/

def assertPlanShape (plan : RestructurePlan) : Except String Unit :=
  if plan.edges.length = 0 then
    .error "restructure apply: the plan must carry at least one \x7bitemId,parentId\x7d edge"
  else if plan.edges.any fun e => e.itemId.length = 0 ∨ e.parentId.length = 0 then
    .error "restructure apply: each edge needs a non-empty itemId and parentId"
  else if ¬(plan.edges.map (·.itemId)).Nodup then
    .error "restructure apply: an item may appear as a child at most once in a plan"
  else .ok ()

/-- A hash the plan declares is its own. -/
def assertPlanHash (plan : RestructurePlan) (planHash : Sha256) : Except String Unit :=
  match plan.planHash with
  | some declared =>
      if declared ≠ planHash then
        .error s!"restructure apply: planHash mismatch — declared \"{declared}\" ≠ computed \"{planHash}\" (re-plan)"
      else .ok ()
  | none => .ok ()

/-- Every item of the plan is there. -/
def assertKnown (s : State) : List RestructureEdge → Except String Unit
  | [] => .ok ()
  | e :: rest => do
      if s.items.has e.itemId = false then
        throw s!"restructure apply: unknown item {e.itemId} (precondition)"
      if s.items.has e.parentId = false then
        throw s!"restructure apply: unknown parent {e.parentId} (precondition)"
      assertKnown s rest

/-- This plan's own tokens are all in the log. -/
def allApplied (before : List Event) (planHash : Sha256) (edges : List RestructureEdge) : Bool :=
  edges.all fun e => before.any fun ev =>
    match ev.core.body with
    | .itemReparented _ _ _ => ev.core.clientToken = some (tokenOf planHash e)
    | _ => false

/-- Unless it is applied already, the plan pins the head of the log. -/
def assertBaseline (before : List Event) (head : Option Head) (planHash : Sha256)
    (plan : RestructurePlan) : Except String Unit :=
  if allApplied before planHash plan.edges then .ok ()
  else
    match plan.baseline.bind (·.streamLength), plan.baseline.bind (·.lastContentHash) with
    | some streamLength, some lastContentHash =>
        if streamLength ≠ before.length ∨ lastContentHash ≠ head.bind (·.lastContentHash) then
          .error "restructure apply: baseline precondition failed — the store changed since the plan was computed (re-plan)"
        else .ok ()
    | _, _ => .error
        "restructure apply: a ratified plan must carry baseline \x7bstreamLength, lastContentHash\x7d (anti-TOCTOU precondition)"

/-- The parents there would be with all of the plan applied. -/
def prospectiveParent (s : State) (edges : List RestructureEdge) : JsMap ItemId (Option ItemId) :=
  edges.foldl (fun parents e => parents.set e.itemId (some e.parentId))
    (s.items.mapValues (·.parentId))

/-- The walk up the prospective graph meets the item; it breaks off where it has been
before, which it is after as many steps as there are parents. -/
def walkReaches (parents : JsMap ItemId (Option ItemId)) (itemId : ItemId) :
    Nat → List ItemId → Option ItemId → Bool
  | _, _, none => false
  | 0, _, some _ => false
  | fuel + 1, seen, some cur =>
      if cur = itemId then true
      else if cur ∈ seen then false
      else walkReaches parents itemId fuel (cur :: seen) (parents.get cur).join

/-- The dry run of the whole plan. -/
def dryRun (s : State) (parents : JsMap ItemId (Option ItemId)) :
    List RestructureEdge → Except String Unit
  | [] => .ok ()
  | e :: rest => do
      if e.itemId = e.parentId then
        throw s!"restructure apply: cannot parent {e.itemId} under itself"
      match s.items.get e.itemId, s.items.get e.parentId with
      | some item, some parent => assertRoleNesting item.role parent.role e.itemId e.parentId
      | _, _ => pure ()
      if walkReaches parents e.itemId (parents.entries.length + 2) [] (some e.parentId) then
        throw s!"restructure apply: edge {e.itemId}→{e.parentId} would create a cycle (prospective graph)"
      dryRun s parents rest

section Apply

variable (compareIds : ItemId → ItemId → Ordering) (computeHash : List RestructureEdge → Sha256)

/-- The content hash of the edge map, in the order of the children. -/
def computePlanHash (edges : List RestructureEdge) : Sha256 :=
  computeHash (edges.mergeSort fun a b => compareIds a.itemId b.itemId ≠ .gt)

/-- What comes before the first append. -/
def checkPlan (before : List Event) (head : Option Head) (plan : RestructurePlan) :
    Except String Sha256 := do
  assertPlanShape plan
  let planHash := computePlanHash compareIds computeHash plan.edges
  assertPlanHash plan planHash
  let s := fold before
  assertKnown s plan.edges
  assertBaseline before head planHash plan
  dryRun s (prospectiveParent s plan.edges) plan.edges
  return planHash

/-! ## The edges -/

/-- The edges by the workspace of their child. -/
def groupByWorkspace (s : State) (edges : List RestructureEdge) :
    JsMap JsString (List RestructureEdge) :=
  edges.foldl (fun groups e =>
    match s.items.get e.itemId with
    | some item => groups.set item.workspace ((groups.get item.workspace).getD [] ++ [e])
    | none => groups) .empty

/-- The event that moves one item. -/
def eventOf (planHash : Sha256) (restructureRef : Option JsString) (e : RestructureEdge) :
    RestructureEvent where
  itemId := e.itemId
  parentId := e.parentId
  planHash := planHash
  restructureRef := restructureRef
  clientToken := some (tokenOf planHash e)

/-- The channel of a workspace, with the grant. -/
def channelOf (by_ : Option ActorId) (workspace : JsString) : IngestContext where
  by_ := by_.getD (js "human:restructure-apply")
  workspace := workspace
  prov := ⟨.«import», false, .localUser, none, none⟩
  allowedKinds := some [.itemRestructure]

/-- The groups applied one after the other; how many events that took. -/
def applyGroups (by_ : Option ActorId) (planHash : Sha256) (restructureRef : Option JsString) :
    List (JsString × List RestructureEdge) → Prog Nat
  | [] => return 0
  | (workspace, group) :: rest => do
      let before ← Prog.readAll
      let _ ← ingest (group.map (eventOf planHash restructureRef)) (channelOf by_ workspace)
      let after ← Prog.readAll
      let applied ← applyGroups by_ planHash restructureRef rest
      return after.length - before.length + applied

/-! ## After the appends -/

/-- What a template literal shows of an optional id. -/
def orUndefined (id : Option JsString) : String := id.elim "undefined" toString

/-- The folded parent of each child is the planned one. -/
def intentionGate (s : State) : List RestructureEdge → Except String Unit
  | [] => .ok ()
  | e :: rest => do
      let parentId := (s.items.get e.itemId).bind (·.parentId)
      if parentId ≠ some e.parentId then
        throw s!"restructure apply: intention gate failed for {e.itemId} (folded parent {orUndefined parentId} ≠ target {e.parentId})"
      intentionGate s rest

/-- Each event with a token of the plan is on the child the token names, once, with the
planned target and the hash of the plan. -/
def closureOf (edges : List RestructureEdge) (planHash : Sha256) :
    List ItemId → List Event → Except String Unit
  | _, [] => .ok ()
  | seenChild, ev :: rest => do
      let child := ev.core.aggregateId
      if ev.core.clientToken ≠ some (planHash ++ js ":" ++ child) then
        throw s!"restructure apply: closure gate failed — token {orUndefined ev.core.clientToken} is not on its own aggregate {child} (swap)"
      match edges.find? fun e => e.itemId = child with
      | none => throw s!"restructure apply: closure gate failed — out-of-plan reparent of {child}"
      | some target =>
          if child ∈ seenChild then
            throw s!"restructure apply: closure gate failed — duplicate reparent of {child}"
          match ev.core.body with
          | .itemReparented parentId recorded _ =>
              if parentId ≠ some target.parentId then
                throw s!"restructure apply: closure gate failed — {child} → {orUndefined parentId} ≠ target {target.parentId}"
              if recorded ≠ some planHash then
                throw s!"restructure apply: closure gate failed — {child} planHash {orUndefined recorded} ≠ {planHash}"
          | _ => pure ()
      closureOf edges planHash (child :: seenChild) rest

def assertTokenClosure (after : List Event) (edges : List RestructureEdge) (planHash : Sha256) :
    Except String Unit := do
  let tokened := after.filter fun ev =>
    match ev.core.body with
    | .itemReparented _ _ _ => edges.any fun e => ev.core.clientToken = some (tokenOf planHash e)
    | _ => false
  if tokened.length ≠ edges.length then
    throw s!"restructure apply: closure gate failed — {tokened.length} tokened reparent(s) ≠ {edges.length} plan edge(s)"
  closureOf edges planHash [] tokened

/-- The topmost workpackage on the way up from an item. -/
def wpRootId (s : State) : Nat → List ItemId → Option ItemId → Option ItemId → Option ItemId
  | _, _, highest, none => highest
  | 0, _, highest, some _ => highest
  | fuel + 1, seen, highest, some cursor =>
      if cursor ∈ seen then highest
      else match s.items.get cursor with
        | none => highest
        | some item =>
            let highest := if item.role = some .workpackage then some cursor else highest
            wpRootId s fuel (cursor :: seen) highest item.parentId

/-- The `orphan` findings of `auditFindings`: the open leaves with no workpackage above
them, in the workspaces that have one. -/
def orphans (s : State) : List ItemId :=
  let items := s.items.values
  let workspacesWithWp := (items.filter (·.role = some .workpackage)).map (·.workspace)
  (items.filter fun i => i.role = none ∧ (i.realization = .toDo ∨ i.realization = .inProgress) ∧
    i.workspace ∈ workspacesWithWp ∧
      wpRootId s (s.items.entries.length + 1) [] none (some i.id) = none).map (·.id)

def orphanGate (s : State) (edges : List RestructureEdge) : Except String Unit :=
  let outOfPlan := (orphans s).filter fun x => x ∉ edges.map (·.itemId)
  if 0 < outOfPlan.length then
    .error s!"restructure apply: orphan gate failed — {outOfPlan.length} out-of-plan orphan(s) remain (the plan is incomplete)"
  else .ok ()

/-- The gates after the appends. -/
def postApplyGates (planHash : Sha256) (edges : List RestructureEdge) : Prog Unit := do
  let after ← Prog.readAll
  let s := fold after
  Prog.check (intentionGate s edges)
  Prog.check (assertTokenClosure after edges planHash)
  Prog.check (orphanGate s edges)

/-! ## The command -/

/-- `readHead`, of a log with its anchor. -/
def readHead : Prog (Option Head) := do
  let log ← Prog.readAll
  return (storeOf log).head

/-- All that comes before the gates. -/
def applyEdges (plan : RestructurePlan) (by_ : Option ActorId) : Prog (Sha256 × Nat) := do
  let before ← Prog.readAll
  let head ← readHead
  let planHash ← Prog.check (checkPlan compareIds computeHash before head plan)
  let groups := groupByWorkspace (fold before) plan.edges
  let applied ← applyGroups by_ planHash plan.restructureRef groups.entries
  return (planHash, applied)

def applyRestructurePlan (plan : RestructurePlan) (by_ : Option ActorId) : Prog ApplyResult := do
  let applied ← applyEdges compareIds computeHash plan by_
  postApplyGates applied.1 plan.edges
  return ⟨applied.1, plan.edges.length, applied.2, plan.edges.length - applied.2⟩

end Apply

end H2a.Track.Cli
