import H2a.Track.Report.Buckets
/-!
# The work package forest

`packages/track/src/report/rollup.ts` and `status-by-level.ts`.  The traversals
recurse along `parentId`; `fuel` bounds the depth of their calls, and a result is
`none` when it does not suffice.  `compareIds` stands for `localeCompare`.
-/

namespace H2a.Track

open H2a.Library H2a.Track.Model

/-! ## Leaves -/

structure WpLeafBlocker where
  blockerId : BlockerId
  kind : BlockerKind
  ref : Option ItemId
  scope : Option BlockerScope
  resolutionRule : Option ResolutionRule
  engagementRef : Option JsString
  reason : JsString
  deriving DecidableEq

def BODY_EXCERPT_MAX : Nat := 200

/-- Runs of control characters and spaces become one space. -/
def collapseSpaces : Bool → List UInt16 → List UInt16
  | _, [] => []
  | prevSpace, u :: rest =>
      if u < 0x20 || u = 0x7F || u = 0x2028 || u = 0x2029 || u = 0x20 then
        if prevSpace then collapseSpaces true rest else 0x20 :: collapseSpaces true rest
      else u :: collapseSpaces false rest

/-- A one-line excerpt of a body, capped with an ellipsis. -/
def bodyExcerpt (body : Option JsString) : Option JsString :=
  body.bind fun body =>
    let trimmed := (JsString.mk (collapseSpaces false body.units)).trim
    if trimmed.length = 0 then none
    else if trimmed.length ≤ BODY_EXCERPT_MAX then some trimmed
    else some (⟨trimmed.units.take (BODY_EXCERPT_MAX - 1)⟩ ++ js "…")

structure WpLeaf where
  id : ItemId
  title : JsString
  bucket : Bucket
  kind : ItemKind
  workspace : JsString
  realization : Realization
  acceptance : AcceptanceStatus
  priority : Option JsNumber
  specStatus : Option SpecStatus
  accountable : Option ActorId
  openBlockers : List WpLeafBlocker
  engagementRef : Option JsString
  /-- present only when it is true -/
  awaitedOnDecision : Bool
  summary : Option JsString
  deriving DecidableEq

def projectBlocker (b : BlockerState) : WpLeafBlocker :=
  ⟨b.id, b.kind, b.ref, b.scope, b.resolutionRule, b.engagementRef, b.reason⟩

def buildWpLeaf (s : State) (item : ItemState) (config : ReportConfig) : WpLeaf :=
  let bucket := bucketOf s item config
  let open_ := effectiveOpenBlockersForItem s item.id config.baselineCommit
  { id := item.id
    title := item.title
    bucket := bucket
    kind := item.kind
    workspace := item.workspace
    realization := item.realization
    acceptance := acceptanceStatus s item.id config.baselineCommit
    priority := item.priority.map (·.score)
    specStatus := item.specStatus
    accountable := item.accountable
    openBlockers := open_.map projectBlocker
    engagementRef := item.engagementRef
    awaitedOnDecision := bucket = .awaited && open_.any fun b => b.kind = .decision
    summary := bodyExcerpt item.body }

/-! ## Counts -/

structure Tally where
  done : Nat
  active : Nat
  dropped : Nat
  deriving DecidableEq

namespace Tally

def zero : Tally := ⟨0, 0, 0⟩

def add (a b : Tally) : Tally := ⟨a.done + b.done, a.active + b.active, a.dropped + b.dropped⟩

/-- One more leaf. -/
def count (t : Tally) (leaf : WpLeaf) : Tally :=
  match leaf.bucket with
  | .done => { t with done := t.done + 1, active := t.active + 1 }
  | .toDo | .awaited => { t with active := t.active + 1 }
  | .dropped => { t with dropped := t.dropped + 1 }

/-- `active === 0 ? 'n/a' : Math.round((done / active) * 100)`. -/
def pct (t : Tally) : Option JsNumber :=
  if t.active = 0 then none
  else some (.ofFloat (Float.round (Float.ofNat t.done / Float.ofNat t.active * 100)))

end Tally

def tally (leaves : List WpLeaf) : Tally := leaves.foldl Tally.count .zero

/-! ## The forest -/

structure WpNode where
  id : ItemId
  title : JsString
  label : JsString
  code : Option JsString
  /-- present on a stream only -/
  role : Option ItemRole
  counts : Tally
  pct : Option JsNumber
  leaves : List WpLeaf
  children : List WpNode
  /-- present only when it is true -/
  terminal : Bool
  /-- present only when it is true, and only after a clip -/
  isPartial : Bool := false

section Forest

variable (compareIds : ItemId → ItemId → Ordering)

def sortById (items : List ItemState) : List ItemState :=
  items.mergeSort fun a b => (compareIds a.id b.id).isLE

variable (s : State)

/-- `childrenOf.get(key) ?? []`. -/
def childrenOf (key : Option ItemId) : List ItemState :=
  sortById compareIds (s.items.values.filter fun item => item.parentId = key)

def isWp (item : ItemState) : Bool := isRoleContainer item.role

variable (config : ReportConfig)

/-- The leaves below a node that lie under no other container. -/
def directLeaves : (fuel : Nat) → (parentId : ItemId) → Option (List WpLeaf)
  | 0, _ => none
  | fuel + 1, parentId => do
      let out ← (childrenOf compareIds s (some parentId)).mapM fun child =>
        if isWp child then some []
        else if (childrenOf compareIds s (some child.id)).length = 0 then
          some [buildWpLeaf s child config]
        else directLeaves fuel child.id
      return out.flatten

mutual

/-- The node of one container. -/
def build : (fuel : Nat) → (wp : ItemState) → (label : JsString) → Option WpNode
  | 0, _, _ => none
  | fuel + 1, wp, label => do
      let leaves ← directLeaves compareIds s config fuel wp.id
      let children ← collectSubWps fuel label wp.id []
      let counts := children.foldl (fun counts child => counts.add child.counts) (tally leaves)
      return {
        id := wp.id
        title := wp.title
        label := label
        code := wp.code
        role := if wp.role = some .stream then wp.role else none
        counts := counts
        pct := counts.pct
        leaves := leaves
        children := children
        terminal := wp.realization = .cancelled || wp.realization = .rejected }

/-- The nodes of the containers below `parentId`, through items that are none; as many
as there are `children` have their ordinal. -/
def collectSubWps : (fuel : Nat) → (label : JsString) → (parentId : ItemId) →
    (children : List WpNode) → Option (List WpNode)
  | 0, _, _, _ => none
  | fuel + 1, label, parentId, children =>
      (childrenOf compareIds s (some parentId)).foldlM (fun children child =>
        if isWp child then do
          let ordinal := js (toString (children.length + 1))
          let node ← build fuel child (child.code.getD (label ++ js "." ++ ordinal))
          return children ++ [node]
        else collectSubWps fuel label child.id children) children

end

/-- The containers whose parent is none. -/
def roots : List ItemState :=
  sortById compareIds <| s.items.values.filter fun item =>
    isWp item && !(item.parentId.any fun parentId => (s.items.get parentId).any isWp)

/-- `^<class>\d+$`: the ordinal a code claims. -/
def claimedOrdinal (class_ : JsString) (code : JsString) : Option Nat :=
  let digits := (code.slice class_.length).units
  if code.startsWith class_ && !digits.isEmpty && digits.all fun u => 0x30 ≤ u && u ≤ 0x39 then
    some (digits.foldl (fun n u => n * 10 + (u - 0x30).toNat) 0)
  else none

def claimed (class_ : JsString) : List Nat :=
  (s.items.values.filter isWp).filterMap fun item => item.code.bind (claimedOrdinal class_)

/-- `while (claimed.has(counter)) counter++`. -/
def skipClaimed (claimed : List Nat) : (fuel : Nat) → (counter : Nat) → Option Nat
  | 0, _ => none
  | fuel + 1, counter =>
      if counter ∈ claimed then skipClaimed claimed fuel (counter + 1) else some counter

/-- The labels of the roots in their order, from `wpCounter` and `streamCounter` on. -/
def rootLabels (fuel : Nat) : (wpCounter streamCounter : Nat) → List ItemState →
    Option (List JsString)
  | _, _, [] => some []
  | wpCounter, streamCounter, r :: rest =>
      match r.code, r.role with
      | some code, _ => do
          let labels ← rootLabels fuel wpCounter streamCounter rest
          return code :: labels
      | none, some .stream => do
          let n ← skipClaimed (claimed s (js "S")) fuel streamCounter
          let labels ← rootLabels fuel wpCounter (n + 1) rest
          return (js "S" ++ js (toString n)) :: labels
      | none, _ => do
          let n ← skipClaimed (claimed s (js "WP")) fuel wpCounter
          let labels ← rootLabels fuel (n + 1) streamCounter rest
          return (js "WP" ++ js (toString n)) :: labels

def computeWpTree (fuel : Nat) : Option (List WpNode) := do
  let roots := roots compareIds s
  let labels ← rootLabels s fuel 1 1 roots
  (roots.zip labels).mapM fun root => build compareIds s config fuel root.1 root.2

end Forest

/-! ## `statusByLevel` -/

inductive StatusLevel where
  | spec
  | plan
  | wp
  | lot
  | task
  deriving DecidableEq

structure StatusGroup where
  id : ItemId
  title : JsString
  label : JsString
  depth : Nat
  status : Bucket
  counts : Tally
  pct : Option JsNumber
  deriving DecidableEq

/-- The status of a group of leaves. -/
def rollupStatus (leaves : List WpLeaf) (emptyStatus : Bucket) : Bucket :=
  if leaves.length = 0 then emptyStatus
  else if leaves.any fun l => l.bucket = .awaited then .awaited
  else
    let active := leaves.filter fun l => l.bucket ≠ .dropped
    if active.length = 0 then .dropped
    else if active.all fun l => l.bucket = .done then .done
    else .toDo

section StatusByLevel

variable (compareIds : ItemId → ItemId → Ordering) (s : State) (config : ReportConfig)

/-- The leaves below a node, those under other containers too. -/
def transitiveLeaves : (fuel : Nat) → (parentId : ItemId) → Option (List WpLeaf)
  | 0, _ => none
  | fuel + 1, parentId => do
      let out ← (childrenOf compareIds s (some parentId)).mapM fun child =>
        if ¬isWp child ∧ (childrenOf compareIds s (some child.id)).length = 0 then
          some [buildWpLeaf s child config]
        else transitiveLeaves fuel child.id
      return out.flatten

def groupOf (fuel : Nat) (wp : ItemState) (label : JsString) (depth : Nat) :
    Option StatusGroup := do
  let leaves ← transitiveLeaves compareIds s config fuel wp.id
  let counts := tally leaves
  return ⟨wp.id, wp.title, label, depth, rollupStatus leaves (bucketOf s wp config), counts,
    counts.pct⟩

/-- The group of a single leaf. -/
def leafGroup (item : ItemState) (depth : Nat) : StatusGroup :=
  let leaf := buildWpLeaf s item config
  let counts := tally [leaf]
  ⟨item.id, item.title, item.id, depth, leaf.bucket, counts, counts.pct⟩

def walkLeaves : (fuel : Nat) → (parentId : Option ItemId) → (depth : Nat) →
    Option (List StatusGroup)
  | 0, _, _ => none
  | fuel + 1, parentId, depth => do
      let out ← (childrenOf compareIds s parentId).mapM fun child =>
        if isWp child then walkLeaves fuel (some child.id) (depth + 1)
        else if (childrenOf compareIds s (some child.id)).length = 0 then
          some [leafGroup s config child depth]
        else walkLeaves fuel (some child.id) depth
      return out.flatten

mutual

/-- The items of a tree, each with its label and depth. -/
def visit : (node : WpNode) → (depth : Nat) → List (ItemState × JsString × Nat)
  | { id, label, children, .. }, depth =>
      ((s.items.get id).map fun wp => (wp, label, depth)).toList ++ visitAll children (depth + 1)

def visitAll : (nodes : List WpNode) → (depth : Nat) → List (ItemState × JsString × Nat)
  | [], _ => []
  | node :: rest, depth => visit node depth ++ visitAll rest depth

end

/-- The tier of a level. -/
def StatusLevel.selects : StatusLevel → (depth : Nat) → Bool
  | .wp, _ => true
  | .spec, depth | .plan, depth => depth = 0
  | .lot, depth | .task, depth => 1 ≤ depth

def statusByLevel (level : StatusLevel) (fuel : Nat) : Option (List StatusGroup) :=
  if level = .task then walkLeaves compareIds s config fuel none 0
  else do
    let forest ← computeWpTree compareIds s config fuel
    let selected := (visitAll s forest 0).filter fun n => level.selects n.2.2
    selected.mapM fun n => groupOf compareIds s config fuel n.1 n.2.1 n.2.2

end StatusByLevel

end H2a.Track
