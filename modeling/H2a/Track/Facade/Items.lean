import H2a.Track.Facade.Program
/-!
# `Track`: items

The commands of `packages/track/src/track.ts` on items: creation, the hierarchy,
the containers, the spec and the realization.
-/

namespace H2a.Track

open H2a.Library H2a.Track.Model

/-- A `Track` instance: its options and what is active for the command it runs. -/
structure Facade where
  actor : ActorId
  prov : Option Provenance
  /-- whether a lease store is configured -/
  leases : Bool
  activeClientToken : Option JsString
  activeDedupe : Option DedupeHook
  activeRecheck : Option RecheckHook

namespace Facade

/-- `new Track(store)`. -/
def plain : Facade := ⟨js "system", none, false, none, none, none⟩

variable (facade : Facade)

/-- `withClientToken`, the instance its function runs on. -/
def withClientToken (token : Option JsString) (dedupe : Option DedupeHook) : Facade :=
  { facade with activeClientToken := token, activeDedupe := dedupe }

/-- The optional `clientToken` argument of a command. -/
def stamped (clientToken : Option JsString) : Facade :=
  match clientToken with
  | some token => facade.withClientToken (some token) none
  | none => facade

/-- `withDemandRecheck`. -/
def withDemandRecheck (recheck : RecheckHook) : Facade :=
  { facade with activeRecheck := some recheck }

/-- What `emitBatch` hands to the store. -/
def emission (parts : List EventPart) : Emission where
  parts := parts
  by_ := facade.actor
  prov := facade.prov
  clientToken := facade.activeClientToken
  dedupe := facade.activeDedupe
  recheck := facade.activeRecheck

def emitBatch (parts : List EventPart) : Prog (List Event) := Prog.append (facade.emission parts)

def emit (aggregate : Aggregate) (aggregateId : Ulid) (body : EventBody) : Prog (List Event) :=
  facade.emitBatch [⟨aggregate, aggregateId, body⟩]

/-- `persisted?.aggregateId ?? minted`. -/
def resultId (persisted : List Event) (minted : JsString) : JsString :=
  (persisted.head?.map (·.core.aggregateId)).getD minted

/-- The holder of the live lease on a subject. -/
def liveLeaseHolder (subject : LeaseSubject) : Prog (Option ActorId) :=
  if facade.leases then do
    let now ← Prog.now
    let lease ← Prog.lease subject now
    return lease.bind fun l => if l.abandoned then none else some l.holder
  else return none

/-- `handler ?? leaseHolder ?? prov.principal ?? actor`. -/
def resolveHandler (handler : Option ActorId) (subject : Option LeaseSubject) : Prog ActorId := do
  let leaseHolder ← match subject with
    | some subject => facade.liveLeaseHolder subject
    | none => pure none
  return ((handler.or leaseHolder).or (facade.prov.bind (·.principal))).getD facade.actor

/-! ## Creation -/

/-- `normalizeActor` with a message for blanks. -/
def normalizeActor (input : JsString) (onBlank : String) : Except String JsString :=
  if emptyString input.trim then .error onBlank else .ok input.trim

def normalizeActors (input : List JsString) (onBlank : String) : Except String (List JsString) := do
  let normalized ← input.mapM (normalizeActor · onBlank)
  if normalized.length = 0 then throw onBlank
  return normalized

/-- The nesting of a new item, if its parent is there. -/
def assertCreateNesting (s : State) (role : ItemRole) (parentId : ItemId) : Except String Unit :=
  match s.items.get parentId with
  | some parent => assertRoleNesting (some role) parent.role (js "<new>") parentId
  | none => .ok ()

def createItem (input : ItemCreatedPayload) : Prog ItemId := do
  Prog.ensure (input.kind ≠ .decision)
    "use createDecision for kind:\"decision\" (Lot 3) — it needs targets, a dossier, and an atomic blocker batch (SPEC §2.5)"
  match input.role, input.parentId with
  | some role, some parentId => do
      let s ← Prog.state
      Prog.check (assertCreateNesting s role parentId)
  | _, _ => pure ()
  let itemId ← Prog.newId
  let persisted ← facade.emit .item itemId (.itemCreated { input with
    accountable := input.accountable.map (·.trim)
    responsible := input.responsible.map (·.map (·.trim)) })
  return resultId persisted itemId

/-! ## The hierarchy -/

/-- How the walk up from a prospective parent ends. -/
inductive Walk where
  | clear
  | reached
  | endless
  deriving DecidableEq

/-- The parent of an item, if there is an item and it has one. -/
def parentOf (s : State) (itemId : ItemId) : Option ItemId :=
  (s.items.get itemId).bind (·.parentId)

/-- The ancestry walk of `reparentItem`, for so many steps. -/
def walkAncestors (s : State) (itemId : ItemId) : Nat → Option ItemId → Walk
  | _, none => .clear
  | 0, some _ => .endless
  | fuel + 1, some cursor =>
      if cursor = itemId then .reached else walkAncestors s itemId fuel (parentOf s cursor)

/-- A walk longer than there are items comes round again, for ever. -/
def ancestryWalk (s : State) (itemId : ItemId) (parentId : ItemId) : Walk :=
  walkAncestors s itemId (s.items.entries.length + 1) (some parentId)

/-- The cycle guard. -/
def guardCycle (s : State) (itemId parentId : ItemId) : Prog Unit :=
  match ancestryWalk s itemId parentId with
  | .clear => return ()
  | .reached => Prog.throwDomain
      s!"cannot reparent item {itemId} under its own descendant {parentId} (cycle)"
  | .endless => .diverge

def reparentItem (itemId : ItemId) (parentId : Option ItemId) : Prog Unit := do
  let s ← Prog.state
  let item ← Prog.require (s.items.get itemId) s!"unknown item {itemId}"
  match parentId with
  | none => pure ()
  | some parentId => do
      Prog.ensure (parentId ≠ itemId) s!"cannot reparent item {itemId} under itself"
      let parent ← Prog.require (s.items.get parentId) s!"unknown parent item {parentId}"
      Prog.ensure (parent.workspace = item.workspace)
        s!"cannot reparent across workspaces: item {itemId} is in \"{item.workspace}\", parent {parentId} is in \"{parent.workspace}\""
      Prog.check (assertRoleNesting item.role parent.role itemId parentId)
      guardCycle s itemId parentId
  let _ ← facade.emit .item itemId (.itemReparented parentId none none)

/-- The cross-workspace move: every guard of `reparentItem` but the workspace one. -/
def restructureReparent (itemId parentId : ItemId) (planHash : JsString)
    (restructureRef : Option JsString) : Prog Unit := do
  let s ← Prog.state
  let item ← Prog.require (s.items.get itemId) s!"unknown item {itemId}"
  Prog.ensure (parentId ≠ itemId) s!"cannot reparent item {itemId} under itself"
  let parent ← Prog.require (s.items.get parentId) s!"unknown parent item {parentId}"
  Prog.check (assertRoleNesting item.role parent.role itemId parentId)
  guardCycle s itemId parentId
  let _ ← facade.emit .item itemId (.itemReparented (some parentId) (some planHash) restructureRef)

/-! ## Containers -/

/-- Every child of the item nests under the role the item would have. -/
def assertChildrenNesting (itemId : ItemId) (dest : ItemRole) : List ItemState → Except String Unit
  | [] => .ok ()
  | child :: rest => do
      if child.parentId = some itemId then
        assertRoleNesting child.role (some dest) child.id itemId
      assertChildrenNesting itemId dest rest

/-- The item nests under its own parent with the role it would have. -/
def assertOwnNesting (s : State) (item : ItemState) (itemId : ItemId) (dest : ItemRole) :
    Except String Unit :=
  match item.parentId with
  | none => .ok ()
  | some parentId =>
      match s.items.get parentId with
      | some parent => assertRoleNesting (some dest) parent.role itemId parentId
      | none => .ok ()

def setRole (itemId : ItemId) (dest : ItemRole) (clientToken : Option JsString) : Prog Unit := do
  let s ← Prog.state
  let item ← Prog.require (s.items.get itemId) s!"unknown item {itemId}"
  Prog.ensure (dest = .workpackage ∨ dest = .stream)
    s!"cannot set role of item {itemId} to \"{dest.text}\": a role-change is bounded to a container target (workpackage or stream) (A2)"
  Prog.ensure (item.role = some .workpackage ∨ item.role = some .stream)
    s!"cannot set role of item {itemId}: only a workpackage or stream may change role (never a leaf or spec-phase) (A2)"
  Prog.check (assertOwnNesting s item itemId dest)
  Prog.check (assertChildrenNesting itemId dest s.items.values)
  let _ ← (facade.stamped clientToken).emit .item itemId (.itemRoleChanged dest)

/-- `assertCodeUnique`, the scan of the whole forest. -/
def assertCodeUnique (selfId : ItemId) (code : JsString) (s : State) : Except String Unit :=
  match s.items.values.find? fun other =>
      decide (other.id ≠ selfId) && decide (other.code = some code) && isRoleContainer other.role with
  | some other => .error
      s!"code \"{code}\" is already assigned to container {other.id} — codes are roster-global unique (DESIGN wp-codes A1)"
  | none => .ok ()

def assignCode (itemId : ItemId) (code : JsString) (clientToken : Option JsString) :
    Prog Unit := do
  let s ← Prog.state
  let item ← Prog.require (s.items.get itemId) s!"unknown item {itemId}"
  Prog.ensure (isRoleContainer item.role)
    s!"cannot assign a code to item {itemId}: a code is only assignable to a role-container (workpackage / spec-phase / stream) (DESIGN wp-codes A1 / A2)"
  Prog.ensure (¬emptyString code) "assignCode: code must be a non-empty string"
  Prog.check (assertCodeUnique itemId code s)
  let recheck : RecheckHook := fun _ existing => assertCodeUnique itemId code (fold existing)
  let _ ← ((facade.withDemandRecheck recheck).stamped clientToken).emit .item itemId
    (.itemCodeAssigned code)

def declareScope (itemId : ItemId) (scope : ScopeDecl) (clientToken : Option JsString) :
    Prog Unit := do
  let s ← Prog.state
  let item ← Prog.require (s.items.get itemId) s!"unknown item {itemId}"
  Prog.ensure (item.role = some .workpackage ∨ item.role = some .specPhase)
    s!"cannot declare scope on item {itemId}: scope is only declarable on a workpackage or spec-phase (Scope §B(a))"
  let validated ← Prog.check (assertScopeDecl scope)
  let _ ← (facade.stamped clientToken).emit .item itemId (.scopeDeclared validated)

/-! ## Assertions about an item -/

/-- `if (!this.state().items.has(itemId)) throw …`. -/
def knownItem (itemId : ItemId) : Prog Unit := do
  let s ← Prog.state
  Prog.ensure (s.items.has itemId = true) s!"unknown item {itemId}"

/-- `requireItem`. -/
def requireItem (itemId : ItemId) : Prog ItemState := do
  let s ← Prog.state
  Prog.require (s.items.get itemId) s!"unknown item {itemId}"

def setRaci (itemId : ItemId) (update : ItemRaciUpdate) (clientToken : Option JsString) :
    Prog Unit := do
  knownItem itemId
  let onBlank := "setRaci requires accountable and/or responsible"
  let accountable ← Prog.check (update.accountable.mapM (normalizeActor · onBlank))
  let responsible ← Prog.check (update.responsible.mapM (normalizeActors · onBlank))
  Prog.ensure (accountable ≠ none ∨ responsible ≠ none) onBlank
  let _ ← (facade.stamped clientToken).emit .item itemId
    (.itemRaciAssigned ⟨accountable, responsible⟩)

def setReportStatus (itemId : ItemId) (report : ItemReportStatus) : Prog Unit := do
  knownItem itemId
  Prog.check (assertItemReportStatus report)
  let _ ← facade.emit .item itemId (.itemReportUpdated report)

def addItemLink (itemId : ItemId) (link : Link) (clientToken : Option JsString) : Prog Unit := do
  knownItem itemId
  let validated ← Prog.check (assertItemLink link)
  let _ ← (facade.stamped clientToken).emit .item itemId (.itemLinkAdded validated)

def amendSpec (itemId : ItemId) (amend : SpecAmendPayload) (clientToken : Option JsString) :
    Prog Unit := do
  knownItem itemId
  let validated ← Prog.check (assertSpecAmend { amend with itemId })
  let _ ← (facade.stamped clientToken).emit .item itemId (.specAmended validated)

def setSpec (itemId : ItemId) (dest : SpecStatus) : Prog Unit := do
  let item ← requireItem itemId
  Prog.check (assertSpecTransition item dest)
  let _ ← facade.emit .item itemId (.specTransition dest)

def startSpec (itemId : ItemId) (handler leaseId attemptId : Option JsString) : Prog Unit := do
  knownItem itemId
  let handler ← facade.resolveHandler handler (some ⟨.item, itemId⟩)
  let _ ← facade.emit .item itemId (.specStarted itemId handler leaseId attemptId)

def abandonSpec (itemId : ItemId) (handler : Option ActorId) (reason : JsString)
    (leaseId : Option JsString) : Prog Unit := do
  knownItem itemId
  let handler ← facade.resolveHandler handler (some ⟨.item, itemId⟩)
  let _ ← facade.emit .item itemId (.specAbandoned itemId handler reason leaseId)

/-! ## Realization -/

def setRealization (itemId : ItemId) (dest : Realization) : Prog Unit := do
  let s ← Prog.state
  match s.items.get itemId with
  | some item =>
      Prog.check (assertRealizationTransition item.id item.realization dest false)
      let _ ← facade.emit .item itemId (.realizationTransition dest none)
  | none =>
      match s.decisions.get itemId with
      | some decision =>
          Prog.check (assertRealizationTransition decision.id decision.realization dest false)
          let _ ← facade.emit .decision itemId (.realizationTransition dest none)
      | none => Prog.throwDomain s!"unknown item {itemId}"

def reopenItem (itemId : ItemId) (reopening : Reopening) (clientToken : Option JsString) :
    Prog Unit := do
  let s ← Prog.state
  match s.items.get itemId with
  | none =>
      if s.decisions.has itemId then
        Prog.throwDomain s!"{itemId} is a decision — a decision is settled or deferred, it has no delivered capability to reopen"
      else Prog.throwDomain s!"unknown item {itemId}"
  | some item =>
      let validated ← Prog.check (assertReopenPayload reopening)
      let _ ← Prog.check (assertReopenTransition item.id item.realization)
      let _ ← (facade.stamped clientToken).emit .item itemId
        (.realizationReopened (some itemId) validated)

def anchorRealization (itemId : ItemId) (commit : JsString) (reason : Option AnchorReason)
    (clientToken : Option JsString) : Prog Unit := do
  knownItem itemId
  let _ ← (facade.stamped clientToken).emit .item itemId (.realizationAnchored itemId commit reason)

def assessPriority (itemId : ItemId) (inputs : WsjfInputs) : Prog PriorityAssessment := do
  knownItem itemId
  let score ← Prog.check (wsjfScore inputs)
  let now ← Prog.now
  let assessment := ⟨itemId, WSJF_SCHEME_VERSION, inputs, score, now⟩
  let _ ← facade.emit .item itemId (.priorityAssessed assessment)
  return assessment

end Facade

end H2a.Track
