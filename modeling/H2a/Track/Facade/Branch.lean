import H2a.Track.Facade.Acceptance
/-!
# `Track`: the import of a branch file

`importBranch` of `packages/track/src/track.ts`, on the parsed file.  It is a
sequence of commands, each of which reads the log afresh.
-/

namespace H2a.Track.Facade

open H2a.Library H2a.Track.Model

variable (facade : Facade)

structure ParsedUat where
  uatSlug : JsString
  statement : JsString
  passed : Bool

structure ParsedLot where
  lotSlug : JsString
  title : JsString
  done : Bool
  uat : List ParsedUat

structure ParsedBranch where
  branchSlug : JsString
  featureTitle : JsString
  featureBody : JsString
  lots : List ParsedLot

/-- The parsed file, and what is derived from its text. -/
structure BranchImport where
  parsed : ParsedBranch
  locator : JsString
  commit : Option JsString
  sourceHash : JsString
  structureHash : JsString
  slugify : JsString → JsString

structure ImportResult where
  branchSlug : JsString
  featureId : ItemId
  created : Nat
  updated : Nat
  deriving DecidableEq

namespace BranchImport

variable (branch : BranchImport)

def link : Link := ⟨js "branch.md", branch.locator, none⟩

/-- The `item.created` payload of the feature and of a lot. -/
def itemPayload (kind : ItemKind) (title : JsString) (parentId : Option ItemId)
    (sourceKey : JsString) (body : Option JsString) : ItemCreatedPayload where
  kind := kind
  title := title
  workspace := branch.parsed.branchSlug
  parentId := parentId
  role := none
  scope := none
  sourceKey := sourceKey
  body := body
  links := some [branch.link]
  accountable := none
  responsible := none
  engagementRef := none
  demandId := none

def featurePayload : ItemCreatedPayload :=
  let parsed := branch.parsed
  branch.itemPayload .feature
    (if emptyString parsed.featureTitle then parsed.branchSlug else parsed.featureTitle) none
    parsed.branchSlug (if emptyString parsed.featureBody then none else some parsed.featureBody)

def lotKey (lot : ParsedLot) : JsString :=
  ⟨branch.parsed.branchSlug.units ++ (js "/").units ++ lot.lotSlug.units⟩

def lotPayload (featureId : ItemId) (lot : ParsedLot) : ItemCreatedPayload :=
  branch.itemPayload .chore lot.title (some featureId) (branch.lotKey lot) none

def evidenceLocator (uat : ParsedUat) : JsString :=
  ⟨branch.locator.units ++ (js "#").units ++ uat.uatSlug.units⟩

/-- The manual run of a checked box. -/
def manualRun : RunFields := ⟨branch.commit.getD (js "HEAD"), js "uat", js "manual", .pass⟩

end BranchImport

/-- `findBySourceKey`. -/
def findBySourceKey (sourceKey : JsString) : Prog (Option ItemState) := do
  let s ← Prog.state
  return s.items.values.find? fun item => item.sourceKey = some sourceKey

/-- The item of a source key, created if there is none; whether it was created. -/
def resolveItem (sourceKey : JsString) (payload : ItemCreatedPayload) : Prog (ItemId × Nat) := do
  let item ← findBySourceKey sourceKey
  match item with
  | some item => return (item.id, 0)
  | none => do
      let itemId ← facade.createItem payload
      return (itemId, 1)

/-- A checked lot is brought to `done`; the number of lots updated. -/
def realizeLot (lotId : ItemId) (lot : ParsedLot) : Prog Nat := do
  if lot.done then
    let s ← Prog.state
    let item ← Prog.require (s.items.get lotId)
      "Cannot read properties of undefined (reading 'realization')"
    match item.realization with
    | .toDo => do
        facade.setRealization lotId .inProgress
        facade.setRealization lotId .done
        return 1
    | .inProgress => do
        facade.setRealization lotId .done
        return 1
    | _ => return 0
  else return 0

/-- A checked box of a known criterion gets a passing run, if it has none. -/
def importKnownUat (branch : BranchImport) (criterionId : JsString) (uat : ParsedUat) :
    Prog (Nat × Nat) := do
  if uat.passed then
    let s ← Prog.state
    let evidence := s.evidence.values.find? fun e => e.criterionId = criterionId
    if (evidence.bind (·.latestRun)).map (·.result) = some .pass then return (0, 0)
    else
      let evidenceId ← match evidence with
        | some evidence => pure evidence.id
        | none => facade.linkEvidence criterionId .manual (branch.evidenceLocator uat) none
      facade.recordRun evidenceId branch.manualRun
      return (0, 1)
  else return (0, 0)

/-- A box becomes a criterion with one manual evidence. -/
def importNewUat (branch : BranchImport) (lotId : ItemId) (uat : ParsedUat) :
    Prog (Nat × Nat) := do
  let criterionId ← facade.addCriterion lotId uat.statement
  let evidenceId ← facade.linkEvidence criterionId .manual (branch.evidenceLocator uat) none
  if uat.passed then facade.recordRun evidenceId branch.manualRun
  return (1, 0)

/-- The criterion of a lot that reads as the box does. -/
def findUat (branch : BranchImport) (s : State) (lotId : ItemId) (uat : ParsedUat) :
    Option CriterionState :=
  s.criteria.values.find? fun c => c.itemId = lotId && branch.slugify c.statement = uat.uatSlug

/-- The boxes of a lot, with what has been created and updated so far. -/
def importUats (branch : BranchImport) (lotId : ItemId) :
    List ParsedUat → Nat × Nat → Prog (Nat × Nat)
  | [], counts => return counts
  | uat :: rest, counts => do
      let s ← Prog.state
      let n ← match findUat branch s lotId uat with
        | some existing => facade.importKnownUat branch existing.id uat
        | none => facade.importNewUat branch lotId uat
      importUats branch lotId rest (counts.1 + n.1, counts.2 + n.2)

def importLots (branch : BranchImport) (featureId : ItemId) :
    List ParsedLot → Nat × Nat → Prog (Nat × Nat)
  | [], counts => return counts
  | lot :: rest, counts => do
      let resolved ← facade.resolveItem (branch.lotKey lot) (branch.lotPayload featureId lot)
      let updated ← facade.realizeLot resolved.1 lot
      let counts ← facade.importUats branch resolved.1 lot.uat
        (counts.1 + resolved.2, counts.2 + updated)
      importLots branch featureId rest counts

def importBranch (branch : BranchImport) : Prog ImportResult := do
  let parsed := branch.parsed
  let feature ← facade.resolveItem parsed.branchSlug branch.featurePayload
  let featureId := feature.1
  let counts ← facade.importLots branch featureId parsed.lots (feature.2, 0)
  if 0 < counts.1 + counts.2 then
    let _ ← facade.emit .item featureId (.branchImported branch.locator parsed.branchSlug
      branch.sourceHash branch.structureHash)
  return ⟨parsed.branchSlug, featureId, counts.1, counts.2⟩

end H2a.Track.Facade
