import H2a.Track.Model.Item
/-!
# Decisions

`packages/track/src/model/decision.ts`.
-/

namespace H2a.Track.Model

open H2a.Library

inductive Outcome where
  | pending
  | go
  | noGo
  | deferred
  deriving DecidableEq

def Outcome.text : Outcome → String
  | .pending => "pending"
  | .go => "go"
  | .noGo => "no-go"
  | .deferred => "deferred"

/-- An `Option` of a dossier. -/
structure DossierOption where
  id : JsString
  title : JsString
  summary : JsString
  pros : Option (List JsString)
  cons : Option (List JsString)
  deriving DecidableEq

structure QAEntry where
  id : JsString
  question : JsString
  answer : Option JsString
  deriving DecidableEq

structure Recommendation where
  optionId : JsString
  rationale : JsString
  deriving DecidableEq

structure ComprehensionEvidence where
  subject : JsString
  dossierHash : JsString
  h2aEventRef : Option JsString
  attestationHash : Option JsString
  at_ : Option JsString
  deriving DecidableEq

inductive DossierArtifact where
  | h2aDecisionDossier (negotiationRef dossierHash : JsString)
      (comprehension : Option (List ComprehensionEvidence)) (label : Option JsString)
  | renderedView (viewRef : JsString) (sourceDossierHash label : Option JsString)
  | mockup (viewRef : JsString) (label : Option JsString)
  deriving DecidableEq

structure Dossier where
  context : JsString
  options : List DossierOption
  qa : List QAEntry
  selectedOptionId : Option JsString
  recommendation : Option Recommendation
  artifacts : Option (List DossierArtifact)
  deriving DecidableEq

structure DecisionState where
  id : ItemId
  title : JsString
  workspace : JsString
  realization : Realization
  decisionKind : Gate
  targets : List ItemId
  outcome : Outcome
  dossier : Dossier
  parentId : Option ItemId
  sourceKey : Option JsString
  body : Option JsString
  links : Option (List Link)
  accountable : Option ActorId
  engagementRef : Option JsString

structure DecisionCreatedPayload where
  decisionKind : Gate
  title : JsString
  workspace : JsString
  targets : List ItemId
  dossier : Dossier
  parentId : Option ItemId
  sourceKey : Option JsString
  body : Option JsString
  links : Option (List Link)
  accountable : Option ActorId
  engagementRef : Option JsString
  deriving DecidableEq

/-- The options of a dossier, one after the other; `optionIds` are those seen. -/
def assertOptions : Nat → List JsString → List DossierOption → Except String (List JsString)
  | _, optionIds, [] => .ok optionIds
  | index, optionIds, o :: rest => do
      if emptyString o.id ∨ emptyString o.title ∨ emptyString o.summary then
        throw s!"decision dossier option[{index}] requires non-empty id, title, and summary"
      if o.id ∈ optionIds then throw s!"decision dossier option id \"{o.id}\" is duplicated"
      if o.pros.any (·.any emptyString) then
        throw s!"decision dossier option[{index}].pros must contain non-empty strings"
      if o.cons.any (·.any emptyString) then
        throw s!"decision dossier option[{index}].cons must contain non-empty strings"
      assertOptions (index + 1) (optionIds ++ [o.id]) rest

def assertQA : Nat → List QAEntry → Except String Unit
  | _, [] => .ok ()
  | index, entry :: rest => do
      if emptyString entry.id ∨ emptyString entry.question ∨ entry.answer.any emptyString then
        throw s!"decision dossier qa[{index}] requires non-empty id and question"
      assertQA (index + 1) rest

/-- `assertStructuredDossier`. -/
def assertStructuredDossier (dossier : Dossier) (allowSelectedOption : Bool) :
    Except String Unit := do
  if dossier.options.length < 2 then throw "decision dossier requires at least two options"
  let optionIds ← assertOptions 0 [] dossier.options
  assertQA 0 dossier.qa
  if dossier.recommendation.all fun r =>
      emptyString r.optionId || r.optionId ∉ optionIds || emptyString r.rationale then
    throw "decision dossier requires a recommendation for one declared option"
  match dossier.selectedOptionId with
  | none => pure ()
  | some selectedOptionId =>
      if ¬allowSelectedOption then
        throw "decision dossier selectedOptionId is set only by decision.option-selected"
      if emptyString selectedOptionId ∨ selectedOptionId ∉ optionIds then
        throw "decision dossier selectedOptionId must name a declared option"

def isStructuredDossier (dossier : Dossier) : Bool :=
  (assertStructuredDossier dossier true).isOk

def OUTCOME_TRANSITIONS : Outcome → List Outcome
  | .pending => [.go, .noGo, .deferred]
  | .deferred => [.go, .noGo]
  | .go => []
  | .noGo => []

def assertOutcomeTransition (current dest : Outcome) : Except String Unit :=
  if dest ∈ OUTCOME_TRANSITIONS current then .ok ()
  else .error s!"illegal outcome transition {current.text} -> {dest.text}"

def isSettled (outcome : Outcome) : Bool := outcome = .go || outcome = .noGo

def assertComprehensionEvidence : Nat → List ComprehensionEvidence → Except String Unit
  | _, [] => .ok ()
  | i, c :: rest => do
      if emptyString c.subject then
        throw s!"decision.add-artifact: comprehension[{i}].subject (the attester) is required"
      if emptyString c.dossierHash then
        throw s!"decision.add-artifact: comprehension[{i}].dossierHash is required (no-hash attests nothing)"
      assertComprehensionEvidence (i + 1) rest

def assertDossierArtifact (artifact : DossierArtifact) : Except String DossierArtifact := do
  match artifact with
  | .h2aDecisionDossier negotiationRef dossierHash comprehension _ =>
      if emptyString negotiationRef then
        throw "decision.add-artifact: an 'h2a-decision-dossier' requires a negotiationRef"
      if emptyString dossierHash then
        throw "decision.add-artifact: an 'h2a-decision-dossier' requires a dossierHash"
      match comprehension with
      | none => pure ()
      | some evidence => assertComprehensionEvidence 0 evidence
      return artifact
  | .renderedView viewRef _ _ =>
      if emptyString viewRef then
        throw "decision.add-artifact: a 'rendered-view' requires a viewRef"
      return artifact
  | .mockup viewRef _ =>
      if emptyString viewRef then throw "decision.add-artifact: a 'mockup' requires a viewRef"
      return artifact

/-- `sameOption`: what a settled decision may not change of its selected option. -/
def sameOption (left right : DossierOption) : Bool :=
  left.id = right.id && left.title = right.title && left.summary = right.summary &&
    left.pros = right.pros && left.cons = right.cons

end H2a.Track.Model
