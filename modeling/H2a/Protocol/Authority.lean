import H2a.LocalFiles.Registry
/-!
# The signing authority matrix

`packages/h2a/src/authority.ts`: the roles allowed to produce a binding signature on an
artifact of each kind.
-/

namespace H2a.Protocol

open H2a.Library H2a.LocalFiles

/-- `H2A_ARTIFACT_KINDS` -/
inductive H2AArtifactKind where
  | contract
  | policy
  | engagement
  | amendment
  | mandate
  | authority
  | signature
  | enforcementPlan
  deriving DecidableEq

/-- The text of a kind. -/
def H2AArtifactKind.text : H2AArtifactKind → JsString
  | .contract => js "CONTRACT"
  | .policy => js "POLICY"
  | .engagement => js "ENGAGEMENT"
  | .amendment => js "AMENDMENT"
  | .mandate => js "MANDATE"
  | .authority => js "AUTHORITY"
  | .signature => js "SIGNATURE"
  | .enforcementPlan => js "ENFORCEMENT_PLAN"

/-- The kind of a text, if it is one of the vocabulary. -/
def H2AArtifactKind.ofText (s : JsString) : Option H2AArtifactKind :=
  [.contract, .policy, .engagement, .amendment, .mandate, .authority, .signature,
    .enforcementPlan].find? fun kind => kind.text = s

/-- The text of a role. -/
def roleText : H2ARole → JsString
  | .principal => js "PRINCIPAL"
  | .executif => js "EXECUTIF"
  | .conductor => js "CONDUCTOR"
  | .agents => js "AGENTS"
  | .control => js "CONTROL"
  | .mandataire => js "MANDATAIRE"

/-- `H2A_AUTHORITY_MATRIX[kind].roles` -/
def authorityMatrix : H2AArtifactKind → List H2ARole
  | .contract => [.principal, .executif, .conductor]
  | .policy => [.principal, .executif, .control]
  | .engagement => [.principal, .executif, .conductor]
  | .amendment => [.principal, .executif, .conductor, .control]
  | .mandate => [.principal, .executif]
  | .authority => [.principal, .executif]
  | .signature => [.principal, .executif, .conductor, .agents, .control, .mandataire]
  | .enforcementPlan => [.principal, .executif, .control]

/-- `canSignArtifactKind(role, kind)` -/
def canSignArtifactKind (role : H2ARole) (kind : H2AArtifactKind) : Bool :=
  (authorityMatrix kind).contains role

theorem H2AArtifactKind.ofText_text (kind : H2AArtifactKind) : ofText kind.text = some kind := by
  cases kind <;> decide

end H2a.Protocol
