import H2a.LocalFiles.Paths
import H2a.Library.Json
/-!
# Addresses

`slugify` of `packages/h2a/src/identity.ts`, `canonicalAddress` of
`packages/h2a/src/runtime/local-files/paths.ts` and the aliases of
`packages/h2a/src/runtime/identity/migration.ts`: the directories an inbox is kept in.
`toLowerCase` is that of the language, on whole strings.
-/

namespace H2a.LocalFiles

open H2a.Library

section Source

variable (toLowerCase : JsString → JsString)

/-! ## Canonical addresses -/

/-- `[a-z0-9._-]` -/
def isSlugUnit (u : UInt16) : Bool :=
  (0x61 ≤ u && u ≤ 0x7A) || (0x30 ≤ u && u ≤ 0x39) || u == 0x2E || u == 0x5F || u == 0x2D

/-- Each run of other characters becomes `-`; `inRun` is whether one has begun. -/
def collapseRuns (inRun : Bool) : List UInt16 → List UInt16
  | [] => []
  | u :: us =>
      if isSlugUnit u then u :: collapseRuns false us
      else if inRun then collapseRuns true us
      else 0x2D :: collapseRuns true us

/-- `.replace(/^-+|-+$/g, "")` -/
def trimDashes (us : List UInt16) : List UInt16 :=
  ((us.dropWhile (· == 0x2D)).reverse.dropWhile (· == 0x2D)).reverse

/-- `slugify(label)` -/
def slugify (label : JsString) : JsString :=
  let slug := trimDashes (collapseRuns false (toLowerCase label).units)
  if slug.isEmpty then js "workspace" else ⟨slug⟩

/-- `s.split(":")` -/
def splitColons (us : List UInt16) : List (List UInt16) := us.splitOn 0x3A

/-- `parts.join(":")` -/
def joinColons (parts : List JsString) : JsString :=
  ⟨List.intercalate [0x3A] (parts.map (·.units))⟩

/-- `canonicalAddress(addr)`, where there is no `~`. -/
def canonicalHandle (addr : JsString) : JsString :=
  match splitColons addr.units with
  | host :: label :: rest =>
      let canonLabel := if label.isEmpty then ⟨label⟩ else slugify toLowerCase ⟨label⟩
      joinColons (toLowerCase ⟨host⟩ :: canonLabel :: rest.map fun part => toLowerCase ⟨part⟩)
  | _ => addr

/-- `canonicalAddress(addr)`: what follows a `~` is kept as it is. -/
def canonicalAddress (addr : JsString) : JsString :=
  let handle := addr.units.takeWhile (· != 0x7E)
  canonicalHandle toLowerCase ⟨handle⟩ ++ ⟨addr.units.drop handle.length⟩

/-- The segment of `inboxDir(paths, actor)`. -/
def inboxDir (actor : JsString) : JsString := safePathSegment (canonicalAddress toLowerCase actor)

/-- The segment of `inboxDirRaw(paths, actor)`. -/
def inboxDirRaw (actor : JsString) : JsString := safePathSegment actor

/-! ## Aliases -/

/-- A row of `aliases.jsonl`, with the fields an inbox rests on. -/
structure H2AIdentityAlias where
  instance_ : JsString
  legacyInstance : JsString
  at_ : JsString

/-- `legacyAliasOwner(root, legacyInstance)`: the earliest claimant. -/
def legacyAliasOwner (aliases : List H2AIdentityAlias) (legacyInstance : JsString) :
    Option H2AIdentityAlias :=
  (aliases.filter fun a => a.legacyInstance = legacyInstance).foldl (fun first a =>
    match first with
    | none => some a
    | some first => if a.at_ < first.at_ then some a else some first) none

/-- `ownedLegacy` -/
def ownedLegacy (aliases : List H2AIdentityAlias) (actor : JsString) : List JsString :=
  (aliases.filter fun a => a.instance_ = actor ∧
    (legacyAliasOwner aliases a.legacyInstance).map (·.instance_) = some actor).map
      (·.legacyInstance)

/-- `inboxSourceDirs(actor)` -/
def inboxSourceDirs (aliases : List H2AIdentityAlias) (actor : JsString) : List JsString :=
  ((actor :: ownedLegacy aliases actor).flatMap fun handle =>
    [inboxDir toLowerCase handle, inboxDirRaw handle]).eraseDups

/-! ## Who reads whose inbox -/

variable {toLowerCase}

theorem inboxDir_mem_sourceDirs (aliases : List H2AIdentityAlias) (actor : JsString) :
    inboxDir toLowerCase actor ∈ inboxSourceDirs toLowerCase aliases actor := by
  simp [inboxSourceDirs]

end Source

end H2a.LocalFiles
