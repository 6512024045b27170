import H2a.Library.JsString
/-!
# Path segments

`safePathSegment` of `packages/h2a/src/runtime/local-files/paths.ts`: "deterministic and
lossy".  A path is the list of its segments below the root of the store.
-/

namespace H2a.LocalFiles

open H2a.Library

/-- The segments of a path. -/
abbrev Path := List JsString

/-- The reserved characters, `[:/\\<>"|?*]`. -/
def isReservedUnit (u : UInt16) : Bool :=
  [0x3A, 0x2F, 0x5C, 0x3C, 0x3E, 0x22, 0x7C, 0x3F, 0x2A].contains u

/-- Each run of reserved characters becomes `__`; `inRun` is whether one has begun. -/
def replaceReserved (inRun : Bool) : List UInt16 → List UInt16
  | [] => []
  | u :: us =>
      if isReservedUnit u then
        if inRun then replaceReserved true us else 0x5F :: 0x5F :: replaceReserved true us
      else u :: replaceReserved false us

/-- `safePathSegment(id)` -/
def safePathSegment (id : JsString) : JsString :=
  let cleaned := replaceReserved false id.units
  if cleaned.all (· == 0x2E) then js "_" else ⟨cleaned⟩

/-- `join` on segments that contain no separator. -/
def joinPath (root : JsString) (path : Path) : JsString :=
  path.foldl (fun joined segment => joined ++ js "/" ++ segment) root

end H2a.LocalFiles
