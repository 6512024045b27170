import H2a.Library.Decimal
import H2a.Library.FileTree
import Mathlib.Data.List.Basic
/-!
# The merge of workspaces

`mergeWorkspaceArchive` of `packages/h2a-runtime/src/workspace-merge.ts`: "3-way merge of a remote
workspace archive into `cwd`, using an optional base snapshot (the last-synced tree) as the common
ancestor."  The archives are the trees that `tar` extracts; `git merge-file` is a parameter, with
every way it may end.
-/

namespace H2a.Workspace

open H2a.Library

abbrev Path := List JsString

abbrev Bytes := List UInt8

abbrev Tree := FileTree JsString Bytes

/-- `entry.name === ".git" || entry.name === ".remote"` -/
def isExcluded (name : JsString) : Bool := name == js ".git" || name == js ".remote"

/-- `walkFiles(root)` -/
def walkFiles (root : Tree) : List Path := root.walk isExcluded

/-- `isBinary(buf)` -/
def isBinary (buf : Bytes) : Bool := (buf.take 8192).contains 0

/-- How `spawnSync("git", ["merge-file", …])` ends. -/
inductive GitOutcome where
  /-- the exit status is the number of conflicts -/
  | completed (conflicts : Nat) (output : Bytes)
  /-- the exit status of an error, as for a file that git takes to be binary -/
  | failed (status : Nat) (output : Bytes)
  | notRunnable
  /-- killed, with more output than `maxBuffer` -/
  | overflowed (output : Bytes)

/-- `res.status`; `none` is `null`. -/
def GitOutcome.status : GitOutcome → Option Nat
  | .completed conflicts _ => some conflicts
  | .failed status _ => some status
  | .notRunnable => none
  | .overflowed _ => none

/-- `res.stdout` -/
def GitOutcome.stdout : GitOutcome → Option Bytes
  | .completed _ output => some output
  | .failed _ output => some output
  | .notRunnable => none
  | .overflowed output => some output

/-- What a merge uses of its surroundings. -/
structure MergeHost where
  /-- `git merge-file` on the three files of a path: local, base, remote -/
  mergeFile : Path → Bytes → Bytes → Bytes → GitOutcome
  /-- `Math.floor(Date.now() / 1000)` when a path is reached -/
  epoch : Path → Nat

/-- The working tree, and `MergeResult`. -/
structure MergeState where
  cwd : Tree
  merged : List Path
  conflicts : List Path
  tookRemote : List Path
  keptLocal : List Path

/-- `${rel}.bak-${epoch}` -/
def backupPath (epoch : Nat) : Path → Path
  | [] => []
  | [name] => [name ++ js ".bak-" ++ ⟨decimalUnits epoch⟩]
  | name :: next :: path => name :: backupPath epoch (next :: path)

section Source

variable (host : MergeHost) (baseDir remoteDir : Tree)

/-- The loop body of `mergeWorkspaceArchive`. -/
def mergePath (s : MergeState) (rel : Path) : Except String MergeState :=
  let base := baseDir.read rel
  match remoteDir.read rel, s.cwd.read rel with
  | none, none => .ok s
  | none, some _ => .ok { s with keptLocal := s.keptLocal ++ [rel] }
  | some remote, none => do
      let cwd ← s.cwd.write remote rel
      return { s with cwd := cwd, tookRemote := s.tookRemote ++ [rel] }
  | some remote, some localFile =>
      if localFile = remote then .ok s
      else if base = some localFile then do
        let cwd ← s.cwd.write remote rel
        return { s with cwd := cwd, tookRemote := s.tookRemote ++ [rel] }
      else if base = some remote then .ok { s with keptLocal := s.keptLocal ++ [rel] }
      else if isBinary localFile || isBinary remote then do
        let cwd ← s.cwd.write localFile (backupPath (host.epoch rel) rel)
        let cwd ← cwd.write remote rel
        return { s with cwd := cwd, conflicts := s.conflicts ++ [rel] }
      else do
        let res := host.mergeFile rel localFile (base.getD []) remote
        let cwd ← s.cwd.write (res.stdout.getD []) rel
        return { s with
          cwd := cwd
          merged := s.merged ++ [rel]
          conflicts := if 0 < res.status.getD 0 then s.conflicts ++ [rel] else s.conflicts }

end Source

/-- `mergeWorkspaceArchive({ cwd, remoteArchive, baseArchive })`; what it throws is an error. -/
def mergeWorkspaceArchive (host : MergeHost) (cwd remoteDir : Tree) (base : Option Tree) :
    Except String MergeState := do
  let cwd ← cwd.mkdir [js ".remote", js "tmp"]
  let baseDir := base.getD (.dir [])
  let paths := (walkFiles remoteDir ++ walkFiles cwd ++ walkFiles baseDir).eraseDups
  paths.foldlM (mergePath host baseDir remoteDir) ⟨cwd, [], [], [], []⟩

end H2a.Workspace
