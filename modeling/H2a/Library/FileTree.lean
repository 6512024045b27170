import H2a.Library.JsMap
import H2a.Library.Result
/-!
# File trees

Directories of named entries, over any type of names and of contents.  A path is the list of its
names.  A write makes the directories that are missing and changes the file at its path alone.
-/

namespace H2a.Library

variable {K C : Type}

inductive FileTree (K C : Type) where
  | file (content : C)
  | dir (entries : List (K × FileTree K C))

namespace FileTree

/-- A chain of new directories down to a tree. -/
def under : List K → FileTree K C → FileTree K C
  | [], tree => tree
  | name :: path, tree => .dir [(name, under path tree)]

def isFile : FileTree K C → Bool
  | .file _ => true
  | .dir _ => false

/-- The paths of the files below, without the names `skip`: the files of a directory, and then its
directories, the last one first. -/
def walk (skip : K → Bool) : FileTree K C → List (List K)
  | .file _ => [[]]
  | .dir entries => filesIn entries ++ walkDirs entries
where
  filesIn (entries : List (K × FileTree K C)) : List (List K) :=
    (entries.filter fun entry => !skip entry.1 && entry.2.isFile).map fun entry => [entry.1]
  walkDirs : List (K × FileTree K C) → List (List K)
    | [] => []
    | (name, tree) :: entries =>
        walkDirs entries ++
          if skip name || tree.isFile then [] else (walk skip tree).map (name :: ·)

theorem mem_walkDirs {skip : K → Bool} {entries : List (K × FileTree K C)} {path : List K} :
    path ∈ walk.walkDirs skip entries ↔ ∃ name tree rest, (name, tree) ∈ entries ∧
      skip name = false ∧ tree.isFile = false ∧ rest ∈ walk skip tree ∧ path = name :: rest := by
  induction entries with
  | nil => simp [walk.walkDirs]
  | cons entry entries ih =>
      obtain ⟨name, tree⟩ := entry
      rw [walk.walkDirs, List.mem_append, ih]
      constructor
      · rintro (⟨name', tree', rest, hmem, hrest⟩ | hmem)
        · exact ⟨name', tree', rest, List.mem_cons_of_mem _ hmem, hrest⟩
        · split at hmem
          · cases hmem
          case isFalse hskip =>
            rw [Bool.or_eq_true, not_or, Bool.not_eq_true, Bool.not_eq_true] at hskip
            obtain ⟨rest, hrest, rfl⟩ := List.mem_map.mp hmem
            exact ⟨name, tree, rest, List.mem_cons_self, hskip.1, hskip.2, hrest, rfl⟩
      · rintro ⟨name', tree', rest, hmem, hskip, hfile, hrest, rfl⟩
        rcases List.mem_cons.mp hmem with heq | hmem
        · cases heq
          right
          rw [hskip, hfile]
          exact List.mem_map_of_mem hrest
        · exact Or.inl ⟨name', tree', rest, hmem, hskip, hfile, hrest, rfl⟩

theorem mem_walk_dir {skip : K → Bool} {entries : List (K × FileTree K C)} {path : List K} :
    path ∈ walk skip (.dir entries) ↔ ∃ name tree rest, (name, tree) ∈ entries ∧
      skip name = false ∧ rest ∈ walk skip tree ∧ path = name :: rest := by
  rw [walk, List.mem_append, mem_walkDirs, walk.filesIn, List.mem_map]
  constructor
  · rintro (⟨⟨name, tree⟩, hmem, rfl⟩ | ⟨name, tree, rest, hmem, hskip, -, hrest⟩)
    · rw [List.mem_filter, Bool.and_eq_true, Bool.not_eq_true'] at hmem
      refine ⟨name, tree, [], hmem.1, hmem.2.1, ?_, rfl⟩
      cases tree with
      | file => exact List.mem_singleton.mpr rfl
      | dir => cases hmem.2.2
    · exact ⟨name, tree, rest, hmem, hskip, hrest⟩
  · rintro ⟨name, tree, rest, hmem, hskip, hrest, rfl⟩
    cases tree with
    | file content =>
        refine Or.inl ⟨(name, .file content), ?_, by rw [List.mem_singleton.mp hrest]⟩
        rw [List.mem_filter, hskip]
        exact ⟨hmem, rfl⟩
    | dir sub => exact Or.inr ⟨name, _, rest, hmem, hskip, rfl, hrest, rfl⟩

/-- A walk passes by the names to skip. -/
theorem not_skip_of_mem_walk {skip : K → Bool} {tree : FileTree K C} {path : List K}
    (h : path ∈ tree.walk skip) : ∀ name ∈ path, skip name = false := by
  induction path generalizing tree with
  | nil => exact fun _ hname => absurd hname List.not_mem_nil
  | cons name path ih =>
      cases tree with
      | file => simp [walk] at h
      | dir entries =>
          obtain ⟨name', child, rest, -, hskip, hrest, heq⟩ := mem_walk_dir.mp h
          cases heq
          exact List.forall_mem_cons.mpr ⟨hskip, ih hrest⟩

variable [DecidableEq K]

/-- The content of the file at a path. -/
def read : List K → FileTree K C → Option C
  | [], .file content => some content
  | [], .dir _ => none
  | _ :: _, .file _ => none
  | name :: path, .dir entries => (getEntries name entries).bind (read path)

/-- Writes a file, in directories that are made when missing. -/
def write (content : C) : List K → FileTree K C → Except String (FileTree K C)
  | [], .file _ => .ok (.file content)
  | [], .dir _ => .error "EISDIR"
  | _ :: _, .file _ => .error "ENOTDIR"
  | name :: path, .dir entries =>
      match getEntries name entries with
      | none => .ok (.dir (setEntries name (under path (.file content)) entries))
      | some child =>
          match write content path child with
          | .error e => .error e
          | .ok child => .ok (.dir (setEntries name child entries))

/-- Makes a directory and those above it. -/
def mkdir : List K → FileTree K C → Except String (FileTree K C)
  | [], .dir entries => .ok (.dir entries)
  | _, .file _ => .error "EEXIST"
  | name :: path, .dir entries =>
      match getEntries name entries with
      | none => .ok (.dir (setEntries name (under path (.dir [])) entries))
      | some child =>
          match mkdir path child with
          | .error e => .error e
          | .ok child => .ok (.dir (setEntries name child entries))

theorem read_dir_cons (name : K) (path : List K) (entries : List (K × FileTree K C)) :
    read (name :: path) (.dir entries) = (getEntries name entries).bind (read path) := rfl

theorem read_under (path other : List K) (content : C) :
    (under path (.file content)).read other = if other = path then some content else none := by
  induction path generalizing other with
  | nil => cases other <;> simp [under, read]
  | cons name path ih =>
      cases other with
      | nil => simp [under, read]
      | cons name' other =>
          rw [under, read_dir_cons, getEntries]
          by_cases hname : name = name'
          · rw [if_pos hname, Option.bind_some, ih, hname]
            simp
          · rw [if_neg hname, getEntries, Option.bind_none, if_neg]
            rintro ⟨⟩
            exact hname rfl

theorem read_under_dir (path other : List K) :
    (under path (.dir []) : FileTree K C).read other = none := by
  induction path generalizing other with
  | nil => cases other <;> rfl
  | cons name path ih =>
      cases other with
      | nil => rfl
      | cons name' other =>
          rw [under, read_dir_cons, getEntries]
          split
          · exact ih other
          · rfl

/-- A write is read back, and no other file is changed. -/
theorem read_write {content : C} {path : List K} {tree tree' : FileTree K C}
    (h : tree.write content path = .ok tree') (other : List K) :
    tree'.read other = if other = path then some content else tree.read other := by
  induction path generalizing tree tree' other with
  | nil =>
      cases tree with
      | dir => cases h
      | file =>
          cases h
          cases other <;> simp [read]
  | cons name path ih =>
      cases tree with
      | file => cases h
      | dir entries =>
          have hread : ∀ child : FileTree K C,
              (∀ rest, child.read rest = if rest = path then some content
                else (getEntries name entries).bind (read rest)) →
              (dir (setEntries name child entries)).read other =
                if other = name :: path then some content else (dir entries).read other := by
            intro child hchild
            cases other with
            | nil => simp [read]
            | cons name' other =>
                rw [read_dir_cons, read_dir_cons, getEntries_setEntries]
                by_cases hname : name' = name
                · rw [if_pos hname, Option.bind_some, hchild, hname]
                  simp
                · rw [if_neg hname, if_neg]
                  rintro ⟨⟩
                  exact hname rfl
          rw [write] at h
          cases hentry : getEntries name entries with
          | none =>
              rw [hentry] at h
              cases h
              apply hread
              intro rest
              rw [read_under, hentry, Option.bind_none]
          | some child =>
              rw [hentry] at h
              dsimp only at h
              split at h
              case h_1 => cases h
              case h_2 child' hwrite =>
                cases h
                apply hread
                intro rest
                rw [ih hwrite, hentry, Option.bind_some]

/-- Making a directory changes no file. -/
theorem read_mkdir {path : List K} {tree tree' : FileTree K C} (h : tree.mkdir path = .ok tree')
    (other : List K) : tree'.read other = tree.read other := by
  induction path generalizing tree tree' other with
  | nil =>
      cases tree with
      | dir => cases h; rfl
      | file => cases h
  | cons name path ih =>
      cases tree with
      | file => cases h
      | dir entries =>
          rw [mkdir] at h
          cases other with
          | nil =>
              split at h
              · cases h; rfl
              · split at h
                · cases h
                · cases h; rfl
          | cons name' other =>
              rw [read_dir_cons]
              cases hentry : getEntries name entries with
              | none =>
                  rw [hentry] at h
                  cases h
                  rw [read_dir_cons, getEntries_setEntries]
                  by_cases hname : name' = name
                  · rw [if_pos hname, Option.bind_some, read_under_dir, hname, hentry,
                      Option.bind_none]
                  · rw [if_neg hname]
              | some child =>
                  rw [hentry] at h
                  dsimp only at h
                  split at h
                  case h_1 => cases h
                  case h_2 child' hmkdir =>
                    cases h
                    rw [read_dir_cons, getEntries_setEntries]
                    by_cases hname : name' = name
                    · rw [if_pos hname, Option.bind_some, ih hmkdir, hname, hentry,
                        Option.bind_some]
                    · rw [if_neg hname]

/-- A walk finds every file that it does not pass by. -/
theorem mem_walk_of_read {skip : K → Bool} {tree : FileTree K C} {path : List K} {content : C}
    (h : tree.read path = some content) (hskip : ∀ name ∈ path, skip name = false) :
    path ∈ tree.walk skip := by
  induction path generalizing tree with
  | nil =>
      cases tree with
      | dir => cases h
      | file => exact List.mem_singleton.mpr rfl
  | cons name path ih =>
      cases tree with
      | file => cases h
      | dir entries =>
          rw [List.forall_mem_cons] at hskip
          obtain ⟨child, hentry, hread⟩ := Option.bind_eq_some_iff.mp h
          exact mem_walk_dir.mpr ⟨name, child, path, mem_of_getEntries hentry, hskip.1,
            ih hread hskip.2, rfl⟩

end FileTree

end H2a.Library
