import H2a.Workspace.Merge
/-!
# No side is lost

What the merge leaves in the working tree, path by path (`run_content`), and that no side is lost
exactly when `git` completes every merge of texts (`no_side_lost`).
-/

namespace H2a.Workspace

open H2a.Library

/-! ## Backups -/

theorem backupName_inj {name name' : JsString} {epoch epoch' : Nat}
    (h : name ++ js ".bak-" ++ ⟨decimalUnits epoch⟩ =
      name' ++ js ".bak-" ++ ⟨decimalUnits epoch'⟩) : name = name' := by
  have hsplit : ∀ (name : JsString) epoch, (name ++ js ".bak-" ++ ⟨decimalUnits epoch⟩).units =
      (name ++ js ".bak").units ++ 0x2D :: decimalUnits epoch := by
    intro name epoch
    have hdash : (js ".bak-").units = (js ".bak").units ++ [0x2D] := by decide
    simp only [JsString.append_units, hdash, List.append_assoc, List.singleton_append]
  have hunits := congrArg JsString.units h
  rw [hsplit, hsplit] at hunits
  have hsame := (append_decimalUnits_inj (by decide) hunits).1
  exact JsString.ext_units (List.append_cancel_right hsame)

theorem backupPath_cons {epoch : Nat} {name : JsString} {path : Path} (h : path ≠ []) :
    backupPath epoch (name :: path) = name :: backupPath epoch path := by
  cases path with
  | nil => exact absurd rfl h
  | cons next path => rfl

theorem backupPath_ne_nil {epoch : Nat} {path : Path} (h : path ≠ []) :
    backupPath epoch path ≠ [] := by
  cases path with
  | nil => exact absurd rfl h
  | cons name path =>
      cases path with
      | nil => exact List.cons_ne_nil _ _
      | cons next path => exact List.cons_ne_nil _ _

/-- A backup is of one path. -/
theorem backupPath_inj {epoch epoch' : Nat} {path path' : Path} (hne : path ≠ [])
    (hne' : path' ≠ []) (h : backupPath epoch path = backupPath epoch' path') : path = path' := by
  induction path generalizing path' with
  | nil => exact absurd rfl hne
  | cons name path ih =>
      cases path' with
      | nil => exact absurd rfl hne'
      | cons name' path' =>
          cases path with
          | nil =>
              cases path' with
              | nil => rw [backupName_inj (List.cons.inj h).1]
              | cons next path' =>
                  have htail := (List.cons.inj h).2
                  exact absurd htail.symm (backupPath_ne_nil (List.cons_ne_nil _ _))
          | cons next path =>
              cases path' with
              | nil => exact absurd (List.cons.inj h).2 (backupPath_ne_nil (List.cons_ne_nil _ _))
              | cons next' path' =>
                  obtain ⟨hname, htail⟩ := List.cons.inj h
                  rw [hname, ih (List.cons_ne_nil _ _) (List.cons_ne_nil _ _) htail]

/-- A backup is another file. -/
theorem backupPath_ne {epoch : Nat} {path : Path} (hne : path ≠ []) :
    backupPath epoch path ≠ path := by
  induction path with
  | nil => exact absurd rfl hne
  | cons name path ih =>
      cases path with
      | nil =>
          intro h
          have hlength := congrArg List.length (congrArg JsString.units (List.cons.inj h).1)
          simp only [JsString.append_units, List.length_append] at hlength
          have hbak : (js ".bak-").units.length = 5 := by decide
          omega
      | cons next path =>
          intro h
          exact ih (List.cons_ne_nil _ _) (List.cons.inj h).2

/-- Paths outside of `.git` and `.remote`. -/
def IsTracked (path : Path) : Prop := ∀ name ∈ path, isExcluded name = false

instance : DecidablePred IsTracked := fun _ => inferInstanceAs (Decidable (∀ _ ∈ _, _))

theorem backupPath_tracked {epoch : Nat} {path : Path} (h : IsTracked path) :
    IsTracked (backupPath epoch path) := by
  induction path with
  | nil => exact h
  | cons name path ih =>
      cases path with
      | nil =>
          refine List.forall_mem_singleton.mpr ?_
          have hlast : ∀ name : JsString, (∃ u, name.units.getLast? = some u ∧
              isDigitUnit u = true) → isExcluded name = false := by
            rintro name ⟨u, hu, hdigit⟩
            rw [isExcluded, Bool.or_eq_false_iff, beq_eq_false_iff_ne, beq_eq_false_iff_ne]
            constructor <;> rintro rfl <;> revert hdigit <;>
              (obtain rfl := Option.some.inj hu; decide)
          refine hlast _ ⟨(decimalUnits epoch).getLast (decimalUnits_ne_nil epoch), ?_,
            isDigitUnit_decimalUnits epoch _ (List.getLast_mem _)⟩
          rw [JsString.append_units, List.getLast?_append_of_ne_nil _ (decimalUnits_ne_nil epoch),
            List.getLast?_eq_getLast_of_ne_nil]
      | cons next path =>
          obtain ⟨hname, hrest⟩ := List.forall_mem_cons.mp h
          exact List.forall_mem_cons.mpr ⟨hname, ih hrest⟩

/-! ## One path -/

/-- What is done with a path. -/
inductive Cell where
  | keep
  | take (remote : Bytes)
  | backup (localFile remote : Bytes)
  | merge (localFile remote : Bytes)

/-- What is done, by the three contents. -/
def cellOf (base localFile remote : Option Bytes) : Cell :=
  match localFile, remote with
  | none, none => .keep
  | some _, none => .keep
  | none, some remote => .take remote
  | some localFile, some remote =>
      if localFile = remote then .keep
      else if base = some localFile then .take remote
      else if base = some remote then .keep
      else if isBinary localFile || isBinary remote then .backup localFile remote
      else .merge localFile remote

/-- Two contents that are different, and not that of the base. -/
def AreDiverged (base localFile remote : Option Bytes) (l r : Bytes) : Prop :=
  localFile = some l ∧ remote = some r ∧ l ≠ r ∧ base ≠ some l ∧ base ≠ some r

theorem cellOf_of_diverged {base localFile remote : Option Bytes} {l r : Bytes}
    (h : AreDiverged base localFile remote l r) : cellOf base localFile remote =
      if isBinary l || isBinary r then .backup l r else .merge l r := by
  obtain ⟨rfl, rfl, hne, hl, hr⟩ := h
  rw [cellOf, if_neg hne, if_neg hl, if_neg hr]

/-- A path that is backed up or merged has diverged. -/
theorem diverged_of_cellOf {base localFile remote : Option Bytes} {l r : Bytes}
    (h : cellOf base localFile remote = .backup l r ∨ cellOf base localFile remote = .merge l r) :
    AreDiverged base localFile remote l r := by
  cases localFile with
  | none => cases remote <;> simp [cellOf] at h
  | some l' =>
      cases remote with
      | none => simp [cellOf] at h
      | some r' =>
          rw [cellOf] at h
          split_ifs at h with hne hl hr hbinary
          · simp at h
          · simp at h
          · simp at h
          · cases h.resolve_right id
            exact ⟨rfl, rfl, hne, hl, hr⟩
          · cases h.resolve_left id
            exact ⟨rfl, rfl, hne, hl, hr⟩

section Run

variable (host : MergeHost) (baseDir remoteDir : Tree)

/-- What a path holds after it. -/
def Cell.content (rel : Path) (base localFile : Option Bytes) : Cell → Option Bytes
  | .keep => localFile
  | .take remote => some remote
  | .backup _ remote => some remote
  | .merge l r => some ((host.mergeFile rel l (base.getD []) r).stdout.getD [])

/-- What a path does to the state. -/
def Cell.Does (rel : Path) (base : Option Bytes) (s s' : MergeState) : Cell → Prop
  | .keep => s'.cwd = s.cwd ∧ s'.conflicts = s.conflicts
  | .take remote => s.cwd.write remote rel = .ok s'.cwd ∧ s'.conflicts = s.conflicts
  | .backup l r => ∃ cwd, s.cwd.write l (backupPath (host.epoch rel) rel) = .ok cwd ∧
      cwd.write r rel = .ok s'.cwd ∧ s'.conflicts = s.conflicts ++ [rel]
  | .merge l r =>
      let res := host.mergeFile rel l (base.getD []) r
      s.cwd.write (res.stdout.getD []) rel = .ok s'.cwd ∧
        s'.conflicts = if 0 < res.status.getD 0 then s.conflicts ++ [rel] else s.conflicts

variable {host baseDir remoteDir}

theorem mergePath_does {s s' : MergeState} {rel : Path}
    (h : mergePath host baseDir remoteDir s rel = .ok s') :
    (cellOf (baseDir.read rel) (s.cwd.read rel) (remoteDir.read rel)).Does host rel
      (baseDir.read rel) s s' := by
  rw [mergePath] at h
  split at h
  case h_1 hremote hlocal =>
    rw [hremote, hlocal]
    cases h
    exact ⟨rfl, rfl⟩
  case h_2 hremote hlocal =>
    rw [hremote, hlocal]
    cases h
    exact ⟨rfl, rfl⟩
  case h_3 hremote hlocal =>
    rw [hremote, hlocal]
    obtain ⟨cwd, hwrite, h⟩ := bind_eq_ok_iff.mp h
    cases h
    exact ⟨hwrite, rfl⟩
  case h_4 hremote hlocal =>
    rw [hremote, hlocal, cellOf]
    split_ifs at h ⊢
    · cases h
      exact ⟨rfl, rfl⟩
    · obtain ⟨cwd, hwrite, h⟩ := bind_eq_ok_iff.mp h
      cases h
      exact ⟨hwrite, rfl⟩
    · cases h
      exact ⟨rfl, rfl⟩
    · obtain ⟨cwd, hcopy, h⟩ := bind_eq_ok_iff.mp h
      obtain ⟨cwd', hwrite, h⟩ := bind_eq_ok_iff.mp h
      cases h
      exact ⟨cwd, hcopy, hwrite, rfl⟩
    · obtain ⟨cwd, hwrite, h⟩ := bind_eq_ok_iff.mp h
      cases h
      exact ⟨hwrite, rfl⟩

/-! ## A run -/

variable (host baseDir remoteDir) in
/-- The backup that a run makes of a path, in the place of a path. -/
def IsBackup (cwd : Tree) (paths : List Path) (path : Path) (content : Bytes) : Prop :=
  ∃ rel ∈ paths, rel ≠ [] ∧ path = backupPath (host.epoch rel) rel ∧ ∃ remote,
    cellOf (baseDir.read rel) (cwd.read rel) (remoteDir.read rel) = .backup content remote

variable (host baseDir remoteDir) in
/-- No side has a file where a backup is made. -/
def BackupsFree (cwd : Tree) (paths : List Path) : Prop := ∀ path content,
  IsBackup host baseDir remoteDir cwd paths path content →
    cwd.read path = none ∧ remoteDir.read path = none

variable (host baseDir remoteDir) in
/-- What a path holds in the end, by its three contents. -/
def newContent (cwd : Tree) (rel : Path) : Option Bytes :=
  (cellOf (baseDir.read rel) (cwd.read rel) (remoteDir.read rel)).content host rel
    (baseDir.read rel) (cwd.read rel)

variable (host baseDir remoteDir) in
/-- The working tree when the paths `done` have been merged. -/
structure RunInv (cwd : Tree) (done : List Path) (s : MergeState) : Prop where
  content : ∀ path, (∀ c, ¬IsBackup host baseDir remoteDir cwd done path c) →
    s.cwd.read path =
      if path ∈ done then newContent host baseDir remoteDir cwd path else cwd.read path
  backup : ∀ path c, IsBackup host baseDir remoteDir cwd done path c → s.cwd.read path = some c
  conflict : ∀ rel ∈ done, ∀ l r, (cellOf (baseDir.read rel) (cwd.read rel) (remoteDir.read rel) =
      .backup l r ∨ cellOf (baseDir.read rel) (cwd.read rel) (remoteDir.read rel) = .merge l r ∧
        0 < (host.mergeFile rel l ((baseDir.read rel).getD []) r).status.getD 0) →
    rel ∈ s.conflicts

theorem isBackup_snoc {cwd : Tree} {done : List Path} {rel path : Path} {c : Bytes} :
    IsBackup host baseDir remoteDir cwd (done ++ [rel]) path c ↔
      IsBackup host baseDir remoteDir cwd done path c ∨
        rel ≠ [] ∧ path = backupPath (host.epoch rel) rel ∧ ∃ remote,
          cellOf (baseDir.read rel) (cwd.read rel) (remoteDir.read rel) = .backup c remote := by
  constructor
  · rintro ⟨rel', hmem, h⟩
    rcases List.mem_append.mp hmem with hmem | hmem
    · exact Or.inl ⟨rel', hmem, h⟩
    · exact Or.inr (List.mem_singleton.mp hmem ▸ h)
  · rintro (⟨rel', hmem, h⟩ | h)
    · exact ⟨rel', List.mem_append_left _ hmem, h⟩
    · exact ⟨rel, List.mem_append_right _ (List.mem_singleton_self _), h⟩

/-- A path of which no backup is made. -/
theorem RunInv.step_plain {cwd : Tree} {done : List Path} {s s' : MergeState} {rel : Path}
    (hinv : RunInv host baseDir remoteDir cwd done s)
    (hcell : ∀ l r, cellOf (baseDir.read rel) (cwd.read rel) (remoteDir.read rel) ≠ .backup l r)
    (hother : ∀ path, path ≠ rel → s'.cwd.read path = s.cwd.read path)
    (hplain : (∀ c, ¬IsBackup host baseDir remoteDir cwd done rel c) →
      s'.cwd.read rel = newContent host baseDir remoteDir cwd rel)
    (hbackup : ∀ c, IsBackup host baseDir remoteDir cwd done rel c → s'.cwd.read rel = some c)
    (hmerge : ∀ l r, cellOf (baseDir.read rel) (cwd.read rel) (remoteDir.read rel) = .merge l r →
      0 < (host.mergeFile rel l ((baseDir.read rel).getD []) r).status.getD 0 →
        rel ∈ s'.conflicts)
    (hconflicts : ∀ path ∈ s.conflicts, path ∈ s'.conflicts) :
    RunInv host baseDir remoteDir cwd (done ++ [rel]) s' := by
  have hsnoc : ∀ path c, IsBackup host baseDir remoteDir cwd (done ++ [rel]) path c ↔
      IsBackup host baseDir remoteDir cwd done path c := by
    intro path c
    rw [isBackup_snoc, or_iff_left]
    rintro ⟨-, -, remote, hbackup⟩
    exact hcell c remote hbackup
  refine ⟨fun path hpath => ?_, fun path c hc => ?_, fun path hmem l r hconflict => ?_⟩
  · have hpath' : ∀ c, ¬IsBackup host baseDir remoteDir cwd done path c :=
      fun c hc => hpath c ((hsnoc path c).mpr hc)
    by_cases hrel : path = rel
    · subst hrel
      rw [if_pos (List.mem_append_right _ (List.mem_singleton_self _)), hplain hpath']
    · rw [hother path hrel, hinv.content path hpath']
      simp only [List.mem_append, List.mem_singleton, hrel, or_false]
  · rw [hsnoc] at hc
    by_cases hrel : path = rel
    · subst hrel
      exact hbackup c hc
    · rw [hother path hrel, hinv.backup path c hc]
  · rcases List.mem_append.mp hmem with hmem | hmem
    · exact hconflicts path (hinv.conflict path hmem l r hconflict)
    · rw [List.mem_singleton] at hmem
      subst hmem
      rcases hconflict with hbackupCell | ⟨hcellMerge, hstatus⟩
      · exact absurd hbackupCell (hcell l r)
      · exact hmerge l r hcellMerge hstatus

/-- A path of which a backup is made. -/
theorem RunInv.step_backup {cwd : Tree} {done : List Path} {s s' : MergeState} {rel : Path}
    (hinv : RunInv host baseDir remoteDir cwd done s) (hne : rel ≠ []) (hnew : rel ∉ done)
    (hplain : ∀ c, ¬IsBackup host baseDir remoteDir cwd done rel c) {l r : Bytes}
    (hcell : cellOf (baseDir.read rel) (cwd.read rel) (remoteDir.read rel) = .backup l r)
    (hread : ∀ path, s'.cwd.read path = if path = rel then some r
      else if path = backupPath (host.epoch rel) rel then some l else s.cwd.read path)
    (hconflicts : s'.conflicts = s.conflicts ++ [rel]) :
    RunInv host baseDir remoteDir cwd (done ++ [rel]) s' := by
  refine ⟨fun path hpath => ?_, fun path c hc => ?_, fun path hmem l' r' hconflict => ?_⟩
  · have hpath' : ∀ c, ¬IsBackup host baseDir remoteDir cwd done path c :=
      fun c hc => hpath c (isBackup_snoc.mpr (Or.inl hc))
    have hbackup : path ≠ backupPath (host.epoch rel) rel :=
      fun h => hpath l (isBackup_snoc.mpr (Or.inr ⟨hne, h, r, hcell⟩))
    rw [hread]
    by_cases hrel : path = rel
    · subst hrel
      rw [if_pos rfl, if_pos (List.mem_append_right _ (List.mem_singleton_self _)), newContent,
        hcell]
      rfl
    · rw [if_neg hrel, if_neg hbackup, hinv.content path hpath']
      simp only [List.mem_append, List.mem_singleton, hrel, or_false]
  · rw [hread]
    rcases isBackup_snoc.mp hc with hold | ⟨-, hpath, r', hcell'⟩
    · have hrel : path ≠ rel := fun h => hplain c (h ▸ hold)
      have hbackup : path ≠ backupPath (host.epoch rel) rel := by
        intro hpath
        obtain ⟨rel', hmem, hne', hpath', -⟩ := hold
        have hsame := backupPath_inj hne' hne (hpath'.symm.trans hpath)
        exact hnew (hsame ▸ hmem)
      rw [if_neg hrel, if_neg hbackup, hinv.backup path c hold]
    · rw [hcell] at hcell'
      cases hcell'
      rw [if_neg (hpath ▸ backupPath_ne hne), if_pos hpath]
  · rw [hconflicts]
    rcases List.mem_append.mp hmem with hmem | hmem
    · exact List.mem_append_left _ (hinv.conflict path hmem l' r' hconflict)
    · exact List.mem_append_right _ hmem

theorem Cell.Does.plain {cell : Cell} {rel : Path} {base : Option Bytes} {s s' : MergeState}
    (h : cell.Does host rel base s s') (hcell : ∀ l r, cell ≠ .backup l r) :
    (∀ path, s'.cwd.read path =
      if path = rel then cell.content host rel base (s.cwd.read rel) else s.cwd.read path) ∧
    (∀ path ∈ s.conflicts, path ∈ s'.conflicts) ∧ ∀ l r, cell = .merge l r →
      0 < (host.mergeFile rel l (base.getD []) r).status.getD 0 → rel ∈ s'.conflicts := by
  cases cell with
  | keep =>
      obtain ⟨hcwd, hconflicts⟩ := h
      rw [hcwd, hconflicts]
      refine ⟨fun path => ?_, fun _ hmem => hmem, fun _ _ hsame => by cases hsame⟩
      split
      case isTrue hpath => rw [hpath]; rfl
      case isFalse => rfl
  | take remote =>
      obtain ⟨hwrite, hconflicts⟩ := h
      rw [hconflicts]
      exact ⟨FileTree.read_write hwrite, fun _ hmem => hmem, fun _ _ hsame => by cases hsame⟩
  | backup l r => exact absurd rfl (hcell l r)
  | merge l r =>
      obtain ⟨hwrite, hconflicts⟩ := h
      refine ⟨FileTree.read_write hwrite, fun path hmem => ?_, ?_⟩
      · rw [hconflicts]
        split
        · exact List.mem_append_left _ hmem
        · exact hmem
      · rintro l' r' ⟨⟩ hstatus
        rw [hconflicts, if_pos hstatus]
        exact List.mem_append_right _ (List.mem_singleton_self _)

/-- What one path keeps of a run. -/
theorem RunInv.step {cwd : Tree} {done : List Path} {s s' : MergeState} {rel : Path}
    (hinv : RunInv host baseDir remoteDir cwd done s) (hroot : cwd.read [] = none)
    (hnew : rel ∉ done) (hfree : BackupsFree host baseDir remoteDir cwd done)
    (h : mergePath host baseDir remoteDir s rel = .ok s') :
    RunInv host baseDir remoteDir cwd (done ++ [rel]) s' := by
  have hdoes := mergePath_does h
  by_cases hbackup : ∃ c, IsBackup host baseDir remoteDir cwd done rel c
  · -- no side has a file in the place of a backup, and the backup stays
    obtain ⟨c, hc⟩ := hbackup
    obtain ⟨hlocal, hremote⟩ := hfree rel c hc
    rw [hinv.backup rel c hc, hremote] at hdoes
    obtain ⟨hcwd, hconflicts⟩ := hdoes
    refine hinv.step_plain (fun l r => ?_) (fun path _ => ?_) (fun hplain => ?_)
      (fun c' hc' => ?_) (fun l r => ?_) ?_
    · rw [hlocal, hremote]
      exact Cell.noConfusion
    · rw [hcwd]
    · exact absurd hc (hplain c)
    · rw [hcwd, hinv.backup rel c' hc']
    · rw [hlocal, hremote]
      exact Cell.noConfusion
    · rw [hconflicts]
      exact fun _ hmem => hmem
  · have hplain : ∀ c, ¬IsBackup host baseDir remoteDir cwd done rel c := not_exists.mp hbackup
    have hlocal : s.cwd.read rel = cwd.read rel := by
      rw [hinv.content rel hplain, if_neg hnew]
    rw [hlocal] at hdoes
    by_cases hcell : ∃ l r,
        cellOf (baseDir.read rel) (cwd.read rel) (remoteDir.read rel) = .backup l r
    · obtain ⟨l, r, hcell⟩ := hcell
      rw [hcell] at hdoes
      obtain ⟨cwd', hcopy, hwrite, hconflicts⟩ := hdoes
      have hne : rel ≠ [] := by
        rintro rfl
        cases hroot.symm.trans (diverged_of_cellOf (Or.inl hcell)).1
      refine hinv.step_backup hne hnew hplain hcell (fun path => ?_) hconflicts
      rw [FileTree.read_write hwrite, FileTree.read_write hcopy]
    · have hcells : ∀ l r,
          cellOf (baseDir.read rel) (cwd.read rel) (remoteDir.read rel) ≠ .backup l r :=
        fun l r h => hcell ⟨l, r, h⟩
      obtain ⟨hread, hconflicts, hmerge⟩ := hdoes.plain hcells
      refine hinv.step_plain hcells (fun path hpath => ?_) (fun _ => ?_)
        (fun c hc => absurd hc (hplain c)) hmerge hconflicts
      · rw [hread, if_neg hpath]
      · rw [hread, if_pos rfl, hlocal, newContent]

theorem BackupsFree.mono {cwd : Tree} {paths paths' : List Path}
    (h : BackupsFree host baseDir remoteDir cwd paths') (hsub : ∀ rel ∈ paths, rel ∈ paths') :
    BackupsFree host baseDir remoteDir cwd paths := by
  rintro path content ⟨rel, hmem, hbackup⟩
  exact h path content ⟨rel, hsub rel hmem, hbackup⟩

/-- What all paths keep of a run. -/
theorem RunInv.run {cwd : Tree} {done todo : List Path} {s s' : MergeState}
    (hinv : RunInv host baseDir remoteDir cwd done s) (hroot : cwd.read [] = none)
    (hnodup : (done ++ todo).Nodup)
    (hfree : BackupsFree host baseDir remoteDir cwd (done ++ todo))
    (h : todo.foldlM (mergePath host baseDir remoteDir) s = .ok s') :
    RunInv host baseDir remoteDir cwd (done ++ todo) s' := by
  induction todo generalizing done s with
  | nil =>
      cases h
      rw [List.append_nil]
      exact hinv
  | cons rel todo ih =>
      rw [List.foldlM_cons] at h
      obtain ⟨t, hstep, hrest⟩ := bind_eq_ok_iff.mp h
      have hnew : rel ∉ done := fun hmem =>
        (List.nodup_append.mp hnodup).2.2 rel hmem rel List.mem_cons_self rfl
      have hsplit : done ++ rel :: todo = done ++ [rel] ++ todo := by
        rw [List.append_assoc, List.singleton_append]
      have hnext := hinv.step hroot hnew
        (hfree.mono fun _ hmem => List.mem_append_left _ hmem) hstep
      rw [hsplit] at hnodup hfree ⊢
      exact ih hnext hnodup hfree hrest

theorem runInv_start {cwd tree : Tree} (h : ∀ path, tree.read path = cwd.read path) :
    RunInv host baseDir remoteDir cwd [] ⟨tree, [], [], [], []⟩ where
  content path _ := by rw [h, if_neg List.not_mem_nil]
  backup path c hbackup := by
    obtain ⟨rel, hmem, -⟩ := hbackup
    exact absurd hmem List.not_mem_nil
  conflict rel hmem := absurd hmem List.not_mem_nil

theorem nodup_eraseDups (paths : List Path) : paths.eraseDups.Nodup := by
  induction hlength : paths.length using Nat.strong_induction_on generalizing paths with
  | _ n ih =>
      cases paths with
      | nil => exact List.nodup_nil
      | cons path paths =>
          rw [List.eraseDups_cons, List.nodup_cons, List.mem_eraseDups]
          refine ⟨fun hmem => ?_, ih _ ?_ _ rfl⟩
          · have hself := (List.mem_filter.mp hmem).2
            simp at hself
          · rw [← hlength, List.length_cons]
            exact Nat.lt_succ_of_le (List.length_filter_le _ _)

end Run

/-! ## The whole merge -/

section Merge

variable (host : MergeHost) (baseDir remoteDir cwd : Tree)

/-- The contents of a path have diverged. -/
def Diverged (rel : Path) (l r : Bytes) : Prop :=
  IsTracked rel ∧ AreDiverged (baseDir.read rel) (cwd.read rel) (remoteDir.read rel) l r

/-- How `git` ends on a path. -/
def mergeOutcome (rel : Path) (l r : Bytes) : GitOutcome :=
  host.mergeFile rel l ((baseDir.read rel).getD []) r

/-- `git` completes the merge of every two texts that have diverged. -/
def TextsMerged : Prop := ∀ rel l r, Diverged baseDir remoteDir cwd rel l r →
  (isBinary l || isBinary r) = false →
    ∃ n output, mergeOutcome host baseDir rel l r = .completed n output

/-- No side has a file where the backup of a path is made. -/
def BackupFree (rel : Path) : Prop :=
  cwd.read (backupPath (host.epoch rel) rel) = none ∧
    remoteDir.read (backupPath (host.epoch rel) rel) = none

/-- Every side of every path is in the working tree of `s`, or in a completed merge. -/
structure NoSideLost (s : MergeState) : Prop where
  took : ∀ rel r, IsTracked rel → remoteDir.read rel = some r →
    cwd.read rel = none ∨ cwd.read rel = baseDir.read rel → s.cwd.read rel = some r
  kept : ∀ rel l, IsTracked rel → cwd.read rel = some l →
    remoteDir.read rel = none ∨ remoteDir.read rel = some l ∨
      remoteDir.read rel = baseDir.read rel → s.cwd.read rel = some l
  diverged : ∀ rel l r, Diverged baseDir remoteDir cwd rel l r →
    (∃ n output, mergeOutcome host baseDir rel l r = .completed n output ∧
      s.cwd.read rel = some output ∧ (n ≠ 0 → rel ∈ s.conflicts)) ∨
    s.cwd.read rel = some r ∧ s.cwd.read (backupPath (host.epoch rel) rel) = some l ∧
      rel ∈ s.conflicts
  absent : ∀ rel, IsTracked rel → cwd.read rel = none → remoteDir.read rel = none →
    s.cwd.read rel = none ∨ ∃ path l r, Diverged baseDir remoteDir cwd path l r ∧
      rel = backupPath (host.epoch path) path
  others : ∀ rel, ¬IsTracked rel → s.cwd.read rel = cwd.read rel

variable {host baseDir remoteDir cwd}

/-- What the working tree holds in the end. -/
structure Merged (host : MergeHost) (baseDir remoteDir cwd : Tree) (s : MergeState) : Prop where
  content : ∀ rel, (∀ path l r, Diverged baseDir remoteDir cwd path l r →
      (isBinary l || isBinary r) = true → rel ≠ backupPath (host.epoch path) path) →
    s.cwd.read rel =
      if IsTracked rel then newContent host baseDir remoteDir cwd rel else cwd.read rel
  backup : ∀ rel l r, Diverged baseDir remoteDir cwd rel l r → (isBinary l || isBinary r) = true →
    s.cwd.read (backupPath (host.epoch rel) rel) = some l
  conflict : ∀ rel l r, Diverged baseDir remoteDir cwd rel l r →
    (isBinary l || isBinary r) = true ∨ 0 < (mergeOutcome host baseDir rel l r).status.getD 0 →
      rel ∈ s.conflicts

theorem tracked_of_mem_walk {tree : Tree} {rel : Path} (h : rel ∈ walkFiles tree) :
    IsTracked rel := FileTree.not_skip_of_mem_walk h

/-- The run of the whole merge. -/
theorem merged_of_ok {base : Option Tree} {s : MergeState}
    (h : mergeWorkspaceArchive host cwd remoteDir base = .ok s)
    (hfree : ∀ rel l r, Diverged (base.getD (.dir [])) remoteDir cwd rel l r →
      (isBinary l || isBinary r) = true → BackupFree host remoteDir cwd rel) :
    Merged host (base.getD (.dir [])) remoteDir cwd s := by
  rw [mergeWorkspaceArchive] at h
  obtain ⟨tree, hmkdir, h⟩ := bind_eq_ok_iff.mp h
  have hread := FileTree.read_mkdir hmkdir
  have hroot : cwd.read [] = none := by
    cases cwd with
    | file => cases hmkdir
    | dir => rfl
  generalize hbase : base.getD (.dir []) = baseDir at h hfree ⊢
  dsimp only at h
  generalize hpaths : (walkFiles remoteDir ++ walkFiles tree ++ walkFiles baseDir).eraseDups =
    paths at h
  have hmem : ∀ rel, rel ∈ paths ↔
      (rel ∈ walkFiles remoteDir ∨ rel ∈ walkFiles tree) ∨ rel ∈ walkFiles baseDir := by
    intro rel
    rw [← hpaths, List.mem_eraseDups, List.mem_append, List.mem_append]
  have htracked : ∀ rel ∈ paths, IsTracked rel := by
    intro rel hrel
    rcases (hmem rel).mp hrel with (hrel | hrel) | hrel
    all_goals exact tracked_of_mem_walk hrel
  have hdivergedMem : ∀ {rel l r}, Diverged baseDir remoteDir cwd rel l r → rel ∈ paths :=
    fun hdiv => (hmem _).mpr (Or.inl (Or.inl (FileTree.mem_walk_of_read hdiv.2.2.1 hdiv.1)))
  have hcell : ∀ {rel l r}, Diverged baseDir remoteDir cwd rel l r →
      cellOf (baseDir.read rel) (cwd.read rel) (remoteDir.read rel) =
        if isBinary l || isBinary r then .backup l r else .merge l r :=
    fun hdiv => cellOf_of_diverged hdiv.2
  have hisBackup : ∀ path c, IsBackup host baseDir remoteDir cwd paths path c →
      ∃ rel r, Diverged baseDir remoteDir cwd rel c r ∧ (isBinary c || isBinary r) = true ∧
        path = backupPath (host.epoch rel) rel := by
    rintro path c ⟨rel, hrel, -, hpath, r, hbackup⟩
    have hdiv : Diverged baseDir remoteDir cwd rel c r :=
      ⟨htracked rel hrel, diverged_of_cellOf (Or.inl hbackup)⟩
    refine ⟨rel, r, hdiv, ?_, hpath⟩
    by_contra hbinary
    rw [hcell hdiv, if_neg hbinary] at hbackup
    cases hbackup
  have hbackups : BackupsFree host baseDir remoteDir cwd paths := by
    intro path c hbackup
    obtain ⟨rel, r, hdiv, hbinary, rfl⟩ := hisBackup path c hbackup
    exact hfree rel c r hdiv hbinary
  have hnodup : ([] ++ paths).Nodup := by
    rw [List.nil_append, ← hpaths]
    exact nodup_eraseDups _
  have hinv : RunInv host baseDir remoteDir cwd paths s :=
    (runInv_start hread).run hroot hnodup (by rw [List.nil_append]; exact hbackups) h
  refine ⟨fun rel hrel => ?_, fun rel l r hdiv hbinary => ?_, fun rel l r hdiv hconflict => ?_⟩
  · have hplain : ∀ c, ¬IsBackup host baseDir remoteDir cwd paths rel c := by
      intro c hbackup
      obtain ⟨path, r, hdiv, hbinary, hpath⟩ := hisBackup rel c hbackup
      exact hrel path c r hdiv hbinary hpath
    rw [hinv.content rel hplain]
    by_cases hin : rel ∈ paths
    · rw [if_pos hin, if_pos (htracked rel hin)]
    · rw [if_neg hin]
      split
      case isFalse => rfl
      case isTrue htrack =>
        have hnone : cwd.read rel = none ∧ remoteDir.read rel = none := by
          constructor
          · by_contra hsome
            obtain ⟨c, hc⟩ := Option.ne_none_iff_exists'.mp hsome
            rw [← hread] at hc
            exact hin ((hmem rel).mpr (Or.inl (Or.inr (FileTree.mem_walk_of_read hc htrack))))
          · by_contra hsome
            obtain ⟨c, hc⟩ := Option.ne_none_iff_exists'.mp hsome
            exact hin ((hmem rel).mpr (Or.inl (Or.inl (FileTree.mem_walk_of_read hc htrack))))
        rw [newContent, hnone.1, hnone.2]
        rfl
  · have hne : rel ≠ [] := by
      rintro rfl
      cases hroot.symm.trans hdiv.2.1
    refine hinv.backup _ l ⟨rel, hdivergedMem hdiv, hne, rfl, r, ?_⟩
    rw [hcell hdiv, if_pos hbinary]
  · refine hinv.conflict rel (hdivergedMem hdiv) l r ?_
    rw [hcell hdiv]
    cases hbinary : isBinary l || isBinary r with
    | true => exact Or.inl rfl
    | false =>
        rw [hbinary] at hconflict
        exact Or.inr ⟨rfl, hconflict.resolve_left Bool.false_ne_true⟩

/-- A file that a side has is not in the place of a backup. -/
theorem ne_backup {rel : Path} (hfree : ∀ rel l r, Diverged baseDir remoteDir cwd rel l r →
      (isBinary l || isBinary r) = true → BackupFree host remoteDir cwd rel)
    (h : cwd.read rel ≠ none ∨ remoteDir.read rel ≠ none) : ∀ path l r,
      Diverged baseDir remoteDir cwd path l r → (isBinary l || isBinary r) = true →
        rel ≠ backupPath (host.epoch path) path := by
  rintro path l r hdiv hbinary rfl
  obtain ⟨hlocal, hremote⟩ := hfree path l r hdiv hbinary
  exact h.elim (fun hsome => hsome hlocal) fun hsome => hsome hremote

theorem newContent_of_diverged {rel : Path} {l r : Bytes}
    (h : Diverged baseDir remoteDir cwd rel l r) : newContent host baseDir remoteDir cwd rel =
      if isBinary l || isBinary r then some r
      else some ((mergeOutcome host baseDir rel l r).stdout.getD []) := by
  rw [newContent, cellOf_of_diverged h.2]
  split <;> rfl

theorem noSideLost_of_merged {s : MergeState} (hmerged : Merged host baseDir remoteDir cwd s)
    (hfree : ∀ rel l r, Diverged baseDir remoteDir cwd rel l r →
      (isBinary l || isBinary r) = true → BackupFree host remoteDir cwd rel)
    (htexts : TextsMerged host baseDir remoteDir cwd) :
    NoSideLost host baseDir remoteDir cwd s where
  took rel r htrack hremote hlocal := by
    have hnot := ne_backup hfree (Or.inr (by rw [hremote]; exact Option.some_ne_none r))
    rw [hmerged.content rel hnot, if_pos htrack, newContent, hremote]
    cases hl : cwd.read rel with
    | none => rfl
    | some l =>
        have hbase : baseDir.read rel = some l := by
          rw [hl] at hlocal
          exact (hlocal.resolve_left (Option.some_ne_none l)).symm
        rw [hbase, cellOf, if_pos rfl]
        split
        case isTrue hsame => rw [hsame]; rfl
        case isFalse => rfl
  kept rel l htrack hlocal hremote := by
    have hnot := ne_backup hfree (Or.inl (by rw [hlocal]; exact Option.some_ne_none l))
    rw [hmerged.content rel hnot, if_pos htrack, newContent, hlocal]
    cases hr : remoteDir.read rel with
    | none => rfl
    | some r =>
        rw [cellOf]
        by_cases hsame : l = r
        · rw [if_pos hsame]
          rfl
        · have hbase : baseDir.read rel = some r := by
            rw [hr] at hremote
            rcases hremote with hnone | hsome | hbase
            · cases hnone
            · exact absurd (Option.some.inj hsome).symm hsame
            · exact hbase.symm
          have hother : ¬some r = some l := fun heq => hsame (Option.some.inj heq).symm
          rw [hbase, if_neg hsame, if_neg hother, if_pos rfl]
          rfl
  diverged rel l r hdiv := by
    have hnot := ne_backup hfree (Or.inl (by rw [hdiv.2.1]; exact Option.some_ne_none l))
    have hcontent := hmerged.content rel hnot
    rw [if_pos hdiv.1, newContent_of_diverged hdiv] at hcontent
    cases hbinary : isBinary l || isBinary r with
    | true =>
        rw [hbinary, if_pos rfl] at hcontent
        exact Or.inr ⟨hcontent, hmerged.backup rel l r hdiv hbinary,
          hmerged.conflict rel l r hdiv (Or.inl hbinary)⟩
    | false =>
        rw [hbinary, if_neg Bool.false_ne_true] at hcontent
        obtain ⟨n, output, houtcome⟩ := htexts rel l r hdiv hbinary
        rw [houtcome] at hcontent
        refine Or.inl ⟨n, output, houtcome, hcontent, fun hn => ?_⟩
        refine hmerged.conflict rel l r hdiv (Or.inr ?_)
        rw [houtcome]
        exact Nat.pos_of_ne_zero hn
  absent rel htrack hlocal hremote := by
    by_cases hbackup : ∃ path l r, Diverged baseDir remoteDir cwd path l r ∧
        (isBinary l || isBinary r) = true ∧ rel = backupPath (host.epoch path) path
    · obtain ⟨path, l, r, hdiv, -, hpath⟩ := hbackup
      exact Or.inr ⟨path, l, r, hdiv, hpath⟩
    · left
      rw [hmerged.content rel fun path l r hdiv hbinary hpath =>
        hbackup ⟨path, l, r, hdiv, hbinary, hpath⟩, if_pos htrack, newContent, hlocal, hremote]
      rfl
  others rel htrack := by
    have hnot : ∀ path l r, Diverged baseDir remoteDir cwd path l r →
        (isBinary l || isBinary r) = true → rel ≠ backupPath (host.epoch path) path := by
      rintro path l r hdiv - rfl
      exact htrack (backupPath_tracked hdiv.1)
    rw [hmerged.content rel hnot, if_neg htrack]

/-- Where no backup is in the way, a merge that `git` does not complete loses a side. -/
theorem textsMerged_of_noSideLost {s : MergeState} (hmerged : Merged host baseDir remoteDir cwd s)
    (hroot : cwd.read [] = none)
    (hfree : ∀ rel l r, Diverged baseDir remoteDir cwd rel l r → BackupFree host remoteDir cwd rel)
    (h : NoSideLost host baseDir remoteDir cwd s) :
    TextsMerged host baseDir remoteDir cwd := by
  intro rel l r hdiv htext
  rcases h.diverged rel l r hdiv with ⟨n, output, houtcome, -⟩ | ⟨-, hbackup, -⟩
  · exact ⟨n, output, houtcome⟩
  · obtain ⟨hlocal, hremote⟩ := hfree rel l r hdiv
    have hne : rel ≠ [] := by
      rintro rfl
      cases hroot.symm.trans hdiv.2.1
    have hnot : ∀ path l' r', Diverged baseDir remoteDir cwd path l' r' →
        (isBinary l' || isBinary r') = true →
          backupPath (host.epoch rel) rel ≠ backupPath (host.epoch path) path := by
      intro path l' r' hdiv' hbinary hpath
      have hne' : path ≠ [] := by
        rintro rfl
        cases hroot.symm.trans hdiv'.2.1
      obtain rfl := backupPath_inj hne hne' hpath
      obtain rfl := Option.some.inj (hdiv.2.1.symm.trans hdiv'.2.1)
      obtain rfl := Option.some.inj (hdiv.2.2.1.symm.trans hdiv'.2.2.1)
      rw [htext] at hbinary
      cases hbinary
    rw [hmerged.content _ hnot, if_pos (backupPath_tracked hdiv.1), newContent, hlocal,
      hremote] at hbackup
    cases hbackup

/-- No side is lost when `git` completes the merge of every two texts that have diverged, and no
backup replaces a file; without a file where a backup may be made, only then. -/
theorem no_side_lost {base : Option Tree} {s : MergeState}
    (h : mergeWorkspaceArchive host cwd remoteDir base = .ok s) :
    ((∀ rel l r, Diverged (base.getD (.dir [])) remoteDir cwd rel l r →
        (isBinary l || isBinary r) = true → BackupFree host remoteDir cwd rel) →
      TextsMerged host (base.getD (.dir [])) remoteDir cwd →
        NoSideLost host (base.getD (.dir [])) remoteDir cwd s) ∧
    ((∀ rel l r, Diverged (base.getD (.dir [])) remoteDir cwd rel l r →
        BackupFree host remoteDir cwd rel) →
      (NoSideLost host (base.getD (.dir [])) remoteDir cwd s ↔
        TextsMerged host (base.getD (.dir [])) remoteDir cwd)) := by
  have hroot : cwd.read [] = none := by
    rw [mergeWorkspaceArchive] at h
    obtain ⟨tree, hmkdir, -⟩ := bind_eq_ok_iff.mp h
    cases cwd with
    | file => cases hmkdir
    | dir => rfl
  refine ⟨fun hfree htexts => noSideLost_of_merged (merged_of_ok h hfree) hfree htexts,
    fun hfree => ?_⟩
  have hbinary : ∀ rel l r, Diverged (base.getD (.dir [])) remoteDir cwd rel l r →
      (isBinary l || isBinary r) = true → BackupFree host remoteDir cwd rel :=
    fun rel l r hdiv _ => hfree rel l r hdiv
  have hmerged := merged_of_ok h hbinary
  exact ⟨textsMerged_of_noSideLost hmerged hroot hfree, noSideLost_of_merged hmerged hbinary⟩

end Merge

/-! ## Two ends of `git` -/

/-- `local` and `remote`, a line each. -/
def localLines : Bytes := [108, 111, 99, 97, 108, 10]

def remoteLines : Bytes := [114, 101, 109, 111, 116, 101, 10]

/-- A tree of one file. -/
def noteTree (content : Bytes) : Tree := .dir [(js "note.txt", .file content)]

/-- A host on which `git` ends in one way. -/
def hostOf (outcome : GitOutcome) : MergeHost where
  mergeFile _ _ _ _ := outcome
  epoch _ := 1780192800

theorem read_noteTree {content c : Bytes} {rel : Path} (h : (noteTree content).read rel = some c) :
    rel = [js "note.txt"] ∧ c = content := by
  cases rel with
  | nil => cases h
  | cons name rel =>
      rw [noteTree, FileTree.read_dir_cons, getEntries] at h
      split at h
      case isTrue hname =>
        cases rel with
        | nil => exact ⟨by rw [hname], (Option.some.inj h).symm⟩
        | cons => cases h
      case isFalse => cases h

theorem no_side_lost_conflict : ∃ s, mergeWorkspaceArchive
      (hostOf (.completed 1 (localLines ++ remoteLines))) (noteTree localLines)
      (noteTree remoteLines) none = .ok s ∧
    NoSideLost (hostOf (.completed 1 (localLines ++ remoteLines))) (.dir [])
      (noteTree remoteLines) (noteTree localLines) s := by
  obtain ⟨s, hs⟩ : ∃ s, mergeWorkspaceArchive
      (hostOf (.completed 1 (localLines ++ remoteLines))) (noteTree localLines)
      (noteTree remoteLines) none = .ok s := ⟨_, rfl⟩
  refine ⟨s, hs, (no_side_lost hs).1 (fun rel l r hdiv hbinary => ?_) fun _ _ _ _ _ => ⟨_, _, rfl⟩⟩
  obtain ⟨-, rfl⟩ := read_noteTree hdiv.2.1
  obtain ⟨-, rfl⟩ := read_noteTree hdiv.2.2.1
  exact absurd hbinary (by decide)

/-- Where `git` cannot be run, the local file is left empty, and no conflict is listed. -/
theorem side_lost_without_git : ¬∀ host cwd remoteDir base s,
    mergeWorkspaceArchive host cwd remoteDir base = .ok s →
      NoSideLost host (base.getD (.dir [])) remoteDir cwd s := by
  intro h
  obtain ⟨s, hs, hread⟩ : ∃ s, mergeWorkspaceArchive (hostOf .notRunnable) (noteTree localLines)
      (noteTree remoteLines) none = .ok s ∧ s.cwd.read [js "note.txt"] = some [] := ⟨_, rfl, rfl⟩
  have hdiverged : Diverged (.dir []) (noteTree remoteLines) (noteTree localLines)
      [js "note.txt"] localLines remoteLines :=
    ⟨by decide, rfl, rfl, by decide, by decide, by decide⟩
  rcases (h _ _ _ _ s hs).diverged _ _ _ hdiverged with ⟨_, _, houtcome, -⟩ | ⟨hremote, -⟩
  · cases houtcome
  · cases hread.symm.trans hremote

end H2a.Workspace
