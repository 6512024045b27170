import H2a.LocalFiles.Locks
/-!
# One process in the critical section

What a process relies on is that nobody else touches a lock file of its own, and
that under its guard nobody else removes the lock file of a dead process.  What it
guarantees is that it removes no other lock files than these.  All depths of the
recovery are covered by the one pair of relations.
-/

namespace H2a.LocalFiles.Locks

open H2a.Library

section Relations

variable {P Token : Type}

/-- The file of a lock, if it is there, and who has published it. -/
def World.lockFile (w : World P Token) (depth : Nat) : Option (LockOwner P Token) :=
  w.files (.lock depth)

/-- What an action of `p` does to the lock of a depth. -/
inductive LockMove (p : P) (w w' : World P Token) (depth : Nat) : Prop where
  | same (h : w'.lockFile depth = w.lockFile depth)
  | published (raw : LockOwner P Token) (hfree : w.lockFile depth = none)
      (h : w'.lockFile depth = some raw) (howner : raw.process = p)
  | released (raw : LockOwner P Token) (hfile : w.lockFile depth = some raw)
      (howner : raw.process = p)
  | reclaimed (raw guard : LockOwner P Token) (hfile : w.lockFile depth = some raw)
      (hdead : w.dead raw.process) (hguard : w.lockFile (depth + 1) = some guard)
      (howner : guard.process = p)

/-- What an action of `p` does. -/
structure Moves (p : P) (w w' : World P Token) : Prop where
  dead : w'.dead = w.dead
  issued : ∀ token q, w.issued token = some q → w'.issued token = some q
  staged : ∀ depth token, w.issued token ≠ some p →
    w'.files (.temporary depth token) = w.files (.temporary depth token)
  locks : ∀ depth, LockMove p w w' depth

/-- What `p` counts on the others for. -/
structure Undisturbed (p : P) (w w' : World P Token) : Prop where
  dead : ∀ q, w.dead q → w'.dead q
  issued : ∀ token q, w.issued token = some q → w'.issued token = some q
  staged : ∀ depth token, w.issued token = some p →
    w'.files (.temporary depth token) = w.files (.temporary depth token)
  mine : ∀ depth raw, w.lockFile depth = some raw → raw.process = p →
    w'.lockFile depth = some raw
  stale : ∀ depth raw guard, w.lockFile depth = some raw → w.dead raw.process →
    w.lockFile (depth + 1) = some guard → guard.process = p → w'.lockFile depth = some raw

variable {p q : P} {w w' w'' : World P Token}

theorem Undisturbed.refl (p : P) (w : World P Token) : Undisturbed p w w :=
  ⟨fun _ h => h, fun _ _ h => h, fun _ _ _ => rfl, fun _ _ h _ => h, fun _ _ _ h _ _ _ => h⟩

theorem Undisturbed.trans (h : Undisturbed p w w') (h' : Undisturbed p w' w'') :
    Undisturbed p w w'' where
  dead q hq := h'.dead q (h.dead q hq)
  issued token q hq := h'.issued token q (h.issued token q hq)
  staged depth token htoken :=
    (h'.staged depth token (h.issued token p htoken)).trans (h.staged depth token htoken)
  mine depth raw hfile howner := h'.mine depth raw (h.mine depth raw hfile howner) howner
  stale depth raw guard hfile hdead hguard howner :=
    h'.stale depth raw guard (h.stale depth raw guard hfile hdead hguard howner)
      (h.dead _ hdead) (h.mine _ guard hguard howner) howner

/-- What a live process does is what the other live processes count on. -/
theorem Moves.undisturbed (h : Moves p w w') (hne : p ≠ q) (hp : w.alive p) (hq : w.alive q) :
    Undisturbed q w w' := by
  simp only [World.alive, Bool.not_eq_true'] at hp hq
  refine ⟨fun r hr => h.dead ▸ hr, h.issued, fun depth token htoken => ?_, ?_, ?_⟩
  · refine h.staged depth token fun hp => hne ?_
    exact Option.some.inj (hp.symm.trans htoken)
  · intro depth raw hfile howner
    cases h.locks depth with
    | same hsame => exact hsame.trans hfile
    | published raw' hfree => simp [hfile] at hfree
    | released raw' hfile' howner' =>
        obtain rfl := Option.some.inj (hfile.symm.trans hfile')
        exact (hne (howner'.symm.trans howner)).elim
    | reclaimed raw' guard hfile' hdead =>
        obtain rfl := Option.some.inj (hfile.symm.trans hfile')
        rw [howner, hq] at hdead
        simp at hdead
  · intro depth raw guard hfile hdead hguard howner
    cases h.locks depth with
    | same hsame => exact hsame.trans hfile
    | published raw' hfree => simp [hfile] at hfree
    | released raw' hfile' howner' =>
        obtain rfl := Option.some.inj (hfile.symm.trans hfile')
        rw [howner', hp] at hdead
        simp at hdead
    | reclaimed raw' guard' hfile' hdead' hguard' howner' =>
        obtain rfl := Option.some.inj (hguard.symm.trans hguard')
        exact (hne (howner'.symm.trans howner)).elim

/-- The lock of `depth` is held by `p`. -/
def Holds (p : P) (depth : Nat) (w : World P Token) : Prop :=
  ∃ raw, w.lockFile depth = some raw ∧ raw.process = p

theorem Holds.stable {depth : Nat} (h : Holds p depth w) (hw : Undisturbed p w w') :
    Holds p depth w' := by
  obtain ⟨raw, hfile, howner⟩ := h
  exact ⟨raw, hw.mine depth raw hfile howner, howner⟩

theorem Moves.refl (p : P) (w : World P Token) : Moves p w w :=
  ⟨rfl, fun _ _ h => h, fun _ _ _ => rfl, fun _ => .same rfl⟩

/-- What is claimed when `p` enters the critical section: it holds the lock. -/
def Due (p : P) (w : World P Token) : Op P Token → Prop
  | .section_ => Holds p 0 w
  | _ => True

end Relations

section Actions

variable {P Token : Type} {p : P}

theorem undisturbed_crash [DecidableEq P] (p q : P) (w : World P Token) : Undisturbed q w (w.crash p) := by
  refine ⟨fun r hr => ?_, fun _ _ h => h, fun _ _ _ => rfl, fun _ _ h _ => h,
    fun _ _ _ h _ _ _ => h⟩
  by_cases hrp : r = p
  · simp [World.crash, hrp]
  · simpa [World.crash, hrp] using hr

variable [DecidableEq Token] {w : World P Token}

/-- Only a lock file of the given depth is written. -/
theorem Moves.lock {depth : Nat} {file : Option (LockOwner P Token)}
    (h : LockMove p w (w.write (.lock depth) file) depth) :
    Moves p w (w.write (.lock depth) file) := by
  refine ⟨rfl, fun _ _ h => h, fun _ _ _ => ?_, fun depth' => ?_⟩
  · simp [World.write]
  · by_cases hdepth : depth' = depth
    · exact hdepth ▸ h
    · exact .same (by simp [World.lockFile, World.write, hdepth])

/-- A private file of `p` is written or removed. -/
theorem Moves.temporary {depth : Nat} {token : Token} {file : Option (LockOwner P Token)}
    (h : w.issued token = some p) : Moves p w (w.write (.temporary depth token) file) := by
  refine ⟨rfl, fun _ _ h => h, fun depth' token' htoken => ?_, fun depth' => .same ?_⟩
  · have hne : token' ≠ token := by
      rintro rfl
      exact htoken h
    simp [World.write, hne]
  · simp [World.lockFile, World.write]

theorem Moves.quarantine {depth : Nat} {token : Token} {file : Option (LockOwner P Token)} :
    Moves p w (w.write (.quarantine depth token) file) :=
  ⟨rfl, fun _ _ h => h, fun _ _ _ => by simp [World.write],
    fun _ => .same (by simp [World.lockFile, World.write])⟩

theorem Moves.issue {token : Token} (h : w.issued token = none) :
    Moves p w { w with issued := Function.update w.issued token (some p) } := by
  refine ⟨rfl, fun token' q htoken => ?_, fun _ _ _ => rfl, fun _ => .same rfl⟩
  have hne : token' ≠ token := by
    rintro rfl
    simp [h] at htoken
  simpa [Function.update_of_ne hne] using htoken

end Actions

/-! ## Programs -/

section Programs

variable {P Token Stats : Type} [DecidableEq Token]

/-- What holds of a program of `p` among the others. -/
abbrev Right {α : Type} (p : P) (post : World P Token → α → Prop)
    (fail : World P Token → LockError P Token → Prop) (w : World P Token)
    (script : Prog P Token Stats α) : Prop :=
  Script.Sat (Undisturbed p) (Due p) (Moves p) (Interleave.Effect perform p) post fail w script

/-- The actions that only look. -/
def Op.looks : Op P Token → Bool
  | .exists_ _ => true
  | .openFile _ => true
  | .fstat _ => true
  | .lstat _ => true
  | .readFile _ => true
  | .reclaimable _ => true
  | _ => false

theorem perform_looks {p : P} {w w' : World P Token} {o : Op P Token} {choice : Choice Token Stats}
    {a : Op.Answer Stats o} (ho : o.looks = true) (h : perform p w o choice = some (a, w')) :
    w' = w := by
  cases o with
  | reclaimable raw =>
      simp only [perform, Option.ite_none_right_eq_some, Option.some.injEq, Prod.mk.injEq] at h
      exact h.2.2.symm
  | randomBytes => simp [Op.looks] at ho
  | stage name raw => simp [Op.looks] at ho
  | link existing new => simp [Op.looks] at ho
  | unlink name => simp [Op.looks] at ho
  | section_ => simp [Op.looks] at ho
  | _ =>
      simp only [perform, Option.some.injEq, Prod.mk.injEq] at h
      exact h.2.symm

variable {α : Type} {p : P} {w : World P Token}
variable {post : World P Token → α → Prop} {fail : World P Token → LockError P Token → Prop}

theorem Right.pure {a : α} (h : ∀ w', Undisturbed p w w' → post w' a) :
    Right p post fail w (Pure.pure a : Prog P Token Stats α) :=
  h

theorem Right.seq {β : Type} {post : World P Token → β → Prop} {script : Prog P Token Stats α}
    {f : α → Prog P Token Stats β}
    (h : Right p (fun w a => Right p post fail w (f a)) fail w script) :
    Right p post fail w (script >>= f) :=
  h.bind (Undisturbed.refl p)

/-- Only what is there is looked at. -/
theorem Right.look {o : Op P Token} (ho : o.looks = true)
    {f : Op.Answer Stats o → Prog P Token Stats α}
    (h : ∀ w' a, Undisturbed p w w' → Interleave.Effect perform p w' o a w' →
      Right p post fail w' (f a)) : Right p post fail w (io Stats o >>= f) := by
  refine fun w' hw => ⟨by cases o <;> trivial, ?_⟩
  rintro a w'' ⟨choice, hperform⟩
  obtain rfl := perform_looks ho hperform
  exact ⟨Moves.refl p _, h _ a hw ⟨choice, hperform⟩⟩

/-- What is read is what the file is then. -/
theorem Right.readFile {name : Name Token}
    {f : Except Errno (LockOwner P Token) → Prog P Token Stats α}
    (h : ∀ w' a, Undisturbed p w w' → (∀ raw, a = .ok raw → w'.files name = some raw) →
      Right p post fail w' (f a)) : Right p post fail w (io Stats (.readFile name) >>= f) := by
  refine Right.look rfl fun w' a hw heffect => h w' a hw fun raw hraw => ?_
  obtain ⟨choice, hperform⟩ := heffect
  simp only [perform, Option.some.injEq, Prod.mk.injEq, and_true] at hperform
  cases hfile : w'.files name with
  | none => simp [hfile, hraw] at hperform
  | some found => simpa [hfile, hraw] using hperform

theorem Right.reclaimable {raw : LockOwner P Token} {f : Bool → Prog P Token Stats α}
    (h : ∀ w' a, Undisturbed p w w' → (a = true → w'.dead raw.process) →
      Right p post fail w' (f a)) : Right p post fail w (io Stats (.reclaimable raw) >>= f) := by
  refine Right.look rfl fun w' a hw heffect => h w' a hw fun hdead => ?_
  obtain ⟨choice, hperform⟩ := heffect
  simp only [perform, Option.ite_none_right_eq_some, Option.some.injEq, Prod.mk.injEq,
    and_true] at hperform
  exact hperform.1 (hperform.2.trans hdead)

theorem Right.section_ {f : Bool → Prog P Token Stats α} (hholds : Holds p 0 w)
    (h : ∀ w' a, Undisturbed p w w' → Right p post fail w' (f a)) :
    Right p post fail w (io Stats .section_ >>= f) := by
  refine fun w' hw => ⟨hholds.stable hw, fun a w'' heffect => ?_⟩
  obtain ⟨choice, hperform⟩ := heffect
  simp only [perform, Option.some.injEq, Prod.mk.injEq] at hperform
  obtain ⟨-, rfl⟩ := hperform
  exact ⟨Moves.refl p _, h _ a hw⟩

theorem Right.randomBytes {f : Token → Prog P Token Stats α}
    (h : ∀ w₁ w' token, Undisturbed p w w₁ → w' = { w₁ with
      issued := Function.update w₁.issued token (some p) } → Right p post fail w' (f token)) :
    Right p post fail w (io Stats .randomBytes >>= f) := by
  refine fun w' hw => ⟨trivial, fun token w'' heffect => ?_⟩
  obtain ⟨choice, hperform⟩ := heffect
  simp only [perform, Option.ite_none_right_eq_some, Option.some.injEq, Prod.mk.injEq] at hperform
  obtain ⟨hnew, rfl, rfl⟩ := hperform
  exact ⟨Moves.issue hnew, h w' _ _ hw rfl⟩

/-- Private files, the ones of an own token. -/
theorem Right.stage {depth : Nat} {token : Token} {raw : LockOwner P Token}
    {f : Except Errno Stats → Prog P Token Stats α} (htoken : w.issued token = some p)
    (h : ∀ w' a, w'.issued token = some p →
      (∀ stat, a = .ok stat → w'.files (.temporary depth token) = some raw) →
      Right p post fail w' (f a)) :
    Right p post fail w (io Stats (.stage (.temporary depth token) raw) >>= f) := by
  refine fun w' hw => ⟨trivial, fun a w'' heffect => ?_⟩
  obtain ⟨choice, hperform⟩ := heffect
  have htoken' := hw.issued token p htoken
  cases hfile : w'.files (.temporary depth token) with
  | some found =>
      simp only [perform, hfile, Option.some.injEq, Prod.mk.injEq] at hperform
      obtain ⟨rfl, rfl⟩ := hperform
      exact ⟨Moves.refl p _, h w' _ htoken' (by simp)⟩
  | none =>
      simp only [perform, hfile, Option.some.injEq, Prod.mk.injEq] at hperform
      obtain ⟨rfl, rfl⟩ := hperform
      exact ⟨Moves.temporary htoken', h _ _ htoken' fun _ _ => by simp [World.write]⟩

theorem Right.unlinkTemporary {depth : Nat} {token : Token}
    {f : Except Errno Unit → Prog P Token Stats α} (htoken : w.issued token = some p)
    (h : ∀ w' a, w'.issued token = some p → (∀ depth raw, w.lockFile depth = some raw →
      raw.process = p → w'.lockFile depth = some raw) → Right p post fail w' (f a)) :
    Right p post fail w (io Stats (.unlink (.temporary depth token)) >>= f) := by
  refine fun w' hw => ⟨trivial, fun a w'' heffect => ?_⟩
  obtain ⟨choice, hperform⟩ := heffect
  have htoken' := hw.issued token p htoken
  cases hfile : w'.files (.temporary depth token) with
  | none =>
      simp only [perform, hfile, Option.some.injEq, Prod.mk.injEq] at hperform
      obtain ⟨rfl, rfl⟩ := hperform
      exact ⟨Moves.refl p _, h w' _ htoken' hw.mine⟩
  | some found =>
      simp only [perform, hfile, Option.some.injEq, Prod.mk.injEq] at hperform
      obtain ⟨rfl, rfl⟩ := hperform
      refine ⟨Moves.temporary htoken', h _ _ htoken' fun depth raw hlock howner => ?_⟩
      simpa [World.lockFile, World.write] using hw.mine depth raw hlock howner

/-- The lock is free, or the link fails. -/
theorem Right.link {depth : Nat} {token : Token} {raw : LockOwner P Token}
    {f : Except Errno Unit → Prog P Token Stats α} (htoken : w.issued token = some p)
    (hfile : w.files (.temporary depth token) = some raw) (howner : raw.process = p)
    (h : ∀ w' a, w'.issued token = some p → (a = .ok () → w'.lockFile depth = some raw) →
      Right p post fail w' (f a)) :
    Right p post fail w (io Stats (.link (.temporary depth token) (.lock depth)) >>= f) := by
  refine fun w' hw => ⟨trivial, fun a w'' heffect => ?_⟩
  obtain ⟨choice, hperform⟩ := heffect
  have htoken' := hw.issued token p htoken
  have hfile' := (hw.staged depth token htoken).trans hfile
  cases hlock : w'.files (.lock depth) with
  | some found =>
      simp only [perform, hfile', hlock, Option.some.injEq, Prod.mk.injEq] at hperform
      obtain ⟨rfl, rfl⟩ := hperform
      exact ⟨Moves.refl p _, h w' _ htoken' (by simp)⟩
  | none =>
      simp only [perform, hfile', hlock, Option.some.injEq, Prod.mk.injEq] at hperform
      obtain ⟨rfl, rfl⟩ := hperform
      have hnow : (w'.write (.lock depth) (some raw)).lockFile depth = some raw := by
        simp [World.lockFile, World.write]
      exact ⟨Moves.lock (.published raw hlock hnow howner), h _ _ htoken' fun _ => hnow⟩

/-- The removal of a lock file that is `p`'s own, or a dead process's under `p`'s guard. -/
theorem Right.unlinkLock {depth : Nat} {raw : LockOwner P Token}
    {f : Except Errno Unit → Prog P Token Stats α} (hfile : w.lockFile depth = some raw)
    (hmay : raw.process = p ∨ w.dead raw.process ∧ Holds p (depth + 1) w)
    (h : ∀ w' a, (∀ token q, w.issued token = some q → w'.issued token = some q) →
      Right p post fail w' (f a)) :
    Right p post fail w (io Stats (.unlink (.lock depth)) >>= f) := by
  refine fun w' hw => ⟨trivial, fun a w'' heffect => ?_⟩
  obtain ⟨choice, hperform⟩ := heffect
  have hmove : ∀ w'', w'' = w'.write (.lock depth) none → LockMove p w' w'' depth := by
    rintro w'' rfl
    rcases hmay with howner | ⟨hdead, guard, hguard, howner⟩
    · exact .released raw (hw.mine depth raw hfile howner) howner
    · exact .reclaimed raw guard (hw.stale depth raw guard hfile hdead hguard howner)
        (hw.dead _ hdead) (hw.mine _ guard hguard howner) howner
  cases hlock : w'.files (.lock depth) with
  | none =>
      simp only [perform, hlock, Option.some.injEq, Prod.mk.injEq] at hperform
      obtain ⟨rfl, rfl⟩ := hperform
      exact ⟨Moves.refl p _, h w' _ hw.issued⟩
  | some found =>
      simp only [perform, hlock, Option.some.injEq, Prod.mk.injEq] at hperform
      obtain ⟨rfl, rfl⟩ := hperform
      exact ⟨Moves.lock (hmove _ rfl), h _ _ hw.issued⟩

theorem Right.stageBackup {depth : Nat} {token : Token} {raw : LockOwner P Token}
    {f : Except Errno Stats → Prog P Token Stats α}
    (h : ∀ w' a, (∀ q, w.dead q → w'.dead q) → (∀ depth raw, w.lockFile depth = some raw →
      raw.process = p → w'.lockFile depth = some raw) → Right p post fail w' (f a)) :
    Right p post fail w (io Stats (.stage (.quarantine depth token) raw) >>= f) := by
  refine fun w' hw => ⟨trivial, fun a w'' heffect => ?_⟩
  obtain ⟨choice, hperform⟩ := heffect
  cases hfile : w'.files (.quarantine depth token) with
  | some found =>
      simp only [perform, hfile, Option.some.injEq, Prod.mk.injEq] at hperform
      obtain ⟨rfl, rfl⟩ := hperform
      exact ⟨Moves.refl p _, h w' _ hw.dead hw.mine⟩
  | none =>
      simp only [perform, hfile, Option.some.injEq, Prod.mk.injEq] at hperform
      obtain ⟨rfl, rfl⟩ := hperform
      refine ⟨Moves.quarantine, h _ _ hw.dead fun depth raw hlock howner => ?_⟩
      simpa [World.lockFile, World.write] using hw.mine depth raw hlock howner

theorem Right.stable {w' : World P Token} {script : Prog P Token Stats α}
    (h : Right p post fail w script) (hw : Undisturbed p w w') : Right p post fail w' script :=
  Script.Sat.stable (fun _ _ _ => Undisturbed.trans) h hw

/-- What follows a `return`. -/
theorem Right.ret {β : Type} {r : β} {f : β → Prog P Token Stats α}
    (h : Right p post fail w (f r)) : Right p (fun w a => Right p post fail w (f a)) fail w
      (Pure.pure r : Prog P Token Stats β) :=
  Right.pure fun _ hw => h.stable hw

theorem Right.attempt {script : Prog P Token Stats Unit}
    {f : Except (LockError P Token) Unit → Prog P Token Stats α} {I : World P Token → Prop}
    (hscript : Right p (fun w _ => I w) (fun w _ => I w) w script)
    (h : ∀ w' r, I w' → Right p post fail w' (f r)) :
    Right p post fail w (script.attempt >>= f) :=
  Right.seq (Script.Sat.attempt (hscript.mono (fun w _ hw => h w _ hw) fun w _ hw => h w _ hw))

/-! ## The functions of the source -/

section Functions

variable [DecidableEq P] [DecidableEq Stats]

/-- If the file is found unchanged, it is what was seen. -/
theorem Right.unchanged {name : Name Token} {previous : LockCapture P Token Stats}
    {f : Bool → Prog P Token Stats α} (h : ∀ w' r, Undisturbed p w w' →
      (r = true → w'.files name = some previous.raw) → Right p post fail w' (f r)) :
    Right p post fail w (Locks.unchanged name previous >>= f) := by
  refine Right.seq (Right.look rfl fun w₁ stat hw₁ _ => ?_)
  cases stat with
  | error code => exact Right.ret (h w₁ false hw₁ (by simp))
  | ok stat =>
      show Right p _ fail w₁ (if stat = previous.stat then _ else _)
      split
      · refine Right.readFile fun w₂ raw hw₂ hraw => ?_
        cases raw with
        | error code => exact Right.ret (h w₂ false (hw₁.trans hw₂) (by simp))
        | ok raw =>
            refine Right.ret (h w₂ _ (hw₁.trans hw₂) fun heq => ?_)
            rw [← of_decide_eq_true heq]
            exact hraw raw rfl
      · exact Right.ret (h w₁ false hw₁ (by simp))

theorem Right.capture {name : Name Token}
    {f : Option (LockCapture P Token Stats) → Prog P Token Stats α}
    (h : ∀ w' r, Undisturbed p w w' → Right p post fail w' (f r)) :
    Right p post fail w (Locks.capture name >>= f) := by
  refine Right.seq (Right.look rfl fun w₁ fd hw₁ _ => ?_)
  cases fd with
  | error code => exact Right.ret (h w₁ none hw₁)
  | ok fd =>
      refine Right.look rfl fun w₂ stat hw₂ _ => ?_
      refine Right.unchanged fun w₃ r hw₃ _ => ?_
      have hw := (hw₁.trans hw₂).trans hw₃
      cases r with
      | true => exact Right.ret (h w₃ _ hw)
      | false => exact Right.ret (h w₃ _ hw)

/-- A process releases what it has published itself. -/
theorem Right.release {depth : Nat} {owned : LockCapture P Token Stats}
    {post : World P Token → Unit → Prop} (howner : owned.raw.process = p)
    (hpost : ∀ w', (∀ token q, w.issued token = some q → w'.issued token = some q) → post w' ())
    (hfail : ∀ w' error, (∀ token q, w.issued token = some q → w'.issued token = some q) →
      fail w' error) :
    Right p post fail w (Locks.release (.lock depth) owned) := by
  refine Right.unchanged fun w₁ r hw₁ hr => ?_
  cases r with
  | false => exact Right.pure fun w₂ hw₂ => hpost w₂ (hw₁.trans hw₂).issued
  | true =>
      refine Right.unlinkLock (hr rfl) (.inl howner) fun w₂ a hissued => ?_
      cases a with
      | ok u =>
          intro w₃ hw₃
          exact hpost w₃ fun token q h => hw₃.issued token q (hissued token q (hw₁.issued token q h))
      | error code =>
          intro w₃ hw₃
          exact hfail w₃ _ fun token q h =>
            hw₃.issued token q (hissued token q (hw₁.issued token q h))

/-- The lock of `depth` is held under the record that `p` has captured. -/
def Owned (p : P) (depth : Nat) (w : World P Token) (owned : LockCapture P Token Stats) : Prop :=
  w.lockFile depth = some owned.raw ∧ owned.raw.process = p

theorem Right.publish {depth : Nat} {token : Token}
    {f : Publication P Token Stats → Prog P Token Stats α} (htoken : w.issued token = some p)
    (hacquired : ∀ w' owned, w'.issued token = some p → Owned p depth w' owned →
      Right p post fail w' (f (.acquired owned)))
    (hthrew : ∀ w' error published, w'.issued token = some p →
      (∀ owned, published = some owned → owned.raw.process = p) →
      Right p post fail w' (f (.threw error published))) :
    Right p post fail w (Locks.publish depth ⟨p, token⟩ >>= f) := by
  have hrefused : ∀ w' error, w'.issued token = some p → Right p post fail w' (f (.threw error none)) :=
    fun w' error h => hthrew w' error none h (by simp)
  have hlost : ∀ w' error (owned : LockCapture P Token Stats), w'.issued token = some p →
      owned.raw.process = p → Right p post fail w' (f (.threw error (some owned))) :=
    fun w' error owned h howner => hthrew w' error (some owned) h (by simpa using howner)
  refine Right.seq (Right.look rfl fun w₁ there hw₁ _ => ?_)
  have h₁ := hw₁.issued token p htoken
  cases there with
  | true => exact Right.ret (hrefused w₁ _ h₁)
  | false =>
      refine Right.stage h₁ fun w₂ stat h₂ hstaged => ?_
      cases stat with
      | error code => exact Right.ret (hrefused w₂ _ h₂)
      | ok stat =>
          refine Right.link h₂ (hstaged stat rfl) rfl fun w₃ linked h₃ hlinked => ?_
          cases linked with
          | error code => exact Right.ret (hrefused w₃ _ h₃)
          | ok u =>
              refine Right.unlinkTemporary h₃ fun w₄ unlinked h₄ hkept => ?_
              have hlock := hkept depth _ (hlinked rfl) rfl
              cases unlinked with
              | error code => exact Right.ret (hlost w₄ _ _ h₄ rfl)
              | ok u =>
                  refine Right.capture fun w₅ found hw₅ => ?_
                  have h₅ := hw₅.issued token p h₄
                  cases found with
                  | none => exact Right.ret (hlost w₅ _ _ h₅ rfl)
                  | some found =>
                      show Right p _ fail w₅ (if found.raw = _ then _ else _)
                      split
                      · rename_i hraw
                        refine Right.ret (hacquired w₅ found h₅ ⟨?_, by rw [hraw]⟩)
                        rw [hraw]
                        exact hw₅.mine depth _ hlock rfl
                      · exact Right.ret (hlost w₅ _ _ h₅ rfl)

/-- A lock is acquired, or something else is seen there. -/
theorem Right.contend {depth : Nat}
    {f : LockCapture P Token Stats ⊕ Option (LockCapture P Token Stats) → Prog P Token Stats α}
    (howned : ∀ w' owned, Owned p depth w' owned → Right p post fail w' (f (.inl owned)))
    (hseen : ∀ w' seen, Right p post fail w' (f (.inr seen))) (hfail : ∀ w' error, fail w' error) :
    Right p post fail w (Locks.contend p depth >>= f) := by
  refine Right.seq (Right.randomBytes fun w₁ w₂ token hw₁ hw₂ => ?_)
  have h₂ : w₂.issued token = some p := by simp [hw₂]
  refine Right.publish h₂ (fun w₃ owned h₃ hheld => ?_) fun w₃ error published h₃ hpublished => ?_
  · refine Right.unlinkTemporary h₃ fun w₄ _ _ hkept => ?_
    exact Right.ret (howned w₄ owned ⟨hkept depth _ hheld.1 hheld.2, hheld.2⟩)
  · have hreleased : Right p (fun w _ => w.issued token = some p) (fun w _ => w.issued token = some p)
        w₃ (releasePublished depth published) := by
      cases published with
      | none => exact Right.pure fun w₄ hw₄ => hw₄.issued token p h₃
      | some owned =>
          exact Right.release (hpublished owned rfl) (fun w₄ h => h token p h₃) fun w₄ _ h =>
            h token p h₃
    refine Right.attempt hreleased fun w₄ released h₄ => ?_
    refine Right.unlinkTemporary h₄ fun w₅ _ _ _ => ?_
    cases released with
    | error e => exact fun w₆ _ => hfail w₆ e
    | ok u =>
        show Right p _ fail w₅ (if error = _ then _ else _)
        split
        · exact Right.capture fun w₆ seen _ => Right.ret (hseen w₆ seen)
        · exact fun w₆ _ => hfail w₆ error

/-- Under the guard, a lock file is removed that has been there since its owner died. -/
theorem Right.reclaim {depth : Nat} {seen : LockCapture P Token Stats}
    {post : World P Token → Unit → Prop} (hguard : Holds p (depth + 1) w)
    (hpost : ∀ w', post w' ()) (hfail : ∀ w' error, fail w' error) :
    Right p post fail w (Locks.reclaim depth seen) := by
  refine Right.unchanged fun w₁ same hw₁ _ => ?_
  have hguard₁ := hguard.stable hw₁
  cases same with
  | false => exact Right.pure fun w _ => hpost w
  | true =>
      refine Right.reclaimable fun w₂ dead hw₂ hdead => ?_
      have hguard₂ := hguard₁.stable hw₂
      cases dead with
      | false => exact Right.pure fun w _ => hpost w
      | true =>
          refine Right.randomBytes fun w₃ w₄ token hw₃ hw₄ => ?_
          have hdead₄ : w₄.dead seen.raw.process := by
            rw [hw₄]
            exact hw₃.dead _ (hdead rfl)
          have hguard₄ : Holds p (depth + 1) w₄ := by
            have hguard₃ := hguard₂.stable hw₃
            rw [hw₄]
            exact hguard₃
          refine Right.stageBackup fun w₅ staged hdead₅ hmine => ?_
          obtain ⟨guard, hfile, howner⟩ := hguard₄
          have hguard₅ : Holds p (depth + 1) w₅ := ⟨guard, hmine _ _ hfile howner, howner⟩
          cases staged with
          | error code => exact fun w _ => hfail w _
          | ok stat =>
              refine Right.unchanged fun w₆ same hw₆ hsame => ?_
              cases same with
              | false => exact Right.pure fun w _ => hpost w
              | true =>
                  refine Right.unlinkLock (hsame rfl)
                    (.inr ⟨hw₆.dead _ (hdead₅ _ hdead₄), hguard₅.stable hw₆⟩) fun w₇ a _ => ?_
                  cases a with
                  | ok u => exact fun w _ => hpost w
                  | error code => exact fun w _ => hfail w _

/-- What `acquire` returns is held, at every depth of the recovery. -/
theorem Right.acquire {remaining : Nat} {reclaimStale : Bool} {depth : Nat}
    {f : Acquired P Token Stats → Prog P Token Stats α}
    (howned : ∀ w' owned, Owned p depth w' owned → Right p post fail w' (f (.ok owned)))
    (hrefused : ∀ w' lastSeen, Right p post fail w' (f (.refused lastSeen)))
    (hfail : ∀ w' error, fail w' error) :
    Right p post fail w (Locks.acquire p remaining reclaimStale depth >>= f) := by
  induction remaining generalizing α reclaimStale depth w with
  | zero =>
      refine Right.seq (Right.contend (fun w₁ owned h => ?_) (fun w₁ seen => ?_) hfail)
      · exact Right.ret (howned w₁ owned h)
      · exact Right.ret (hrefused w₁ _)
  | succ remaining ih =>
      refine Right.seq (Right.contend (fun w₁ owned h => ?_) (fun w₁ seen => ?_) hfail)
      · exact Right.ret (howned w₁ owned h)
      · cases seen with
        | none => exact Right.ret (hrefused w₁ _)
        | some seen =>
            cases reclaimStale with
            | false => exact Right.ret (hrefused w₁ _)
            | true =>
                refine Right.look rfl fun w₂ dead _ _ => ?_
                cases dead with
                | false => exact Right.ret (hrefused w₂ _)
                | true =>
                    refine ih (fun w₃ guard hheld => ?_) fun w₃ _ => Right.ret (hrefused w₃ _)
                    -- what `reclaim` leaves the guard is still released
                    refine Right.attempt (I := fun _ => True)
                      (Right.reclaim ⟨guard.raw, hheld⟩ (fun _ => trivial) fun _ _ => trivial)
                      fun w₄ done _ => ?_
                    refine Right.seq (Right.release hheld.2 (fun w₅ _ => ?_) fun w₅ _ _ => hfail w₅ _)
                    cases done with
                    | ok u => exact Right.ret (hrefused w₅ _)
                    | error error => exact fun w₆ _ => hfail w₆ error

theorem right_withLockSync (p : P) (reclaimStale : Bool) (attempts : Nat)
    (lastSeen : Option (LockOwner P Token)) (w : World P Token) :
    Right p (fun _ _ => True) (fun _ _ => True) w
      (withLockSync p reclaimStale attempts lastSeen : Prog P Token Stats Unit) := by
  induction attempts generalizing lastSeen w with
  | zero => exact fun _ _ => trivial
  | succ attempts ih =>
      refine Right.acquire (fun w₁ owned hheld => ?_) (fun w₁ seen => ih _ w₁) fun _ _ => trivial
      refine Right.section_ ⟨owned.raw, hheld⟩ fun w₂ returned _ => ?_
      refine Right.attempt (I := fun _ => True)
        (Right.release hheld.2 (fun _ _ => trivial) fun _ _ _ => trivial) fun w₃ _ _ => ?_
      cases returned with
      | true => exact Right.pure fun _ _ => trivial
      | false => exact fun _ _ => trivial

/-! ## Every state reached -/

theorem relyGuarantee : Interleave.RelyGuarantee
    (script : P → Call → Prog P Token Stats Unit) World.alive World.crash perform
    Undisturbed Moves Due where
  refl := Undisturbed.refl
  trans _ _ _ _ := Undisturbed.trans
  sat p c w _ := right_withLockSync p c.reclaimStale c.attempts none w
  others hne hp hq h := h.undisturbed hne hp hq
  crashes _ := undisturbed_crash _ _ _
  alive_guar h hq := by simpa [World.alive, h.dead] using hq
  alive_crash {p q w} hq := by
    by_cases hqp : q = p
    · simp [World.alive, World.crash, hqp] at hq
    · simpa [World.alive, World.crash, hqp] using hq

variable {s t : System P Token Stats}

theorem holds_of_inside (hrun : Reaches Step System.initial s) (h : s.inside p = true) :
    Holds p 0 s.world := by
  unfold System.inside at h
  split at h
  · rename_i k hrunning
    exact (relyGuarantee.invariant (fun _ => rfl) hrun h hrunning).1
  · simp at h

/-- At most one live process is in the critical section, and the lock file of a live
process, at any depth, is removed by that process only. -/
theorem lock_exclusive (hrun : Reaches Step System.initial s) :
    (∀ p q, s.inside p = true → s.inside q = true → p = q) ∧
      ∀ a t, step s a = some t → ∀ depth raw, s.world.lockFile depth = some raw →
        t.world.lockFile depth ≠ some raw → s.world.alive raw.process = true →
          raw.process = a.process := by
  constructor
  · intro p q hp hq
    obtain ⟨raw, hfile, howner⟩ := holds_of_inside hrun hp
    obtain ⟨raw', hfile', howner'⟩ := holds_of_inside hrun hq
    obtain rfl := Option.some.inj (hfile.symm.trans hfile')
    exact howner.symm.trans howner'
  · intro a t hstep depth raw hfile hgone halive
    cases a with
    | call p c =>
        simp only [step, Interleave.step, Option.ite_none_right_eq_some, Option.some.injEq] at hstep
        obtain ⟨-, rfl⟩ := hstep
        exact (hgone hfile).elim
    | crash p =>
        simp only [step, Interleave.step, Option.some.injEq] at hstep
        subst hstep
        exact (hgone hfile).elim
    | act p choice =>
        simp only [step, Interleave.step] at hstep
        split at hstep
        · rename_i o k hrunning
          split at hstep
          · rename_i hp
            obtain ⟨⟨answer, w⟩, hdone, rfl⟩ := Option.map_eq_some_iff.mp hstep
            have hmoves := (relyGuarantee.invariant (fun _ => rfl) hrun hp hrunning).2 answer w
              ⟨choice, hdone⟩
            cases hmoves.locks depth with
            | same h => exact (hgone (h.trans hfile)).elim
            | published raw' hfree => simp [hfile] at hfree
            | released raw' hfile' howner =>
                obtain rfl := Option.some.inj (hfile.symm.trans hfile')
                exact howner
            | reclaimed raw' guard hfile' hdead =>
                obtain rfl := Option.some.inj (hfile.symm.trans hfile')
                simp [World.alive, hdead] at halive
          · simp at hstep
        · simp at hstep

end Functions

end Programs

/-! A process dies in the critical section, another recovers its lock. -/

/-- The first process gets as far as its `fn`, dies there, and the second calls twice. -/
def recovery : List (Interleave.Action Bool Call (Choice Nat Unit)) :=
  Interleave.Action.call false ⟨1, true⟩ ::
    (List.range 10).map (fun n => Interleave.Action.act false ⟨n, (), true⟩) ++
    Interleave.Action.crash false :: .call true ⟨2, true⟩ ::
      (List.range 39).map fun n => .act true ⟨10 + n, (), true⟩

theorem inside_recovery :
    (runs step (fun _ _ => True) recovery System.initial).map
      (fun s : System Bool Nat Unit => (s.inside true, s.world.alive false)) =
        some (true, false) := by
  decide +kernel

theorem lock_exclusive_recovery :
    ∃ s : System Bool Nat Unit, s.inside true = true ∧
      ∀ p q, s.inside p = true → s.inside q = true → p = q := by
  obtain ⟨s, hruns, hs⟩ := Option.map_eq_some_iff.mp inside_recovery
  simp only [Prod.mk.injEq] at hs
  exact ⟨s, hs.1, (lock_exclusive (reaches_of_runs hruns).of_restrict).1⟩

end H2a.LocalFiles.Locks
