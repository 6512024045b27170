import H2a.Library.Interleave
/-!
# Advisory locks

`packages/h2a/src/runtime/local-files/locks.ts`: `capture`, `unchanged`, `release`,
`acquire` and `withLockSync`, one action for each call to the file system.  An owner
record is written to a private file before it is linked to the path of the lock, so
a lock file never changes once it is there.  What `lstat` reports is left to the
environment: it is only ever compared.

The recovery of a lock is guarded by the lock `<path>.recovery`, and so on; the lock
of depth `n` is the one with `n` such suffixes.
-/

namespace H2a.LocalFiles.Locks

open H2a.Library

/-- `LockOwner`: the process incarnation (host, boot, namespace, pid and start) and
the token of its `provenance`. -/
structure LockOwner (P Token : Type) where
  process : P
  token : Token
  deriving DecidableEq

inductive Name (Token : Type) where
  | lock (depth : Nat)
  /-- `<path>.tmp-<token>` -/
  | temporary (depth : Nat) (token : Token)
  /-- `<path>.quarantine-<token>` -/
  | quarantine (depth : Nat) (token : Token)
  deriving DecidableEq

inductive Errno where
  | eexist
  | enoent
  deriving DecidableEq

inductive Op (P Token : Type) where
  | randomBytes
  | exists_ (name : Name Token)
  /-- `openSync(name, "wx")`, the write and `fsync` of a private file, and its `fstat` -/
  | stage (name : Name Token) (raw : LockOwner P Token)
  | link (existing new : Name Token)
  | unlink (name : Name Token)
  /-- `openSync(name, O_RDONLY | O_NOFOLLOW)`; the file it opens stays as it is -/
  | openFile (name : Name Token)
  | fstat (fd : LockOwner P Token)
  | lstat (name : Name Token)
  | readFile (name : Name Token)
  /-- `reclaimable`: qualified storage, own user, and the owner is classified as dead -/
  | reclaimable (raw : LockOwner P Token)
  /-- `fn()`: whether it returns -/
  | section_

abbrev Op.Answer {P Token : Type} (Stats : Type) : Op P Token → Type
  | .randomBytes => Token
  | .exists_ _ => Bool
  | .stage _ _ => Except Errno Stats
  | .link _ _ => Except Errno Unit
  | .unlink _ => Except Errno Unit
  | .openFile _ => Except Errno (LockOwner P Token)
  | .fstat _ => Stats
  | .lstat _ => Except Errno Stats
  | .readFile _ => Except Errno (LockOwner P Token)
  | .reclaimable _ => Bool
  | .section_ => Bool

structure LockCapture (P Token Stats : Type) where
  stat : Stats
  raw : LockOwner P Token

inductive LockError (P Token : Type) where
  | errno (code : Errno)
  | ownershipChanged
  | lockTimeout (lastSeenOwner : Option (LockOwner P Token))
  /-- what `fn` has thrown -/
  | section_
  deriving DecidableEq

section Source

variable {P Token Stats : Type} [DecidableEq P] [DecidableEq Token] [DecidableEq Stats]

abbrev Prog (P Token Stats : Type) :=
  Script (Op P Token) (Op.Answer Stats) (LockError P Token)

variable (Stats) in
/-- A call to the file system. -/
def io (o : Op P Token) : Prog P Token Stats (Op.Answer Stats o) := Script.ask o

/-- `unchanged(lockPath, previous)`. -/
def unchanged (name : Name Token) (previous : LockCapture P Token Stats) :
    Prog P Token Stats Bool := do
  match ← io Stats (.lstat name) with
  | .error _ => return false
  | .ok stat =>
      if stat = previous.stat then
        match ← io Stats (.readFile name) with
        | .error _ => return false
        | .ok raw => return raw = previous.raw
      else return false

/-- `capture(lockPath)`. -/
def capture (name : Name Token) : Prog P Token Stats (Option (LockCapture P Token Stats)) := do
  match ← io Stats (.openFile name) with
  | .error _ => return none
  | .ok fd =>
      let stat ← io Stats (.fstat fd)
      let result := ⟨stat, fd⟩
      if ← unchanged name result then return some result else return none

/-- A call whose failure is thrown. -/
def orThrow {α : Type} (result : Except Errno α) : Prog P Token Stats α :=
  Script.ofExcept (result.mapError .errno)

/-- `release(lockPath, owned)`. -/
def release (name : Name Token) (owned : LockCapture P Token Stats) : Prog P Token Stats Unit := do
  if ← unchanged name owned then orThrow (← io Stats (.unlink name))

/-- How the `try` block of `acquire` ends: it returns, or throws with what `owned` is if
the lock has been published by then. -/
inductive Publication (P Token Stats : Type) where
  | acquired (owned : LockCapture P Token Stats)
  | threw (error : LockError P Token) (published : Option (LockCapture P Token Stats))

/-- The `try` block of `acquire`. -/
def publish (depth : Nat) (raw : LockOwner P Token) :
    Prog P Token Stats (Publication P Token Stats) := do
  if ← io Stats (.exists_ (.lock depth)) then return .threw (.errno .eexist) none
  match ← io Stats (.stage (.temporary depth raw.token) raw) with
  | .error code => return .threw (.errno code) none
  | .ok stat =>
      let owned := ⟨stat, raw⟩
      match ← io Stats (.link (.temporary depth raw.token) (.lock depth)) with
      | .error code => return .threw (.errno code) none
      | .ok () =>
          match ← io Stats (.unlink (.temporary depth raw.token)) with
          | .error code => return .threw (.errno code) (some owned)
          | .ok () =>
              match ← capture (.lock depth) with
              | none => return .threw .ownershipChanged (some owned)
              | some linked =>
                  if linked.raw = raw then return .acquired linked
                  else return .threw .ownershipChanged (some owned)

/-- What `acquire` returns. -/
inductive Acquired (P Token Stats : Type) where
  | ok (owned : LockCapture P Token Stats)
  | refused (lastSeen : Option (LockOwner P Token))

/-- `if (published && owned) release(lockPath, owned)`. -/
def releasePublished (depth : Nat) :
    Option (LockCapture P Token Stats) → Prog P Token Stats Unit
  | none => return ()
  | some owned => release (.lock depth) owned

/-- `acquire` up to the recovery: the lock it has got, or what it has seen there. -/
def contend (self : P) (depth : Nat) :
    Prog P Token Stats (LockCapture P Token Stats ⊕ Option (LockCapture P Token Stats)) := do
  let token ← io Stats .randomBytes
  let raw := ⟨self, token⟩
  match ← publish depth raw with
  | .acquired owned =>
      let _ ← io Stats (.unlink (.temporary depth token))
      return .inl owned
  | .threw error published =>
      let released ← Script.attempt (releasePublished depth published)
      let _ ← io Stats (.unlink (.temporary depth token))
      Script.ofExcept released
      if error = .errno .eexist then
        let seen ← capture (.lock depth)
        return .inr seen
      else .throw error

/-- The recovery of a lock whose owner has died, under the guard. -/
def reclaim (depth : Nat) (seen : LockCapture P Token Stats) : Prog P Token Stats Unit := do
  if ← unchanged (.lock depth) seen then
    if ← io Stats (.reclaimable seen.raw) then
      let token ← io Stats .randomBytes
      let _ ← orThrow (← io Stats (.stage (.quarantine depth token) seen.raw))
      -- the backup is on disk before the lock file goes
      if ← unchanged (.lock depth) seen then orThrow (← io Stats (.unlink (.lock depth)))

/-- `acquire`, where `remaining` is `8 - depth`. -/
def acquire (self : P) : (remaining : Nat) → (reclaimStale : Bool) → (depth : Nat) →
    Prog P Token Stats (Acquired P Token Stats)
  | 0, _, depth => do
      match ← contend self depth with
      | .inl owned => return .ok owned
      | .inr seen => return .refused (seen.map (·.raw))
  | remaining + 1, reclaimStale, depth => do
      match ← contend self depth with
      | .inl owned => return .ok owned
      | .inr none => return .refused none
      | .inr (some seen) =>
          if !reclaimStale then return .refused (some seen.raw)
          else if ← io Stats (.reclaimable seen.raw) then
            match ← acquire self remaining true (depth + 1) with
            | .refused _ => return .refused (some seen.raw)
            | .ok guard =>
                let done ← Script.attempt (reclaim depth seen)
                release (.lock (depth + 1)) guard
                Script.ofExcept done
                return .refused none
          else return .refused (some seen.raw)

/-- `withLockSync`: `attempts` is how many more the clock leaves before the deadline. -/
def withLockSync (self : P) (reclaimStale : Bool) : (attempts : Nat) →
    (lastSeen : Option (LockOwner P Token)) → Prog P Token Stats Unit
  | 0, lastSeen => .throw (.lockTimeout lastSeen)
  | attempts + 1, lastSeen => do
      match ← acquire self 8 reclaimStale 0 with
      | .refused seen => withLockSync self reclaimStale attempts (seen <|> lastSeen)
      | .ok owned =>
          let returned ← io Stats .section_
          -- "lock file already gone — fine"
          let _ ← Script.attempt (release (.lock 0) owned)
          if returned then return () else .throw .section_

end Source

/-! ## The processes and their files -/

/-- The processes that have died, the files, and who has drawn which random bytes. -/
structure World (P Token : Type) where
  dead : P → Bool
  files : Name Token → Option (LockOwner P Token)
  issued : Token → Option P

/-- What the environment decides about a call. -/
structure Choice (Token Stats : Type) where
  token : Token
  stat : Stats
  verdict : Bool

section World

variable {P Token Stats : Type} [DecidableEq P] [DecidableEq Token]

def World.write (w : World P Token) (name : Name Token) (file : Option (LockOwner P Token)) :
    World P Token :=
  { w with files := Function.update w.files name file }

def World.crash (p : P) (w : World P Token) : World P Token :=
  { w with dead := Function.update w.dead p true }

def World.alive (w : World P Token) (p : P) : Bool := !w.dead p

/-- A call of `p`.  Random bytes are drawn but once, and a process is classified as dead
only if it has died. -/
def perform (p : P) (w : World P Token) (o : Op P Token) (choice : Choice Token Stats) :
    Option (o.Answer Stats × World P Token) :=
  match o with
  | .randomBytes =>
      if w.issued choice.token = none then
        some (choice.token, { w with issued := Function.update w.issued choice.token (some p) })
      else none
  | .exists_ name => some ((w.files name).isSome, w)
  | .stage name raw =>
      match w.files name with
      | some _ => some (.error .eexist, w)
      | none => some (.ok choice.stat, w.write name (some raw))
  | .link existing new =>
      match w.files existing, w.files new with
      | none, _ => some (.error .enoent, w)
      | some _, some _ => some (.error .eexist, w)
      | some raw, none => some (.ok (), w.write new (some raw))
  | .unlink name =>
      match w.files name with
      | none => some (.error .enoent, w)
      | some _ => some (.ok (), w.write name none)
  | .openFile name => some ((w.files name).elim (.error .enoent) .ok, w)
  | .fstat _ => some (choice.stat, w)
  | .lstat name => some ((w.files name).elim (.error .enoent) fun _ => .ok choice.stat, w)
  | .readFile name => some ((w.files name).elim (.error .enoent) .ok, w)
  | .reclaimable raw =>
      if choice.verdict = true → w.dead raw.process = true then some (choice.verdict, w) else none
  | .section_ => some (choice.verdict, w)

/-- A call of `withLockSync`. -/
structure Call where
  attempts : Nat
  reclaimStale : Bool

abbrev System (P Token Stats : Type) :=
  Interleave.System P (World P Token) (Op P Token) (Op.Answer Stats) (LockError P Token) Unit

/-- Nothing runs and there are no files. -/
def System.initial : System P Token Stats :=
  ⟨⟨fun _ => false, fun _ => none, fun _ => none⟩, fun _ => none⟩

/-- The process is alive and runs its `fn`. -/
def System.inside (s : System P Token Stats) (p : P) : Bool :=
  match s.running p with
  | some (.act .section_ _) => s.world.alive p
  | _ => false

variable [DecidableEq Stats]

def script (p : P) (c : Call) : Prog P Token Stats Unit :=
  withLockSync p c.reclaimStale c.attempts none

/-- One step of the processes of a host that call `withLockSync` on one path. -/
def step (s : System P Token Stats) (a : Interleave.Action P Call (Choice Token Stats)) :
    Option (System P Token Stats) :=
  Interleave.step script World.alive World.crash perform s a

def Step : System P Token Stats → System P Token Stats → Prop := Fires step

end World

end H2a.LocalFiles.Locks
