import H2a.Library.Transition
import H2a.Track.Events.Store
import Mathlib.Logic.Function.Basic
/-!
# `withFileLock`

`packages/track/src/events/lock.ts` around the two locked sections of
`store.ts`, as the file-system steps of any number of processes.  A process
creates the lock file with `O_EXCL`, records its token in it, runs its section
read by read and write by write, reads the token back and unlinks.

The log file is represented by the events on its lines (`LogFile` relates the
two).  The list of receipts is not part of the program: it remembers what every
successful append has returned.
-/

namespace H2a.Track.Events.Lock

open H2a.Library

/-- What a process calls. -/
inductive Call (I C : Type) where
  | append (inputs : List I) (opts : AppendOpts I C)
  | reseal

/-- How the locked function ended. -/
inductive Outcome (C : Type) where
  | threw
  | deduped (originals : List (TrackEvent C))
  | appended (events : List (TrackEvent C))
  | resealed (result : ResealResult)

/-- The lock file: which creation it stems from, and the token in it once it is written. -/
structure LockFile (Token : Type) where
  inode : Nat
  holder : Option Token

/-- Where a process stands, with the locals it still needs. -/
inductive Pc (I C Token : Type) where
  | idle
  /-- in the retry loop -/
  | wanting (call : Call I C) (token : Token)
  /-- created the file, the holder record not yet written to its descriptor -/
  | created (call : Call I C) (token : Token) (inode : Nat)
  | entered (call : Call I C) (token : Token)
  | logRead (inputs : List I) (opts : AppendOpts I C) (token : Token)
      (existing : List (TrackEvent C))
  | planned (inputs : List I) (token : Token) (existing events : List (TrackEvent C))
  | linesWritten (inputs : List I) (token : Token) (existing events : List (TrackEvent C))
  | headWritten (inputs : List I) (token : Token) (existing events : List (TrackEvent C))
  | reread (inputs : List I) (token : Token) (existing events after : List (TrackEvent C))
  | resealPlanned (token : Token) (out : List (TrackEvent C)) (result : ResealResult)
  | rewritten (token : Token) (out : List (TrackEvent C)) (result : ResealResult)
  /-- in `finally`, the holder not yet read -/
  | releasing (token : Token) (outcome : Outcome C)
  /-- the holder read was its own token -/
  | unlinking (outcome : Outcome C)

/-- Between the creation of the lock file and its removal. -/
def Pc.holds {I C Token : Type} : Pc I C Token → Prop
  | .idle => False
  | .wanting .. => False
  | _ => True

/-- Inside the critical section: running `fn`. -/
def Pc.inside {I C Token : Type} : Pc I C Token → Prop
  | .idle => False
  | .wanting .. => False
  | .created .. => False
  | .releasing .. => False
  | .unlinking .. => False
  | _ => True

theorem Pc.holds_of_inside {I C Token : Type} {pc : Pc I C Token} (h : pc.inside) :
    pc.holds := by
  cases pc <;> first | exact trivial | exact h.elim

/-- What a successful append returned, and whether a reseal has since changed the log. -/
structure Receipt (I C : Type) where
  inputs : List I
  events : List (TrackEvent C)
  rewritten : Bool

structure System (P I C Token : Type) where
  lockFile : Option (LockFile Token)
  nextInode : Nat
  log : List (TrackEvent C)
  head : Option Head
  pc : P → Pc I C Token
  receipts : List (Receipt I C)

section Steps

variable {P I C Token : Type} [EventCore C K] [CommandEvent I C K] [DecidableEq K]
variable [DecidableEq P] [DecidableEq C]

/-- A process moves, and nothing else changes. -/
def System.move (s : System P I C Token) (p : P) (pc : Pc I C Token) :
    System P I C Token :=
  { s with pc := Function.update s.pc p pc }

/-- Calls that get as far as the lock. -/
def Call.Admitted : Call I C → Prop
  | .append inputs opts => checkCommand inputs opts = .ok ()
  | .reseal => True

/-- One file-system step of one process. -/
inductive Step (contentHashOf : C → Sha256) :
    System P I C Token → System P I C Token → Prop where
  | call {s p} (call token) (hpc : s.pc p = .idle) (hcall : call.Admitted) :
      Step contentHashOf s (s.move p (.wanting call token))
  /-- `EEXIST` after the deadline -/
  | timeout {s p call token lock} (hpc : s.pc p = .wanting call token)
      (hlock : s.lockFile = some lock) :
      Step contentHashOf s (s.move p .idle)
  /-- `openSync(lockPath, 'wx')` -/
  | create {s p call token} (hpc : s.pc p = .wanting call token) (hlock : s.lockFile = none) :
      Step contentHashOf s
        { s.move p (.created call token s.nextInode) with
          lockFile := some ⟨s.nextInode, none⟩, nextInode := s.nextInode + 1 }
  /-- the holder record goes to the file that was created, wherever its name points now -/
  | record {s p call token inode} (hpc : s.pc p = .created call token inode) :
      Step contentHashOf s
        { s.move p (.entered call token) with
          lockFile := s.lockFile.map fun lock =>
            if lock.inode = inode then { lock with holder := some token } else lock }
  | readLog {s p inputs opts token} (hpc : s.pc p = .entered (.append inputs opts) token) :
      Step contentHashOf s (s.move p (.logRead inputs opts token s.log))
  /-- reads `head.json`; everything up to the write is computed from the two reads -/
  | plan {s p inputs opts token existing events}
      (hpc : s.pc p = .logRead inputs opts token existing)
      (hplan : planAppend contentHashOf existing s.head inputs opts = .ok (.append events)) :
      Step contentHashOf s (s.move p (.planned inputs token existing events))
  | dedupe {s p inputs opts token existing originals}
      (hpc : s.pc p = .logRead inputs opts token existing)
      (hplan : planAppend contentHashOf existing s.head inputs opts = .ok (.deduped originals)) :
      Step contentHashOf s (s.move p (.releasing token (.deduped originals)))
  | refuse {s p inputs opts token existing error}
      (hpc : s.pc p = .logRead inputs opts token existing)
      (hplan : planAppend contentHashOf existing s.head inputs opts = .error error) :
      Step contentHashOf s (s.move p (.releasing token .threw))
  /-- `appendAtomic` -/
  | writeLines {s p inputs token existing events}
      (hpc : s.pc p = .planned inputs token existing events) :
      Step contentHashOf s
        { s.move p (.linesWritten inputs token existing events) with log := s.log ++ events }
  | writeHead {s p inputs token existing events}
      (hpc : s.pc p = .linesWritten inputs token existing events) :
      Step contentHashOf s
        { s.move p (.headWritten inputs token existing events) with
          head := some (expectedHead existing events) }
  | reread {s p inputs token existing events}
      (hpc : s.pc p = .headWritten inputs token existing events) :
      Step contentHashOf s (s.move p (.reread inputs token existing events s.log))
  | verified {s p inputs token existing events after}
      (hpc : s.pc p = .reread inputs token existing events after)
      (hverify : verifyAppend contentHashOf existing.length events
        (expectedHead existing events) after s.head = .ok ()) :
      Step contentHashOf s
        { s.move p (.releasing token (.appended events)) with
          receipts := s.receipts ++ [⟨inputs, events, false⟩] }
  | unverified {s p inputs token existing events after failure}
      (hpc : s.pc p = .reread inputs token existing events after)
      (hverify : verifyAppend contentHashOf existing.length events
        (expectedHead existing events) after s.head = .error failure) :
      Step contentHashOf s (s.move p (.releasing token .threw))
  | planReseal {s p token out result} (hpc : s.pc p = .entered .reseal token)
      (hreseal : resealEvents contentHashOf s.log = .ok (out, result)) :
      Step contentHashOf s (s.move p (.resealPlanned token out result))
  | refuseReseal {s p token error} (hpc : s.pc p = .entered .reseal token)
      (hreseal : resealEvents contentHashOf s.log = .error error) :
      Step contentHashOf s (s.move p (.releasing token .threw))
  /-- `rewriteAtomic` -/
  | rewrite {s p token out result} (hpc : s.pc p = .resealPlanned token out result) :
      Step contentHashOf s
        { s.move p (.rewritten token out result) with
          log := out
          receipts := s.receipts.map fun r =>
            { r with rewritten := r.rewritten || decide (out ≠ s.log) } }
  | rewriteHead {s p token out result} (hpc : s.pc p = .rewritten token out result) :
      Step contentHashOf s
        { s.move p (.releasing token (.resealed result)) with head := some (headOf out) }
  /-- `readHolder(lockPath)?.token === token` -/
  | recognize {s p token outcome lock} (hpc : s.pc p = .releasing token outcome)
      (hlock : s.lockFile = some lock) (hown : lock.holder = some token) :
      Step contentHashOf s (s.move p (.unlinking outcome))
  | abandon {s p token outcome} (hpc : s.pc p = .releasing token outcome)
      (hforeign : s.lockFile.bind (·.holder) ≠ some token) :
      Step contentHashOf s (s.move p .idle)
  | unlink {s p outcome} (hpc : s.pc p = .unlinking outcome) :
      Step contentHashOf s { s.move p .idle with lockFile := none }

/-- Nobody has called yet; the log and the head are any that validate. -/
structure Initial (contentHashOf : C → Sha256) (s : System P I C Token) : Prop where
  free : s.lockFile = none
  idle : ∀ p, s.pc p = .idle
  fresh : s.receipts = []
  valid : (validate contentHashOf s.log s.head).ok = true

end Steps

/-! ## The invariant -/

section Invariant

variable {P I C Token : Type} [EventCore C K] [CommandEvent I C K] [DecidableEq K]

/-- The lock file exists and carries the token. -/
def System.LockedBy (s : System P I C Token) (token : Token) : Prop :=
  ∃ lock, s.lockFile = some lock ∧ lock.holder = some token

/-- The events of a command about to be, or just, appended to `existing`. -/
structure Writes (contentHashOf : C → Sha256) (inputs : List I)
    (existing events : List (TrackEvent C)) : Prop where
  sound : Sound contentHashOf (existing ++ events)
  frames : Frames inputs events

/-- What a process knows of the shared files, by where it stands. -/
def Knows (contentHashOf : C → Sha256) (s : System P I C Token) : Pc I C Token → Prop
  | .idle => True
  | .wanting call _ => call.Admitted
  | .created call _ inode => call.Admitted ∧ ∃ lock, s.lockFile = some lock ∧ lock.inode = inode
  | .entered call token => call.Admitted ∧ s.LockedBy token
  | .logRead inputs opts token existing =>
      checkCommand inputs opts = .ok () ∧ s.LockedBy token ∧ existing = s.log
  | .planned inputs token existing events =>
      s.LockedBy token ∧ existing = s.log ∧ Writes contentHashOf inputs existing events
  | .linesWritten inputs token existing events =>
      s.LockedBy token ∧ s.log = existing ++ events ∧ Writes contentHashOf inputs existing events
  | .headWritten inputs token existing events =>
      s.LockedBy token ∧ s.log = existing ++ events ∧ Writes contentHashOf inputs existing events
  | .reread inputs token existing events _ =>
      s.LockedBy token ∧ s.log = existing ++ events ∧ Writes contentHashOf inputs existing events
  | .resealPlanned token out result =>
      s.LockedBy token ∧ resealEvents contentHashOf s.log = .ok (out, result)
  | .rewritten token out _ => s.LockedBy token ∧ s.log = out
  | .releasing token _ => s.LockedBy token
  | .unlinking _ => ∃ lock, s.lockFile = some lock

/-- Between the two writes of a reseal the head may be stale. -/
def Pc.headStale : Pc I C Token → Prop
  | .rewritten .. => True
  | _ => False

/-- The events occur in the log exactly once, contiguously and in order. -/
def OccursOnce (events log : List (TrackEvent C)) : Prop :=
  events.Nodup ∧ ∃ before after, log = before ++ events ++ after ∧
    ∀ e ∈ events, e ∉ before ∧ e ∉ after

/-- A receipt is honoured: verbatim until a reseal changes the log, and up to
`seq` and `prevHash` afterwards, when no two cores share a hash. -/
structure Honoured (contentHashOf : C → Sha256) (log : List (TrackEvent C))
    (r : Receipt I C) : Prop where
  frames : Frames r.inputs r.events
  verbatim : r.rewritten = false → r.events <:+: log
  survives : Function.Injective contentHashOf →
    r.events.map (·.core) <:+: log.map (·.core)

structure Inv (contentHashOf : C → Sha256) (s : System P I C Token) : Prop where
  exclusive : ∀ p q, (s.pc p).holds → (s.pc q).holds → p = q
  knows : ∀ p, Knows contentHashOf s (s.pc p)
  sound : Sound contentHashOf s.log
  anchored : (∀ p, ¬(s.pc p).headStale) → Anchored s.log s.head
  honoured : ∀ r ∈ s.receipts, Honoured contentHashOf s.log r

omit [EventCore C K] [CommandEvent I C K] [DecidableEq K] in
theorem Pc.inside_of_headStale {pc : Pc I C Token} (h : pc.headStale) : pc.inside := by
  cases pc <;> first | exact trivial | exact h.elim

omit [EventCore C K] [CommandEvent I C K] [DecidableEq K] in
theorem Pc.holds_of_headStale {pc : Pc I C Token} (h : pc.headStale) : pc.holds :=
  Pc.holds_of_inside (Pc.inside_of_headStale h)

/-! ## One step -/

variable {contentHashOf : C → Sha256} {s s' : System P I C Token} {p : P}

/-- Only a holder knows anything about the shared files. -/
theorem Knows.of_not_holds {pc : Pc I C Token} (hpc : ¬pc.holds)
    (h : Knows contentHashOf s pc) : Knows contentHashOf s' pc := by
  cases pc <;> first | exact h | exact absurd trivial hpc

theorem Knows.lockFile {pc : Pc I C Token} (hpc : pc.holds) (h : Knows contentHashOf s pc) :
    ∃ lock, s.lockFile = some lock := by
  cases pc with
  | idle => exact hpc.elim
  | wanting => exact hpc.elim
  | created => exact h.2.imp fun _ hlock => hlock.1
  | entered => exact h.2.imp fun _ hlock => hlock.1
  | logRead => exact h.2.1.imp fun _ hlock => hlock.1
  | planned => exact h.1.imp fun _ hlock => hlock.1
  | linesWritten => exact h.1.imp fun _ hlock => hlock.1
  | headWritten => exact h.1.imp fun _ hlock => hlock.1
  | reread => exact h.1.imp fun _ hlock => hlock.1
  | resealPlanned => exact h.1.imp fun _ hlock => hlock.1
  | rewritten => exact h.1.imp fun _ hlock => hlock.1
  | releasing => exact h.imp fun _ hlock => hlock.1
  | unlinking => exact h

variable {now : Pc I C Token}

theorem Inv.knows_at (hinv : Inv contentHashOf s) (hpc : s.pc p = now) :
    Knows contentHashOf s now :=
  hpc ▸ hinv.knows p

theorem Inv.only (hinv : Inv contentHashOf s) (hpc : s.pc p = now) (hp : now.holds) (q : P)
    (hq : (s.pc q).holds) : q = p :=
  hinv.exclusive q p hq (hpc ▸ hp)

theorem Inv.anchored_of (hinv : Inv contentHashOf s) (hpc : s.pc p = now) (hp : now.holds)
    (hfresh : ¬now.headStale) : Anchored s.log s.head :=
  hinv.anchored fun q hq =>
    hfresh (hpc ▸ hinv.only hpc hp q (Pc.holds_of_headStale hq) ▸ hq)

section Move

variable [DecidableEq P]

/-- A step of the only process that can hold the lock: the rest of the system
knows nothing, so what is left to show is about `p` and the files. -/
theorem Inv.of_only (hinv : Inv contentHashOf s) (honly : ∀ q, (s.pc q).holds → q = p)
    {pc : Pc I C Token} (hpc : s'.pc = Function.update s.pc p pc)
    (hknows : Knows contentHashOf s' pc) (hsound : Sound contentHashOf s'.log)
    (hanchored : ¬pc.headStale → Anchored s'.log s'.head)
    (hhonoured : ∀ r ∈ s'.receipts, Honoured contentHashOf s'.log r) :
    Inv contentHashOf s' where
  exclusive q r hq hr := by
    have hself : ∀ q, (s'.pc q).holds → q = p := by
      intro q hq
      by_contra hne
      rw [hpc, Function.update_of_ne hne] at hq
      exact hne (honly q hq)
    rw [hself q hq, hself r hr]
  knows q := by
    by_cases hq : q = p
    · subst hq
      rw [hpc, Function.update_self]
      exact hknows
    · rw [hpc, Function.update_of_ne hq]
      exact (hinv.knows q).of_not_holds fun h => hq (honly q h)
  sound := hsound
  anchored h := by
    have hp := h p
    rw [hpc, Function.update_self] at hp
    exact hanchored hp
  honoured := hhonoured

/-- A step of the holder that leaves the log and the receipts alone. -/
theorem Inv.of_holder (hinv : Inv contentHashOf s) (hpc : s.pc p = now) (hp : now.holds)
    (hfresh : ¬now.headStale) {pc : Pc I C Token}
    (hknows : Knows contentHashOf (s.move p pc) pc) : Inv contentHashOf (s.move p pc) :=
  hinv.of_only (hinv.only hpc hp) rfl hknows hinv.sound
    (fun _ => hinv.anchored_of hpc hp hfresh) hinv.honoured

/-- A step outside the lock that touches no file. -/
theorem Inv.of_outsider (hinv : Inv contentHashOf s) (hnow : s.pc p = now) (hp : ¬now.holds)
    {pc : Pc I C Token} (hpc : ¬pc.holds) (hknows : Knows contentHashOf s pc) :
    Inv contentHashOf (s.move p pc) where
  exclusive q r hq hr := by
    have hstill : ∀ q, ((s.move p pc).pc q).holds → (s.pc q).holds := by
      intro q hq
      by_cases hqp : q = p
      · subst hqp
        simp only [System.move, Function.update_self] at hq
        exact absurd hq hpc
      · simpa only [System.move, Function.update_of_ne hqp] using hq
    exact hinv.exclusive q r (hstill q hq) (hstill r hr)
  knows q := by
    have hmove : ∀ x, Knows contentHashOf s x → Knows contentHashOf (s.move p pc) x := by
      intro x hx
      cases x <;> exact hx
    by_cases hqp : q = p
    · subst hqp
      simp only [System.move, Function.update_self]
      exact hmove _ hknows
    · simp only [System.move, Function.update_of_ne hqp]
      exact hmove _ (hinv.knows q)
  sound := hinv.sound
  anchored h := by
    refine hinv.anchored fun q hq => ?_
    have hne : q ≠ p := by
      rintro rfl
      exact hp (hnow ▸ Pc.holds_of_headStale hq)
    refine h q ?_
    simpa only [System.move, Function.update_of_ne hne] using hq
  honoured := hinv.honoured

end Move

/-! ### Receipts -/

omit [DecidableEq K] in
theorem Honoured.append {log events : List (TrackEvent C)} {r : Receipt I C}
    (h : Honoured contentHashOf log r) : Honoured contentHashOf (log ++ events) r where
  frames := h.frames
  verbatim hr := (h.verbatim hr).trans (List.prefix_append ..).isInfix
  survives hinj := by
    rw [List.map_append]
    exact (h.survives hinj).trans (List.prefix_append ..).isInfix

theorem Honoured.reseal [DecidableEq C] {log out : List (TrackEvent C)} {result : ResealResult}
    {r : Receipt I C} (h : Honoured contentHashOf log r) (hsound : Sound contentHashOf log)
    (hreseal : resealEvents contentHashOf log = .ok (out, result)) :
    Honoured contentHashOf out
      { r with rewritten := r.rewritten || decide (out ≠ log) } where
  frames := h.frames
  verbatim hr := by
    simp only [Bool.or_eq_false_iff, decide_eq_false_iff_not, not_not] at hr
    rw [hr.2]
    exact h.verbatim hr.1
  survives hinj :=
    resealEvents_keeps_command hinj hsound hreseal h.frames.command (h.survives hinj)

theorem Writes.honoured {inputs : List I} {existing events : List (TrackEvent C)}
    (h : Writes contentHashOf inputs existing events) :
    Honoured contentHashOf (existing ++ events) ⟨inputs, events, false⟩ where
  frames := h.frames
  verbatim _ := (List.suffix_append ..).isInfix
  survives _ := by
    rw [List.map_append]
    exact (List.suffix_append ..).isInfix

theorem anchored_append {es ds : List (TrackEvent C)} {head : Option Head}
    (h : Anchored es head) : Anchored (es ++ ds) head := by
  cases head with
  | none => trivial
  | some head =>
      obtain ⟨hlen, hhash⟩ := h
      refine ⟨by rw [List.length_append]; omega, fun hne => ?_⟩
      have hlt : head.streamLength - 1 < es.length := by omega
      rw [List.getElem?_append_left hlt]
      exact hhash hne

/-! ### Preservation -/

theorem inv_step [DecidableEq P] [DecidableEq C] (hinv : Inv contentHashOf s)
    (hstep : Step contentHashOf s s') : Inv contentHashOf s' := by
  cases hstep with
  | @call p call token hpc hcall => exact hinv.of_outsider hpc id id hcall
  | @timeout p call token lock hpc hlock => exact hinv.of_outsider hpc id id trivial
  | @create p call token hpc hlock =>
      -- the file did not exist, so nobody holds the lock
      have hnobody : ∀ q, (s.pc q).holds → q = p := by
        intro q hq
        obtain ⟨lock, hsome⟩ := (hinv.knows q).lockFile hq
        simp [hlock] at hsome
      refine hinv.of_only hnobody rfl ⟨hinv.knows_at hpc, _, rfl, rfl⟩ hinv.sound
        (fun _ => hinv.anchored fun q hq => ?_) hinv.honoured
      rw [hnobody q (Pc.holds_of_headStale hq), hpc] at hq
      exact hq
  | @record p call token inode hpc =>
      obtain ⟨hcall, lock, hlock, hinode⟩ := hinv.knows_at hpc
      refine hinv.of_only (hinv.only hpc trivial) rfl ⟨hcall, ?_⟩ hinv.sound
        (fun _ => hinv.anchored_of hpc trivial id) hinv.honoured
      exact ⟨{ lock with holder := some token }, by simp [hlock, hinode], rfl⟩
  | @readLog p inputs opts token hpc =>
      obtain ⟨hcheck, hlocked⟩ := hinv.knows_at hpc
      exact hinv.of_holder hpc trivial id ⟨hcheck, hlocked, rfl⟩
  | @plan p inputs opts token existing events hpc hplan =>
      obtain ⟨hcheck, hlocked, hsame⟩ := hinv.knows_at hpc
      obtain ⟨hsound, hframes⟩ := planAppend_append hcheck hplan
      exact hinv.of_holder hpc trivial id ⟨hlocked, hsame, hsound, hframes⟩
  | @dedupe p inputs opts token existing originals hpc hplan =>
      exact hinv.of_holder hpc trivial id (hinv.knows_at hpc).2.1
  | @refuse p inputs opts token existing error hpc hplan =>
      exact hinv.of_holder hpc trivial id (hinv.knows_at hpc).2.1
  | @writeLines p inputs token existing events hpc =>
      obtain ⟨hlocked, rfl, hwrites⟩ := hinv.knows_at hpc
      exact hinv.of_only (hinv.only hpc trivial) rfl ⟨hlocked, rfl, hwrites⟩ hwrites.sound
        (fun _ => anchored_append (hinv.anchored_of hpc trivial id))
        (fun r hr => (hinv.honoured r hr).append)
  | @writeHead p inputs token existing events hpc =>
      obtain ⟨hlocked, hlog, hwrites⟩ := hinv.knows_at hpc
      refine hinv.of_only (hinv.only hpc trivial) rfl ⟨hlocked, hlog, hwrites⟩ hinv.sound
        (fun _ => ?_) hinv.honoured
      change Anchored s.log (some (expectedHead existing events))
      rw [hlog, ← headOf_append hwrites.frames.nonempty]
      exact anchored_headOf _
  | @reread p inputs token existing events hpc =>
      exact hinv.of_holder hpc trivial id (hinv.knows_at hpc)
  | @verified p inputs token existing events after hpc hverify =>
      obtain ⟨hlocked, hlog, hwrites⟩ := hinv.knows_at hpc
      refine hinv.of_only (hinv.only hpc trivial) rfl hlocked hinv.sound
        (fun _ => hinv.anchored_of hpc trivial id) fun r hr => ?_
      rcases List.mem_append.mp hr with hr | hr
      · exact hinv.honoured r hr
      · obtain rfl := List.mem_singleton.mp hr
        change Honoured contentHashOf s.log _
        rw [hlog]
        exact hwrites.honoured
  | @unverified p inputs token existing events after failure hpc hverify =>
      exact hinv.of_holder hpc trivial id (hinv.knows_at hpc).1
  | @planReseal p token out result hpc hreseal =>
      exact hinv.of_holder hpc trivial id ⟨(hinv.knows_at hpc).2, hreseal⟩
  | @refuseReseal p token error hpc hreseal =>
      exact hinv.of_holder hpc trivial id (hinv.knows_at hpc).2
  | @rewrite p token out result hpc =>
      obtain ⟨hlocked, hreseal⟩ := hinv.knows_at hpc
      obtain ⟨-, -, -, -, hsound, -, -⟩ := (resealEvents_eq_ok_iff s.log out result).mp hreseal
      refine hinv.of_only (hinv.only hpc trivial) rfl ⟨hlocked, rfl⟩ hsound
        (fun h => absurd trivial h) fun r' hr' => ?_
      obtain ⟨r, hr, rfl⟩ := List.mem_map.mp hr'
      exact (hinv.honoured r hr).reseal hinv.sound hreseal
  | @rewriteHead p token out result hpc =>
      obtain ⟨hlocked, rfl⟩ := hinv.knows_at hpc
      exact hinv.of_only (hinv.only hpc trivial) rfl hlocked hinv.sound
        (fun _ => anchored_headOf _) hinv.honoured
  | @recognize p token outcome lock hpc hlock hown =>
      exact hinv.of_holder hpc trivial id ⟨lock, hlock⟩
  | @abandon p token outcome hpc hforeign => exact hinv.of_holder hpc trivial id trivial
  | @unlink p outcome hpc =>
      exact hinv.of_only (hinv.only hpc trivial) rfl trivial hinv.sound
        (fun _ => hinv.anchored_of hpc trivial id) hinv.honoured

theorem inv_initial [DecidableEq P] [DecidableEq C] (h : Initial contentHashOf s) :
    Inv contentHashOf s where
  exclusive p q hp := by
    rw [h.idle p] at hp
    exact hp.elim
  knows p := by
    rw [h.idle p]
    trivial
  sound := ((validate_ok_iff _ _).mp h.valid).1
  anchored _ := ((validate_ok_iff _ _).mp h.valid).2
  honoured r hr := by simp [h.fresh] at hr

omit [EventCore C K] [CommandEvent I C K] [DecidableEq K] in
/-- In a log without repetition a piece of it occurs once. -/
theorem OccursOnce.of_isInfix {events log : List (TrackEvent C)} (hlog : log.Nodup)
    (h : events <:+: log) : OccursOnce events log := by
  obtain ⟨before, after, rfl⟩ := h
  rw [List.nodup_append, List.nodup_append] at hlog
  obtain ⟨⟨-, hevents, hbefore⟩, -, hafter⟩ := hlog
  refine ⟨hevents, before, after, rfl, fun e he => ⟨fun hb => ?_, fun ha => ?_⟩⟩
  · exact hbefore e hb e he rfl
  · exact hafter e (List.mem_append_right _ he) e ha rfl

/-- The events a receipt promises are in the log: as they were returned until a
reseal changes the log, and with their cores after it. -/
theorem Inv.occurs (hinv : Inv contentHashOf s) {r : Receipt I C} (hr : r ∈ s.receipts) :
    (r.rewritten = false → OccursOnce r.events s.log) ∧
      (Function.Injective contentHashOf →
        ∃ events, events.map (·.core) = r.events.map (·.core) ∧ OccursOnce events s.log) := by
  have hlog := hinv.sound.nodup
  refine ⟨fun hkept => .of_isInfix hlog ((hinv.honoured r hr).verbatim hkept), fun hinj => ?_⟩
  obtain ⟨before, after, hsplit⟩ := (hinv.honoured r hr).survives hinj
  obtain ⟨front, back, hfront, hbefore, hback⟩ := List.map_eq_append_iff.mp hsplit.symm
  obtain ⟨first, events, hfirst, hf, hevents⟩ := List.map_eq_append_iff.mp hbefore
  exact ⟨events, hevents, .of_isInfix hlog ⟨first, back, by rw [hfront, hfirst]⟩⟩

/-- Mutual exclusion, integrity at rest, and no lost, torn or reordered append. -/
structure Safe (contentHashOf : C → Sha256) (s : System P I C Token) : Prop where
  exclusive : ∀ p q, (s.pc p).inside → (s.pc q).inside → p = q
  valid : (∀ p, ¬(s.pc p).inside) → (validate contentHashOf s.log s.head).ok = true
  delivered : ∀ r ∈ s.receipts,
    List.Forall₂ (fun input e => ∃ tag, CommandEvent.materialize input tag = .ok e.core)
      r.inputs r.events ∧
    (r.rewritten = false → OccursOnce r.events s.log) ∧
    (Function.Injective contentHashOf →
      ∃ events, events.map (·.core) = r.events.map (·.core) ∧ OccursOnce events s.log)

/-- Every interleaving of any number of processes is safe. -/
theorem lock_safety [DecidableEq P] [DecidableEq C] {start s : System P I C Token}
    (hstart : Initial contentHashOf start) (hrun : Reaches (Step contentHashOf) start s) :
    Safe contentHashOf s := by
  have hinv : Inv contentHashOf s :=
    hrun.invariant (inv_initial hstart) fun _ _ hi hs => inv_step hi hs
  refine ⟨fun p q hp hq => ?_, fun hquiet => ?_, fun r hr => ?_⟩
  · exact hinv.exclusive p q (Pc.holds_of_inside hp) (Pc.holds_of_inside hq)
  · have hanchored := hinv.anchored fun p hp => hquiet p (Pc.inside_of_headStale hp)
    exact (validate_ok_iff _ _).mpr ⟨hinv.sound, hanchored⟩
  · exact ⟨(hinv.honoured r hr).frames.inOrder, hinv.occurs hr⟩

end Invariant

/-! One process of two appends an item to the empty log. -/

def emptySystem : System Bool BareInput BareCore Nat where
  lockFile := none
  nextInode := 0
  log := []
  head := none
  pc _ := .idle
  receipts := []

theorem emptySystem_initial : Initial BareCore.hash emptySystem :=
  ⟨rfl, fun _ => rfl, rfl, by decide⟩

/-- The event the append writes. -/
def firstEvent : TrackEvent BareCore :=
  ⟨⟨js "1", js "a", none⟩, 1, none, js "sha256:1"⟩

theorem firstEvent_reached :
    ∃ s, Reaches (Step BareCore.hash) emptySystem s ∧
      s.receipts = [⟨[⟨js "1", js "a"⟩], [firstEvent], false⟩] := by
  let opts : AppendOpts BareInput BareCore := ⟨none, none, none⟩
  have hcall : (Call.append [⟨js "1", js "a"⟩] opts).Admitted := rfl
  have start := Relation.ReflTransGen.refl (r := Step BareCore.hash) (a := emptySystem)
  have locked := ((start.tail (.call (p := false) _ 7 rfl hcall)).tail
    (.create (p := false) rfl rfl)).tail (.record (p := false) rfl)
  have hplan : planAppend BareCore.hash [] none [⟨js "1", js "a"⟩] opts =
      .ok (.append [firstEvent]) := by rfl
  have planned := (locked.tail (.readLog (p := false) rfl)).tail (.plan (p := false) rfl hplan)
  have written := (planned.tail (.writeLines (p := false) rfl)).tail (.writeHead (p := false) rfl)
  exact ⟨_, (written.tail (.reread (p := false) rfl)).tail (.verified (p := false) rfl rfl), rfl⟩

theorem lock_safety_firstEvent :
    ∃ s : System Bool BareInput BareCore Nat,
      s.receipts = [⟨[⟨js "1", js "a"⟩], [firstEvent], false⟩] ∧ Safe BareCore.hash s := by
  obtain ⟨s, hrun, hreceipts⟩ := firstEvent_reached
  exact ⟨s, hreceipts, lock_safety emptySystem_initial hrun⟩

end H2a.Track.Events.Lock
