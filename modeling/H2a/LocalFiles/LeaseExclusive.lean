import Mathlib.Order.Nat
import H2a.LocalFiles.Lease
/-!
# One live holder of a lease

As long as a step that steals removes the file its contender has read, the file at
the lock path is that of the live holder.  Two thieves that have read the same
expired lease are enough for two holders.
-/

namespace H2a.LocalFiles.Lease

open H2a.Library

section Invariant

variable {P Nonce : Type}

/-- What holds of a lease from the creation of its file on. -/
structure Made (leaseMs : Nat) (s : System P Nonce) (h : Held Nonce) : Prop where
  used : h.inode < s.nextInode
  leaseMs : h.record.leaseMs = leaseMs
  token : h.record.fencingToken = nextToken h.stolen
  stolen : ∀ e, h.stolen = some e → e ∈ s.written

/-- What a contender knows of the files, by where it stands. -/
def Knows (leaseMs : Nat) (s : System P Nonce) : Pc Nonce → Prop
  | .idle => True
  | .creating a => a.at_ ≤ s.clock
  | .reading a => a.at_ ≤ s.clock
  | .stealing a inode existing => a.at_ ≤ s.clock ∧ ∀ e, existing = some e →
      s.files inode = some e ∧ inode < s.nextInode ∧ isExpired e a.at_ ∧ e ∈ s.written
  | .recreating a existing => a.at_ ≤ s.clock ∧ ∀ e, existing = some e → e ∈ s.written
  | .writing h => Made leaseMs s h ∧ s.files h.inode = none
  | .holding h => Made leaseMs s h ∧ s.files h.inode = some h.record
  | .releasing h => Made leaseMs s h ∧ s.files h.inode = some h.record
  | .unlinking h => Made leaseMs s h ∧ s.files h.inode = some h.record

/-- What a run in good order keeps. -/
structure Kept (leaseMs : Nat) (s : System P Nonce) : Prop where
  inTime : InTime leaseMs s
  knows : ∀ p, Knows leaseMs s (s.pc p)
  /-- the file of a live contender is at the path -/
  placed : ∀ p h, s.dead p = false → (s.pc p).created = some h → s.path = some h.inode
  apart : ∀ p q h h', (s.pc p).created = some h → (s.pc q).created = some h' →
    h.inode = h'.inode → p = q
  used : ∀ inode, s.path = some inode → inode < s.nextInode
  onRecord : ∀ inode e, s.files inode = some e → e ∈ s.written

theorem Knows.made {leaseMs : Nat} {s : System P Nonce} {pc : Pc Nonce} {h : Held Nonce}
    (hknows : Knows leaseMs s pc) (hcreated : pc.created = some h) : Made leaseMs s h := by
  cases pc <;> simp only [Pc.created, Pc.held, Option.some.injEq, reduceCtorEq] at hcreated
  all_goals
    subst hcreated
    exact hknows.1

theorem Knows.filled {leaseMs : Nat} {s : System P Nonce} {pc : Pc Nonce} {h : Held Nonce}
    (hknows : Knows leaseMs s pc) (hheld : pc.held = some h) :
    s.files h.inode = some h.record := by
  cases pc <;> simp only [Pc.held, Option.some.injEq, reduceCtorEq] at hheld
  all_goals
    subst hheld
    exact hknows.2

theorem created_of_held {pc : Pc Nonce} {h : Held Nonce} (hheld : pc.held = some h) :
    pc.created = some h := by
  cases pc <;> first | exact hheld | simp [Pc.held] at hheld

/-- A contender that has created a file is writing it, or holds it. -/
theorem writing_or_held {pc : Pc Nonce} {h : Held Nonce} (hcreated : pc.created = some h) :
    pc = .writing h ∨ pc.held = some h := by
  cases pc <;> first | exact .inr hcreated | exact .inl (congrArg _ (Option.some.inj hcreated))

/-- What others do to the files leaves what a contender knows. -/
theorem Knows.frame {leaseMs : Nat} {s t : System P Nonce} {pc : Pc Nonce}
    (h : Knows leaseMs s pc) (hclock : s.clock ≤ t.clock) (hnext : s.nextInode ≤ t.nextInode)
    (hwritten : ∀ e ∈ s.written, e ∈ t.written)
    (hread : ∀ inode e, inode < s.nextInode → s.files inode = some e → t.files inode = some e)
    (hblank : ∀ h, pc = .writing h → t.files h.inode = s.files h.inode) :
    Knows leaseMs t pc := by
  have hmade : ∀ {h}, Made leaseMs s h → Made leaseMs t h := fun hmade =>
    ⟨hmade.used.trans_le hnext, hmade.leaseMs, hmade.token, fun e he => hwritten e (hmade.stolen e he)⟩
  have hheld : ∀ {h : Held Nonce}, Made leaseMs s h ∧ s.files h.inode = some h.record →
      Made leaseMs t h ∧ t.files h.inode = some h.record := fun hheld =>
    ⟨hmade hheld.1, hread _ _ hheld.1.used hheld.2⟩
  cases pc with
  | idle => trivial
  | creating a => exact h.trans hclock
  | reading a => exact h.trans hclock
  | stealing a inode existing =>
      refine ⟨h.1.trans hclock, fun e he => ?_⟩
      obtain ⟨hfile, hused, hexpired, hmem⟩ := h.2 e he
      exact ⟨hread inode e hused hfile, hused.trans_le hnext, hexpired, hwritten e hmem⟩
  | recreating a existing => exact ⟨h.1.trans hclock, fun e he => hwritten e (h.2 e he)⟩
  | writing held => exact ⟨hmade h.1, (hblank held rfl).trans h.2⟩
  | holding held => exact hheld h
  | releasing held => exact hheld h
  | unlinking held => exact hheld h

end Invariant

/-! ## One step -/

section Steps

variable {P Nonce : Type} {leaseMs : Nat} {s t : System P Nonce} {p : P}

theorem kept_initial (leaseMs : Nat) : Kept leaseMs (System.initial : System P Nonce) := by
  constructor <;> simp [System.initial, InTime, Pc.held, Pc.created, Knows]

/-- Time passes, bytes are drawn, contenders crash. -/
theorem Kept.around (h : Kept leaseMs s) {clock : Nat} {drawn : List Nonce} {dead : P → Bool}
    (htime : InTime leaseMs { s with clock := clock, drawn := drawn, dead := dead })
    (hclock : s.clock ≤ clock) (hdead : ∀ q, dead q = false → s.dead q = false) :
    Kept leaseMs { s with clock := clock, drawn := drawn, dead := dead } where
  inTime := htime
  knows q := (h.knows q).frame hclock le_rfl (fun _ he => he) (fun _ _ _ hf => hf) fun _ _ => rfl
  placed q held hq := h.placed q held (hdead q hq)
  apart := h.apart
  used := h.used
  onRecord := h.onRecord

/-- Nobody live has the file that is stolen. -/
theorem Kept.steal (h : Kept leaseMs s) {a : Attempt Nonce} {inode : Nat}
    {existing : Option (LeaseRecord Nonce)} (hpc : s.pc p = .stealing a inode existing)
    (hread : ∀ inode' ∈ s.path, inode' = inode ∧ (existing = none → s.files inode' = none ∧
      ∀ q, s.dead q = false → ∀ h ∈ (s.pc q).unwritten, h.inode ≠ inode'))
    {q : P} {held : Held Nonce} (hq : s.dead q = false) (hheld : (s.pc q).created = some held) :
    False := by
  obtain ⟨hinode, hblank⟩ := hread _ (h.placed q held hq hheld)
  have hknows := h.knows p
  rw [hpc] at hknows
  rcases writing_or_held hheld with hwriting | hfull
  · have hempty := h.knows q
    rw [hwriting] at hempty
    cases existing with
    | none => exact (hblank rfl).2 q hq held (by simp [hwriting, Pc.unwritten]) rfl
    | some e =>
        have hfile := (hknows.2 e rfl).1
        rw [← hinode, hempty.2] at hfile
        simp at hfile
  · have hfile := (h.knows q).filled hfull
    cases existing with
    | none => simp [(hblank rfl).1] at hfile
    | some e =>
        rw [hinode] at hfile
        -- it is within its lease, and was found expired at an earlier time
        obtain ⟨hseen, -, hexpired, -⟩ := hknows.2 e rfl
        obtain rfl := Option.some.inj (hseen.symm.trans hfile)
        have htime := h.inTime q hq held hfull
        have hclock := hknows.1
        have hlease := ((h.knows q).made hheld).leaseMs
        unfold isExpired at hexpired
        omega

variable [DecidableEq P]

/-- A contender moves on, without a file or with the one it has, and the files stay. -/
theorem Kept.become (h : Kept leaseMs s) {pc : Pc Nonce} (htime : InTime leaseMs (s.become p pc))
    (hknows : Knows leaseMs s pc)
    (hcreated : ∀ held, pc.created = some held → (s.pc p).created = some held) :
    Kept leaseMs (s.become p pc) := by
  have hbefore : ∀ q held, ((s.become p pc).pc q).created = some held →
      (s.pc q).created = some held := by
    intro q held hq
    by_cases hqp : q = p
    · subst hqp
      exact hcreated held (by simpa [System.become] using hq)
    · simpa [System.become, hqp] using hq
  refine ⟨htime, fun q => ?_, fun q held hq hheld => h.placed q held hq (hbefore q held hheld),
    fun q r held held' hq hr => h.apart q r held held' (hbefore q held hq) (hbefore r held' hr),
    h.used, h.onRecord⟩
  have hsame : ∀ {pc'}, Knows leaseMs s pc' → Knows leaseMs (s.become p pc) pc' := fun hk =>
    hk.frame le_rfl le_rfl (fun _ he => he) (fun _ _ _ hf => hf) fun _ _ => rfl
  by_cases hqp : q = p
  · subst hqp
    simpa [System.become] using hsame hknows
  · simpa [System.become, hqp] using hsame (h.knows q)

/-- The file at the path is removed, and no live contender is left with it. -/
theorem Kept.removes (h : Kept leaseMs s) {pc : Pc Nonce}
    (htime : InTime leaseMs { s.become p pc with path := none }) (hknows : Knows leaseMs s pc)
    (hcreated : pc.created = none)
    (hothers : ∀ q held, q ≠ p → s.dead q = false → (s.pc q).created = some held → False) :
    Kept leaseMs { s.become p pc with path := none } := by
  have hbefore : ∀ q held, ((s.become p pc).pc q).created = some held →
      q ≠ p ∧ (s.pc q).created = some held := by
    intro q held hq
    by_cases hqp : q = p
    · subst hqp
      simp [System.become, hcreated] at hq
    · exact ⟨hqp, by simpa [System.become, hqp] using hq⟩
  refine ⟨htime, fun q => ?_, fun q held hq hheld => ?_, fun q r held held' hq hr => ?_, by simp,
    h.onRecord⟩
  · have hsame : ∀ {pc'}, Knows leaseMs s pc' →
        Knows leaseMs { s.become p pc with path := none } pc' := fun hk =>
      hk.frame le_rfl le_rfl (fun _ he => he) (fun _ _ _ hf => hf) fun _ _ => rfl
    by_cases hqp : q = p
    · subst hqp
      simpa [System.become] using hsame hknows
    · simpa [System.become, hqp] using hsame (h.knows q)
  · obtain ⟨hqp, hs⟩ := hbefore q held hheld
    exact (hothers q held hqp hq hs).elim
  · exact h.apart q r held held' (hbefore q held hq).2 (hbefore r held' hr).2

/-- A file is created where there was none. -/
theorem Kept.create (h : Kept leaseMs s) {record : LeaseRecord Nonce}
    {stolen : Option (LeaseRecord Nonce)} (htime : InTime leaseMs (s.create p record stolen))
    (hpath : s.path = none) (hleaseMs : record.leaseMs = leaseMs)
    (htoken : record.fencingToken = nextToken stolen)
    (hstolen : ∀ e, stolen = some e → e ∈ s.written) :
    Kept leaseMs (s.create p record stolen) := by
  have hbefore : ∀ q held, ((s.create p record stolen).pc q).created = some held →
      q = p ∧ held.inode = s.nextInode ∨ q ≠ p ∧ (s.pc q).created = some held := by
    intro q held hq
    by_cases hqp : q = p
    · subst hqp
      simp only [System.create, System.become, Function.update_self, Pc.created,
        Option.some.injEq] at hq
      exact .inl ⟨rfl, by rw [← hq]⟩
    · exact .inr ⟨hqp, by simpa [System.create, System.become, hqp] using hq⟩
  have hold : ∀ q held, (s.pc q).created = some held → held.inode ≠ s.nextInode :=
    fun q held hq => ((h.knows q).made hq).used.ne
  refine ⟨htime, fun q => ?_, fun q held hq hheld => ?_, fun q r held held' hq hr heq => ?_, ?_, ?_⟩
  · by_cases hqp : q = p
    · subst hqp
      simp only [System.create, System.become, Function.update_self]
      exact ⟨⟨Nat.lt_succ_self _, hleaseMs, htoken, hstolen⟩, Function.update_self ..⟩
    · have hsame : Knows leaseMs (s.create p record stolen) (s.pc q) := by
        refine (h.knows q).frame le_rfl (Nat.le_succ _) (fun _ he => he) ?_ fun held hpc => ?_
        · intro inode e hused hfile
          have hne := hused.ne
          simpa [System.create, hne] using hfile
        · have hne := hold q held (by simp [hpc, Pc.created])
          simp [System.create, hne]
      simpa [System.create, System.become, hqp] using hsame
  · rcases hbefore q held hheld with ⟨-, hinode⟩ | ⟨-, hs⟩
    · simp [System.create, hinode]
    · have hplaced := h.placed q held hq hs
      simp [hpath] at hplaced
  · rcases hbefore q held hq with ⟨rfl, hinode⟩ | ⟨-, hs⟩ <;>
      rcases hbefore r held' hr with ⟨rfl, hinode'⟩ | ⟨-, hs'⟩
    · rfl
    · exact (hold r held' hs' (heq.symm.trans hinode)).elim
    · exact (hold q held hs (heq.trans hinode')).elim
    · exact h.apart q r held held' hs hs' heq
  · intro inode hinode
    simp only [System.create, Option.some.injEq] at hinode
    simp [System.create, ← hinode]
  · intro inode e hfile
    by_cases hinode : inode = s.nextInode
    · simp [System.create, hinode] at hfile
    · exact h.onRecord inode e (by simpa [System.create, hinode] using hfile)

/-- The record is written to the file that was created for it. -/
theorem Kept.write (h : Kept leaseMs s) {held : Held Nonce} (hpc : s.pc p = .writing held)
    (htime : InTime leaseMs { s.become p (.holding held) with
      files := Function.update s.files held.inode (some held.record)
      written := s.written ++ [held.record] }) :
    Kept leaseMs { s.become p (.holding held) with
      files := Function.update s.files held.inode (some held.record)
      written := s.written ++ [held.record] } := by
  have hknows := h.knows p
  rw [hpc] at hknows
  have hbefore : ∀ q held', ((s.become p (.holding held)).pc q).created = some held' →
      (s.pc q).created = some held' := by
    intro q held' hq
    by_cases hqp : q = p
    · subst hqp
      simpa [System.become, hpc, Pc.created, Pc.held] using hq
    · simpa [System.become, hqp] using hq
  refine ⟨htime, fun q => ?_, fun q held' hq hheld => h.placed q held' hq (hbefore q held' hheld),
    fun q r held' held'' hq hr => h.apart q r held' held'' (hbefore q held' hq) (hbefore r held'' hr),
    h.used, fun inode e hfile => ?_⟩
  · by_cases hqp : q = p
    · subst hqp
      simp only [System.become, Function.update_self]
      exact ⟨⟨hknows.1.used, hknows.1.leaseMs, hknows.1.token,
        fun e he => List.mem_append_left _ (hknows.1.stolen e he)⟩, Function.update_self ..⟩
    · simp only [System.become, Function.update_of_ne hqp]
      refine (h.knows q).frame le_rfl le_rfl (fun e he => List.mem_append_left _ he) ?_ ?_
      · intro inode e _ hfile
        have hne : inode ≠ held.inode := by
          rintro rfl
          simp [hknows.2] at hfile
        exact (Function.update_of_ne hne _ _).trans hfile
      · intro held' hq
        refine Function.update_of_ne (fun heq => hqp ?_) _ _
        exact h.apart q p held' held (by simp [hq, Pc.created]) (by simp [hpc, Pc.created]) heq
  · by_cases hinode : inode = held.inode
    · simp only [hinode, Function.update_self, Option.some.injEq] at hfile
      simp [← hfile]
    · simp only [Function.update_of_ne hinode] at hfile
      exact List.mem_append_left _ (h.onRecord inode e hfile)

variable [DecidableEq Nonce]

theorem Kept.advance (h : Kept leaseMs s) (hlive : s.dead p = false)
    (hadvance : s.advance leaseMs p = some t) (hok : Orderly leaseMs s t) : Kept leaseMs t := by
  have hknows := h.knows p
  have htime := hok.1
  unfold System.advance at hadvance
  split at hadvance
  · simp at hadvance
  · rename_i a hpc
    rw [hpc] at hknows
    split at hadvance
    · rename_i hpath
      obtain rfl := Option.some.inj hadvance
      exact h.create htime hpath rfl rfl (by simp)
    · obtain rfl := Option.some.inj hadvance
      exact h.become htime hknows (by simp [Pc.created, Pc.held])
  · rename_i held hpc
    obtain rfl := Option.some.inj hadvance
    exact h.write hpc htime
  · rename_i a hpc
    rw [hpc] at hknows
    split at hadvance
    · obtain rfl := Option.some.inj hadvance
      exact h.become htime trivial (by simp [Pc.created, Pc.held])
    · rename_i inode hpath
      split at hadvance
      · obtain rfl := Option.some.inj hadvance
        exact h.become htime ⟨hknows, by simp⟩ (by simp [Pc.created, Pc.held])
      · rename_i existing hfile
        split at hadvance
        · rename_i hexpired
          obtain rfl := Option.some.inj hadvance
          refine h.become htime ⟨hknows, fun e he => ?_⟩ (by simp [Pc.created, Pc.held])
          obtain rfl := Option.some.inj he
          exact ⟨hfile, h.used inode hpath, hexpired, h.onRecord inode _ hfile⟩
        · obtain rfl := Option.some.inj hadvance
          exact h.become htime trivial (by simp [Pc.created, Pc.held])
  · rename_i a inode existing hpc
    rw [hpc] at hknows
    obtain rfl := Option.some.inj hadvance
    have hread := hok.2 p (inode, existing) (by simp [hpc, Pc.target]) (by simp [System.become, hpc])
    exact h.removes htime ⟨hknows.1, fun e he => (hknows.2 e he).2.2.2⟩ rfl
      fun q held _ hq hheld => h.steal hpc hread hq hheld
  · rename_i a existing hpc
    rw [hpc] at hknows
    split at hadvance
    · rename_i hpath
      obtain rfl := Option.some.inj hadvance
      exact h.create htime hpath rfl rfl hknows.2
    · obtain rfl := Option.some.inj hadvance
      exact h.become htime trivial (by simp [Pc.created, Pc.held])
  · simp at hadvance
  · rename_i held hpc
    rw [hpc] at hknows
    split at hadvance
    · obtain rfl := Option.some.inj hadvance
      exact h.become htime trivial (by simp [Pc.created, Pc.held])
    · split at hadvance
      · obtain rfl := Option.some.inj hadvance
        exact h.become htime hknows (by simp [hpc, Pc.created, Pc.held])
      · obtain rfl := Option.some.inj hadvance
        exact h.become htime trivial (by simp [Pc.created, Pc.held])
  · rename_i held hpc
    obtain rfl := Option.some.inj hadvance
    refine h.removes htime trivial rfl fun q held' hqp hq hheld => hqp ?_
    -- the file at the path is its own
    have hown : (s.pc p).created = some held := by simp [hpc, Pc.created, Pc.held]
    have hsame := (h.placed q held' hq hheld).symm.trans (h.placed p held hlive hown)
    exact h.apart q p held' held hheld hown (Option.some.inj hsame)

theorem Kept.step (h : Kept leaseMs s) (hstep : Fires (step leaseMs) s t)
    (hok : Orderly leaseMs s t) : Kept leaseMs t := by
  obtain ⟨a, ha⟩ := hstep
  cases a with
  | tick ms =>
      obtain rfl := Option.some.inj ha
      exact h.around hok.1 (Nat.le_add_right _ _) fun _ hq => hq
  | begin_ p nonce =>
      simp only [Lease.step, Option.ite_none_right_eq_some, Option.some.injEq] at ha
      obtain ⟨-, rfl⟩ := ha
      have hdrawn : Kept leaseMs { s with drawn := nonce :: s.drawn } :=
        h.around h.inTime le_rfl fun _ hq => hq
      exact hdrawn.become hok.1 le_rfl (by simp [Pc.created, Pc.held])
  | move p =>
      simp only [Lease.step, Option.ite_none_right_eq_some] at ha
      exact h.advance ha.1 ha.2 hok
  | release p =>
      simp only [Lease.step] at ha
      split at ha
      · rename_i held hpc
        obtain ⟨-, ha⟩ := Option.ite_none_right_eq_some.mp ha
        obtain rfl := Option.some.inj ha
        have hknows := h.knows p
        rw [hpc] at hknows
        exact h.become hok.1 hknows (by simp [hpc, Pc.created, Pc.held])
      · simp at ha
  | crash p =>
      obtain rfl := Option.some.inj ha
      refine h.around hok.1 le_rfl fun q hq => ?_
      by_cases hqp : q = p
      · simp [hqp] at hq
      · simpa [hqp] using hq

/-- In a run in good order at most one live contender has a handle, and a handle got
by stealing a lease carries the token after the one of that lease. -/
theorem lease_exclusive
    (hrun : Reaches (Restrict (Fires (step leaseMs)) (Orderly leaseMs)) System.initial s) :
    (∀ p q, s.holds p → s.holds q → p = q) ∧
      ∀ p h, (s.pc p).held = some h → (h.stolen = none → h.record.fencingToken = 1) ∧
        ∀ e, h.stolen = some e → e ∈ s.written ∧ h.record.fencingToken = e.fencingToken + 1 := by
  have hkept : Kept leaseMs s := by
    refine hrun.invariant (kept_initial leaseMs) fun s t hs hst => ?_
    exact hs.step hst.1 hst.2
  constructor
  · intro p q hp hq
    obtain ⟨h, hh⟩ := Option.isSome_iff_exists.mp hp.2
    obtain ⟨h', hh'⟩ := Option.isSome_iff_exists.mp hq.2
    have hplaced := hkept.placed p h hp.1 (created_of_held hh)
    have hplaced' := hkept.placed q h' hq.1 (created_of_held hh')
    exact hkept.apart p q h h' (created_of_held hh) (created_of_held hh')
      (Option.some.inj (hplaced.symm.trans hplaced'))
  · intro p h hh
    have hmade := (hkept.knows p).made (created_of_held hh)
    refine ⟨fun hnone => ?_, fun e he => ⟨hmade.stolen e he, ?_⟩⟩
    · rw [hmade.token, hnone]
      rfl
    · rw [hmade.token, he]
      rfl

end Steps

/-! ## Three contenders -/

/-- The contender takes its next `n` steps. -/
def moves (p : Fin 3) (n : Nat) : List (Action (Fin 3) Nat) := List.replicate n (.move p)

/-- The tokens of the live holders, and of all leases in the order they were written. -/
def tokens (s : System (Fin 3) Nat) : List Nat × List Nat :=
  ((List.finRange 3).filterMap fun p =>
      if s.dead p then none else (s.pc p).held.map (·.record.fencingToken),
    s.written.map (·.fencingToken))

/-- A holder crashes and its lease is stolen once expired. -/
def theft : List (Action (Fin 3) Nat) :=
  Action.begin_ 0 0 :: moves 0 2 ++ Action.crash 0 :: .tick 11 :: .begin_ 1 1 :: moves 1 5

theorem tokens_theft : (runs (step 10) (Orderly 10) theft System.initial).map tokens =
    some ([2], [1, 2]) := by
  decide +kernel

theorem lease_exclusive_theft : ∃ s : System (Fin 3) Nat, tokens s = ([2], [1, 2]) ∧
    ∀ p q, s.holds p → s.holds q → p = q := by
  obtain ⟨s, hruns, hs⟩ := Option.map_eq_some_iff.mp tokens_theft
  exact ⟨s, hs, (lease_exclusive (reaches_of_runs hruns)).1⟩

/-- Two contenders find the lease of a crashed holder expired before either removes it. -/
def thieves : List (Action (Fin 3) Nat) :=
  Action.begin_ 0 0 :: moves 0 2 ++ Action.crash 0 :: .tick 11 :: .begin_ 1 1 :: .begin_ 2 2 ::
    moves 1 2 ++ moves 2 2 ++ moves 1 3 ++ moves 2 3

/-- A lease is released before it is taken again. -/
def turns : List (Action (Fin 3) Nat) :=
  Action.begin_ 0 0 :: moves 0 2 ++ Action.release 0 :: moves 0 2 ++ Action.begin_ 1 1 :: moves 1 2

theorem tokens_thieves :
    (runs (step 10) (fun _ t => InTime 10 t) thieves System.initial).map
      (fun s => (tokens s, (s.dead 1, (s.pc 1).held.isSome), s.dead 2, (s.pc 2).held.isSome)) =
        some (([2, 2], [1, 2, 2]), (false, true), false, true) := by
  decide +kernel

theorem tokens_turns :
    (runs (step 10) (fun _ t => InTime 10 t) turns System.initial).map tokens =
      some ([1], [1, 1]) := by
  decide +kernel

/-- With everyone in time there are two live holders after the one run, and the tokens
do not grow in the other. -/
theorem lease_stolen_twice :
    (∃ s : System (Fin 3) Nat,
      Reaches (Restrict (Fires (step 10)) fun _ t => InTime 10 t) System.initial s ∧
        ¬ ∀ p q, s.holds p → s.holds q → p = q) ∧
      ∃ s : System (Fin 3) Nat,
        Reaches (Restrict (Fires (step 10)) fun _ t => InTime 10 t) System.initial s ∧
          ¬ (s.written.map (·.fencingToken)).Pairwise (· < ·) := by
  constructor
  · obtain ⟨s, hruns, hs⟩ := Option.map_eq_some_iff.mp tokens_thieves
    simp only [Prod.mk.injEq] at hs
    refine ⟨s, reaches_of_runs hruns, fun hall => ?_⟩
    exact absurd (hall 1 2 hs.2.1 hs.2.2) (by decide)
  · obtain ⟨s, hruns, hs⟩ := Option.map_eq_some_iff.mp tokens_turns
    refine ⟨s, reaches_of_runs hruns, fun hgrow => ?_⟩
    have hwritten : s.written.map (·.fencingToken) = [1, 1] := congrArg Prod.snd hs
    rw [hwritten] at hgrow
    exact absurd hgrow (by decide)

end H2a.LocalFiles.Lease
