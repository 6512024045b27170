import H2a.Library.History
import H2a.Track.Lease.Store
import Mathlib.Data.List.Nodup
/-!
# Steal-safe leases

Whatever is called on one leases file, a subject has at most one lease on record; a heartbeat or a
release that succeeds presents the token of the acquisition in force; and a lease is replaced when
it has outlived its `ttlMs` since the last sign of its holder, and not before.
-/

namespace H2a.Track.LeaseStore

open H2a.Library

/-! ## Histories -/

namespace LeaseEvent

def subject : LeaseEvent → LeaseSubject
  | .acquired lease _ => lease.subject
  | .renewed subject _ _ _ => subject
  | .released subject _ => subject

/-- The lease on record after the call, and the time at which its holder was heard. -/
def stamp : LeaseEvent → Option (Lease × JsString)
  | .acquired lease now => some (lease, now)
  | .renewed _ _ lease now => some (lease, now)
  | .released _ _ => none

/-- The token a heartbeat or a release presents. -/
def presented : LeaseEvent → Option JsString
  | .acquired _ _ => none
  | .renewed _ token _ _ => some token
  | .released _ token => some token

/-- The subject is acquired, and the token given. -/
def Grants (subject : LeaseSubject) (token : JsString) (e : LeaseEvent) : Prop :=
  ∃ lease now, e = .acquired lease now ∧ lease.subject = subject ∧ lease.token = token

/-- An acquisition or a release of the subject. -/
def Settles (subject : LeaseSubject) (e : LeaseEvent) : Prop :=
  (∃ lease now, e = .acquired lease now ∧ lease.subject = subject) ∨
    ∃ token, e = .released subject token

end LeaseEvent

/-- The token is that of the last acquisition of the subject, which has not been released. -/
def InForce (subject : LeaseSubject) (token : JsString) (history : List LeaseEvent) : Prop :=
  Since (·.Grants subject token) (·.Settles subject) history

/-- The last call on the subject has left a lease, and its holder was heard at that time. -/
def LastHeard (subject : LeaseSubject) (lease : Lease) (time : JsString)
    (history : List LeaseEvent) : Prop :=
  Since (fun e => e.subject = subject ∧ e.stamp = some (lease, time)) (·.subject = subject) history

/-- More than `ttlMs` lies between the two times. -/
def Elapsed (dates : Dates) (before after : JsString) (ttlMs : ℚ) : Prop :=
  ∃ time time', dates.parse before = some time ∧ dates.parse after = some time' ∧
    ttlMs < time' - time

/-- A heartbeat or a release presents the token in force. -/
def PresentsToken (before : List LeaseEvent) (e : LeaseEvent) : Prop :=
  ∀ token, e.presented = some token → InForce e.subject token before

/-- An acquisition of a subject that has a lease finds it outlived. -/
def FindsOutlived (dates : Dates) (before : List LeaseEvent) (e : LeaseEvent) : Prop :=
  ∀ lease now, e = .acquired lease now → ∀ held time, LastHeard lease.subject held time before →
    Elapsed dates time now held.ttlMs

/-! ## What one operation does -/

theorem subjectKey_inj {s t : LeaseSubject} : subjectKey s = subjectKey t ↔ s = t := by
  refine ⟨fun h => ?_, fun h => h ▸ rfl⟩
  obtain ⟨kind, id⟩ := s
  obtain ⟨kind', id'⟩ := t
  have hunits : (kind.text ++ js ":").units ++ id.units =
      (kind'.text ++ js ":").units ++ id'.units :=
    congrArg JsString.units h
  have hkind : kind = kind' := by
    have hhead := congrArg List.head? hunits
    cases kind <;> cases kind' <;> first | rfl | exact absurd (Option.some.inj hhead) (by decide)
  subst hkind
  rw [JsString.ext_units (List.append_cancel_left hunits)]

/-- The leases after a call that has succeeded: the one it stamps, and those of other subjects. -/
structure Rewritten (all next : List Lease) (e : LeaseEvent) : Prop where
  nodup : (next.map (·.subject)).Nodup
  mem : ∀ l, l ∈ next ↔ l ∈ all ∧ l.subject ≠ e.subject ∨ ∃ now, e.stamp = some (l, now)
  stamped : ∀ l now, e.stamp = some (l, now) → l.subject = e.subject ∧ l.heartbeatAt = now

section Operations

variable {dates : Dates} {all next : List Lease} {lease : Lease} {now : JsString}

theorem assertFree_ok {subject : LeaseSubject} (hnodup : (all.map (·.subject)).Nodup)
    (h : assertFree dates all subject now = .ok ()) :
    ∀ l ∈ all, l.subject = subject → isLeaseAbandoned dates l now = true := by
  intro l hl hsubject
  unfold assertFree at h
  split at h
  · rename_i hnone
    have hother := List.find?_eq_none.mp hnone l hl
    simp [hsubject] at hother
  · rename_i existing hfound
    have hkey := List.find?_some hfound
    rw [decide_eq_true_iff, subjectKey_inj] at hkey
    have hsame : existing = l :=
      List.inj_on_of_nodup_map hnodup (List.mem_of_find?_eq_some hfound) hl
        (hkey.trans hsubject.symm)
    split at h
    · rename_i habandoned
      exact hsame ▸ habandoned
    · cases h

theorem acquire_ok {input : AcquireInput} {leaseId token : JsString}
    (hnodup : (all.map (·.subject)).Nodup)
    (h : acquire dates all input now leaseId token = .ok (next, lease)) :
    Rewritten all next (.acquired lease now) ∧
      ∀ l ∈ all, l.subject = lease.subject → isLeaseAbandoned dates l now = true := by
  simp only [acquire, bind_eq_ok_iff, pure_eq_ok, Except.ok.injEq, Prod.mk.injEq] at h
  obtain ⟨_, hfree, ttlMs, -, expiresAt, -, hnext, hlease⟩ := h
  have hsubject : lease.subject = input.subject := by rw [← hlease]
  have hmem : ∀ l, l ∈ next ↔ l ∈ all ∧ l.subject ≠ lease.subject ∨ l = lease := by
    intro l
    rw [← hnext, hlease, hsubject]
    simp [subjectKey_inj]
  refine ⟨⟨?_, ?_, ?_⟩, ?_⟩
  · rw [← hnext, hlease, List.map_append, List.nodup_append]
    refine ⟨(List.filter_sublist.map _).nodup hnodup, List.nodup_singleton _, ?_⟩
    intro s hs s' hs' heq
    obtain ⟨l, hl, rfl⟩ := List.mem_map.mp hs
    rw [List.mem_filter, decide_eq_true_iff, ne_eq, subjectKey_inj] at hl
    rw [List.map_singleton, List.mem_singleton, hsubject] at hs'
    exact hl.2 (heq.trans hs')
  · intro l
    rw [hmem]
    simp [LeaseEvent.subject, LeaseEvent.stamp, eq_comm]
  · intro l time hstamp
    obtain ⟨rfl, rfl⟩ := Prod.mk.inj (Option.some.inj hstamp)
    refine ⟨rfl, ?_⟩
    rw [← hlease]
  · rw [hsubject]
    exact assertFree_ok hnodup hfree

/-- The lease found is on the subject, and the index says where it stands. -/
theorem findHeld_ok {subject : LeaseSubject} {token absent mismatch : JsString} {idx : Nat}
    (h : findHeld all subject token absent mismatch = .ok (idx, lease)) :
    lease.subject = subject ∧ lease.token = token ∧
      ∃ before after, all = before ++ lease :: after ∧
        (∀ renewed, all.set idx renewed = before ++ renewed :: after) ∧
        all.eraseIdx idx = before ++ after := by
  unfold findHeld at h
  split at h
  · cases h
  · rename_i found hfound
    split at h
    · cases h
    · rename_i lease' hlease
      split at h
      · cases h
      · rename_i htoken
        obtain ⟨rfl, rfl⟩ := Prod.mk.inj (Except.ok.inj h)
        obtain ⟨hlt, hkey, -⟩ := List.findIdx?_eq_some_iff_getElem.mp hfound
        have hget : all[found] = lease' := by
          rw [List.getElem?_eq_getElem hlt] at hlease
          exact Option.some.inj hlease
        rw [decide_eq_true_iff, subjectKey_inj, hget] at hkey
        refine ⟨hkey, not_not.mp htoken, all.take found, all.drop (found + 1), ?_, ?_, ?_⟩
        · rw [← hget, List.getElem_cons_drop, List.take_append_drop]
        · intro renewed
          rw [List.set_eq_take_append_cons_drop, if_pos hlt]
        · exact List.eraseIdx_eq_take_drop_succ all found

/-- Next to a lease stand those of other subjects. -/
theorem mem_beside {before after : List Lease}
    (hnodup : ((before ++ lease :: after).map (·.subject)).Nodup) (l : Lease) :
    l ∈ before ++ after ↔ l ∈ before ++ lease :: after ∧ l.subject ≠ lease.subject := by
  have hperm : (before ++ lease :: after).Perm (lease :: (before ++ after)) := List.perm_middle
  rw [(hperm.map _).nodup_iff, List.map_cons, List.nodup_cons] at hnodup
  rw [hperm.mem_iff, List.mem_cons]
  constructor
  · intro hl
    exact ⟨.inr hl, fun heq => hnodup.1 (heq ▸ List.mem_map_of_mem hl)⟩
  · rintro ⟨rfl | hl, hne⟩
    · exact (hne rfl).elim
    · exact hl

theorem heartbeat_ok {subject : LeaseSubject} {token : JsString}
    (hnodup : (all.map (·.subject)).Nodup)
    (h : heartbeat dates all subject token now = .ok (next, lease)) :
    Rewritten all next (.renewed subject token lease now) ∧ lease.subject = subject ∧
      lease.token = token ∧ ∃ held ∈ all, held.subject = subject ∧ held.token = token := by
  simp only [heartbeat, bind_eq_ok_iff, pure_eq_ok, Except.ok.injEq, Prod.mk.injEq,
    Prod.exists] at h
  obtain ⟨idx, held, hheld, expiresAt, -, hnext, hlease⟩ := h
  obtain ⟨rfl, rfl, before, after, hall, hset, -⟩ := findHeld_ok hheld
  have hsubject : lease.subject = held.subject := by rw [← hlease]
  have htoken : lease.token = held.token := by rw [← hlease]
  rw [hlease, hset] at hnext
  subst hall
  refine ⟨⟨?_, ?_, ?_⟩, hsubject, htoken, held, by simp, rfl, rfl⟩
  · rw [← hnext, List.map_append, List.map_cons, hsubject]
    rwa [List.map_append, List.map_cons] at hnodup
  · intro l
    have hbeside := mem_beside hnodup l
    rw [← hnext]
    simp only [LeaseEvent.subject, LeaseEvent.stamp, ← hbeside]
    simp [or_comm, or_left_comm, eq_comm]
  · intro l time hstamp
    obtain ⟨rfl, rfl⟩ := Prod.mk.inj (Option.some.inj hstamp)
    refine ⟨hsubject, ?_⟩
    rw [← hlease]

theorem release_ok {subject : LeaseSubject} {token : JsString}
    (hnodup : (all.map (·.subject)).Nodup) (h : release all subject token = .ok next) :
    Rewritten all next (.released subject token) ∧
      ∃ held ∈ all, held.subject = subject ∧ held.token = token := by
  simp only [release, bind_eq_ok_iff, pure_eq_ok, Except.ok.injEq, Prod.exists] at h
  obtain ⟨idx, held, hheld, hnext⟩ := h
  obtain ⟨rfl, rfl, before, after, hall, -, herase⟩ := findHeld_ok hheld
  rw [herase] at hnext
  subst hall
  refine ⟨⟨?_, ?_, ?_⟩, held, by simp, rfl, rfl⟩
  · rw [← hnext]
    refine List.Nodup.sublist ?_ hnodup
    exact (List.Sublist.append_left (List.sublist_cons_self _ _) _).map _
  · intro l
    rw [← hnext, mem_beside hnodup]
    simp [LeaseEvent.subject, LeaseEvent.stamp]
  · intro l time hstamp
    cases hstamp

end Operations

/-! ## Runs -/

theorem LeaseEvent.Settles.subject {subject : LeaseSubject} {e : LeaseEvent}
    (h : e.Settles subject) : e.subject = subject := by
  rcases h with ⟨lease, now, rfl, hsubject⟩ | ⟨token, rfl⟩
  · exact hsubject
  · rfl

/-- What every run keeps of the leases on record, `all`, and its history. -/
structure Inv (dates : Dates) (all : List Lease) (history : List LeaseEvent) : Prop where
  nodup : (all.map (·.subject)).Nodup
  inForce : ∀ l ∈ all, InForce l.subject l.token history
  heard : ∀ subject held time, LastHeard subject held time history →
    held ∈ all ∧ held.subject = subject ∧ held.heartbeatAt = time
  presents : Always PresentsToken history
  outlived : Always (FindsOutlived dates) history

section Inv

variable {dates : Dates} {all next : List Lease} {history : List LeaseEvent} {e : LeaseEvent}

theorem inv_start : Inv dates [] [] where
  nodup := List.nodup_nil
  inForce _ hl := (List.not_mem_nil hl).elim
  heard _ _ _ hheard := (not_since_nil hheard).elim
  presents := always_nil
  outlived := always_nil

/-- One call that has succeeded, whichever it was. -/
theorem Inv.concat (h : Inv dates all history) (hnext : Rewritten all next e)
    (hstamped : ∀ l now, e.stamp = some (l, now) → InForce l.subject l.token (history ++ [e]))
    (hpresents : PresentsToken history e) (houtlived : FindsOutlived dates history e) :
    Inv dates next (history ++ [e]) where
  nodup := hnext.nodup
  inForce l hl := by
    rcases (hnext.mem l).mp hl with ⟨hold, hother⟩ | ⟨now, hstamp⟩
    · exact (h.inForce l hold).concat fun hsettles => hother hsettles.subject.symm
    · exact hstamped l now hstamp
  heard subject held time hheard := by
    rcases since_concat.mp hheard with ⟨hsubject, hstamp⟩ | ⟨hbefore, hother⟩
    · obtain ⟨hheld, htime⟩ := hnext.stamped held time hstamp
      exact ⟨(hnext.mem held).mpr (.inr ⟨time, hstamp⟩), hheld.trans hsubject, htime⟩
    · obtain ⟨hold, hheld, htime⟩ := h.heard subject held time hbefore
      have hne : held.subject ≠ e.subject := fun heq => hother (heq.symm.trans hheld)
      exact ⟨(hnext.mem held).mpr (.inl ⟨hold, hne⟩), hheld, htime⟩
  presents := always_concat.mpr ⟨h.presents, hpresents⟩
  outlived := always_concat.mpr ⟨h.outlived, houtlived⟩

/-- A lease found abandoned has outlived its `ttlMs` since its heartbeat. -/
theorem elapsed_of_abandoned {lease : Lease} {now : JsString}
    (h : isLeaseAbandoned dates lease now = true) :
    Elapsed dates lease.heartbeatAt now lease.ttlMs := by
  unfold isLeaseAbandoned at h
  split at h
  · rename_i time heartbeat htime hheartbeat
    exact ⟨heartbeat, time, hheartbeat, htime, of_decide_eq_true h⟩
  · cases h

theorem Inv.acquired (h : Inv dates all history) {input : AcquireInput}
    {now leaseId token : JsString} {lease : Lease}
    (hacquire : acquire dates all input now leaseId token = .ok (next, lease)) :
    Inv dates next (history ++ [LeaseEvent.acquired lease now]) := by
  obtain ⟨hnext, habandoned⟩ := acquire_ok h.nodup hacquire
  apply h.concat hnext
  · intro l time hstamp
    obtain ⟨rfl, rfl⟩ := Prod.mk.inj (Option.some.inj hstamp)
    exact since_of_starts ⟨lease, now, rfl, rfl, rfl⟩
  · intro presented hpresented
    cases hpresented
  · intro lease' now' heq held time hheard
    obtain ⟨rfl, rfl⟩ := LeaseEvent.acquired.inj heq
    obtain ⟨hheld, hsubject, htime⟩ := h.heard _ held time hheard
    rw [← htime]
    exact elapsed_of_abandoned (habandoned held hheld hsubject)

theorem Inv.renewed (h : Inv dates all history) {subject : LeaseSubject} {token now : JsString}
    {lease : Lease} (hheartbeat : heartbeat dates all subject token now = .ok (next, lease)) :
    Inv dates next (history ++ [LeaseEvent.renewed subject token lease now]) := by
  obtain ⟨hnext, hsubject, htoken, held, hheld, hheldSubject, hheldToken⟩ :=
    heartbeat_ok h.nodup hheartbeat
  have hforce : InForce subject token history := by
    rw [← hheldSubject, ← hheldToken]
    exact h.inForce held hheld
  apply h.concat hnext
  · intro l time hstamp
    obtain ⟨rfl, rfl⟩ := Prod.mk.inj (Option.some.inj hstamp)
    rw [hsubject, htoken]
    apply hforce.concat
    rintro (⟨_, _, heq, -⟩ | ⟨_, heq⟩)
    · cases heq
    · cases heq
  · intro presented hpresented
    obtain rfl := Option.some.inj hpresented
    exact hforce
  · intro lease' now' heq
    cases heq

theorem Inv.released (h : Inv dates all history) {subject : LeaseSubject} {token : JsString}
    (hrelease : release all subject token = .ok next) :
    Inv dates next (history ++ [LeaseEvent.released subject token]) := by
  obtain ⟨hnext, held, hheld, hheldSubject, hheldToken⟩ := release_ok h.nodup hrelease
  apply h.concat hnext
  · intro l time hstamp
    cases hstamp
  · intro presented hpresented
    obtain rfl := Option.some.inj hpresented
    change InForce subject token history
    rw [← hheldSubject, ← hheldToken]
    exact h.inForce held hheld
  · intro lease' now' heq
    cases heq

theorem Inv.step {w : LeaseWorld} (h : Inv dates (readLeasesFile w.file) w.history)
    (call : LeaseCall) :
    Inv dates (readLeasesFile (step dates w call).file) (step dates w call).history := by
  cases call with
  | acquire input now leaseId token =>
      rw [LeaseStore.step]
      split
      · rename_i hacquire
        exact h.acquired hacquire
      · exact h
  | heartbeat subject token now =>
      rw [LeaseStore.step]
      split
      · rename_i hheartbeat
        exact h.renewed hheartbeat
      · exact h
  | release subject token =>
      rw [LeaseStore.step]
      split
      · rename_i hrelease
        exact h.released hrelease
      · exact h

theorem inv_run (calls : List LeaseCall) :
    Inv dates (readLeasesFile (calls.foldl (step dates) start).file)
      (calls.foldl (step dates) start).history := by
  induction calls using List.reverseRecOn with
  | nil => exact inv_start
  | append_singleton calls call ih =>
      rw [List.foldl_append, List.foldl_cons, List.foldl_nil]
      exact ih.step call

end Inv

/-- After any calls on one leases file a subject has at most one lease, every heartbeat and
release that has succeeded presented the token in force, and every acquisition of a subject with a
lease came more than the `ttlMs` of that lease after its holder was last heard. -/
theorem leases_steal_safe (dates : Dates) (calls : List LeaseCall) :
    ((readLeasesFile (calls.foldl (step dates) start).file).map (·.subject)).Nodup ∧
      Always PresentsToken (calls.foldl (step dates) start).history ∧
      Always (FindsOutlived dates) (calls.foldl (step dates) start).history :=
  ⟨(inv_run calls).nodup, (inv_run calls).presents, (inv_run calls).outlived⟩

/-- The text of a time is the time in unary. -/
def unaryDates : Dates where
  parse text := some text.length
  toISOString time := ⟨List.replicate time.toNat 0x31⟩

def exampleInput (holder : String) : AcquireInput where
  workspace := js "w"
  subject := ⟨.item, js "i1"⟩
  phase := .executing
  holder := js holder
  ttlMs := some (.finite 2)
  eventHeadAtAcquire := none

/-- A lease is refused to another holder until it has outlived its two milliseconds, and its token
then fails. -/
example :
    (([.acquire (exampleInput "a") (js "1") (js "l1") (js "t1"),
        .acquire (exampleInput "b") (js "111") (js "l2") (js "t2"),
        .acquire (exampleInput "b") (js "1111") (js "l3") (js "t3"),
        .heartbeat ⟨.item, js "i1"⟩ (js "t1") (js "1111")].foldl (step unaryDates) start).history
      |>.map (·.stamp.map (·.1.token))) = [some (js "t1"), some (js "t3")] := by
  decide +kernel

end H2a.Track.LeaseStore
