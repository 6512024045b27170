import H2a.Runtime.LineageLease
/-!
# What the fencing token of a lineage guarantees

The operations take no lock, so they fence a holder only while no write overtakes another.
Then the lease file holds the latest grant, and each event is one that the latest grant
before it allows.
-/

namespace H2a.Runtime

open H2a.Library

/-! ## What the operations decide -/

theorem checkPresented_eq_ok {current : LineageLease} {holder : JsString} {expectedEpoch : Nat}
    (h : checkPresented current holder expectedEpoch = .ok ()) :
    current.grant = ⟨holder, expectedEpoch⟩ := by
  unfold checkPresented at h
  split at h
  · cases h
  case isFalse hepoch =>
      split at h
      · cases h
      case isFalse hholder =>
          have he : current.epoch = expectedEpoch := not_not.mp hepoch
          have hh : current.holder = holder := not_not.mp hholder
          rw [LineageLease.grant, he, hh]

theorem checked_eq_ok {current : LineageLease} {holder : JsString} {expectedEpoch : Nat}
    {result effect : LeaseEffect}
    (h : (checkPresented current holder expectedEpoch).map (fun _ => result) = .ok effect) :
    current.grant = ⟨holder, expectedEpoch⟩ ∧ result = effect := by
  cases hcheck : checkPresented current holder expectedEpoch with
  | error e => simp [hcheck, Except.map] at h
  | ok u =>
      rw [hcheck] at h
      exact ⟨checkPresented_eq_ok hcheck, Except.ok.inj h⟩

/-- The grant a call that writes publishes, given what it has read. -/
inductive Publishes (clock : Int) : LeaseCall → Option LineageLease → Grant → Prop
  | created (holder incarnationId location ttlMs) :
      Publishes clock (.acquire holder incarnationId location ttlMs) none ⟨holder, 0⟩
  | takenOver (holder incarnationId location ttlMs) (read : LineageLease)
      (hexpired : isLeaseExpired read clock) :
      Publishes clock (.acquire holder incarnationId location ttlMs) (some read)
        ⟨holder, read.epoch⟩
  | renewed (read : LineageLease) (ttlMs) :
      Publishes clock (.renew read.holder read.epoch ttlMs) (some read) read.grant
  | handedOff (read : LineageLease) (holder incarnationId location ttlMs) :
      Publishes clock (.handoff read.holder read.epoch holder incarnationId location ttlMs)
        (some read) ⟨holder, read.epoch + 1⟩

theorem Publishes.mono {clock clock' : Int} (hle : clock ≤ clock') {call : LeaseCall}
    {read : Option LineageLease} {grant : Grant} (h : Publishes clock call read grant) :
    Publishes clock' call read grant := by
  cases h with
  | created holder incarnationId location ttlMs => apply Publishes.created
  | takenOver holder incarnationId location ttlMs read hexpired =>
      apply Publishes.takenOver
      exact Int.le_trans hexpired hle
  | renewed read ttlMs => apply Publishes.renewed
  | handedOff read holder incarnationId location ttlMs => apply Publishes.handedOff

theorem LeaseCall.publishes_of_decide {lineageId : JsString} {call : LeaseCall}
    {read : Option LineageLease} {clock : Int} {lease : LineageLease} {ttlMs : Int}
    (h : call.decide lineageId read clock = .ok (.write lease ttlMs)) :
    Publishes clock call read lease.grant := by
  cases call with
  | acquire holder incarnationId location ttl =>
      cases read with
      | none =>
          cases h
          exact .created holder incarnationId location _
      | some read =>
          simp only [LeaseCall.decide, acquireLease] at h
          split at h
          case isTrue hexpired =>
              cases h
              exact .takenOver holder incarnationId location _ read hexpired
          case isFalse => cases h
  | renew holder expectedEpoch ttl =>
      cases read with
      | none => cases h
      | some read =>
          have hchecked := checked_eq_ok h
          cases hchecked.1
          cases hchecked.2
          exact .renewed _ _
  | handoff fromHolder expectedEpoch holder incarnationId location ttl =>
      cases read with
      | none => cases h
      | some read =>
          have hchecked := checked_eq_ok h
          cases hchecked.1
          cases hchecked.2
          exact .handedOff _ _ _ _ _
  | release holder expectedEpoch =>
      cases read with
      | none => cases h
      | some read => cases (checked_eq_ok h).2

/-- A release that goes on to remove the file presents the lease it has read. -/
theorem LeaseCall.removes_of_decide {lineageId : JsString} {call : LeaseCall}
    {read : Option LineageLease} {clock : Int}
    (h : call.decide lineageId read clock = .ok .remove) :
    read.map LineageLease.grant = some call.presented := by
  cases call with
  | acquire holder incarnationId location ttl =>
      cases read with
      | none => cases h
      | some read =>
          simp only [LeaseCall.decide, acquireLease] at h
          split at h <;> cases h
  | renew holder expectedEpoch ttl =>
      cases read with
      | none => cases h
      | some read => cases (checked_eq_ok h).2
  | handoff fromHolder expectedEpoch holder incarnationId location ttl =>
      cases read with
      | none => cases h
      | some read => cases (checked_eq_ok h).2
  | release holder expectedEpoch =>
      cases read with
      | none => cases h
      | some read => rw [Option.map_some, (checked_eq_ok h).1, LeaseCall.presented]

/-- Nothing is left to do only where nothing was read. -/
theorem LeaseCall.absent_of_decide {lineageId : JsString} {call : LeaseCall}
    {read : Option LineageLease} {clock : Int}
    (h : call.decide lineageId read clock = .ok .none_) : read = none := by
  cases read with
  | none => rfl
  | some read =>
      cases call with
      | acquire holder incarnationId location ttl =>
          simp only [LeaseCall.decide, acquireLease] at h
          split at h <;> cases h
      | renew holder expectedEpoch ttl => cases (checked_eq_ok h).2
      | handoff fromHolder expectedEpoch holder incarnationId location ttl =>
          cases (checked_eq_ok h).2
      | release holder expectedEpoch => cases (checked_eq_ok h).2

/-! ## What the latest grant allows -/

/-- The events that may follow, by the latest grant not yet released. -/
inductive Allows : Option Grant → LeaseEvent → Prop
  | created (holder at_) : Allows none (.acquired ⟨holder, 0⟩ none at_)
  | takenOver (holder) (overtaken : LineageLease) (at_) (hexpired : isLeaseExpired overtaken at_) :
      Allows (some overtaken.grant) (.acquired ⟨holder, overtaken.epoch⟩ (some overtaken) at_)
  | renewed (grant) : Allows (some grant) (.renewed grant)
  | handedOff (grant : Grant) (holder) :
      Allows (some grant) (.handedOff grant ⟨holder, grant.epoch + 1⟩)
  | released (grant) : Allows (some grant) (.released grant)
  | nothingToRelease (grant) : Allows none (.nothingToRelease grant)

/-- A call that publishes makes an event that what it has read allows, and the grant it
publishes is the latest one after it. -/
theorem Publishes.allows {clock : Int} {call : LeaseCall} {read : Option LineageLease}
    {lease : LineageLease} (h : Publishes clock call read lease.grant) :
    Allows (read.map LineageLease.grant) (call.event read lease clock) ∧
      some lease.grant =
        (call.event read lease clock).latestAfter (read.map LineageLease.grant) := by
  generalize hgrant : lease.grant = grant at h
  cases h with
  | created holder incarnationId location ttlMs =>
      simp only [LeaseCall.event, LeaseEvent.latestAfter, hgrant]
      exact ⟨.created holder clock, trivial⟩
  | takenOver holder incarnationId location ttlMs read hexpired =>
      simp only [LeaseCall.event, LeaseEvent.latestAfter, hgrant]
      exact ⟨.takenOver holder read clock hexpired, trivial⟩
  | renewed read ttlMs =>
      simp only [LeaseCall.event, LeaseEvent.latestAfter]
      exact ⟨.renewed read.grant, rfl⟩
  | handedOff read holder incarnationId location ttlMs =>
      simp only [LeaseCall.event, LeaseEvent.latestAfter, hgrant]
      exact ⟨.handedOff read.grant holder, trivial⟩

/-- Each event is one that the latest grant before it allows. -/
def Allowed (log : List LeaseEvent) : Prop :=
  ∀ before e after, log = before ++ e :: after → Allows (latest before) e

theorem latest_append (before : List LeaseEvent) (e : LeaseEvent) :
    latest (before ++ [e]) = e.latestAfter (latest before) := by
  simp [latest]

theorem Allowed.snoc {log : List LeaseEvent} {e : LeaseEvent} (h : Allowed log)
    (he : Allows (latest log) e) : Allowed (log ++ [e]) := by
  intro before x after hsplit
  rcases List.eq_nil_or_concat after with rfl | ⟨after, y, rfl⟩
  · obtain ⟨rfl, hx⟩ := List.append_inj' hsplit rfl
    cases hx
    exact he
  · rw [List.concat_eq_append, ← List.cons_append, ← List.append_assoc] at hsplit
    exact h before x after (List.append_inj' hsplit rfl).1

theorem Allowed.initial {log rest : List LeaseEvent} (h : Allowed (log ++ rest)) :
    Allowed log := by
  intro before e after hsplit
  exact h before e (after ++ rest) (by rw [hsplit, List.append_assoc, List.cons_append])

/-! ## What follows for the log -/

/-- What a process is about to do is what its call decides on what it has read. -/
def LeasePc.Decided (clock : Int) : LeasePc → Prop
  | .writing call read lease _ => Publishes clock call read lease.grant
  | .publishing call read lease => Publishes clock call read lease.grant
  | .removing call read => read.map LineageLease.grant = some call.presented
  | _ => True

theorem LeasePc.Decided.mono {clock clock' : Int} (hle : clock ≤ clock') {pc : LeasePc}
    (h : pc.Decided clock) : pc.Decided clock' := by
  cases pc with
  | idle => trivial
  | reading call => trivial
  | writing call read lease ttlMs => exact Publishes.mono hle h
  | publishing call read lease => exact Publishes.mono hle h
  | removing call read => exact h

namespace LeaseSystem

variable {P : Type} [DecidableEq P]

/-- The lease file holds the latest grant. -/
structure Inv (s : LeaseSystem P) : Prop where
  file : s.file.map LineageLease.grant = latest s.log
  decided : ∀ p, (s.pc p).Decided s.clock
  allowed : Allowed s.log

omit [DecidableEq P] in
theorem start_inv (clock : Int) : (start (P := P) clock).Inv := by
  constructor
  · rfl
  · intro p
    trivial
  · intro before e after hlog
    cases before <;> cases hlog

omit [DecidableEq P] in
/-- The file, the clock and the log decide the rest of the invariant. -/
theorem Inv.of_eq {s t : LeaseSystem P} (h : s.Inv) (hfile : t.file = s.file)
    (hlog : t.log = s.log) (hdecided : ∀ p, (t.pc p).Decided t.clock) : t.Inv := by
  constructor
  · rw [hfile, hlog]
    exact h.file
  · exact hdecided
  · rw [hlog]
    exact h.allowed

omit [DecidableEq P] in
/-- An event the lease file allows, after which the file holds the latest grant. -/
theorem Inv.happens {s t : LeaseSystem P} (h : s.Inv) {e : LeaseEvent}
    (hallows : Allows (s.file.map LineageLease.grant) e)
    (hfile : t.file.map LineageLease.grant = e.latestAfter (s.file.map LineageLease.grant))
    (hlog : t.log = s.log ++ [e]) (hdecided : ∀ p, (t.pc p).Decided t.clock) : t.Inv := by
  rw [h.file] at hallows hfile
  constructor
  · rw [hlog, latest_append]
    exact hfile
  · exact hdecided
  · rw [hlog]
    exact h.allowed.snoc hallows

theorem Inv.decided_update {s : LeaseSystem P} (h : s.Inv) (p : P) {pc : LeasePc}
    (hpc : pc.Decided s.clock) (q : P) : (Function.update s.pc p pc q).Decided s.clock := by
  by_cases hq : q = p
  · rw [hq, Function.update_self]
    exact hpc
  · rw [Function.update_of_ne hq]
    exact h.decided q

/-- The step of a process, where nothing overtakes it. -/
theorem Inv.next {lineageId : JsString} {s : LeaseSystem P} (h : s.Inv) (p : P)
    (hok : Undisturbed s (.step p)) : (s.next lineageId p).Inv := by
  have hdecided := h.decided p
  simp only [Undisturbed] at hok
  unfold LeaseSystem.next
  cases hpc : s.pc p with
  | idle => exact h
  | reading call =>
      cases hdecide : call.decide lineageId s.file s.clock with
      | error e =>
          simp only [hdecide]
          exact h.of_eq rfl rfl (h.decided_update p (by trivial))
      | ok effect =>
          cases effect with
          | write lease ttlMs =>
              simp only [hdecide]
              exact h.of_eq rfl rfl (h.decided_update p (LeaseCall.publishes_of_decide hdecide))
          | remove =>
              simp only [hdecide]
              exact h.of_eq rfl rfl (h.decided_update p (LeaseCall.removes_of_decide hdecide))
          | none_ =>
              simp only [hdecide]
              have hnone := LeaseCall.absent_of_decide hdecide
              apply h.happens (e := .nothingToRelease call.presented) _ _ rfl
              · exact h.decided_update p (by trivial)
              · rw [hnone]
                exact .nothingToRelease call.presented
              · rfl
  | writing call read lease ttlMs =>
      rw [hpc] at hdecided
      refine h.of_eq rfl rfl (h.decided_update p ?_)
      exact hdecided
  | publishing call read lease =>
      rw [hpc] at hdecided hok
      obtain ⟨hfile, htmp⟩ := hok
      have hpublishes := Publishes.allows hdecided
      simp only [htmp]
      apply h.happens _ _ rfl
      · exact h.decided_update p (by trivial)
      · rw [hfile]
        exact hpublishes.1
      · rw [hfile]
        exact hpublishes.2
  | removing call read =>
      rw [hpc] at hdecided hok
      have hgrant : s.file.map LineageLease.grant = some call.presented := by
        rw [hok]
        exact hdecided
      apply h.happens (e := .released call.presented) _ _ rfl
      · exact h.decided_update p (by trivial)
      · rw [hgrant]
        exact .released call.presented
      · rfl

theorem Inv.act {lineageId : JsString} {s : LeaseSystem P} (h : s.Inv) (a : LeaseAction P)
    (hok : Undisturbed s a) : (s.act lineageId a).Inv := by
  cases a with
  | tick ms =>
      have hle : s.clock ≤ s.clock + ms := by omega
      exact h.of_eq rfl rfl fun p => (h.decided p).mono hle
  | call p call =>
      simp only [LeaseSystem.act]
      cases s.pc p with
      | idle => exact h.of_eq rfl rfl (h.decided_update p (by trivial))
      | reading _ => exact h
      | writing _ _ _ _ => exact h
      | publishing _ _ _ => exact h
      | removing _ _ => exact h
  | step p => exact h.next p hok
  | crash p => exact h.of_eq rfl rfl (h.decided_update p (by trivial))

end LeaseSystem

/-! ## Where the token repeats, falls back or is overtaken -/

/-- A process makes a call, and the call is taken to its end. -/
def wholeCall (p : Bool) (call : LeaseCall) : List (LeaseAction Bool) :=
  [.call p call, .step p, .step p, .step p]

def acquireBy (holder : String) (ttlMs : Int) : LeaseCall :=
  .acquire (js holder) (js "tmux") .local_ ttlMs

/-- A holder takes its own lease over. -/
def takeoverRun : List (LeaseAction Bool) :=
  wholeCall false (acquireBy "a" 0) ++ wholeCall true (acquireBy "a" 0)

end H2a.Runtime
