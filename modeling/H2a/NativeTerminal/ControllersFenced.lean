import H2a.Library.Transition
import H2a.NativeTerminal.Controllers
/-!
# Controllers are fenced

Every operation of a host is made of a few moves of one record, each with the event that others
see of it.  The invariant ties the record of a session to what happened to that session; it is kept
by the moves, and gives what is promised of leases, epochs, exits and human activity.
-/

namespace H2a.NativeTerminal

open H2a.Library

/-! ## What events say -/

namespace HostEvent

/-- The event ends every lease of the session. -/
def Ends (id : JsString) : HostEvent → Prop
  | .granted lease _ _ | .released lease _ => lease.id = id
  | .invalidated id' | .exited id' _ => id' = id
  | _ => False

/-- The lease through which an operation reached a pty. -/
def reached : HostEvent → Option (NativeTerminalControllerLease × Nat)
  | .wrote lease pty _ _ | .resized lease pty _ _ | .stopped lease pty _ => some (lease, pty)
  | _ => none

/-- The incarnation an event is about. -/
def incarnation : HostEvent → Option JsString
  | .created _ incarnation _ | .exited _ incarnation => some incarnation
  | .granted lease _ _ | .guarded lease _ _ | .wrote lease _ _ _ | .resized lease _ _ _
  | .stopped lease _ _ | .released lease _ => some lease.incarnation
  | .invalidated _ | .killed _ _ | .groupSignalled _ _ => none

/-- The incarnation of a new session. -/
def createdIncarnation : HostEvent → Option JsString
  | .created _ incarnation _ => some incarnation
  | _ => none

/-- The epoch of a lease granted within an incarnation. -/
def grantedEpoch (incarnation : JsString) : HostEvent → Option Nat
  | .granted lease _ _ => if lease.incarnation = incarnation then some lease.epoch else none
  | _ => none

end HostEvent

/-- The incarnations of the sessions created. -/
def createdIncarnations (history : List HostEvent) : List JsString :=
  history.filterMap HostEvent.createdIncarnation

/-- The lease was granted, and no later event ended it. -/
def InForce (history : List HostEvent) (lease : NativeTerminalControllerLease) : Prop :=
  Since (fun e => ∃ activity time, e = .granted lease activity time) (·.Ends lease.id) history

/-- A pty is reached only through the lease in force, and it is the pty of its session. -/
def ReachedInForce (before : List HostEvent) (e : HostEvent) : Prop :=
  ∀ lease pty, e.reached = some (lease, pty) →
    InForce before lease ∧ .created lease.id lease.incarnation pty ∈ before

/-- A human lease of the incarnation is granted, written through or released at that time. -/
def HumanUse (incarnation : JsString) (time : Int) (before : List HostEvent) : HostEvent → Prop
  | .granted lease activity t => activity = .human ∧ lease.incarnation = incarnation ∧ t = time
  | .wrote lease _ _ t | .released lease t =>
      (∃ granted, .granted lease .human granted ∈ before) ∧ lease.incarnation = incarnation ∧
        t = time
  | _ => False

/-- A lease guarded by a window is not granted within it after a human's use of the session. -/
def GuardHolds (before : List HostEvent) (e : HostEvent) : Prop :=
  ∀ lease window granted, e = .guarded lease window granted → 0 < window →
    ∀ time, Sometime (HumanUse lease.incarnation time) before →
      ¬(granted - window < time ∧ time ≤ granted)

/-! ## Moves -/

/-- The clock shows a time of the turn, none before a human's use of a session. -/
def Stamps (readings : List Int) (history : List HostEvent) (now : Int) : Prop :=
  now ∈ readings ∧ ∀ incarnation time, Sometime (HumanUse incarnation time) history → time ≤ now

/-- What an operation does to one record. -/
inductive RecordMove (generation : JsString) (readings : List Int) (history : List HostEvent)
    (record : SessionRecord) : HostEvent → SessionRecord → Prop where
  | granted (controllerId : JsString) (activity : NativeTerminalControllerActivity)
      (options : NativeTerminalControllerOptions) (since active : Int)
      (hstatus : record.status ≠ .exited)
      (hstamps : activity = .human → Stamps readings history active) :
      RecordMove generation readings history record
        (.granted ⟨record.id, generation, record.incarnation, controllerId,
          record.controllerEpoch + 1⟩ activity (if activity = .human then active else since))
        (NativeTerminalHost.grantedRecord record controllerId activity options since active)
  | guarded (lease : NativeTerminalControllerLease) (window granted : Int)
      (hlease : record.lease generation = some lease)
      (hlast : ∀ last, record.lastHumanActivityAt = some last → 0 < window →
        last ≤ granted - window) :
      RecordMove generation readings history record (.guarded lease window granted) record
  | wrote (lease : NativeTerminalControllerLease) (data : JsString) (now : Int)
      (hlease : record.lease generation = some lease) (hstamps : Stamps readings history now) :
      RecordMove generation readings history record (.wrote lease record.pty data now)
        (record.touch now)
  | released (lease : NativeTerminalControllerLease) (now : Int)
      (hlease : record.lease generation = some lease) (hstamps : Stamps readings history now) :
      RecordMove generation readings history record (.released lease now)
        (record.touch now).invalidateController
  | resized (lease : NativeTerminalControllerLease) (cols rows : Int)
      (hlease : record.lease generation = some lease) :
      RecordMove generation readings history record (.resized lease record.pty cols rows) record
  | stopped (lease : NativeTerminalControllerLease) (signal : JsString)
      (hlease : record.lease generation = some lease) (hstatus : record.status ≠ .exited) :
      RecordMove generation readings history record (.stopped lease record.pty signal)
        (record.stopping signal)
  | stopFailed (lease : NativeTerminalControllerLease) (signal : JsString)
      (hlease : record.lease generation = some lease) :
      RecordMove generation readings history record (.stopped lease record.pty signal) record
  | invalidated (signal : Option JsString) (status : NativeTerminalSessionStatus)
      (hbefore : record.status ≠ .exited) (hafter : status ≠ .exited) :
      RecordMove generation readings history record (.invalidated record.id)
        { record.invalidateController with status, stopSignal := signal }
  | killed (signal : JsString) :
      RecordMove generation readings history record (.killed record.pty signal) record
  | groupSignalled (signal : JsString) :
      RecordMove generation readings history record (.groupSignalled record.pty signal) record
  | groupSignalledAgain (signal : JsString) (hstatus : record.status ≠ .exited) :
      RecordMove generation readings history record (.groupSignalled record.pty signal)
        (record.stopping signal)
  | exited (exit : NativeTerminalExit) :
      RecordMove generation readings history record (.exited record.id record.incarnation)
        { record with exit := some exit, status := .exited }.invalidateController

/-- A host changes one session and leaves the others. -/
def Changes (host host' : NativeTerminalHost) (record : SessionRecord) : Prop :=
  host'.generation = host.generation ∧
    ∀ id, host'.sessions.get id = if id = record.id then some record else host.sessions.get id

/-- A move of a host and its history. -/
inductive HostMove (readings : List Int) :
    NativeTerminalHost × List HostEvent → NativeTerminalHost × List HostEvent → Prop where
  /-- sessions are forgotten -/
  | forgot {host host' : NativeTerminalHost} {history : List HostEvent}
      (hgeneration : host'.generation = host.generation)
      (hsessions : ∀ id record, host'.sessions.get id = some record →
        host.sessions.get id = some record) :
      HostMove readings (host, history) (host', history)
  | created {host host' : NativeTerminalHost} {history : List HostEvent}
      {id incarnation : JsString} {pty : Nat} (habsent : host.sessions.get id = none)
      (hchanges : Changes host host' (newRecord id incarnation pty)) :
      HostMove readings (host, history)
        (host', history ++ [HostEvent.created id incarnation pty])
  | moved {host host' : NativeTerminalHost} {history : List HostEvent}
      {record record' : SessionRecord} {e : HostEvent}
      (hget : host.sessions.get record.id = some record)
      (hmove : RecordMove host.generation readings history record e record')
      (hchanges : Changes host host' record') :
      HostMove readings (host, history) (host', history ++ [e])

/-! ## The invariant -/

/-- What the record of a session says of what happened to it. -/
structure RecordFits (generation : JsString) (history : List HostEvent) (record : SessionRecord) :
    Prop where
  created : .created record.id record.incarnation record.pty ∈ history
  current : ∀ lease, record.lease generation = some lease → InForce history lease
  activity : ∀ lease, record.lease generation = some lease → ∀ activity time,
    .granted lease activity time ∈ history → record.controllerActivity = some activity
  below : ∀ lease activity time, .granted lease activity time ∈ history →
    lease.incarnation = record.incarnation → lease.epoch ≤ record.controllerEpoch
  touched : ∀ time, Sometime (HumanUse record.incarnation time) history →
    ∃ last, record.lastHumanActivityAt = some last ∧ time ≤ last
  exited_iff : record.status = .exited ↔ .exited record.id record.incarnation ∈ history

/-- What is promised of a history. -/
structure HistoryFits (history : List HostEvent) : Prop where
  known : ∀ e ∈ history, ∀ incarnation, e.incarnation = some incarnation →
    incarnation ∈ createdIncarnations history
  reached : Always ReachedInForce history
  epochs : ∀ incarnation, (history.filterMap (HostEvent.grantedEpoch incarnation)).Pairwise (· < ·)
  guarded : Always GuardHolds history

structure Fenced (host : NativeTerminalHost) (history : List HostEvent) : Prop where
  records : ∀ id record, host.sessions.get id = some record →
    RecordFits host.generation history record
  history : HistoryFits history

variable {generation : JsString} {readings : List Int} {history : List HostEvent}
  {record record' : SessionRecord} {e : HostEvent} {host host' : NativeTerminalHost}

/-! ## Incarnations -/

theorem createdIncarnations_concat :
    createdIncarnations (history ++ [e]) =
      createdIncarnations history ++ (e.createdIncarnation).toList := by
  rw [createdIncarnations, createdIncarnations, List.filterMap_append]
  cases h : e.createdIncarnation <;> simp [h]

theorem nodup_of_concat (h : (createdIncarnations (history ++ [e])).Nodup) :
    (createdIncarnations history).Nodup := by
  rw [createdIncarnations_concat] at h
  exact (List.sublist_append_left _ _).nodup h

theorem mem_createdIncarnations {id incarnation : JsString} {pty : Nat}
    (h : .created id incarnation pty ∈ history) : incarnation ∈ createdIncarnations history :=
  List.mem_filterMap.mpr ⟨_, h, rfl⟩

/-- An incarnation that is never reused is that of one session. -/
theorem created_unique (hnodup : (createdIncarnations history).Nodup)
    {id id' incarnation : JsString} {pty pty' : Nat}
    (h : .created id incarnation pty ∈ history) (h' : .created id' incarnation pty' ∈ history) :
    id = id' := by
  induction history with
  | nil => cases h
  | cons e rest ih =>
      have hrest : (createdIncarnations rest).Nodup :=
        ((List.sublist_cons_self e rest).filterMap _).nodup hnodup
      rcases List.mem_cons.mp h with rfl | htail <;> rcases List.mem_cons.mp h' with heq | htail'
      · cases heq
        rfl
      · exact absurd (mem_createdIncarnations htail') (List.nodup_cons.mp hnodup).1
      · subst heq
        exact absurd (mem_createdIncarnations htail) (List.nodup_cons.mp hnodup).1
      · exact ih hrest htail htail'

/-- Nothing has happened to an incarnation before its session is created. -/
theorem HistoryFits.fresh (h : HistoryFits history) {id incarnation : JsString} {pty : Nat}
    (hnodup : (createdIncarnations (history ++ [HostEvent.created id incarnation pty])).Nodup) :
    ∀ e ∈ history, e.incarnation ≠ some incarnation := by
  intro e he heq
  rw [createdIncarnations_concat] at hnodup
  exact (List.nodup_append.mp hnodup).2.2 _ (h.known e he _ heq) incarnation
    (by simp [HostEvent.createdIncarnation]) rfl

theorem incarnation_of_humanUse {incarnation : JsString} {time : Int} {before : List HostEvent}
    (h : HumanUse incarnation time before e) : e.incarnation = some incarnation := by
  cases e with
  | granted lease activity t => exact congrArg some h.2.1
  | wrote lease pty data t => exact congrArg some h.2.1
  | released lease t => exact congrArg some h.2.1
  | _ => exact h.elim

theorem mem_of_sometime_humanUse {incarnation : JsString} {time : Int}
    (h : Sometime (HumanUse incarnation time) history) :
    ∃ e ∈ history, e.incarnation = some incarnation := by
  obtain ⟨before, e, after, rfl, huse⟩ := h
  exact ⟨e, by simp, incarnation_of_humanUse huse⟩

/-! ## A session that is left alone -/

/-- What happens to another session leaves a record as it was. -/
theorem RecordFits.concat (h : RecordFits generation history record)
    (hincarnation : e.incarnation ≠ some record.incarnation) (hends : ¬e.Ends record.id) :
    RecordFits generation (history ++ [e]) record where
  created := List.mem_append_left _ h.created
  current := by
    intro lease hlease
    apply (h.current lease hlease).concat
    obtain ⟨controllerId, -, rfl⟩ := Option.map_eq_some_iff.mp hlease
    exact hends
  activity := by
    intro lease hlease activity time hmem
    rcases List.mem_append.mp hmem with hmem | hmem
    · exact h.activity lease hlease activity time hmem
    · obtain ⟨controllerId, -, rfl⟩ := Option.map_eq_some_iff.mp hlease
      rw [← List.mem_singleton.mp hmem] at hincarnation
      exact absurd rfl hincarnation
  below := by
    intro lease activity time hmem heq
    rcases List.mem_append.mp hmem with hmem | hmem
    · exact h.below lease activity time hmem heq
    · rw [← List.mem_singleton.mp hmem] at hincarnation
      exact absurd (congrArg some heq) hincarnation
  touched := by
    intro time huse
    rcases sometime_concat.mp huse with huse | huse
    · exact h.touched time huse
    · exact absurd (incarnation_of_humanUse huse) hincarnation
  exited_iff := by
    rw [h.exited_iff, List.mem_append, List.mem_singleton]
    constructor
    · exact .inl
    · rintro (hmem | rfl)
      · exact hmem
      · exact absurd rfl hincarnation

/-! ## Changes of a record -/

namespace SessionRecord

theorem lease_invalidateController : record.invalidateController.lease generation = none := by
  cases h : record.controllerId <;> simp [invalidateController, lease, h]

theorem invalidateController_same (record : SessionRecord) :
    record.invalidateController.id = record.id ∧
      record.invalidateController.incarnation = record.incarnation ∧
      record.invalidateController.pty = record.pty ∧
      record.invalidateController.status = record.status ∧
      record.invalidateController.lastHumanActivityAt = record.lastHumanActivityAt := by
  cases h : record.controllerId <;> simp [invalidateController, h]

theorem le_invalidateController (record : SessionRecord) :
    record.controllerEpoch ≤ record.invalidateController.controllerEpoch := by
  cases h : record.controllerId <;> simp [invalidateController, h]

theorem invalidateController_stopping (signal : JsString) :
    (record.stopping signal).invalidateController =
      { record.invalidateController with status := .stopping, stopSignal := some signal } := by
  cases h : record.controllerId <;> simp [invalidateController, stopping, h]

theorem touch_same (record : SessionRecord) (generation : JsString) (now : Int) :
    (record.touch now).id = record.id ∧ (record.touch now).incarnation = record.incarnation ∧
      (record.touch now).pty = record.pty ∧ (record.touch now).status = record.status ∧
      (record.touch now).lease generation = record.lease generation ∧
      (record.touch now).controllerActivity = record.controllerActivity ∧
      (record.touch now).controllerEpoch = record.controllerEpoch := by
  unfold touch
  split <;> simp [lease]

theorem lease_fields {lease : NativeTerminalControllerLease}
    (h : record.lease generation = some lease) :
    lease.id = record.id ∧ lease.incarnation = record.incarnation ∧
      lease.epoch = record.controllerEpoch := by
  obtain ⟨controllerId, -, rfl⟩ := Option.map_eq_some_iff.mp h
  exact ⟨rfl, rfl, rfl⟩

end SessionRecord

open SessionRecord

/-- A record that is changed by an event that grants nothing. -/
theorem RecordFits.change (h : RecordFits generation history record)
    (hid : record'.id = record.id) (hincarnation : record'.incarnation = record.incarnation)
    (hpty : record'.pty = record.pty)
    (hgranted : ∀ lease activity time, e ≠ .granted lease activity time)
    (hcurrent : ∀ lease, record'.lease generation = some lease →
      record.lease generation = some lease ∧ ¬e.Ends lease.id ∧
        record'.controllerActivity = record.controllerActivity)
    (hepoch : record.controllerEpoch ≤ record'.controllerEpoch)
    (htouched : ∀ time, Sometime (HumanUse record.incarnation time) (history ++ [e]) →
      ∃ last, record'.lastHumanActivityAt = some last ∧ time ≤ last)
    (hexited : record'.status = .exited ↔
      record.status = .exited ∨ e = .exited record.id record.incarnation) :
    RecordFits generation (history ++ [e]) record' where
  created := by
    rw [hid, hincarnation, hpty]
    exact List.mem_append_left _ h.created
  current := by
    intro lease hlease
    obtain ⟨hold, hends, -⟩ := hcurrent lease hlease
    exact (h.current lease hold).concat hends
  activity := by
    intro lease hlease activity time hmem
    obtain ⟨hold, -, hsame⟩ := hcurrent lease hlease
    rcases List.mem_append.mp hmem with hmem | hmem
    · rw [hsame]
      exact h.activity lease hold activity time hmem
    · exact absurd (List.mem_singleton.mp hmem).symm (hgranted lease activity time)
  below := by
    intro lease activity time hmem heq
    rcases List.mem_append.mp hmem with hmem | hmem
    · exact (h.below lease activity time hmem (heq.trans hincarnation)).trans hepoch
    · exact absurd (List.mem_singleton.mp hmem).symm (hgranted lease activity time)
  touched := by
    rw [hincarnation]
    exact htouched
  exited_iff := by
    rw [hexited, h.exited_iff, hid, hincarnation, List.mem_append, List.mem_singleton, eq_comm]

/-- An event that is no human's use leaves the times of human activity as they were. -/
theorem RecordFits.touched_of_not_use (h : RecordFits generation history record)
    (hlast : record'.lastHumanActivityAt = record.lastHumanActivityAt)
    (huse : ∀ time, ¬HumanUse record.incarnation time history e) (time : Int)
    (h' : Sometime (HumanUse record.incarnation time) (history ++ [e])) :
    ∃ last, record'.lastHumanActivityAt = some last ∧ time ≤ last := by
  rw [hlast]
  rcases sometime_concat.mp h' with hold | hnew
  · exact h.touched time hold
  · exact absurd hnew (huse time)

/-- A human's use through the current lease is stamped. -/
theorem RecordFits.touched_touch (h : RecordFits generation history record)
    {lease : NativeTerminalControllerLease} (hlease : record.lease generation = some lease)
    {now : Int} (hstamps : Stamps readings history now)
    (huse : ∀ time, HumanUse record.incarnation time history e →
      (∃ granted, .granted lease .human granted ∈ history) ∧ now = time) (time : Int)
    (h' : Sometime (HumanUse record.incarnation time) (history ++ [e])) :
    ∃ last, (record.touch now).lastHumanActivityAt = some last ∧ time ≤ last := by
  by_cases hhuman : record.controllerActivity = some .human
  · refine ⟨now, by simp [touch, hhuman], ?_⟩
    rcases sometime_concat.mp h' with hold | hnew
    · exact hstamps.2 _ time hold
    · exact Int.le_of_eq (huse time hnew).2.symm
  · rw [touch, if_neg hhuman]
    rcases sometime_concat.mp h' with hold | hnew
    · exact h.touched time hold
    · obtain ⟨⟨granted, hgranted⟩, -⟩ := huse time hnew
      exact absurd (h.activity lease hlease _ _ hgranted) hhuman

/-! ## Moves keep the invariant -/

theorem RecordMove.same (h : RecordMove generation readings history record e record') :
    record'.id = record.id ∧ record'.incarnation = record.incarnation := by
  cases h with
  | wrote lease data now => exact ⟨(record.touch_same generation now).1,
      (record.touch_same generation now).2.1⟩
  | released lease now =>
      have hsame := (record.touch now).invalidateController_same
      have htouch := record.touch_same generation now
      exact ⟨hsame.1.trans htouch.1, hsame.2.1.trans htouch.2.1⟩
  | invalidated signal status =>
      exact ⟨record.invalidateController_same.1, record.invalidateController_same.2.1⟩
  | exited exit =>
      exact ⟨(invalidateController_same { record with exit := some exit, status := .exited }).1,
        (invalidateController_same { record with exit := some exit, status := .exited }).2.1⟩
  | _ => exact ⟨rfl, rfl⟩

/-- An event of a move is about the session that is moved. -/
theorem RecordMove.about (h : RecordMove generation readings history record e record') :
    (∀ incarnation, e.incarnation = some incarnation → incarnation = record.incarnation) ∧
      ∀ id, e.Ends id → id = record.id := by
  cases h with
  | granted => exact ⟨fun _ h => (Option.some.inj h).symm, fun _ h => h.symm⟩
  | guarded lease window granted hlease =>
      exact ⟨fun _ h => (Option.some.inj h).symm.trans (lease_fields hlease).2.1, fun _ h => h.elim⟩
  | wrote lease data now hlease =>
      exact ⟨fun _ h => (Option.some.inj h).symm.trans (lease_fields hlease).2.1, fun _ h => h.elim⟩
  | released lease now hlease =>
      exact ⟨fun _ h => (Option.some.inj h).symm.trans (lease_fields hlease).2.1,
        fun _ h => h.symm.trans (lease_fields hlease).1⟩
  | resized lease cols rows hlease =>
      exact ⟨fun _ h => (Option.some.inj h).symm.trans (lease_fields hlease).2.1, fun _ h => h.elim⟩
  | stopped lease signal hlease =>
      exact ⟨fun _ h => (Option.some.inj h).symm.trans (lease_fields hlease).2.1, fun _ h => h.elim⟩
  | stopFailed lease signal hlease =>
      exact ⟨fun _ h => (Option.some.inj h).symm.trans (lease_fields hlease).2.1, fun _ h => h.elim⟩
  | invalidated => exact ⟨(fun _ h => nomatch h), fun _ h => h.symm⟩
  | killed => exact ⟨(fun _ h => nomatch h), fun _ h => h.elim⟩
  | groupSignalled => exact ⟨(fun _ h => nomatch h), fun _ h => h.elim⟩
  | groupSignalledAgain => exact ⟨(fun _ h => nomatch h), fun _ h => h.elim⟩
  | exited => exact ⟨fun _ h => (Option.some.inj h).symm, fun _ h => h.symm⟩

/-- What a granted lease makes of a record. -/
theorem RecordFits.granted (h : RecordFits generation history record) {controllerId : JsString}
    {activity : NativeTerminalControllerActivity} {options : NativeTerminalControllerOptions}
    {since active : Int} (hstatus : record.status ≠ .exited)
    (hstamps : activity = .human → Stamps readings history active) :
    RecordFits generation
      (history ++ [HostEvent.granted ⟨record.id, generation, record.incarnation, controllerId,
        record.controllerEpoch + 1⟩ activity (if activity = .human then active else since)])
      (NativeTerminalHost.grantedRecord record controllerId activity options since active) where
  created := List.mem_append_left _ h.created
  current := by
    intro lease hlease
    cases hlease
    exact since_of_starts ⟨activity, _, rfl⟩
  activity := by
    intro lease hlease activity' time hmem
    cases hlease
    rcases List.mem_append.mp hmem with hmem | hmem
    · have hle := h.below _ _ _ hmem rfl
      exact absurd hle (Nat.not_succ_le_self _)
    · cases List.mem_singleton.mp hmem
      rfl
  below := by
    intro lease activity' time hmem heq
    rcases List.mem_append.mp hmem with hmem | hmem
    · exact (h.below _ _ _ hmem heq).trans (Nat.le_succ _)
    · cases List.mem_singleton.mp hmem
      exact Nat.le_refl _
  touched := by
    intro time huse
    cases activity with
    | human =>
        refine ⟨active, rfl, ?_⟩
        rcases sometime_concat.mp huse with hold | ⟨-, -, hnew⟩
        · exact (hstamps rfl).2 _ time hold
        · exact Int.le_of_eq hnew.symm
    | automation =>
        rcases sometime_concat.mp huse with hold | ⟨hhuman, -⟩
        · exact h.touched time hold
        · cases hhuman
  exited_iff := by
    rw [List.mem_append, List.mem_singleton]
    constructor
    · intro hexited
      exact absurd hexited hstatus
    · rintro (hmem | heq)
      · exact h.exited_iff.mpr hmem
      · cases heq

/-- An event that ends nothing and is no human's use. -/
def Quiet (e : HostEvent) : Prop :=
  (∀ id, ¬e.Ends id) ∧ ∀ incarnation time before, ¬HumanUse incarnation time before e

theorem RecordFits.quiet (h : RecordFits generation history record) (hquiet : Quiet e) :
    RecordFits generation (history ++ [e]) record := by
  apply h.change rfl rfl rfl
  · rintro lease activity time rfl
    exact hquiet.1 lease.id rfl
  · intro lease hlease
    exact ⟨hlease, hquiet.1 lease.id, rfl⟩
  · exact Nat.le_refl _
  · exact h.touched_of_not_use rfl fun time => hquiet.2 _ time _
  · constructor
    · exact .inl
    · rintro (hexited | rfl)
      · exact hexited
      · exact absurd rfl (hquiet.1 record.id)

theorem RecordFits.stopping (h : RecordFits generation history record)
    (hstatus : record.status ≠ .exited) (signal : JsString) :
    RecordFits generation history (record.stopping signal) where
  created := h.created
  current := h.current
  activity := h.activity
  below := h.below
  touched := h.touched
  exited_iff := by
    rw [show (record.stopping signal).id = record.id from rfl,
      show (record.stopping signal).incarnation = record.incarnation from rfl, ← h.exited_iff]
    exact ⟨fun hstopping => (nomatch hstopping), fun hexited => absurd hexited hstatus⟩

/-- A record whose controller is invalidated. -/
theorem RecordFits.invalidated (h : RecordFits generation history record)
    (hid : record'.id = record.id) (hincarnation : record'.incarnation = record.incarnation)
    (hpty : record'.pty = record.pty) (hlease : record'.lease generation = none)
    (hgranted : ∀ lease activity time, e ≠ .granted lease activity time)
    (hepoch : record.controllerEpoch ≤ record'.controllerEpoch)
    (hlast : record'.lastHumanActivityAt = record.lastHumanActivityAt)
    (huse : ∀ time, ¬HumanUse record.incarnation time history e)
    (hexited : record'.status = .exited ↔
      record.status = .exited ∨ e = .exited record.id record.incarnation) :
    RecordFits generation (history ++ [e]) record' := by
  apply h.change hid hincarnation hpty hgranted _ hepoch (h.touched_of_not_use hlast huse) hexited
  intro lease hcurrent
  rw [hlease] at hcurrent
  cases hcurrent

/-- Every move of a record keeps what it says. -/
theorem RecordMove.fits (hmove : RecordMove generation readings history record e record')
    (h : RecordFits generation history record) :
    RecordFits generation (history ++ [e]) record' := by
  cases hmove with
  | granted controllerId activity options since active hstatus hstamps =>
      exact h.granted hstatus hstamps
  | guarded => exact h.quiet ⟨fun _ => id, fun _ _ _ => id⟩
  | resized => exact h.quiet ⟨fun _ => id, fun _ _ _ => id⟩
  | stopFailed => exact h.quiet ⟨fun _ => id, fun _ _ _ => id⟩
  | killed => exact h.quiet ⟨fun _ => id, fun _ _ _ => id⟩
  | groupSignalled => exact h.quiet ⟨fun _ => id, fun _ _ _ => id⟩
  | stopped lease signal hlease hstatus =>
      exact (h.quiet ⟨fun _ => id, fun _ _ _ => id⟩).stopping hstatus signal
  | groupSignalledAgain signal hstatus =>
      exact (h.quiet ⟨fun _ => id, fun _ _ _ => id⟩).stopping hstatus signal
  | wrote lease data now hlease hstamps =>
      obtain ⟨hid, hincarnation, hpty, hstatus, hsame, hactivity, hepoch⟩ :=
        record.touch_same generation now
      apply h.change hid hincarnation hpty
      · intro _ _ _ heq
        cases heq
      · intro current hcurrent
        exact ⟨hsame ▸ hcurrent, id, hactivity⟩
      · exact hepoch.ge
      · exact h.touched_touch hlease hstamps fun time huse => ⟨huse.1, huse.2.2⟩
      · rw [hstatus]
        exact ⟨.inl, Or.rec id fun heq => nomatch heq⟩
  | released lease now hlease hstamps =>
      obtain ⟨hid, hincarnation, hpty, hstatus, -, -, hepoch⟩ :=
        record.touch_same generation now
      obtain ⟨hid', hincarnation', hpty', hstatus', hlast'⟩ :=
        (record.touch now).invalidateController_same
      apply h.change (hid'.trans hid) (hincarnation'.trans hincarnation) (hpty'.trans hpty)
      · intro _ _ _ heq
        cases heq
      · intro current hcurrent
        rw [lease_invalidateController] at hcurrent
        cases hcurrent
      · exact hepoch.ge.trans (le_invalidateController _)
      · rw [hlast']
        exact h.touched_touch hlease hstamps fun time huse => ⟨huse.1, huse.2.2⟩
      · rw [hstatus', hstatus]
        exact ⟨.inl, Or.rec id fun heq => nomatch heq⟩
  | invalidated signal status hbefore hafter =>
      obtain ⟨hid, hincarnation, hpty, -, hlast⟩ := record.invalidateController_same
      refine h.invalidated hid hincarnation hpty ?_ ?_ (le_invalidateController record) hlast
        (fun _ => id) ?_
      · exact lease_invalidateController
      · intro _ _ _ heq
        cases heq
      · exact ⟨fun heq => absurd heq hafter, Or.rec (fun heq => absurd heq hbefore)
          fun heq => nomatch heq⟩
  | exited exit =>
      obtain ⟨hid, hincarnation, hpty, hstatus, hlast⟩ :=
        invalidateController_same { record with exit := some exit, status := .exited }
      refine h.invalidated hid hincarnation hpty lease_invalidateController ?_
        (le_invalidateController { record with exit := some exit, status := .exited })
        hlast (fun _ => id) ?_
      · intro _ _ _ heq
        cases heq
      · exact ⟨fun _ => .inr rfl, fun _ => hstatus⟩

theorem RecordFits.reachedInForce (h : RecordFits generation history record)
    {lease : NativeTerminalControllerLease} (hlease : record.lease generation = some lease) :
    InForce history lease ∧ .created lease.id lease.incarnation record.pty ∈ history := by
  obtain ⟨hid, hincarnation, -⟩ := lease_fields hlease
  rw [hid, hincarnation]
  exact ⟨h.current lease hlease, h.created⟩

theorem RecordMove.reached (hmove : RecordMove generation readings history record e record')
    (h : RecordFits generation history record) : ReachedInForce history e := by
  intro lease pty heq
  cases hmove with
  | wrote _ data now hlease =>
      cases heq
      exact h.reachedInForce hlease
  | resized _ cols rows hlease =>
      cases heq
      exact h.reachedInForce hlease
  | stopped _ signal hlease =>
      cases heq
      exact h.reachedInForce hlease
  | stopFailed _ signal hlease =>
      cases heq
      exact h.reachedInForce hlease
  | _ => cases heq

/-- An epoch granted is above those granted before within the incarnation. -/
theorem RecordMove.epochs (hmove : RecordMove generation readings history record e record')
    (h : RecordFits generation history record) (incarnation : JsString) (earlier epoch : Nat)
    (hearlier : earlier ∈ history.filterMap (HostEvent.grantedEpoch incarnation))
    (hepoch : e.grantedEpoch incarnation = some epoch) : earlier < epoch := by
  cases hmove with
  | granted controllerId activity options since active =>
      obtain ⟨e', hmem, he'⟩ := List.mem_filterMap.mp hearlier
      simp only [HostEvent.grantedEpoch, Option.ite_none_right_eq_some, Option.some.injEq] at hepoch
      cases e' with
      | granted lease activity' time =>
          simp only [HostEvent.grantedEpoch, Option.ite_none_right_eq_some,
            Option.some.injEq] at he'
          have hle := h.below lease activity' time hmem (he'.1.trans hepoch.1.symm)
          omega
      | _ => cases he'
  | _ => cases hepoch

theorem RecordMove.guardHolds (hmove : RecordMove generation readings history record e record')
    (h : RecordFits generation history record) : GuardHolds history e := by
  intro lease window granted heq hwindow time huse
  cases hmove with
  | guarded _ _ _ hlease hlast =>
      cases heq
      rw [(lease_fields hlease).2.1] at huse
      obtain ⟨last, hrecord, hle⟩ := h.touched time huse
      have hguard := hlast last hrecord hwindow
      omega
  | _ => cases heq

/-- What is promised of a history is so of the next event, when it meets what is promised. -/
theorem HistoryFits.concat (h : HistoryFits history)
    (hknown : ∀ incarnation, e.incarnation = some incarnation →
      incarnation ∈ createdIncarnations (history ++ [e]))
    (hreached : ReachedInForce history e)
    (hepochs : ∀ incarnation, ∀ earlier epoch : Nat,
      earlier ∈ history.filterMap (HostEvent.grantedEpoch incarnation) →
        e.grantedEpoch incarnation = some epoch → earlier < epoch)
    (hguarded : GuardHolds history e) : HistoryFits (history ++ [e]) where
  known := by
    intro e' he' incarnation hincarnation
    rcases List.mem_append.mp he' with he' | he'
    · rw [createdIncarnations_concat]
      exact List.mem_append_left _ (h.known e' he' incarnation hincarnation)
    · rw [List.mem_singleton.mp he'] at hincarnation
      exact hknown incarnation hincarnation
  reached := always_concat.mpr ⟨h.reached, hreached⟩
  epochs := by
    intro incarnation
    rw [List.filterMap_append, List.pairwise_append]
    refine ⟨h.epochs incarnation, ?_, ?_⟩
    · cases hcase : e.grantedEpoch incarnation <;> simp [hcase]
    · intro earlier hearlier epoch hepoch
      obtain ⟨e', he', hepoch⟩ := List.mem_filterMap.mp hepoch
      rw [List.mem_singleton.mp he'] at hepoch
      exact hepochs incarnation earlier epoch hearlier hepoch
  guarded := always_concat.mpr ⟨h.guarded, hguarded⟩

theorem newRecord_fits (h : HistoryFits history) {id incarnation : JsString} {pty : Nat}
    (hnodup : (createdIncarnations (history ++ [HostEvent.created id incarnation pty])).Nodup) :
    RecordFits generation (history ++ [HostEvent.created id incarnation pty])
      (newRecord id incarnation pty) where
  created := by simp [newRecord]
  current := by
    intro lease hlease
    cases hlease
  activity := by
    intro lease hlease
    cases hlease
  below := by
    intro lease activity time hmem heq
    rcases List.mem_append.mp hmem with hmem | hmem
    · exact absurd (congrArg some heq) (h.fresh hnodup _ hmem)
    · cases List.mem_singleton.mp hmem
  touched := by
    intro time huse
    rcases sometime_concat.mp huse with hold | hnew
    · obtain ⟨e, he, heq⟩ := mem_of_sometime_humanUse hold
      exact absurd heq (h.fresh hnodup e he)
    · exact hnew.elim
  exited_iff := by
    constructor
    · intro heq
      cases heq
    · intro hmem
      rcases List.mem_append.mp hmem with hmem | hmem
      · exact absurd rfl (h.fresh hnodup _ hmem)
      · cases List.mem_singleton.mp hmem

/-- Every move of a host keeps the invariant, while incarnations are not reused. -/
theorem Fenced.move (h : Fenced host history) {history' : List HostEvent}
    (hmove : HostMove readings (host, history) (host', history'))
    (hnodup : (createdIncarnations history').Nodup) : Fenced host' history' := by
  cases hmove with
  | forgot hgeneration hsessions =>
      constructor
      · intro id record hget
        rw [hgeneration]
        exact h.records id record (hsessions id record hget)
      · exact h.history
  | @created _ _ _ id incarnation pty habsent hchanges =>
      constructor
      · intro id' record hget
        rw [hchanges.2] at hget
        rw [hchanges.1]
        split at hget
        · cases hget
          exact newRecord_fits h.history hnodup
        · next hne =>
          have hid := host.keyed id' record hget
          have hfits := h.records id' record hget
          apply hfits.concat
          · intro heq
            exact h.history.fresh hnodup _ hfits.created heq.symm
          · exact fun hends => hends
      · apply h.history.concat
        · intro incarnation' heq
          rw [createdIncarnations_concat]
          exact List.mem_append_right _ (by simpa [HostEvent.createdIncarnation] using
            (Option.some.inj heq).symm)
        · intro lease pty' heq
          cases heq
        · intro incarnation' earlier epoch _ heq
          cases heq
        · intro lease window granted heq
          cases heq
  | @moved _ _ _ record record' e hget hmove hchanges =>
      have hrecord := h.records record.id record hget
      constructor
      · intro id' other hother
        rw [hchanges.2] at hother
        rw [hchanges.1]
        split at hother
        · cases hother
          exact hmove.fits hrecord
        · next hne =>
          have hfits := h.records id' other hother
          have hid := host.keyed id' other hother
          rw [hmove.same.1] at hne
          apply hfits.concat
          · intro heq
            have hsame := hmove.about.1 _ heq
            apply hne
            rw [← hid]
            apply created_unique (nodup_of_concat hnodup) hfits.created
            rw [hsame]
            exact hrecord.created
          · intro hends
            exact hne (hid.symm.trans (hmove.about.2 _ hends))
      · apply h.history.concat
        · intro incarnation heq
          rw [hmove.about.1 _ heq]
          exact mem_createdIncarnations (List.mem_append_left _ hrecord.created)
        · exact hmove.reached hrecord
        · exact hmove.epochs hrecord
        · exact hmove.guardHolds hrecord

/-! ## Operations are made of moves -/

theorem changes_put : Changes host (host.put record) record :=
  ⟨rfl, fun _ => JsMap.get_set _ _ _ _⟩

/-- A host that does not change a record. -/
theorem changes_self (h : host.sessions.get record.id = some record) :
    Changes host host record := by
  refine ⟨rfl, fun id => ?_⟩
  split
  · next hid => rw [hid, h]
  · rfl

/-- The moves of a turn. -/
def Moves (readings : List Int) (host : NativeTerminalHost) (history : List HostEvent)
    {α : Type} (turn : HostTurn α) : Prop :=
  Reaches (HostMove readings) (host, history) (turn.host, history ++ turn.events)

theorem moves_refuse {α : Type} {error : JsString} :
    Moves readings host history (host.refuse error : HostTurn α) := by
  rw [Moves, NativeTerminalHost.refuse, List.append_nil]

theorem Moves.of_put {α : Type} {result : Except JsString α}
    (hget : host.sessions.get record.id = some record)
    (hmove : RecordMove host.generation readings history record e record') :
    Moves readings host history ⟨result, host.put record', [e]⟩ :=
  .single (.moved hget hmove changes_put)

theorem Moves.of_self {α : Type} {result : Except JsString α}
    (hget : host.sessions.get record.id = some record)
    (hmove : RecordMove host.generation readings history record e record) :
    Moves readings host history ⟨result, host, [e]⟩ :=
  .single (.moved hget hmove (changes_self hget))

namespace NativeTerminalHost

theorem of_requireControllableSession {id : JsString}
    (h : host.requireControllableSession id = .ok record) :
    host.sessions.get id = some record ∧ record.id = id ∧ record.status ≠ .exited := by
  unfold requireControllableSession requireSession at h
  cases hget : host.sessions.get id with
  | none =>
      rw [hget] at h
      cases h
  | some found =>
      rw [hget] at h
      change (if found.status = .exited then _ else _) = _ at h
      split at h
      · cases h
      · next hstatus =>
        cases h
        exact ⟨rfl, host.keyed id record hget, hstatus⟩

theorem of_requireMatchingController {lease : NativeTerminalControllerLease}
    (h : host.requireMatchingController lease = .ok record) :
    host.sessions.get record.id = some record ∧ record.lease host.generation = some lease ∧
      record.status ≠ .exited := by
  unfold requireMatchingController at h
  cases hget : host.sessions.get lease.id with
  | none =>
      rw [hget] at h
      cases h
  | some found =>
      rw [hget] at h
      dsimp only at h
      split at h
      · cases h
      · next hmatch =>
        cases h
        have hid := host.keyed _ record hget
        simp only [not_or, ne_eq, Classical.not_not] at hmatch
        obtain ⟨hgeneration, hincarnation, hstatus, hcontroller, hepoch⟩ := hmatch
        refine ⟨by rw [hid, hget], ?_, hstatus⟩
        rw [SessionRecord.lease, hcontroller, hid, hepoch, ← hgeneration, ← hincarnation]
        rfl

theorem of_requireController {lease : NativeTerminalControllerLease}
    (h : host.requireController lease = .ok record) :
    host.sessions.get record.id = some record ∧ record.lease host.generation = some lease ∧
      record.status ≠ .exited := by
  unfold requireController at h
  cases hmatch : host.requireMatchingController lease with
  | error error =>
      rw [hmatch] at h
      cases h
  | ok found =>
      rw [hmatch] at h
      change (if found.status ≠ .running then _ else _) = _ at h
      split at h
      · cases h
      · cases h
        exact of_requireMatchingController hmatch

theorem get_of_mem_reapExited {keys : List JsString} {id : JsString}
    (h : (host.reapExited keys).sessions.get id = some record) :
    host.sessions.get id = some record := by
  induction keys generalizing host with
  | nil => exact h
  | cons key rest ih =>
      unfold reapExited at h
      have hforget : ∀ found : SessionRecord, (host.forget found).sessions.get id = some record →
          host.sessions.get id = some record := by
        intro found hfound
        rw [forget, JsMap.get_delete] at hfound
        split at hfound
        · cases hfound
        · exact hfound
      split at h
      · exact ih h
      · split at h
        · exact ih h
        · split at h
          · exact hforget _ h
          · exact hforget _ (ih h)

theorem generation_reapExited (keys : List JsString) :
    (host.reapExited keys).generation = host.generation := by
  induction keys generalizing host with
  | nil => rfl
  | cons key rest ih =>
      unfold reapExited
      split
      · exact ih
      · split
        · exact ih
        · split
          · rfl
          · exact ih

end NativeTerminalHost

/-! ## The moves of each operation -/

namespace NativeTerminalHost

variable {toISOString : Int → JsString}

theorem moves_createAbsent {id incarnation : JsString} {spawned : SpawnResult}
    (habsent : host.sessions.get id = none) :
    Moves readings host history (host.createAbsent id incarnation spawned) := by
  have hreap : ∀ id record, host.reapExitedUntilBelowLimit.sessions.get id = some record →
      host.sessions.get id = some record := by
    intro id record h
    unfold reapExitedUntilBelowLimit at h
    split at h
    · exact h
    · exact get_of_mem_reapExited h
  have hgeneration : host.reapExitedUntilBelowLimit.generation = host.generation := by
    unfold reapExitedUntilBelowLimit
    split
    · rfl
    · exact generation_reapExited _
  have hforgot : ∀ {α : Type} {error : JsString} {host' : NativeTerminalHost},
      host'.sessions = host.reapExitedUntilBelowLimit.sessions →
      host'.generation = host.reapExitedUntilBelowLimit.generation →
      Moves readings host history (host'.refuse error : HostTurn α) := by
    intro α error host' hsessions hgen
    rw [Moves, refuse, List.append_nil]
    apply Relation.ReflTransGen.single
    apply HostMove.forgot (hgen.trans hgeneration)
    intro id record hget
    rw [hsessions] at hget
    exact hreap id record hget
  unfold createAbsent
  dsimp only
  split
  · exact hforgot rfl rfl
  · cases spawned with
    | threw error => exact hforgot rfl rfl
    | unpersisted error => exact hforgot rfl rfl
    | persisted =>
        have hgone : host.reapExitedUntilBelowLimit.sessions.get id = none := by
          cases hget : host.reapExitedUntilBelowLimit.sessions.get id with
          | none => rfl
          | some record =>
              have hold := hreap id record hget
              rw [habsent] at hold
              cases hold
        apply Relation.ReflTransGen.tail (.single (.forgot hgeneration hreap))
        exact .created hgone changes_put

theorem moves_create {id uuid : JsString} {launchFence : Option LaunchFence}
    {spawned : SpawnResult} :
    Moves readings host history (host.create id launchFence uuid spawned) := by
  unfold create
  dsimp only
  split
  · exact moves_refuse
  · split
    · exact moves_refuse
    · split
      · next habsent => exact moves_createAbsent habsent
      · next existing hexisting =>
        split
        · have hid := host.keyed id existing hexisting
          have hget : (host.forget existing).sessions.get id = none := by
            rw [forget, JsMap.get_delete, if_pos hid.symm]
          have hgeneration : (host.forget existing).generation = host.generation := rfl
          refine .head ?_ (moves_createAbsent hget)
          apply HostMove.forgot hgeneration
          intro id' record hrecord
          rw [forget, JsMap.get_delete] at hrecord
          split at hrecord
          · cases hrecord
          · exact hrecord
        · exact moves_refuse

theorem moves_acquireController {id controllerId : JsString}
    {activity : NativeTerminalControllerActivity} {options : NativeTerminalControllerOptions}
    {since active : Int} (hstamps : activity = .human → Stamps readings history active) :
    Moves readings host history
      (host.acquireController toISOString id controllerId activity options since active) := by
  unfold acquireController
  split
  · exact moves_refuse
  · next record hrecord =>
    obtain ⟨hget, rfl, hstatus⟩ := of_requireControllableSession hrecord
    split
    · exact moves_refuse
    · split
      · exact moves_refuse
      · split
        · exact moves_refuse
        · split
          · exact moves_refuse
          · exact .of_put hget (.granted controllerId activity options since active hstatus hstamps)

theorem of_acquireController {id controllerId : JsString}
    {activity : NativeTerminalControllerActivity} {options : NativeTerminalControllerOptions}
    {since active : Int} {lease : NativeTerminalControllerLease}
    (h : (host.acquireController toISOString id controllerId activity options since active).result =
      .ok lease) :
    ∃ record, host.requireControllableSession id = .ok record ∧
      (host.acquireController toISOString id controllerId activity options since active).host =
        host.put (grantedRecord record controllerId activity options since active) ∧
      lease = ⟨id, host.generation, record.incarnation, controllerId,
        record.controllerEpoch + 1⟩ := by
  unfold acquireController at h ⊢
  split at h
  · cases h
  · next record hrecord =>
    rw [hrecord]
    dsimp only
    refine ⟨record, rfl, ?_⟩
    split at h
    · cases h
    · next hid =>
      rw [if_neg hid]
      split at h
      · cases h
      · next hpid =>
        rw [if_neg hpid]
        split at h
        · cases h
        · next htty =>
          rw [if_neg htty]
          split at h
          · cases h
          · next hholder =>
            rw [if_neg hholder]
            cases h
            exact ⟨rfl, rfl⟩

/-- Without recent activity, the last activity of a human is a window ago. -/
theorem le_of_not_hasRecentHuman {window compared elapsed last : Int}
    (h : ¬hasRecentHuman record window compared elapsed = true)
    (hlast : record.lastHumanActivityAt = some last) (hwindow : 0 < window) :
    last ≤ elapsed - window := by
  simp only [hasRecentHuman, hlast, Option.any_some, Bool.or_eq_true, Bool.and_eq_true,
    decide_eq_true_eq, not_or, not_and] at h
  have hpast := h.2 hwindow
  omega

theorem moves_acquireAutomationController {id controllerId : JsString}
    {window compared elapsed since : Int} (hclock : elapsed ≤ since) :
    Moves readings host history
      (host.acquireAutomationControllerIfNoRecentHuman toISOString id controllerId window compared
        elapsed since) := by
  unfold acquireAutomationControllerIfNoRecentHuman
  split
  · exact moves_refuse
  · split
    · exact moves_refuse
    · next record hrecord =>
      split
      · exact moves_refuse
      · split
        · exact moves_refuse
        · split
          · exact moves_refuse
          · next hrecent =>
            have hgrant : Moves readings host history
                (host.acquireController toISOString id controllerId .automation
                  noControllerOptions since since) :=
              moves_acquireController fun hhuman => nomatch hhuman
            dsimp only
            split
            · exact hgrant
            · next lease hlease =>
              obtain ⟨found, hfound, hhost, rfl⟩ := of_acquireController hlease
              rw [hrecord] at hfound
              cases hfound
              obtain ⟨-, rfl, -⟩ := of_requireControllableSession hrecord
              rw [Moves, ← List.append_assoc]
              apply hgrant.tail
              rw [hhost]
              let granted :=
                grantedRecord record controllerId .automation noControllerOptions since since
              have hget : (host.put granted).sessions.get granted.id = some granted :=
                JsMap.get_set_self _ _ _
              refine .moved hget (.guarded _ window since rfl ?_) (changes_self hget)
              intro last hlast hwindow
              have hold := le_of_not_hasRecentHuman hrecent hlast hwindow
              omega

theorem moves_releaseController {lease : NativeTerminalControllerLease} {now : Int}
    (hstamps : Stamps readings history now) :
    Moves readings host history (host.releaseController lease now) := by
  unfold releaseController
  split
  · exact moves_refuse
  · next record hrecord =>
    obtain ⟨hget, hlease, -⟩ := of_requireMatchingController hrecord
    exact .of_put hget (.released lease now hlease hstamps)

theorem moves_write {lease : NativeTerminalControllerLease} {data : JsString} {now : Int}
    {result : PtyResult} (hstamps : Stamps readings history now) :
    Moves readings host history (host.write lease data now result) := by
  unfold write
  split
  · exact moves_refuse
  · split
    · exact moves_refuse
    · next record hrecord =>
      obtain ⟨hget, hlease, -⟩ := of_requireController hrecord
      exact .of_put hget (.wrote lease data now hlease hstamps)

theorem moves_resize {lease : NativeTerminalControllerLease} {cols rows : Int}
    {result : PtyResult} : Moves readings host history (host.resize lease cols rows result) := by
  unfold resize
  split
  · exact moves_refuse
  · split
    · exact moves_refuse
    · next record hrecord =>
      obtain ⟨hget, hlease, -⟩ := of_requireController hrecord
      exact .of_self hget (.resized lease cols rows hlease)

theorem moves_stop {lease : NativeTerminalControllerLease} {signal : JsString}
    {result : PtyResult} : Moves readings host history (host.stop lease signal result) := by
  unfold stop
  split
  · exact moves_refuse
  · next record hrecord =>
    obtain ⟨hget, hlease, hstatus⟩ := of_requireMatchingController hrecord
    cases result with
    | returned => exact .of_put hget (.stopped lease signal hlease hstatus)
    | threw error => exact .of_self hget (.stopFailed lease signal hlease)

theorem moves_stopIfIncarnation {id generation incarnation signal : JsString}
    {result : PtyResult} :
    Moves readings host history
      (host.stopIfIncarnation id generation incarnation signal result) := by
  unfold stopIfIncarnation
  split
  · exact moves_refuse
  · split
    · exact moves_refuse
    · next record hrecord =>
      obtain ⟨hget, rfl, hstatus⟩ := of_requireControllableSession hrecord
      split
      · exact moves_refuse
      · have hkill : HostMove readings (host, history)
            (host, history ++ [HostEvent.killed record.pty signal]) :=
          .moved hget (.killed signal) (changes_self hget)
        cases result with
        | threw error => exact .single hkill
        | returned =>
            dsimp only
            rw [Moves, List.append_cons, invalidateController_stopping]
            apply Relation.ReflTransGen.tail (.single hkill)
            refine .moved hget (.invalidated (some signal) .stopping hstatus (by simp)) ?_
            exact changes_put

theorem moves_stopEach {signal : JsString} {results : Nat → PtyResult} (keys : List JsString) :
    Moves readings host history (stopEach signal results host keys) := by
  induction keys generalizing host history with
  | nil =>
      rw [Moves, stopEach, List.append_nil]
  | cons id rest ih =>
      unfold stopEach
      split
      · exact ih
      · next record hget =>
        obtain rfl := host.keyed id record hget
        split
        · exact ih
        · next hrunning =>
          have hstatus : record.status ≠ .exited := by
            intro hexited
            rw [hexited] at hrunning
            simp at hrunning
          have hmove : ∀ signal' status, status ≠ .exited → ∀ stopped,
              stopped = { record.invalidateController with status, stopSignal := signal' } →
              Reaches (HostMove readings) (host, history)
                (host.put stopped,
                  history ++ [.invalidated record.id] ++ [.killed record.pty signal]) := by
            rintro signal' status hafter stopped rfl
            let stopped := { record.invalidateController with status, stopSignal := signal' }
            have hsame : stopped.id = record.id ∧ stopped.pty = record.pty :=
              ⟨record.invalidateController_same.1, record.invalidateController_same.2.2.1⟩
            have hfound : (host.put stopped).sessions.get stopped.id = some stopped :=
              JsMap.get_set_self _ _ _
            rw [← hsame.2]
            apply Relation.ReflTransGen.tail (.single (.moved hget
              (.invalidated signal' status hstatus hafter) changes_put))
            exact .moved hfound (.killed signal) (changes_self hfound)
          dsimp only
          split
          · rw [Moves, List.append_cons]
            apply hmove none .running (by simp)
            rw [invalidateController_stopping]
          · rw [Moves, List.append_cons, List.append_cons]
            exact (hmove (some signal) .stopping (by simp) _
              (invalidateController_stopping signal)).trans ih

theorem moves_ptyExited {pty : Nat} {exit : NativeTerminalExit} :
    Moves readings host history (host.ptyExited pty exit) := by
  unfold ptyExited
  split
  · rw [Moves, List.append_nil]
  · next record hfind =>
    split
    · rw [Moves, List.append_nil]
    · obtain ⟨id, hget⟩ := (host.sessions.mem_values_iff record).mp (List.mem_of_find?_eq_some hfind)
      obtain rfl := host.keyed id record hget
      exact .of_put hget (.exited exit)

theorem moves_forceStopNext {pass : ForcePass} :
    Moves readings host history (host.forceStopNext pass) := by
  unfold forceStopNext
  split
  · rw [Moves, List.append_nil]
  · next record hfind =>
    obtain ⟨id, hget⟩ := (host.sessions.mem_values_iff record).mp (List.mem_of_find?_eq_some hfind)
    obtain rfl := host.keyed id record hget
    have hstatus : record.status ≠ .exited := by
      have hcond := List.find?_some hfind
      simp only [Bool.and_eq_true, decide_eq_true_eq] at hcond
      exact hcond.2
    dsimp only
    split
    · rw [Moves, List.append_cons, invalidateController_stopping]
      let stopped : SessionRecord :=
        { record.invalidateController with status := .stopping, stopSignal := some pass.signal }
      have hsame : stopped.pty = record.pty := record.invalidateController_same.2.2.1
      have hfound : (host.put stopped).sessions.get stopped.id = some stopped :=
        JsMap.get_set_self _ _ _
      rw [← hsame]
      apply Relation.ReflTransGen.tail (.single (.moved hget
        (.invalidated (some pass.signal) .stopping hstatus (by simp)) changes_put))
      exact .moved hfound (.groupSignalled pass.signal) (changes_self hfound)
    · exact .of_put hget (.groupSignalledAgain pass.signal hstatus)

end NativeTerminalHost

/-! ## Runs -/

/-- A move adds at most one event. -/
theorem HostMove.history_eq {s t : NativeTerminalHost × List HostEvent}
    (h : HostMove readings s t) : t.2 = s.2 ∨ ∃ e, t.2 = s.2 ++ [e] := by
  cases h with
  | forgot => exact .inl rfl
  | created => exact .inr ⟨_, rfl⟩
  | moved => exact .inr ⟨_, rfl⟩

theorem Fenced.moves (h : Fenced host history) {history' : List HostEvent}
    (hmoves : Reaches (HostMove readings) (host, history) (host', history'))
    (hnodup : (createdIncarnations history').Nodup) : Fenced host' history' := by
  refine Reaches.invariant (I := fun s => (createdIncarnations s.2).Nodup → Fenced s.1 s.2) hmoves
    (fun _ => h) ?_ hnodup
  intro s t hs hmove ht
  apply Fenced.move (hs ?_) hmove ht
  rcases hmove.history_eq with heq | ⟨e, heq⟩
  · rwa [← heq]
  · rw [heq] at ht
    exact nodup_of_concat ht

/-- The times at which humans use sessions are readings of the clock. -/
def TimesAmong (times : List Int) (history : List HostEvent) : Prop :=
  ∀ incarnation time, Sometime (HumanUse incarnation time) history → time ∈ times

theorem RecordMove.time_mem (h : RecordMove generation readings history record e record')
    {incarnation : JsString} {time : Int} (huse : HumanUse incarnation time history e) :
    time ∈ readings := by
  cases h with
  | granted controllerId activity options since active hstatus hstamps =>
      obtain ⟨rfl, -, rfl⟩ := huse
      exact (hstamps rfl).1
  | wrote lease data now hlease hstamps =>
      obtain ⟨-, -, rfl⟩ := huse
      exact hstamps.1
  | released lease now hlease hstamps =>
      obtain ⟨-, -, rfl⟩ := huse
      exact hstamps.1
  | _ => exact huse.elim

theorem TimesAmong.moves {times : List Int} (h : TimesAmong times history)
    (hsub : ∀ now ∈ readings, now ∈ times) {history' : List HostEvent}
    (hmoves : Reaches (HostMove readings) (host, history) (host', history')) :
    TimesAmong times history' := by
  refine Reaches.invariant (I := fun s => TimesAmong times s.2) hmoves h ?_
  intro s t hs hmove
  cases hmove with
  | forgot => exact hs
  | created =>
      intro incarnation time huse
      rcases sometime_concat.mp huse with hold | hnew
      · exact hs incarnation time hold
      · exact hnew.elim
  | moved hget hrecord hchanges =>
      intro incarnation time huse
      rcases sometime_concat.mp huse with hold | hnew
      · exact hs incarnation time hold
      · exact hsub time (hrecord.time_mem hnew)

namespace HostWorld

variable {toISOString : Int → JsString} {world : HostWorld}

theorem prefix_step (toISOString : Int → JsString) (world : HostWorld) (action : HostAction) :
    world.history <+: (step toISOString world action).history := by
  have hafter : ∀ {α : Type} (world : HostWorld) (turn : HostTurn α),
      world.history <+: (world.after turn).history :=
    fun world turn => List.prefix_append _ _
  have hforce : ∀ (world : HostWorld) pass, world.history <+: (world.force pass).history := by
    intro world pass
    unfold force
    dsimp only
    split
    · exact hafter world _
    · exact hafter world _
  cases action with
  | forceStopAll signal => exact hforce world _
  | forceStopResumed n =>
      simp only [step]
      split
      · exact List.prefix_rfl
      · exact hforce { world with passes := world.passes.eraseIdx n } _
  | _ => exact hafter world _

theorem prefix_foldl (actions : List HostAction) :
    world.history <+: (actions.foldl (step toISOString) world).history := by
  induction actions generalizing world with
  | nil => exact List.prefix_rfl
  | cons action rest ih => exact (prefix_step _ _ action).trans ih

theorem moves_force (world : HostWorld) (pass : NativeTerminalHost.ForcePass) :
    Reaches (HostMove readings) (world.host, world.history)
      ((world.force pass).host, (world.force pass).history) := by
  have hmoves : Moves readings world.host world.history (world.host.forceStopNext pass) :=
    NativeTerminalHost.moves_forceStopNext
  unfold force
  dsimp only
  split
  · exact hmoves
  · exact hmoves

/-- Every action is made of moves, at the times it reads. -/
theorem moves_step (toISOString : Int → JsString) (world : HostWorld) (action : HostAction)
    (hordered : action.readings.Pairwise (· ≤ ·))
    (hstamps : ∀ now ∈ action.readings, Stamps action.readings world.history now) :
    Reaches (HostMove action.readings) (world.host, world.history)
      ((step toISOString world action).host, (step toISOString world action).history) := by
  cases action with
  | create => exact NativeTerminalHost.moves_create
  | acquireController =>
      exact NativeTerminalHost.moves_acquireController fun _ =>
        hstamps _ (by simp [HostAction.readings])
  | acquireAutomationControllerIfNoRecentHuman =>
      apply NativeTerminalHost.moves_acquireAutomationController
      simp only [HostAction.readings, List.pairwise_cons] at hordered
      exact hordered.2.1 _ (by simp)
  | releaseController =>
      exact NativeTerminalHost.moves_releaseController (hstamps _ (by simp [HostAction.readings]))
  | write => exact NativeTerminalHost.moves_write (hstamps _ (by simp [HostAction.readings]))
  | resize => exact NativeTerminalHost.moves_resize
  | stop => exact NativeTerminalHost.moves_stop
  | stopIfIncarnation => exact NativeTerminalHost.moves_stopIfIncarnation
  | stopAll => exact NativeTerminalHost.moves_stopEach _
  | forceStopAll signal => exact moves_force world _
  | forceStopResumed n =>
      simp only [step]
      split
      · exact .refl
      · exact moves_force { world with passes := world.passes.eraseIdx n } _
  | ptyExited => exact NativeTerminalHost.moves_ptyExited

theorem start_fenced (generation : JsString) (maxSessions : Nat) :
    Fenced (start generation maxSessions).host (start generation maxSessions).history where
  records := by
    intro id record hget
    cases hget
  history := {
    known := by simp [start]
    reached := always_nil
    epochs := fun _ => .nil
    guarded := always_nil }

variable {maxSessions : Nat}

/-- The invariant holds after every run of a clock that does not go back, while incarnations are
not reused. -/
theorem run_fenced (actions : List HostAction)
    (hnodup : (createdIncarnations (run toISOString generation maxSessions actions).history).Nodup)
    (hclock : (actions.flatMap HostAction.readings).Pairwise (· ≤ ·)) :
    Fenced (run toISOString generation maxSessions actions).host
        (run toISOString generation maxSessions actions).history ∧
      TimesAmong (actions.flatMap HostAction.readings)
        (run toISOString generation maxSessions actions).history := by
  induction actions using List.reverseRecOn with
  | nil =>
      refine ⟨start_fenced generation maxSessions, ?_⟩
      intro incarnation time huse
      exact absurd huse not_sometime_nil
  | append_singleton actions action ih =>
      have hrun : run toISOString generation maxSessions (actions ++ [action]) =
          step toISOString (run toISOString generation maxSessions actions) action := by
        rw [run, List.foldl_append]
        rfl
      rw [hrun] at hnodup ⊢
      rw [List.flatMap_append, List.flatMap_singleton, List.pairwise_append] at hclock
      obtain ⟨hearlier, hordered, hle⟩ := hclock
      have happended := (prefix_step toISOString
        (run toISOString generation maxSessions actions) action).sublist.filterMap
          HostEvent.createdIncarnation
      obtain ⟨hfenced, htimes⟩ := ih (happended.nodup hnodup) hearlier
      have hmoves := moves_step toISOString
        (run toISOString generation maxSessions actions) action hordered
        fun now hnow => ⟨hnow, fun incarnation time huse =>
          hle time (htimes incarnation time huse) now hnow⟩
      refine ⟨hfenced.moves hmoves hnodup, ?_⟩
      rw [List.flatMap_append, List.flatMap_singleton]
      refine TimesAmong.moves ?_ (fun now hnow => List.mem_append_right _ hnow) hmoves
      intro incarnation time huse
      exact List.mem_append_left _ (htimes incarnation time huse)

end HostWorld

/-! ## Controllers are fenced -/

variable (toISOString : Int → JsString) (generation : JsString) (maxSessions : Nat)

/-- After any run: ptys are reached only through the lease in force for their session, epochs rise
within an incarnation, an exited session stays exited, and no lease guarded by a window is granted
within it after a human's use of the session. -/
theorem controllers_fenced (actions : List HostAction)
    (hincarnations :
      (createdIncarnations
        (HostWorld.run toISOString generation maxSessions actions).history).Nodup)
    (hclock : (actions.flatMap HostAction.readings).Pairwise (· ≤ ·)) :
    Always ReachedInForce (HostWorld.run toISOString generation maxSessions actions).history ∧
      (∀ incarnation,
        ((HostWorld.run toISOString generation maxSessions actions).history.filterMap
          (HostEvent.grantedEpoch incarnation)).Pairwise (· < ·)) ∧
      (∀ earlier later, actions = earlier ++ later → ∀ id id' before after,
        (HostWorld.run toISOString generation maxSessions earlier).host.sessions.get id =
            some before → before.status = .exited →
        (HostWorld.run toISOString generation maxSessions actions).host.sessions.get id' =
            some after → after.incarnation = before.incarnation → after.status = .exited) ∧
      Always GuardHolds (HostWorld.run toISOString generation maxSessions actions).history := by
  obtain ⟨hfenced, -⟩ := HostWorld.run_fenced actions hincarnations hclock
  refine ⟨hfenced.history.reached, hfenced.history.epochs, ?_, hfenced.history.guarded⟩
  rintro earlier later rfl id id' before after hbefore hexited hafter hsame
  have hextends : (HostWorld.run toISOString generation maxSessions earlier).history <+:
      (HostWorld.run toISOString generation maxSessions (earlier ++ later)).history := by
    rw [HostWorld.run, HostWorld.run, List.foldl_append]
    exact HostWorld.prefix_foldl later
  have hnodup := (hextends.sublist.filterMap HostEvent.createdIncarnation).nodup hincarnations
  rw [List.flatMap_append, List.pairwise_append] at hclock
  have hearlier := (HostWorld.run_fenced earlier hnodup hclock.1).1.records id before hbefore
  have hlater := hfenced.records id' after hafter
  have hmem := hextends.subset (hearlier.exited_iff.mp hexited)
  -- both records are of the session created with the incarnation
  have hid : after.id = before.id := by
    apply created_unique hincarnations hlater.created
    rw [hsame]
    exact hextends.subset hearlier.created
  apply hlater.exited_iff.mpr
  rw [hid, hsame]
  exact hmem

/-- A human takes a session over, writes and leaves it; a guarded automation lease is refused at
first, and granted when the window is over. -/
theorem controllers_fenced_window :
    let id : JsString := ⟨[0x61]⟩
    let actions : List HostAction :=
      [.create id none ⟨[0x31]⟩ .persisted,
        .acquireController id ⟨[0x62]⟩ .automation noControllerOptions 1 1,
        .acquireController id ⟨[0x63]⟩ .human { noControllerOptions with takeover := true } 2 2,
        .write ⟨id, ⟨[0x67]⟩, ⟨[0x31]⟩, ⟨[0x63]⟩, 2⟩ ⟨[0x78]⟩ 3 .returned,
        .releaseController ⟨id, ⟨[0x67]⟩, ⟨[0x31]⟩, ⟨[0x63]⟩, 2⟩ 4,
        .acquireAutomationControllerIfNoRecentHuman id ⟨[0x62]⟩ 10 5 5 5,
        .acquireAutomationControllerIfNoRecentHuman id ⟨[0x62]⟩ 10 14 14 14,
        .ptyExited 0 ⟨0, none⟩]
    (HostWorld.run (fun _ => ⟨[]⟩) ⟨[0x67]⟩ 1 actions).history.length = 8 ∧
      Always ReachedInForce (HostWorld.run (fun _ => ⟨[]⟩) ⟨[0x67]⟩ 1 actions).history :=
  ⟨by decide, (controllers_fenced _ _ _ _ (by decide) (by decide)).1⟩

end H2a.NativeTerminal
