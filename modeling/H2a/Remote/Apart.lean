import H2a.Remote.Accept
/-!
# Senders do not interfere

A run and the same run without the calls of one sender: what the guard and the inboxes hold of
the others is the same, as long as nobody takes the id or the file of another.
-/

namespace H2a.Remote

open H2a.Library H2a.Protocol H2a.LocalFiles

variable {N : Type} [JsonNumber N] {host : RemoteHost N}

/-! ## One call -/

theorem actorInstance_readBack (payload : JsValue N) :
    actorInstance payload.json.readBack = actorInstance payload.json := by
  have hactor : (payload.json.readBack.get (js "actor")).bind (Json.get (js "instance")) =
      ((payload.json.get (js "actor")).bind (Json.get (js "instance"))).map Json.readBack := by
    rw [get_readBack payload.distinct]
    cases hget : payload.json.get (js "actor") with
    | none => rfl
    | some actor => exact get_readBack (distinct_get payload.distinct hget) _
  have htext := readBack_eq_of_kind textOf (fun _ => rfl) (fun _ => rfl) (fun _ => rfl)
    ((payload.json.get (js "actor")).bind (Json.get (js "instance")))
  rw [actorInstance, actorInstance, hactor, htext]

/-- What comes to the guard has the id and the time of the payload, and is of the signer it
names. -/
theorem admitRemote_eq {call : RemoteCall N} {admitted : Admitted N}
    (h : admitRemote host call = .ok (.ok admitted)) :
    admitted.signer = call.signer ∧ admitted.id = messageId call.payload.json ∧
      admitted.created =
        (textOf (call.payload.json.get (js "createdAt"))).bind host.parseDate := by
  simp only [admitRemote] at h
  split at h
  · cases h
  split at h
  · cases h
  · obtain ⟨hasSig, -, h⟩ := bind_eq_ok_iff.mp h
    split at h
    · cases h
    split at h
    · cases h
    · obtain ⟨verified, -, h⟩ := bind_eq_ok_iff.mp h
      split at h
      · cases h
      · cases h
        exact ⟨rfl, rfl, rfl⟩

/-- An envelope that is fresh. -/
structure IsFresh (host : RemoteHost N) (call : RemoteCall N) (admitted : Admitted N)
    (created : Int) : Prop where
  admission : admitRemote host call = .ok (.ok admitted)
  check : checkEnvelopeFreshness host.window admitted.created call.now = .ok created

theorem RemoteCall.isFresh {call : RemoteCall N} {admitted : Admitted N} {created : Int}
    (h : call.fresh host = some (admitted, created)) : IsFresh host call admitted created := by
  unfold RemoteCall.fresh at h
  split at h
  case h_1 admitted' hadmission =>
      split at h
      case h_1 created' hcheck =>
          cases h
          exact ⟨hadmission, hcheck⟩
      case h_2 => cases h
  case h_2 => cases h

namespace IsFresh

variable {call : RemoteCall N} {admitted : Admitted N} {created : Int}

theorem signer (h : IsFresh host call admitted created) : admitted.signer = call.signer :=
  (admitRemote_eq h.admission).1

theorem isSome (h : IsFresh host call admitted created) : (call.fresh host).isSome = true := by
  simp [RemoteCall.fresh, h.admission, h.check]

theorem created_eq (h : IsFresh host call admitted created) : admitted.created = some created ∧
    ¬created < call.now - host.window.maxAgeMs := by
  have hcheck := h.check
  unfold checkEnvelopeFreshness at hcheck
  split at hcheck
  · cases hcheck
  case h_2 created' hcreated =>
      have hnotFuture := ok_of_guard hcheck
      have hnotExpired := ok_of_guard hnotFuture.2
      cases hnotExpired.2
      exact ⟨hcreated, hnotExpired.1⟩

/-- Two calls with one payload bring the same id and time. -/
theorem same {call' : RemoteCall N} {admitted' : Admitted N} {created' : Int}
    (h : IsFresh host call admitted created) (h' : IsFresh host call' admitted' created')
    (hpayload : call.payload = call'.payload) :
    admitted.id = admitted'.id ∧ created = created' := by
  have heq := admitRemote_eq h.admission
  have heq' := admitRemote_eq h'.admission
  constructor
  · rw [heq.2.1, heq'.2.1, hpayload]
  · have hcreated : admitted.created = admitted'.created := by
      rw [heq.2.2, heq'.2.2, hpayload]
    rw [h.created_eq.1, h'.created_eq.1] at hcreated
    exact Option.some.inj hcreated

end IsFresh

namespace RemoteSystem

/-- A call that brings nothing fresh to the guard only ends. -/
theorem accept_of_not_fresh {call : RemoteCall N} (h : call.fresh host = none) :
    ∃ outcome, outcome ≠ .deliveryThrew ∧
      ∀ s : RemoteSystem N, s.acceptRemoteEnvelope host call = s.ends call outcome := by
  unfold RemoteCall.fresh at h
  cases hadmission : admitRemote host call with
  | error error =>
      refine ⟨.threw error, by simp, fun s => ?_⟩
      rw [acceptRemoteEnvelope, hadmission]
  | ok result =>
      cases result with
      | error reason =>
          refine ⟨.rejected reason, by simp, fun s => ?_⟩
          rw [acceptRemoteEnvelope, hadmission]
      | ok admitted =>
          simp only [hadmission] at h
          cases hcheck : checkEnvelopeFreshness host.window admitted.created call.now with
          | error reason =>
              refine ⟨.rejected (.replay reason), by simp, fun s => ?_⟩
              simp only [acceptRemoteEnvelope, hadmission, acceptAdmitted, ReplayGuard.accept, hcheck]
          | ok created => simp [hcheck] at h

theorem accept_of_fresh {call : RemoteCall N} {admitted : Admitted N} {created : Int}
    (h : IsFresh host call admitted created) (s : RemoteSystem N) :
    s.acceptRemoteEnvelope host call =
      if (s.seen.prune host.window call.now).has admitted.id then
        { s with seen := s.seen.prune host.window call.now }.ends call
          (.rejected (.replay .replayed))
      else
        { s with seen := (s.seen.prune host.window call.now).set admitted.id created }.deliver host
          call admitted := by
  simp only [acceptRemoteEnvelope, h.admission, acceptAdmitted, ReplayGuard.accept, h.check]
  by_cases hhas : (s.seen.prune host.window call.now).has admitted.id = true
  · simp only [if_pos hhas]
  · simp only [if_neg hhas]

/-- No fresh envelope came after `now`. -/
def Until (host : RemoteHost N) (s : RemoteSystem N) (now : Int) : Prop :=
  ∀ entry ∈ s.log, (entry.1.fresh host).isSome = true → entry.1.now ≤ now

section Deliver

variable (s : RemoteSystem N) (call : RemoteCall N) (admitted : Admitted N)

omit [JsonNumber N] in
@[simp] theorem ends_log (outcome : AcceptOutcome N) :
    (s.ends call outcome).log = s.log ++ [(call, outcome)] := rfl

@[simp] theorem deliver_seen : (s.deliver host call admitted).seen = s.seen := by
  unfold deliver
  split <;> rfl

@[simp] theorem deliver_holder : (s.deliver host call admitted).holder =
    Function.update s.holder admitted.id
      (some ⟨admitted.signer, (deliveredTo host call admitted).isNone⟩) := by
  unfold deliver
  split
  case h_1 hpath => rw [hpath]; rfl
  case h_2 path hpath => rw [hpath]; rfl

@[simp] theorem deliver_files : (s.deliver host call admitted).files =
    (deliveredTo host call admitted).elim s.files fun path =>
      s.files.set path call.payload.json.readBack := by
  unfold deliver
  split
  case h_1 hpath => rw [hpath]; rfl
  case h_2 path hpath => rw [hpath]; rfl

@[simp] theorem deliver_log : (s.deliver host call admitted).log =
    s.log ++ [(call, (deliveredTo host call admitted).elim AcceptOutcome.deliveryThrew fun _ =>
      .accepted admitted.recipient admitted.signer)] := by
  unfold deliver
  split
  case h_1 hpath => rw [hpath]; rfl
  case h_2 path hpath => rw [hpath]; rfl

end Deliver

theorem Until.mono {s : RemoteSystem N} {now later : Int} (h : s.Until host now)
    (hle : now ≤ later) : s.Until host later :=
  fun entry hentry hfresh => le_trans (h entry hentry hfresh) hle

/-- After a fresh call no fresh envelope came later than what bounds the log then. -/
theorem until_of_append {s s' : RemoteSystem N} {call : RemoteCall N}
    {outcome : AcceptOutcome N} (hlog : s'.log = s.log ++ [(call, outcome)]) {now : Int}
    (h : s'.Until host now) :
    s.Until host now ∧ ((call.fresh host).isSome = true → call.now ≤ now) := by
  constructor
  · intro entry hentry
    exact h entry (by rw [hlog]; exact List.mem_append_left _ hentry)
  · exact h (call, outcome) (by rw [hlog]; simp)

/-! ## Two runs -/

/-- `t` is what `s` is without the calls of `a`. -/
structure Alike (host : RemoteHost N) (a : JsString) (s t : RemoteSystem N) : Prop where
  seen : ∀ now, s.Until host now → ∀ id, (t.seen.prune host.window now).get id =
    if (s.holder id).any (·.signer = a) then none else (s.seen.prune host.window now).get id
  files : ∀ path, t.files.get path =
    (s.files.get path).filter fun envelope => actorInstance envelope ≠ a
  log : t.log = s.log.filter fun entry => entry.1.signer ≠ a

variable {a : JsString} {s t : RemoteSystem N} {call : RemoteCall N}

theorem Alike.ends_shown (h : Alike host a s t) (hcall : call.signer ≠ a)
    (outcome : AcceptOutcome N) : Alike host a (s.ends call outcome) (t.ends call outcome) where
  seen now huntil := h.seen now (until_of_append (ends_log s call outcome) huntil).1
  files := h.files
  log := by simp [List.filter_append, h.log, hcall]

section Fresh

variable {admitted : Admitted N} {created : Int}

omit [JsonNumber N] in
theorem get_prune_set (seen : ReplayGuard) (id id' : JsString) (created now : Int) :
    (ReplayGuard.prune host.window (seen.set id created) now).get id' =
      if id' = id then
        (some created).filter fun created => !decide (created < now - host.window.maxAgeMs)
      else (seen.prune host.window now).get id' := by
  by_cases hid : id' = id
  · simp [ReplayGuard.prune, hid]
  · rw [if_neg hid, ReplayGuard.prune_set seen now hid]

omit [JsonNumber N] in
/-- What the guard holds after it has taken an id. -/
theorem get_prune_taken (seen : ReplayGuard) {now later : Int} (hle : now ≤ later)
    (id id' : JsString) (created : Int) :
    (ReplayGuard.prune host.window ((seen.prune host.window now).set id created) later).get id' =
      if id' = id then
        (some created).filter fun created => !decide (created < later - host.window.maxAgeMs)
      else (seen.prune host.window later).get id' := by
  rw [get_prune_set, ReplayGuard.prune_prune seen hle]

/-- A fresh call of another, whose id the guard does not hold from `a`, comes to the same. -/
theorem Alike.fresh_shown (h : Alike host a s t) (hfresh : IsFresh host call admitted created)
    (hcall : call.signer ≠ a) (huntil : s.Until host call.now)
    (hholder : (s.seen.prune host.window call.now).has admitted.id = true →
      ∀ holder, s.holder admitted.id = some holder → holder.signer ≠ a) :
    Alike host a (s.acceptRemoteEnvelope host call) (t.acceptRemoteEnvelope host call) := by
  have hsigner : admitted.signer ≠ a := by rwa [hfresh.signer]
  have hhas : (t.seen.prune host.window call.now).has admitted.id =
      (s.seen.prune host.window call.now).has admitted.id := by
    cases hget : s.holder admitted.id with
    | none => rw [JsMap.has, h.seen _ huntil, hget]; rfl
    | some holder =>
        rw [JsMap.has, h.seen _ huntil, hget, Option.any_some]
        cases hseen : (s.seen.prune host.window call.now).has admitted.id with
        | true =>
            rw [if_neg (by simpa using hholder hseen holder hget)]
            exact hseen
        | false =>
            rw [JsMap.has_eq_false_iff] at hseen
            rw [hseen, ite_self]
            rfl
  rw [accept_of_fresh hfresh, accept_of_fresh hfresh, hhas]
  split
  case isTrue =>
      refine ⟨fun now hlater id => ?_, h.files, by simp [List.filter_append, h.log, hcall]⟩
      have hbound := until_of_append (ends_log _ _ _) hlater
      have hle := hbound.2 hfresh.isSome
      have hseen := h.seen now hbound.1 id
      rw [← ReplayGuard.prune_prune s.seen hle, ← ReplayGuard.prune_prune t.seen hle] at hseen
      exact hseen
  case isFalse hhas =>
      refine ⟨fun now hlater id => ?_, fun path => ?_, by simp [List.filter_append, h.log, hcall]⟩
      · have hbound := until_of_append (deliver_log _ _ _) hlater
        have hle := hbound.2 hfresh.isSome
        rw [deliver_holder, deliver_seen, deliver_seen, get_prune_taken _ hle,
          get_prune_taken _ hle, h.seen now hbound.1 id]
        by_cases hid : id = admitted.id
        · simp [hid, hsigner]
        · rw [Function.update_of_ne hid, if_neg hid, if_neg hid]
      · rw [deliver_files, deliver_files]
        cases deliveredTo host call admitted with
        | none => exact h.files path
        | some file =>
            have hactor := actorInstance_readBack call.payload
            rw [Option.elim_some, Option.elim_some, JsMap.get_set, JsMap.get_set, h.files]
            by_cases hfile : path = file
            · have hkeep : actorInstance call.payload.json ≠ a := hcall
              simp [Option.filter, hfile, hactor, hkeep]
            · rw [if_neg hfile, if_neg hfile]

end Fresh

theorem Alike.shown (h : Alike host a s t) {action : RemoteAction N}
    (hok : s.Unmixed host action) (hby : action.isBy a = false) :
    Alike host a (s.act host action) (t.act host action) := by
  cases action with
  | pop path =>
      refine ⟨h.seen, fun other => ?_, h.log⟩
      simp only [act, JsMap.get_delete, h.files]
      split <;> rfl
  | accept call =>
      have hcall : call.signer ≠ a := by simpa [RemoteAction.isBy] using hby
      cases hfresh : call.fresh host with
      | none =>
          obtain ⟨outcome, -, hends⟩ := accept_of_not_fresh hfresh
          rw [act, act, hends, hends]
          exact h.ends_shown hcall outcome
      | some pair =>
          have hunmixed := hok _ _ hfresh
          have hisFresh := RemoteCall.isFresh hfresh
          apply h.fresh_shown hisFresh hcall hunmixed.1
          intro hhas holder hholder
          have hsigner := hunmixed.2.1 hhas
          rw [hholder, Option.some.injEq] at hsigner
          rwa [hsigner, hisFresh.signer]

/-- The guard holds the id of a delivery that threw, until the envelope has expired. -/
def Held (host : RemoteHost N) (s : RemoteSystem N) (call : RemoteCall N) : Prop :=
  ∃ admitted created, IsFresh host call admitted created ∧
    ((s.seen.get admitted.id = some created ∧
        s.holder admitted.id = some ⟨admitted.signer, true⟩) ∨
      ∃ entry ∈ s.log, (entry.1.fresh host).isSome = true ∧
        created < entry.1.now - host.window.maxAgeMs)

/-- What holds of the deliveries that threw. -/
structure Retained (host : RemoteHost N) (s : RemoteSystem N) : Prop where
  held : ∀ entry ∈ s.log, entry.2 = .deliveryThrew → s.Held host entry.1
  retry : AcceptedOnRetry host s.log

/-- A new call is the only one that may break the rule. -/
theorem AcceptedOnRetry.append {log : List (RemoteCall N × AcceptOutcome N)}
    (h : AcceptedOnRetry host log) {call : RemoteCall N} {outcome : AcceptOutcome N}
    (hnew : ∀ first ∈ log, first.2 = .deliveryThrew → first.1.payload = call.payload →
      ∀ admitted created, call.fresh host = some (admitted, created) → False) :
    AcceptedOnRetry host (log ++ [(call, outcome)]) := by
  intro before retry after hlog first hfirst hthrew hpayload admitted created hfresh
  rcases List.eq_nil_or_concat after with hnil | ⟨front, last, hconcat⟩
  · rw [hnil] at hlog
    obtain ⟨hbefore, hretry⟩ := List.append_inj' hlog rfl
    simp only [List.cons.injEq, and_true] at hretry
    subst hbefore
    subst hretry
    exact (hnew first hfirst hthrew hpayload admitted created hfresh).elim
  · rw [hconcat, List.concat_eq_append, ← List.cons_append, ← List.append_assoc] at hlog
    exact h before retry front (List.append_inj' hlog rfl).1 first hfirst hthrew hpayload
      admitted created hfresh

/-- A later state holds what an earlier one did. -/
theorem Held.mono {s' : RemoteSystem N} (h : s.Held host call)
    (hlog : ∀ entry ∈ s.log, entry ∈ s'.log)
    (hkeep : ∀ (admitted : Admitted N) created, s.seen.get admitted.id = some created →
      s.holder admitted.id = some ⟨admitted.signer, true⟩ →
      (s'.seen.get admitted.id = some created ∧
        s'.holder admitted.id = some ⟨admitted.signer, true⟩) ∨
      ∃ entry ∈ s'.log, (entry.1.fresh host).isSome = true ∧
        created < entry.1.now - host.window.maxAgeMs) :
    s'.Held host call := by
  obtain ⟨admitted, created, hfresh, hheld | ⟨entry, hentry, hexpired⟩⟩ := h
  · exact ⟨admitted, created, hfresh, hkeep admitted created hheld.1 hheld.2⟩
  · exact ⟨admitted, created, hfresh, .inr ⟨entry, hlog entry hentry, hexpired⟩⟩

/-- An envelope that comes fresh is not one the guard holds from a delivery that threw. -/
theorem not_held_of_unmixed (hunmixed : s.Unmixed host (.accept call)) {first : RemoteCall N}
    (hheld : s.Held host first) (hpayload : first.payload = call.payload)
    {admitted : Admitted N} {created : Int} (hfresh : call.fresh host = some (admitted, created)) :
    False := by
  obtain ⟨huntil, hholder, -⟩ := hunmixed _ _ hfresh
  obtain ⟨admitted', created', hfirst, hheld⟩ := hheld
  have hisFresh := RemoteCall.isFresh hfresh
  obtain ⟨hid, hcreated⟩ := hfirst.same hisFresh hpayload
  have hyoung := hisFresh.created_eq.2
  rcases hheld with ⟨hseen, hthrew⟩ | ⟨entry, hentry, hsome, hexpired⟩
  · have hhas : (s.seen.prune host.window call.now).has admitted.id = true := by
      rw [hid, hcreated] at hseen
      simp [ReplayGuard.prune, JsMap.has, hseen, hyoung]
    rw [← hid] at hhas hholder
    rw [hholder hhas] at hthrew
    simp at hthrew
  · have hle := huntil entry hentry hsome
    omega

/-- Every call comes to something. -/
theorem accept_log (host : RemoteHost N) (s : RemoteSystem N) (call : RemoteCall N) :
    ∃ outcome, (s.acceptRemoteEnvelope host call).log = s.log ++ [(call, outcome)] := by
  cases hfresh : call.fresh host with
  | none =>
      obtain ⟨outcome, -, hends⟩ := accept_of_not_fresh hfresh
      exact ⟨outcome, by rw [hends]; rfl⟩
  | some pair =>
      rw [accept_of_fresh (RemoteCall.isFresh hfresh)]
      split
      case isTrue => exact ⟨_, ends_log _ _ _⟩
      case isFalse => exact ⟨_, deliver_log _ _ _⟩

/-- A fresh call forgets only what has expired by then. -/
theorem Held.accept {first : RemoteCall N} (h : s.Held host first) {admitted : Admitted N}
    {created : Int} (hfresh : IsFresh host call admitted created) :
    (s.acceptRemoteEnvelope host call).Held host first := by
  obtain ⟨outcome, hlog⟩ := accept_log host s call
  apply h.mono
  · intro entry hentry
    rw [hlog]
    exact List.mem_append_left _ hentry
  · intro held created' hseen hholder
    by_cases hexpired : created' < call.now - host.window.maxAgeMs
    · right
      exact ⟨(call, outcome), by rw [hlog]; simp, hfresh.isSome, hexpired⟩
    · left
      have hpruned : (s.seen.prune host.window call.now).get held.id = some created' := by
        simp [ReplayGuard.prune, hseen, hexpired]
      rw [accept_of_fresh hfresh]
      split
      case isTrue => exact ⟨hpruned, hholder⟩
      case isFalse hhas =>
          have hid : held.id ≠ admitted.id := by
            intro heq
            rw [← heq, JsMap.has, hpruned] at hhas
            exact hhas rfl
          rw [deliver_seen, deliver_holder, Function.update_of_ne hid, JsMap.get_set_of_ne _ _ hid]
          exact ⟨hpruned, hholder⟩

/-- The guard holds the id of a delivery that throws. -/
theorem held_of_threw {admitted : Admitted N} {created : Int}
    (hfresh : IsFresh host call admitted created)
    (hlog : (s.acceptRemoteEnvelope host call).log =
      s.log ++ [(call, AcceptOutcome.deliveryThrew)]) :
    (s.acceptRemoteEnvelope host call).Held host call := by
  refine ⟨admitted, created, hfresh, .inl ?_⟩
  rw [accept_of_fresh hfresh] at hlog ⊢
  split at hlog
  case isTrue => simp at hlog
  case isFalse hhas =>
      rw [deliver_log] at hlog
      have hnone : deliveredTo host call admitted = none := by
        cases hdelivered : deliveredTo host call admitted with
        | none => rfl
        | some path => simp [hdelivered] at hlog
      simp [hhas, hnone]

theorem Retained.act (h : Retained host s) {action : RemoteAction N}
    (hok : s.Unmixed host action) : Retained host (s.act host action) := by
  cases action with
  | pop path => exact ⟨h.held, h.retry⟩
  | accept call =>
      cases hfresh : call.fresh host with
      | none =>
          obtain ⟨outcome, hthrew, hends⟩ := accept_of_not_fresh hfresh
          rw [RemoteSystem.act, hends]
          refine ⟨fun entry hentry houtcome => ?_, h.retry.append ?_⟩
          · rw [ends_log, List.mem_append, List.mem_singleton] at hentry
            rcases hentry with hold | rfl
            · apply (h.held entry hold houtcome).mono
              · intro other hother
                exact List.mem_append_left _ hother
              · intro admitted created hseen hholder
                exact .inl ⟨hseen, hholder⟩
            · exact (hthrew houtcome).elim
          · intro first _ _ _ admitted created hsome
            rw [hfresh] at hsome
            cases hsome
      | some pair =>
          have hisFresh := RemoteCall.isFresh hfresh
          obtain ⟨outcome, hlog⟩ := accept_log host s call
          constructor
          · intro entry hentry houtcome
            rw [RemoteSystem.act, hlog, List.mem_append, List.mem_singleton] at hentry
            rcases hentry with hold | rfl
            · exact (h.held entry hold houtcome).accept hisFresh
            · exact held_of_threw hisFresh (by rw [hlog, ← houtcome])
          · rw [RemoteSystem.act, hlog]
            apply h.retry.append
            intro first hfirst hthrew hpayload admitted created hsome
            exact not_held_of_unmixed hok (h.held first hfirst hthrew) hpayload hsome

end RemoteSystem

/-! ## One id, two signers -/

end H2a.Remote
