import H2a.Library.Result
import H2a.Library.Transition
import H2a.Mcp.Notifications
/-!
# Notifications at least once

What a tick hands to the sink for each session is a list that its snapshot and the reads decide,
its plan.  The snapshot moves only when the whole plan was accepted.  A journal that cannot be
read ends the tick, so a session gets its plan unless one before it in the list has such a
journal.
-/

namespace H2a.Mcp

open H2a.Library

variable {K E : Type} [DecidableEq K] (digests : Digests K E) (scan : Scan E)

/-! ## Plans -/

/-- What a part of a tick pushes, up to a read that throws, where there is one. -/
structure Plan where
  pushes : List McpPushNotification
  readFails : Bool

/-- Nothing but pushes. -/
def Plan.of (pushes : List McpPushNotification) : Plan := ⟨pushes, false⟩

/-- One part after the other. -/
def Plan.andThen (p q : Plan) : Plan :=
  if p.readFails then p else ⟨p.pushes ++ q.pushes, q.readFails⟩

/-- The pushes of a loop, for a session that is interested in the topic. -/
def plannedEach {X : Type} (session : H2ASession) (topic : NotificationTopic)
    (notify : X → Option McpPushNotification) (xs : List X) : Plan :=
  .of (if isInterestedIn session topic then xs.filterMap notify else [])

/-- The pushes of the loop over the negotiations. -/
def plannedNegotiations (session : H2ASession) (prev : SessionDiffState) : List JsString → Plan
  | [] => .of []
  | negotiationId :: rest =>
      match readJournal digests scan session negotiationId with
      | none => ⟨[], true⟩
      | some now =>
          (Plan.of (notifyAppended session prev negotiationId now).toList).andThen
            (plannedNegotiations session prev rest)

/-- What a tick has to tell a session whose snapshot is `prev`. -/
def sessionPlan (session : H2ASession) (prev : SessionDiffState) : Plan :=
  (plannedEach session .peerJoined (notifyJoined scan session prev)
      (otherPeers scan session)).andThen <|
    (plannedEach session .peerLeft (notifyLeft scan session) prev.peers).andThen <|
    (plannedEach session .envelopeArrived (notifyArrived session prev)
      (readInboxIds scan session)).andThen <|
    (if isInterestedIn session .eventAppended then
      plannedNegotiations digests scan session prev session.interests.negotiations
    else .of []).andThen <|
    (plannedEach session .peerBlocked (notifyBlocked session prev)
      (blockagesInScope scan session)).andThen <|
    plannedEach session .peerUnblocked (notifyUnblocked scan session) prev.blocked

/-- Nothing but a read throws: not the sink, the hook, or the digest of a notification. -/
def Calm (pushes : List McpPushNotification) : Prop :=
  (∀ i, scan.sink i ≠ .throws) ∧ (∀ instance_, scan.wakeThrows instance_ = false) ∧
    ∀ n ∈ pushes, (digests.notification n).isSome

/-! ## A part of a tick carries its plan out -/

/-- The part pushes what is planned, in turn, and leaves the snapshots alone.  It stops early only
at the read that throws, or where something else does. -/
def Carries {α : Type} (m : TickM K α) (plan : Plan) (value : Bool → α → Prop) : Prop :=
  ∀ s, ∃ made, (m.run.run s).2.pushed = s.pushed ++ made ∧
    (m.run.run s).2.dispatcher.snapshots = s.dispatcher.snapshots ∧
    match (m.run.run s).1 with
    | .ok a => plan.readFails = false ∧ made.map (·.1) = plan.pushes ∧ value (made.all (·.2)) a
    | .error .read => plan.readFails = true ∧ made.map (·.1) = plan.pushes
    | .error .other => made.map (·.1) <+: plan.pushes ∧ ¬Calm digests scan plan.pushes

variable {digests scan}

omit [DecidableEq K] in
theorem Calm.mono {pushes more : List McpPushNotification} (h : Calm digests scan (pushes ++ more)) :
    Calm digests scan pushes :=
  ⟨h.1, h.2.1, fun n hn => h.2.2 n (List.mem_append_left more hn)⟩

theorem Plan.andThen_of_readFails {p : Plan} (h : p.readFails = true) (q : Plan) :
    p.andThen q = p := by
  simp [Plan.andThen, h]

theorem Plan.andThen_of_reads {p : Plan} (h : p.readFails = false) (q : Plan) :
    p.andThen q = ⟨p.pushes ++ q.pushes, q.readFails⟩ := by
  simp [Plan.andThen, h]

/-- What is planned first is pushed first. -/
theorem Plan.pushes_andThen (p q : Plan) : ∃ more, (p.andThen q).pushes = p.pushes ++ more := by
  cases h : p.readFails with
  | true => exact ⟨[], by rw [Plan.andThen_of_readFails h, List.append_nil]⟩
  | false => exact ⟨q.pushes, by rw [Plan.andThen_of_reads h]⟩

theorem Carries.pure {α : Type} {a : α} {value : Bool → α → Prop} (h : value true a) :
    Carries digests scan (pure a : TickM K α) (.of []) value :=
  fun _ => ⟨[], (List.append_nil _).symm, rfl, rfl, rfl, h⟩

theorem Carries.mono {α : Type} {m : TickM K α} {plan : Plan} {value weaker : Bool → α → Prop}
    (h : Carries digests scan m plan value) (hw : ∀ b a, value b a → weaker b a) :
    Carries digests scan m plan weaker := by
  intro s
  obtain ⟨made, hpushed, hsnapshots, hresult⟩ := h s
  refine ⟨made, hpushed, hsnapshots, ?_⟩
  cases hcase : (m.run.run s).1 with
  | ok a =>
      rw [hcase] at hresult
      exact ⟨hresult.1, hresult.2.1, hw _ _ hresult.2.2⟩
  | error failure =>
      rw [hcase] at hresult
      cases failure with
      | read => exact hresult
      | other => exact hresult

/-- One part after the other. -/
theorem Carries.bind {α β : Type} {m : TickM K α} {f : α → TickM K β} {p q : Plan}
    {value : Bool → α → Prop} {result : Bool → β → Prop} (hm : Carries digests scan m p value)
    (hf : ∀ b a, value b a → Carries digests scan (f a) q fun b' c => result (b && b') c) :
    Carries digests scan (m >>= f) (p.andThen q) result := by
  intro s
  obtain ⟨made, hpushed, hsnapshots, hresult⟩ := hm s
  rw [stateRun_bind]
  rcases hrun : m.run.run s with ⟨r, t⟩
  rw [hrun] at hpushed hsnapshots hresult
  cases r with
  | error failure =>
      refine ⟨made, hpushed, hsnapshots, ?_⟩
      cases failure with
      | read =>
          rw [Plan.andThen_of_readFails hresult.1]
          exact hresult
      | other =>
          obtain ⟨more, hmore⟩ := p.pushes_andThen q
          rw [hmore]
          exact ⟨hresult.1.trans (List.prefix_append _ _), fun hcalm => hresult.2 hcalm.mono⟩
  | ok a =>
      obtain ⟨hreads, hmade, hvalue⟩ := hresult
      obtain ⟨more, hpushed', hsnapshots', hresult'⟩ := hf _ a hvalue t
      rw [Plan.andThen_of_reads hreads]
      refine ⟨made ++ more, ?_, hsnapshots'.trans hsnapshots, ?_⟩
      · rw [hpushed', hpushed, List.append_assoc]
      · cases hcase : ((f a).run.run t).1 with
        | ok c =>
            rw [hcase] at hresult'
            refine ⟨hresult'.1, ?_, ?_⟩
            · rw [List.map_append, hmade, hresult'.2.1]
            · rw [List.all_append]
              exact hresult'.2.2
        | error failure =>
            rw [hcase] at hresult'
            cases failure with
            | read =>
                refine ⟨hresult'.1, ?_⟩
                rw [List.map_append, hmade, hresult'.2]
            | other =>
                refine ⟨?_, fun hcalm => hresult'.2 ⟨hcalm.1, hcalm.2.1, fun n hn =>
                  hcalm.2.2 n (List.mem_append_right _ hn)⟩⟩
                rw [List.map_append, hmade]
                exact (List.prefix_append_right_inj _).mpr hresult'.1

theorem mem_notificationTopics (topic : NotificationTopic) : topic ∈ notificationTopics := by
  cases topic <;> decide

theorem produce_snapshots (d : Dispatcher K) (key : K) (n : McpPushNotification) :
    (d.produce key n).snapshots = d.snapshots := by
  rw [Dispatcher.produce]
  split <;> rfl

theorem carries_push (n : McpPushNotification) :
    Carries digests scan (push digests scan n) (.of [n]) fun b accepted => accepted = b := by
  intro s
  have htopic : ¬n.topic ∉ notificationTopics := not_not.mpr (mem_notificationTopics n.topic)
  rw [push, if_neg htopic]
  cases hkey : digests.notification n with
  | none =>
      refine ⟨[], (List.append_nil _).symm, rfl, List.nil_prefix, fun hcalm => ?_⟩
      have hsome := hcalm.2.2 n List.mem_cons_self
      simp [hkey] at hsome
  | some key =>
      simp only [stateRun_modify_bind, stateRun_get_bind]
      cases hanswer : scan.sink s.pushed.length with
      | throws =>
          refine ⟨[(n, false)], rfl, produce_snapshots _ key n, List.prefix_refl _, fun hcalm => ?_⟩
          exact hcalm.1 _ hanswer
      | receipt accepted delivered =>
          cases delivered with
          | true => exact ⟨[(n, accepted)], rfl, produce_snapshots _ key n, rfl, rfl, by simp⟩
          | false => exact ⟨[(n, accepted)], rfl, produce_snapshots _ key n, rfl, rfl, by simp⟩

theorem Plan.of_andThen (pushes more : List McpPushNotification) :
    (Plan.of pushes).andThen (.of more) = .of (pushes ++ more) := rfl

theorem Plan.nil_andThen (p : Plan) : (Plan.of []).andThen p = p := rfl

theorem carries_pushEach {X : Type} (notify : X → Option McpPushNotification) (xs : List X)
    (accepted : Bool) :
    Carries digests scan (pushEach digests scan notify xs accepted) (.of (xs.filterMap notify))
      fun b result => result = (b && accepted) := by
  induction xs generalizing accepted with
  | nil => exact .pure (by simp)
  | cons x xs ih =>
      rw [pushEach, List.foldlM_cons, List.filterMap_cons]
      cases hx : notify x with
      | none =>
          rw [pure_bind]
          exact ih accepted
      | some n =>
          have hpush : Carries digests scan
              (do let taken ← push digests scan n; return taken && accepted)
              ((Plan.of [n]).andThen (.of [])) fun b result => result = (b && accepted) :=
            Carries.bind (carries_push n) fun b taken htaken =>
              .pure (by rw [htaken, Bool.and_true])
          exact hpush.bind (q := .of (xs.filterMap notify)) fun b result hresult =>
            (ih result).mono fun b' value hvalue => by
              rw [hvalue, hresult, ← Bool.and_assoc, Bool.and_comm b' b]

/-- A loop, for a session that may not be interested in it. -/
theorem carries_section {X : Type} (session : H2ASession) (topic : NotificationTopic)
    (notify : X → Option McpPushNotification) (xs : List X) (accepted : Bool) :
    Carries digests scan (pushSection digests scan session topic notify xs accepted)
      (plannedEach session topic notify xs) fun b result => result = (b && accepted) := by
  rw [pushSection]
  cases h : isInterestedIn session topic with
  | true =>
      rw [if_pos rfl, plannedEach, h, if_pos rfl]
      exact carries_pushEach notify xs accepted
  | false =>
      rw [if_neg Bool.false_ne_true, plannedEach, h, if_neg Bool.false_ne_true]
      exact .pure (by simp)

/-- What is read of the negotiations, up to one that cannot be read. -/
def negotiationsRead (digests : Digests K E) (scan : Scan E) (session : H2ASession) :
    List JsString → JsMap JsString NegotiationSnapshot → JsMap JsString NegotiationSnapshot
  | [], snap => snap
  | negotiationId :: rest, snap =>
      match readJournal digests scan session negotiationId with
      | none => snap
      | some now => negotiationsRead digests scan session rest (snap.set negotiationId now)

theorem carries_modify {f : TickState K → TickState K} (hpushed : ∀ s, (f s).pushed = s.pushed)
    (hsnapshots : ∀ s, (f s).dispatcher.snapshots = s.dispatcher.snapshots) :
    Carries digests scan (modify f : TickM K PUnit) (.of []) fun b _ => b = true :=
  fun s => ⟨[], (hpushed s).trans (List.append_nil _).symm, hsnapshots s, rfl, rfl, rfl⟩

theorem recordTruncation_snapshots (d : Dispatcher K) (truncation : Truncation) :
    (d.recordTruncation truncation).snapshots = d.snapshots := by
  rw [Dispatcher.recordTruncation]
  split <;> rfl

theorem carries_scanNegotiations (session : H2ASession) (prev : SessionDiffState)
    (ids : List JsString) (accepted : Bool) (snap : JsMap JsString NegotiationSnapshot) :
    Carries digests scan (scanNegotiations digests scan session prev ids accepted snap)
      (plannedNegotiations digests scan session prev ids)
      fun b result => result = (b && accepted, negotiationsRead digests scan session ids snap) := by
  induction ids generalizing accepted snap with
  | nil => exact .pure (by simp [negotiationsRead])
  | cons negotiationId rest ih =>
      rw [scanNegotiations, plannedNegotiations]
      cases hread : readJournal digests scan session negotiationId with
      | none => exact fun s => ⟨[], (List.append_nil _).symm, rfl, rfl, rfl⟩
      | some now =>
          have hafter : Carries digests scan
              (do
                let accepted ← pushEach digests scan
                  (fun now => notifyAppended session prev negotiationId now) [now] accepted
                scanNegotiations digests scan session prev rest accepted
                  (snap.set negotiationId now))
              ((Plan.of (notifyAppended session prev negotiationId now).toList).andThen
                (plannedNegotiations digests scan session prev rest))
              fun b result => result = (b && accepted,
                negotiationsRead digests scan session (negotiationId :: rest) snap) := by
            have hpush : Carries digests scan _ _ _ :=
              carries_pushEach (fun now => notifyAppended session prev negotiationId now) [now]
                accepted
            have hlist : [now].filterMap (fun now => notifyAppended session prev negotiationId now) =
                (notifyAppended session prev negotiationId now).toList := by
              rw [List.filterMap_cons]
              cases notifyAppended session prev negotiationId now with
              | none => rfl
              | some n => rfl
            rw [hlist] at hpush
            refine hpush.bind fun b result hresult => (ih result _).mono fun b' value hvalue => ?_
            rw [hvalue, hresult, negotiationsRead, hread, ← Bool.and_assoc, Bool.and_comm b' b]
          by_cases htruncated : journalTruncated prev negotiationId now = true
          · simp only [htruncated, if_true]
            rw [← Plan.nil_andThen ((Plan.of _).andThen _)]
            refine Carries.bind
              (carries_modify (fun _ => rfl) fun s => recordTruncation_snapshots s.dispatcher _)
              fun b _ hb => ?_
            subst hb
            simpa only [Bool.true_and] using hafter
          · simp only [htruncated]
            exact hafter

theorem carries_wake (session : H2ASession) :
    Carries digests scan (wake scan session : TickM K Unit) (.of []) fun b _ => b = true := by
  rw [wake]
  split
  · case isTrue h =>
      refine fun s => ⟨[], (List.append_nil _).symm, rfl, List.nil_prefix, fun hcalm => ?_⟩
      have hquiet := hcalm.2.1 session.instance_
      simp [hquiet] at h
  · exact .pure rfl

/-- The negotiations of the new snapshot. -/
def negotiationsNow (digests : Digests K E) (scan : Scan E) (session : H2ASession) :
    JsMap JsString NegotiationSnapshot :=
  if isInterestedIn session .eventAppended then
    negotiationsRead digests scan session session.interests.negotiations .empty
  else .empty

theorem carries_negotiations (session : H2ASession) (prev : SessionDiffState) (accepted : Bool) :
    Carries digests scan (negotiationsSection digests scan session prev accepted)
      (if isInterestedIn session .eventAppended then
        plannedNegotiations digests scan session prev session.interests.negotiations
      else .of [])
      fun b result => result = (b && accepted, negotiationsNow digests scan session) := by
  rw [negotiationsSection]
  cases h : isInterestedIn session .eventAppended with
  | true =>
      simp only [if_true, negotiationsNow, h]
      exact carries_scanNegotiations session prev _ accepted .empty
  | false =>
      simp only [Bool.false_eq_true, if_false, negotiationsNow, h]
      exact .pure (by simp)

variable (digests scan) in
/-- The diffs of a session are its plan. -/
theorem carries_pushDiffs (session : H2ASession) (prev : SessionDiffState) :
    Carries digests scan (pushDiffs digests scan session prev)
      (sessionPlan digests scan session prev)
      fun b result => result = (b, negotiationsNow digests scan session) := by
  rw [pushDiffs, sessionPlan]
  refine Carries.bind (carries_section (K := K) session _ _ _ true) fun b₁ a₁ h₁ => ?_
  refine Carries.bind (carries_section (K := K) session _ _ _ a₁) fun b₂ a₂ h₂ => ?_
  refine Carries.bind (carries_section (K := K) session _ _ _ a₂) fun b₃ a₃ h₃ => ?_
  rw [← Plan.nil_andThen (Plan.andThen _ _)]
  refine Carries.bind (carries_wake (K := K) session) fun b₄ _ h₄ => ?_
  refine Carries.bind (carries_negotiations (K := K) session prev a₃) fun b₅ result h₅ => ?_
  subst h₅
  refine Carries.bind (carries_section (K := K) session _ _ _ _) fun b₆ a₆ h₆ => ?_
  rw [show plannedEach session .peerUnblocked (notifyUnblocked scan session) prev.blocked =
    (plannedEach session .peerUnblocked (notifyUnblocked scan session) prev.blocked).andThen
      (.of []) from ?_]
  · refine Carries.bind (carries_section (K := K) session _ _ _ a₆) fun b₇ a₇ h₇ => .pure ?_
    rw [h₇, h₆, h₄, h₃, h₂, h₁]
    cases b₁ <;> cases b₂ <;> cases b₃ <;> cases b₅ <;> cases b₆ <;> cases b₇ <;> rfl
  · simp [plannedEach, Plan.of, Plan.andThen]

/-! ## One session -/

/-- What the snapshot of a session becomes when all its diffs are accepted. -/
def snapshotNow (digests : Digests K E) (scan : Scan E) (session : H2ASession) :
    SessionDiffState :=
  ⟨otherPeers scan session, (readInboxIds scan session).eraseDups,
    negotiationsNow digests scan session, blockedNow scan session⟩

theorem snapshotOf_setSnapshot (sessionId sid : JsString) (snapshot : SessionDiffState)
    (s : TickState K) :
    snapshotOf (setSnapshot sessionId snapshot s).dispatcher sid =
      if sid = sessionId then snapshot else snapshotOf s.dispatcher sid := by
  simp only [snapshotOf, setSnapshot, JsMap.get_set]
  split <;> rfl

theorem snapshotOf_congr {d d' : Dispatcher K} (h : d.snapshots = d'.snapshots)
    (sid : JsString) : snapshotOf d sid = snapshotOf d' sid := by
  rw [snapshotOf, snapshotOf, h]

/-- What the scan of a session does, from any state: `made` are its pushes. -/
structure Scanned (digests : Digests K E) (scan : Scan E) (session : H2ASession)
    (s t : TickState K) (result : Except Failure Unit)
    (made : List (McpPushNotification × Bool)) : Prop where
  pushed : t.pushed = s.pushed ++ made
  others : ∀ sid, sid ≠ session.sessionId →
    snapshotOf t.dispatcher sid = snapshotOf s.dispatcher sid
  planned : made.map (·.1) <+:
    (sessionPlan digests scan session (snapshotOf s.dispatcher session.sessionId)).pushes
  ended : match result with
    | .ok _ =>
        (sessionPlan digests scan session
          (snapshotOf s.dispatcher session.sessionId)).readFails = false ∧
        made.map (·.1) =
          (sessionPlan digests scan session
            (snapshotOf s.dispatcher session.sessionId)).pushes ∧
        snapshotOf t.dispatcher session.sessionId =
          if made.all (·.2) then snapshotNow digests scan session
          else snapshotOf s.dispatcher session.sessionId
    | .error .read =>
        (sessionPlan digests scan session
          (snapshotOf s.dispatcher session.sessionId)).readFails = true ∧
        made.map (·.1) =
          (sessionPlan digests scan session
            (snapshotOf s.dispatcher session.sessionId)).pushes ∧
        snapshotOf t.dispatcher session.sessionId = snapshotOf s.dispatcher session.sessionId
    | .error .other =>
        ¬Calm digests scan (sessionPlan digests scan session
          (snapshotOf s.dispatcher session.sessionId)).pushes ∧
        snapshotOf t.dispatcher session.sessionId = snapshotOf s.dispatcher session.sessionId

variable (digests scan) in
theorem scanSession_spec (session : H2ASession) (s : TickState K) :
    ∃ made, Scanned digests scan session s ((scanSession digests scan session).run.run s).2
      ((scanSession digests scan session).run.run s).1 made := by
  have hbase (sid : JsString) : snapshotOf (setSnapshot session.sessionId
      (snapshotOf s.dispatcher session.sessionId) s).dispatcher sid =
        snapshotOf s.dispatcher sid := by
    rw [snapshotOf_setSnapshot]
    split
    · case isTrue h => rw [h]
    · rfl
  obtain ⟨made, hpushed, hsnapshots, hresult⟩ :=
    carries_pushDiffs digests scan session (snapshotOf s.dispatcher session.sessionId)
      (setSnapshot session.sessionId (snapshotOf s.dispatcher session.sessionId) s)
  rw [scanSession, stateRun_get_bind, stateRun_modify_bind, stateRun_bind]
  rcases hrun : (pushDiffs digests scan session (snapshotOf s.dispatcher session.sessionId)).run.run
    (setSnapshot session.sessionId (snapshotOf s.dispatcher session.sessionId) s) with ⟨r, t⟩
  rw [hrun] at hpushed hsnapshots hresult
  have hkept (sid : JsString) : snapshotOf t.dispatcher sid = snapshotOf s.dispatcher sid :=
    (snapshotOf_congr hsnapshots sid).trans (hbase sid)
  refine ⟨made, ?_⟩
  cases r with
  | error failure =>
      cases failure with
      | read =>
          exact ⟨hpushed, fun sid _ => hkept sid, by rw [hresult.2],
            hresult.1, hresult.2, hkept _⟩
      | other => exact ⟨hpushed, fun sid _ => hkept sid, hresult.1, hresult.2, hkept _⟩
  | ok result =>
      obtain ⟨hreads, hmade, rfl⟩ := hresult
      cases hall : made.all (·.2) with
      | true =>
          refine ⟨hpushed, fun sid hsid => ?_, by rw [hmade], hreads, hmade, ?_⟩
          · exact (snapshotOf_setSnapshot _ _ _ t).trans ((if_neg hsid).trans (hkept sid))
          · have hset := (snapshotOf_setSnapshot session.sessionId session.sessionId
              (snapshotNow digests scan session) t).trans (if_pos rfl)
            exact hset.trans (if_pos hall).symm
      | false =>
          have hfalse : ¬made.all (·.2) = true := by simp [hall]
          exact ⟨hpushed, fun sid _ => hkept sid, by rw [hmade], hreads, hmade,
            (hkept session.sessionId).trans (if_neg hfalse).symm⟩

/-! ## The plan of a session -/

theorem Plan.mem_andThen {p q : Plan} {n : McpPushNotification}
    (h : n ∈ (p.andThen q).pushes) : n ∈ p.pushes ∨ n ∈ q.pushes := by
  rw [Plan.andThen] at h
  split at h
  · exact .inl h
  · exact List.mem_append.mp h

theorem Plan.readFails_andThen {p q : Plan} :
    (p.andThen q).readFails = false ↔ p.readFails = false ∧ q.readFails = false := by
  cases h : p.readFails with
  | true => simp [Plan.andThen_of_readFails h, h]
  | false => simp [Plan.andThen_of_reads h]

/-- Where no read throws, all that is planned is there. -/
theorem Plan.mem_andThen_of_reads {p q : Plan} (h : p.readFails = false)
    {n : McpPushNotification} :
    n ∈ (p.andThen q).pushes ↔ n ∈ p.pushes ∨ n ∈ q.pushes := by
  rw [Plan.andThen_of_reads h, List.mem_append]

section PlanOf

variable {session : H2ASession} {prev : SessionDiffState} {n : McpPushNotification}

omit [DecidableEq K] in
theorem mem_plannedEach {X : Type} {topic : NotificationTopic}
    {notify : X → Option McpPushNotification} {xs : List X} :
    n ∈ (plannedEach session topic notify xs).pushes ↔
      isInterestedIn session topic = true ∧ ∃ x ∈ xs, notify x = some n := by
  cases h : isInterestedIn session topic <;> simp [plannedEach, Plan.of, h]

omit [DecidableEq K] in
theorem sessionId_plannedNegotiations {ids : List JsString}
    (h : n ∈ (plannedNegotiations digests scan session prev ids).pushes) :
    n.sessionId = session.sessionId := by
  induction ids with
  | nil => simp [plannedNegotiations, Plan.of] at h
  | cons negotiationId rest ih =>
      rw [plannedNegotiations] at h
      cases hread : readJournal digests scan session negotiationId with
      | none => simp [hread] at h
      | some now =>
          rw [hread] at h
          rcases Plan.mem_andThen h with h | h
          · have hn : notifyAppended session prev negotiationId now = some n := by
              simpa [Plan.of] using h
            rw [notifyAppended, Option.ite_none_right_eq_some] at hn
            rw [← Option.some.inj hn.2]
          · exact ih h

omit [DecidableEq K] in
/-- A session is told nothing under the name of another. -/
theorem sessionId_of_mem_sessionPlan
    (h : n ∈ (sessionPlan digests scan session prev).pushes) :
    n.sessionId = session.sessionId := by
  rcases Plan.mem_andThen h with h | h
  · obtain ⟨-, sid, -, hn⟩ := mem_plannedEach.mp h
    rw [notifyJoined, Option.ite_none_left_eq_some] at hn
    obtain ⟨peer, -, rfl⟩ := Option.map_eq_some_iff.mp hn.2
    rfl
  rcases Plan.mem_andThen h with h | h
  · obtain ⟨-, sid, -, hn⟩ := mem_plannedEach.mp h
    rw [notifyLeft, Option.ite_none_left_eq_some] at hn
    rw [← Option.some.inj hn.2]
  rcases Plan.mem_andThen h with h | h
  · obtain ⟨-, sid, -, hn⟩ := mem_plannedEach.mp h
    rw [notifyArrived, Option.ite_none_left_eq_some] at hn
    rw [← Option.some.inj hn.2]
  rcases Plan.mem_andThen h with h | h
  · split at h
    · exact sessionId_plannedNegotiations h
    · simp [Plan.of] at h
  rcases Plan.mem_andThen h with h | h
  · obtain ⟨-, b, -, hn⟩ := mem_plannedEach.mp h
    rw [notifyBlocked, Option.ite_none_left_eq_some] at hn
    rw [← Option.some.inj hn.2]
  · obtain ⟨-, b, -, hn⟩ := mem_plannedEach.mp h
    rw [notifyUnblocked, Option.ite_none_left_eq_some] at hn
    rw [← Option.some.inj hn.2]

end PlanOf

/-! ## The sessions of a tick -/

/-- What the scan of some sessions does. -/
structure SessionsScanned (digests : Digests K E) (scan : Scan E) (sessions : List H2ASession)
    (s t : TickState K) (made : List (McpPushNotification × Bool)) : Prop where
  pushed : t.pushed = s.pushed ++ made
  ids : ∀ p ∈ made, ∃ x ∈ sessions, p.1.sessionId = x.sessionId
  outcome : ∀ sid, snapshotOf t.dispatcher sid = snapshotOf s.dispatcher sid ∨
    ∃ x ∈ sessions, x.sessionId = sid ∧ snapshotOf t.dispatcher sid = snapshotNow digests scan x ∧
      (∀ p ∈ made, p.1.sessionId = sid → p.2 = true) ∧
      (sessionPlan digests scan x (snapshotOf s.dispatcher sid)).readFails = false ∧
      ∀ n ∈ (sessionPlan digests scan x (snapshotOf s.dispatcher sid)).pushes, (n, true) ∈ made
  reached : (∀ x ∈ sessions, Calm digests scan
      (sessionPlan digests scan x (snapshotOf s.dispatcher x.sessionId)).pushes) →
    ∀ before x after, sessions = before ++ x :: after →
      (∀ y ∈ before, (sessionPlan digests scan y
        (snapshotOf s.dispatcher y.sessionId)).readFails = false) →
      ∀ n ∈ (sessionPlan digests scan x (snapshotOf s.dispatcher x.sessionId)).pushes,
        ∃ accepted, (n, accepted) ∈ made
  stopped : ∀ before x after, sessions = before ++ x :: after →
    (sessionPlan digests scan x (snapshotOf s.dispatcher x.sessionId)).readFails = true →
      ∀ p ∈ made, ∃ y ∈ before ++ [x], p.1.sessionId = y.sessionId

section Head

variable {session : H2ASession} {s t : TickState K} {made : List (McpPushNotification × Bool)}
  {result : Except Failure Unit}

theorem Scanned.id (h : Scanned digests scan session s t result made) :
    ∀ p ∈ made, p.1.sessionId = session.sessionId := fun _ hp =>
  sessionId_of_mem_sessionPlan (h.planned.subset (List.mem_map_of_mem hp))

/-- What the scan of a session did to the snapshot of any. -/
theorem Scanned.outcome (h : Scanned digests scan session s t result made) (sid : JsString) :
    snapshotOf t.dispatcher sid = snapshotOf s.dispatcher sid ∨
      session.sessionId = sid ∧ snapshotOf t.dispatcher sid = snapshotNow digests scan session ∧
      (∀ p ∈ made, p.2 = true) ∧
      (sessionPlan digests scan session (snapshotOf s.dispatcher sid)).readFails = false ∧
      made.map (·.1) =
        (sessionPlan digests scan session (snapshotOf s.dispatcher sid)).pushes := by
  by_cases hsid : sid = session.sessionId
  · subst hsid
    have hended := h.ended
    cases result with
    | ok _ =>
        obtain ⟨hreads, hmade, hsnapshot⟩ := hended
        cases hall : made.all (·.2) with
        | true =>
            rw [if_pos hall] at hsnapshot
            exact .inr ⟨rfl, hsnapshot, List.all_eq_true.mp hall, hreads, hmade⟩
        | false =>
            rw [if_neg (by simp [hall])] at hsnapshot
            exact .inl hsnapshot
    | error failure =>
        cases failure with
        | read => exact .inl hended.2.2
        | other => exact .inl hended.2
  · exact .inl (h.others sid hsid)

/-- The tick ends with this session. -/
theorem Scanned.last (h : Scanned digests scan session s t result made)
    (hfailed : ∀ u, result ≠ .ok u) (sessions : List H2ASession) :
    SessionsScanned digests scan (session :: sessions) s t made where
  pushed := h.pushed
  ids := fun p hp => ⟨session, List.mem_cons_self, h.id p hp⟩
  outcome := by
    intro sid
    rcases h.outcome sid with hkept | ⟨hsid, hsnapshot, haccepted, hreads, hmade⟩
    · exact .inl hkept
    · refine .inr ⟨session, List.mem_cons_self, hsid, hsnapshot, fun p hp _ => haccepted p hp,
        hreads, fun n hn => ?_⟩
      rw [← hmade] at hn
      obtain ⟨p, hp, rfl⟩ := List.mem_map.mp hn
      rwa [← show p = (p.1, true) from Prod.ext rfl (haccepted p hp)]
  reached := by
    intro hcalm before x after hsplit hreads n hn
    have hended := h.ended
    cases result with
    | ok u => exact absurd rfl (hfailed u)
    | error failure =>
        cases failure with
        | other => exact absurd (hcalm session List.mem_cons_self) hended.1
        | read =>
            cases before with
            | nil =>
                obtain ⟨rfl, -⟩ := List.cons.inj hsplit
                rw [← hended.2.1] at hn
                obtain ⟨p, hp, rfl⟩ := List.mem_map.mp hn
                exact ⟨p.2, hp⟩
            | cons y before =>
                obtain ⟨rfl, -⟩ := List.cons.inj hsplit
                have hy := hreads session List.mem_cons_self
                rw [hended.1] at hy
                exact absurd hy (by simp)
  stopped := by
    intro before x after hsplit _ p hp
    refine ⟨session, ?_, h.id p hp⟩
    cases before with
    | nil =>
        obtain ⟨rfl, -⟩ := List.cons.inj hsplit
        exact List.mem_singleton_self session
    | cons y before =>
        obtain ⟨rfl, -⟩ := List.cons.inj hsplit
        exact List.mem_cons_self

/-- The tick goes on to the other sessions. -/
theorem Scanned.cons {u : TickState K} {more : List (McpPushNotification × Bool)}
    {sessions : List H2ASession} (hok : Scanned digests scan session s t (.ok ()) made)
    (hrest : SessionsScanned digests scan sessions t u more)
    (hdistinct : ∀ x ∈ sessions, x.sessionId ≠ session.sessionId) :
    SessionsScanned digests scan (session :: sessions) s u (made ++ more) where
  pushed := by rw [hrest.pushed, hok.pushed, List.append_assoc]
  ids := by
    intro p hp
    rcases List.mem_append.mp hp with hp | hp
    · exact ⟨session, List.mem_cons_self, hok.id p hp⟩
    · obtain ⟨x, hx, hpx⟩ := hrest.ids p hp
      exact ⟨x, List.mem_cons_of_mem session hx, hpx⟩
  outcome := by
    intro sid
    by_cases hsid : sid = session.sessionId
    · -- no later session has this id
      have hlater : snapshotOf u.dispatcher sid = snapshotOf t.dispatcher sid := by
        rcases hrest.outcome sid with hkept | ⟨x, hx, hxsid, -⟩
        · exact hkept
        · exact absurd (hxsid.trans hsid) (hdistinct x hx)
      rcases hok.outcome sid with hkept | ⟨-, hsnapshot, haccepted, hreads, hmade⟩
      · exact .inl (hlater.trans hkept)
      · refine .inr ⟨session, List.mem_cons_self, hsid.symm, hlater.trans hsnapshot,
          fun p hp hpsid => ?_, hreads, fun n hn => ?_⟩
        · rcases List.mem_append.mp hp with hp | hp
          · exact haccepted p hp
          · obtain ⟨x, hx, hpx⟩ := hrest.ids p hp
            exact absurd (hpx.symm.trans (hpsid.trans hsid)) (hdistinct x hx)
        · rw [← hmade] at hn
          obtain ⟨p, hp, rfl⟩ := List.mem_map.mp hn
          rw [← show p = (p.1, true) from Prod.ext rfl (haccepted p hp)]
          exact List.mem_append_left more hp
    · have hsame := hok.others sid hsid
      rcases hrest.outcome sid with hkept | ⟨x, hx, hxsid, hsnapshot, haccepted, hreads, hall⟩
      · exact .inl (hkept.trans hsame)
      · rw [hsame] at hreads hall
        refine .inr ⟨x, List.mem_cons_of_mem session hx, hxsid, hsnapshot,
          fun p hp hpsid => ?_, hreads, fun n hn => List.mem_append_right made (hall n hn)⟩
        rcases List.mem_append.mp hp with hp | hp
        · exact absurd (hpsid.symm.trans (hok.id p hp)) hsid
        · exact haccepted p hp hpsid
  reached := by
    intro hcalm before x after hsplit hreads n hn
    cases before with
    | nil =>
        obtain ⟨rfl, -⟩ := List.cons.inj hsplit
        rw [← hok.ended.2.1] at hn
        obtain ⟨p, hp, rfl⟩ := List.mem_map.mp hn
        exact ⟨p.2, List.mem_append_left more hp⟩
    | cons y before =>
        obtain ⟨rfl, rfl⟩ := List.cons.inj hsplit
        have hsame (z : H2ASession) (hz : z ∈ before ++ x :: after) :
            snapshotOf t.dispatcher z.sessionId = snapshotOf s.dispatcher z.sessionId :=
          hok.others _ (hdistinct z hz)
        obtain ⟨accepted, hmem⟩ := hrest.reached
          (fun z hz => by
            rw [hsame z hz]
            exact hcalm z (List.mem_cons_of_mem _ hz))
          before x after rfl
          (fun z hz => by
            rw [hsame z (List.mem_append_left _ hz)]
            exact hreads z (List.mem_cons_of_mem _ hz))
          n (by rwa [hsame x (by simp)])
        exact ⟨accepted, List.mem_append_right made hmem⟩
  stopped := by
    intro before x after hsplit hfails p hp
    cases before with
    | nil =>
        obtain ⟨rfl, -⟩ := List.cons.inj hsplit
        rw [hok.ended.1] at hfails
        exact absurd hfails (by simp)
    | cons y before =>
        obtain ⟨rfl, rfl⟩ := List.cons.inj hsplit
        rcases List.mem_append.mp hp with hp | hp
        · exact ⟨session, List.mem_cons_self, hok.id p hp⟩
        · have hsame := hok.others x.sessionId (hdistinct x (by simp))
          obtain ⟨z, hz, hpz⟩ := hrest.stopped before x after rfl (by rwa [hsame]) p hp
          exact ⟨z, List.mem_cons_of_mem session hz, hpz⟩

end Head

variable (digests scan) in
theorem scanSessions_spec {sessions : List H2ASession}
    (hdistinct : (sessions.map (·.sessionId)).Nodup) (s : TickState K) :
    ∃ made, SessionsScanned digests scan sessions s
      ((scanSessions digests scan sessions).run.run s).2 made := by
  induction sessions generalizing s with
  | nil =>
      refine ⟨[], (List.append_nil _).symm, by simp, fun _ => .inl rfl, ?_, ?_⟩
      · intro _ before x after hsplit
        simp at hsplit
      · intro before x after hsplit
        simp at hsplit
  | cons session sessions ih =>
      obtain ⟨made, hscanned⟩ := scanSession_spec digests scan session s
      rw [List.map_cons, List.nodup_cons] at hdistinct
      rw [scanSessions, stateRun_bind]
      rcases hrun : (scanSession digests scan session).run.run s with ⟨r, t⟩
      rw [hrun] at hscanned
      cases r with
      | error failure => exact ⟨made, hscanned.last (by simp) sessions⟩
      | ok u =>
          obtain ⟨more, hrest⟩ := ih hdistinct.2 t
          refine ⟨made ++ more, hscanned.cons hrest fun x hx hid => hdistinct.1 ?_⟩
          rw [← hid]
          exact List.mem_map_of_mem hx

/-! ## What a session is told -/

/-- All that a tick reads, and the session did not know, was handed to the sink and accepted, for
the topics that the session is interested in. -/
structure Told (digests : Digests K E) (scan : Scan E) (session : H2ASession)
    (prev : SessionDiffState) (pushed : List (McpPushNotification × Bool)) : Prop where
  joined : isInterestedIn session .peerJoined = true → ∀ peer ∈ scan.freshPeers,
    peer.sessionId ≠ session.sessionId → peer.sessionId ∉ prev.peers →
      ∃ instance_ host interests, (⟨.peerJoined, session.sessionId,
        .peerJoined peer.sessionId instance_ host interests⟩, true) ∈ pushed
  left : isInterestedIn session .peerLeft = true → ∀ sid ∈ prev.peers,
    (∀ peer ∈ scan.freshPeers, peer.sessionId ≠ session.sessionId → peer.sessionId ≠ sid) →
      (⟨.peerLeft, session.sessionId, .peerLeft sid⟩, true) ∈ pushed
  arrived : isInterestedIn session .envelopeArrived = true →
    ∀ ids, scan.readInbox session.sessionId session.instance_ = some ids → ∀ id ∈ ids,
      id ∉ prev.envelopeIds → (⟨.envelopeArrived, session.sessionId,
        .envelopeArrived session.instance_ id⟩, true) ∈ pushed
  appended : isInterestedIn session .eventAppended = true →
    ∀ negotiationId ∈ session.interests.negotiations,
      ∃ now, readJournal digests scan session negotiationId = some now ∧
        (previousCount prev negotiationId < now.count ∨
          journalTruncated prev negotiationId now = true →
            ∃ newEntries truncated, (⟨.eventAppended, session.sessionId,
              .eventAppended negotiationId newEntries now.count now.lastHash truncated⟩, true) ∈
                pushed)
  blocked : isInterestedIn session .peerBlocked = true → ∀ b ∈ scan.activeBlockages,
    b.instance_ ≠ session.instance_ → b.scope ∈ session.interests.scopes →
      b.instance_ ∉ prev.blocked → ∃ needs, (⟨.peerBlocked, session.sessionId,
        .peerBlocked b.instance_ b.scope b.reason needs⟩, true) ∈ pushed
  unblocked : isInterestedIn session .peerUnblocked = true → ∀ instance_ ∈ prev.blocked,
    (∀ b ∈ scan.activeBlockages, b.instance_ ≠ session.instance_ →
      b.scope ∈ session.interests.scopes → b.instance_ ≠ instance_) →
      (⟨.peerUnblocked, session.sessionId, .peerUnblocked instance_⟩, true) ∈ pushed

section Told

variable {session : H2ASession} {prev : SessionDiffState}

omit [DecidableEq K] in
theorem mem_otherPeers {sid : JsString} :
    sid ∈ otherPeers scan session ↔
      ∃ peer ∈ scan.freshPeers, peer.sessionId = sid ∧ sid ≠ session.sessionId := by
  simp only [otherPeers, List.mem_filter, List.mem_eraseDups, List.mem_map, decide_eq_true_eq]
  constructor
  · rintro ⟨⟨peer, hpeer, rfl⟩, hne⟩
    exact ⟨peer, hpeer, rfl, hne⟩
  · rintro ⟨peer, hpeer, rfl, hne⟩
    exact ⟨⟨peer, hpeer, rfl⟩, hne⟩

omit [DecidableEq K] in
theorem mem_blockedNow {instance_ : JsString} :
    instance_ ∈ blockedNow scan session ↔
      ∃ b ∈ scan.activeBlockages, b.instance_ ≠ session.instance_ ∧
        b.scope ∈ session.interests.scopes ∧ b.instance_ = instance_ := by
  simp only [blockedNow, blockagesInScope, List.mem_eraseDups, List.mem_map, List.mem_filter,
    decide_eq_true_eq]
  constructor
  · rintro ⟨b, ⟨hb, hne, hscope⟩, rfl⟩
    exact ⟨b, hb, hne, hscope, rfl⟩
  · rintro ⟨b, hb, hne, hscope, rfl⟩
    exact ⟨b, ⟨hb, hne, hscope⟩, rfl⟩

omit [DecidableEq K] in
theorem plannedNegotiations_reads {ids : List JsString}
    (h : (plannedNegotiations digests scan session prev ids).readFails = false) :
    ∀ negotiationId ∈ ids, ∃ now, readJournal digests scan session negotiationId = some now ∧
      ∀ n, notifyAppended session prev negotiationId now = some n →
        n ∈ (plannedNegotiations digests scan session prev ids).pushes := by
  induction ids with
  | nil => simp
  | cons first rest ih =>
      rw [plannedNegotiations] at h ⊢
      cases hread : readJournal digests scan session first with
      | none => simp [hread] at h
      | some now =>
          rw [hread] at h
          obtain ⟨hfirst, hrest⟩ := Plan.readFails_andThen.mp h
          intro negotiationId hid
          rcases List.mem_cons.mp hid with rfl | hid
          · refine ⟨now, hread, fun n hn => ?_⟩
            rw [Plan.mem_andThen_of_reads hfirst]
            left
            simp [Plan.of, hn]
          · obtain ⟨later, hlater, hall⟩ := ih hrest negotiationId hid
            refine ⟨later, hlater, fun n hn => ?_⟩
            rw [Plan.mem_andThen_of_reads hfirst]
            exact .inr (hall n hn)

omit [DecidableEq K] in
/-- When all of its plan was accepted, a session was told all that is new. -/
theorem told_of_plan {pushed : List (McpPushNotification × Bool)}
    (hreads : (sessionPlan digests scan session prev).readFails = false)
    (hall : ∀ n ∈ (sessionPlan digests scan session prev).pushes, (n, true) ∈ pushed) :
    Told digests scan session prev pushed := by
  rw [sessionPlan] at hreads hall
  obtain ⟨h₁, hreads⟩ := Plan.readFails_andThen.mp hreads
  obtain ⟨h₂, hreads⟩ := Plan.readFails_andThen.mp hreads
  obtain ⟨h₃, hreads⟩ := Plan.readFails_andThen.mp hreads
  obtain ⟨h₄, hreads⟩ := Plan.readFails_andThen.mp hreads
  obtain ⟨h₅, -⟩ := Plan.readFails_andThen.mp hreads
  simp only [Plan.mem_andThen_of_reads h₁, Plan.mem_andThen_of_reads h₂,
    Plan.mem_andThen_of_reads h₃, Plan.mem_andThen_of_reads h₄,
    Plan.mem_andThen_of_reads h₅, or_imp, forall_and] at hall
  obtain ⟨hjoined, hleft, harrived, happended, hblocked, hunblocked⟩ := hall
  constructor
  · intro hinterested peer hpeer hne hnew
    have hsome : (scan.freshPeers.find? fun p => p.sessionId = peer.sessionId).isSome := by
      rw [List.find?_isSome]
      exact ⟨peer, hpeer, by simp⟩
    obtain ⟨first, hfirst⟩ := Option.isSome_iff_exists.mp hsome
    have hid : first.sessionId = peer.sessionId := by simpa using List.find?_some hfirst
    have hnotify : notifyJoined scan session prev peer.sessionId =
        some ⟨.peerJoined, session.sessionId,
          .peerJoined peer.sessionId first.instance_ first.host first.interests⟩ := by
      rw [notifyJoined, if_neg hnew, hfirst, Option.map_some, hid]
    exact ⟨_, _, _, hjoined _ (mem_plannedEach.mpr
      ⟨hinterested, _, mem_otherPeers.mpr ⟨peer, hpeer, rfl, hne⟩, hnotify⟩)⟩
  · intro hinterested sid hsid hgone
    have hnone : sid ∉ otherPeers scan session := fun hmem => by
      obtain ⟨peer, hpeer, hid, hne⟩ := mem_otherPeers.mp hmem
      exact hgone peer hpeer (hid ▸ hne) hid
    exact hleft _ (mem_plannedEach.mpr
      ⟨hinterested, sid, hsid, by rw [notifyLeft, if_neg hnone]⟩)
  · intro hinterested ids hread id hid hnew
    have hmem : id ∈ readInboxIds scan session := by
      simpa [readInboxIds, hinterested, hread] using hid
    exact harrived _ (mem_plannedEach.mpr
      ⟨hinterested, id, hmem, by rw [notifyArrived, if_neg hnew]⟩)
  · intro hinterested negotiationId hid
    rw [if_pos hinterested] at h₄ happended
    obtain ⟨now, hread, hpush⟩ := plannedNegotiations_reads h₄ negotiationId hid
    refine ⟨now, hread, fun hnew => ?_⟩
    have hpushed := fun n hn => happended n (hpush n hn)
    rw [notifyAppended, if_pos hnew] at hpushed
    exact ⟨_, _, hpushed _ rfl⟩
  · intro hinterested b hb hne hscope hnew
    have hmem : b ∈ blockagesInScope scan session :=
      List.mem_filter.mpr ⟨hb, by simpa using ⟨hne, hscope⟩⟩
    exact ⟨_, hblocked _ (mem_plannedEach.mpr
      ⟨hinterested, b, hmem, by rw [notifyBlocked, if_neg hnew]⟩)⟩
  · intro hinterested instance_ hmem hcleared
    have hnone : instance_ ∉ blockedNow scan session := fun hnow => by
      obtain ⟨b, hb, hne, hscope, hid⟩ := mem_blockedNow.mp hnow
      exact hcleared b hb hne hscope hid
    exact hunblocked _ (mem_plannedEach.mpr
      ⟨hinterested, instance_, hmem, by rw [notifyUnblocked, if_neg hnone]⟩)

end Told

/-! ## Ticks -/

/-- The dispatcher after a tick. -/
def dispatcherAfter (digests : Digests K E) (d : Dispatcher K) (input : TickInput E) :
    Dispatcher K :=
  (tick digests d input).2.dispatcher

/-- A snapshot stays, or it is what the tick read for its session, which was told all of it and
accepted every push. -/
def AtLeastOnce (digests : Digests K E) (d : Dispatcher K) (input : TickInput E) : Prop :=
  ∀ sid, snapshotOf (dispatcherAfter digests d input) sid = snapshotOf d sid ∨
    ∃ session ∈ input.sessions, ∃ scan, session.sessionId = sid ∧ input.scan = some scan ∧
      snapshotOf (dispatcherAfter digests d input) sid = snapshotNow digests scan session ∧
      (∀ p ∈ (tick digests d input).2.pushed, p.1.sessionId = sid → p.2 = true) ∧
      Told digests scan session (snapshotOf d sid) (tick digests d input).2.pushed

/-- Nothing but a read throws in this tick. -/
def CalmTick (digests : Digests K E) (scan : Scan E) (d : Dispatcher K)
    (sessions : List H2ASession) : Prop :=
  ∀ session ∈ sessions,
    Calm digests scan (sessionPlan digests scan session (snapshotOf d session.sessionId)).pushes

/-- The sessions whose own reads do not throw have all of their diffs pushed. -/
def Isolated (digests : Digests K E) (d : Dispatcher K) (input : TickInput E) : Prop :=
  ∀ scan, input.scan = some scan → CalmTick digests scan d input.sessions →
    ∀ session ∈ input.sessions,
      (sessionPlan digests scan session (snapshotOf d session.sessionId)).readFails = false →
        ∀ n ∈ (sessionPlan digests scan session (snapshotOf d session.sessionId)).pushes,
          ∃ accepted, (n, accepted) ∈ (tick digests d input).2.pushed

/-- No session with anything to be told comes after one with a journal that cannot be read. -/
def ReadsClear (digests : Digests K E) (d : Dispatcher K) (input : TickInput E) : Prop :=
  ∀ scan, input.scan = some scan → CalmTick digests scan d input.sessions →
    ∀ before session after, input.sessions = before ++ session :: after →
      (sessionPlan digests scan session (snapshotOf d session.sessionId)).readFails = true →
        ∀ later ∈ after,
          (sessionPlan digests scan later (snapshotOf d later.sessionId)).readFails = false →
            (sessionPlan digests scan later (snapshotOf d later.sessionId)).pushes = []

theorem tick_eq_scanSessions {digests : Digests K E} (d : Dispatcher K) {input : TickInput E}
    (hscan : input.scan = some scan) (hsessions : input.sessions ≠ []) :
    tick digests d input = (scanSessions digests scan input.sessions).run.run ⟨d, []⟩ := by
  have hsink : input.sink.isNone = false := by
    cases hcase : input.sink with
    | none => simp [TickInput.scan, hcase] at hscan
    | some sink => rfl
  rw [tick, if_neg (by simp [hsink, hsessions]), hscan]

/-- A tick that does not come to its sessions changes nothing. -/
theorem tick_eq_nothing {digests : Digests K E} (d : Dispatcher K) {input : TickInput E}
    (h : input.scan = none ∨ input.sessions = []) : (tick digests d input).2 = ⟨d, []⟩ := by
  rw [tick]
  split
  · rfl
  · case isFalse hgo =>
      rcases h with h | h
      · rw [h]
      · exact absurd (.inr h) hgo

theorem atLeastOnce (digests : Digests K E) (d : Dispatcher K) (input : TickInput E) :
    AtLeastOnce digests d input := by
  intro sid
  cases hscan : input.scan with
  | none =>
      rw [dispatcherAfter, tick_eq_nothing d (.inl hscan)]
      exact .inl rfl
  | some scan =>
      by_cases hsessions : input.sessions = []
      · rw [dispatcherAfter, tick_eq_nothing d (.inr hsessions)]
        exact .inl rfl
      · obtain ⟨made, hscanned⟩ := scanSessions_spec digests scan input.distinct ⟨d, []⟩
        rw [← tick_eq_scanSessions d hscan hsessions] at hscanned
        have hpushed : (tick digests d input).2.pushed = made := hscanned.pushed
        rw [hpushed]
        rcases hscanned.outcome sid with hkept | ⟨x, hx, rfl, hsnapshot, haccepted, hreads, hall⟩
        · exact .inl hkept
        · exact .inr ⟨x, hx, scan, rfl, rfl, hsnapshot, haccepted, told_of_plan hreads hall⟩

theorem isolated_iff (digests : Digests K E) (d : Dispatcher K) (input : TickInput E) :
    Isolated digests d input ↔ ReadsClear digests d input := by
  refine forall_congr' fun scan => forall_congr' fun hscan => forall_congr' fun hcalm => ?_
  by_cases hsessions : input.sessions = []
  · simp [hsessions]
  obtain ⟨made, hscanned⟩ := scanSessions_spec digests scan input.distinct ⟨d, []⟩
  rw [← tick_eq_scanSessions d hscan hsessions] at hscanned
  have hpushed : (tick digests d input).2.pushed = made := hscanned.pushed
  rw [hpushed]
  constructor
  · -- a session after the one that fails is told nothing, so it had nothing to be told
    intro hisolated before session after hsplit hfails later hlater hreads
    rw [List.eq_nil_iff_forall_not_mem]
    intro n hn
    have hmem : later ∈ input.sessions := by
      rw [hsplit]
      exact List.mem_append_right before (List.mem_cons_of_mem session hlater)
    obtain ⟨accepted, hmade⟩ := hisolated later hmem hreads n hn
    obtain ⟨x, hx, hnx⟩ := hscanned.stopped before session after hsplit hfails _ hmade
    have hdistinct := input.distinct
    rw [hsplit, ← List.singleton_append, ← List.append_assoc, List.map_append,
      List.nodup_append] at hdistinct
    exact hdistinct.2.2 _ (List.mem_map_of_mem hx) _ (List.mem_map_of_mem hlater)
      (hnx.symm.trans (sessionId_of_mem_sessionPlan hn))
  · intro hclear session hsession hreads n hn
    obtain ⟨before, after, hsplit⟩ := List.append_of_mem hsession
    refine hscanned.reached hcalm before session after hsplit (fun y hy => ?_) n hn
    by_contra hfails
    obtain ⟨first, middle, rfl⟩ := List.append_of_mem hy
    have hnone := hclear first y (middle ++ session :: after) (by rw [hsplit]; simp)
      (by simpa using hfails) session (by simp) hreads
    rw [hnone] at hn
    simp at hn

/-- Every tick of every run delivers at least once; and the failures of one session are kept from
the others in every tick of a run exactly when, in each, no session with anything to be told
comes after one with a journal that cannot be read. -/
theorem notifications_at_least_once (digests : Digests K E) (start : Dispatcher K)
    (inputs : List (TickInput E)) :
    EachMeets (dispatcherAfter digests) (AtLeastOnce digests) start inputs ∧
      (EachMeets (dispatcherAfter digests) (Isolated digests) start inputs ↔
        EachMeets (dispatcherAfter digests) (ReadsClear digests) start inputs) :=
  ⟨eachMeets_of_forall (atLeastOnce digests) start inputs,
    eachMeets_congr (isolated_iff digests)⟩

/-- The first session follows a negotiation whose journal is corrupt; an envelope waits for the
second. -/
def corruptJournal : TickInput JsString where
  sink := some fun _ => .receipt true false
  sessions :=
    [⟨js "sess:1", js "alice", none, ⟨[], [js "neg:1"]⟩, [.eventAppended]⟩,
      ⟨js "sess:2", js "bob", none, ⟨[], []⟩, [.envelopeArrived]⟩]
  distinct := by decide
  scanFresh := some []
  listBlockages := some []
  readInbox := fun _ _ => some [js "env:1"]
  readNegotiationJournal := fun _ _ => none
  wakeThrows := fun _ => false

/-- Digests that tell notifications apart, and never throw. -/
def plainDigests : Digests McpPushNotification JsString where
  notification := some
  entry := fun last => some (last.getD (js "null"))

/-- The dispatcher of a process that has just started. -/
def freshDispatcher : Dispatcher McpPushNotification := ⟨.empty, .empty, 0, 0, []⟩

/-- The envelope of the second session is not pushed. -/
theorem corrupt_journal_silences :
    (tick plainDigests freshDispatcher corruptJournal).2.pushed = [] ∧
      ¬Isolated plainDigests freshDispatcher corruptJournal := by
  have hpushed : (tick plainDigests freshDispatcher corruptJournal).2.pushed = [] := by
    decide +kernel
  refine ⟨hpushed, fun h => ?_⟩
  have hcalm (scan : Scan JsString) (hscan : corruptJournal.scan = some scan) :
      CalmTick plainDigests scan freshDispatcher corruptJournal.sessions := by
    obtain rfl := Option.some.inj hscan
    exact fun _ _ => ⟨fun _ => by simp, fun _ => rfl, fun _ _ => rfl⟩
  obtain ⟨accepted, hmem⟩ := h _ rfl (hcalm _ rfl) corruptJournal.sessions[1]
    (List.getElem_mem _) (by decide +kernel)
    ⟨.envelopeArrived, js "sess:2", .envelopeArrived (js "bob") (js "env:1")⟩ (by decide +kernel)
  rw [hpushed] at hmem
  simp at hmem

end H2a.Mcp
