import H2a.Library.History
import H2a.Protocol.Replay
/-!
# A replay guard over all its calls

`createReplayGuard` of `packages/h2a/src/replay.ts` forgets an id by the `createdAt` it accepted it
at, and judges freshness at the time of the call.  While the clock does not go back, what was
accepted is still remembered or is too old ever to be fresh again.
-/

namespace H2a.Protocol

open H2a.Library

/-- A call `accept(envelope, now)`, with what the guard reads of the envelope. -/
structure AcceptCall where
  id : JsString
  createdAt : JsString
  now : Int

/-- A call and the guard's answer to it. -/
structure GuardAnswer where
  call : AcceptCall
  answer : Except H2AReplayRejection Unit

/-- The guard let the envelope pass. -/
def GuardAnswer.Accepted (a : GuardAnswer) : Prop :=
  a.answer = .ok ()

/-- The envelope was created within the window around the time of the call. -/
def AcceptCall.Fresh (window : FreshnessWindow) (parseDate : JsString → Option Int)
    (call : AcceptCall) : Prop :=
  ∃ created, parseDate call.createdAt = some created ∧ call.now - window.maxAgeMs ≤ created ∧
    created ≤ call.now + window.maxSkewMs

namespace ReplayGuard

section

variable (window : FreshnessWindow) (parseDate : JsString → Option Int)

/-- One more call, after the answers so far. -/
def answerNext (state : ReplayGuard × List GuardAnswer) (call : AcceptCall) :
    ReplayGuard × List GuardAnswer :=
  let (answer, seen) := state.1.accept window call.id (parseDate call.createdAt) call.now
  (seen, state.2 ++ [⟨call, answer⟩])

/-- What a new guard remembers after `calls`, and its answers. -/
def answerAll (calls : List AcceptCall) : ReplayGuard × List GuardAnswer :=
  calls.foldl (answerNext window parseDate) (.empty, [])

end

variable {window : FreshnessWindow} {parseDate : JsString → Option Int} {seen : ReplayGuard}
  {history : List GuardAnswer} {call : AcceptCall}

theorem answerAll_concat (calls : List AcceptCall) (call : AcceptCall) :
    answerAll window parseDate (calls ++ [call]) =
      answerNext window parseDate (answerAll window parseDate calls) call := by
  simp [answerAll]

/-- The answers are to the calls, in order. -/
theorem answerAll_calls (window : FreshnessWindow) (parseDate : JsString → Option Int)
    (calls : List AcceptCall) :
    (answerAll window parseDate calls).2.map GuardAnswer.call = calls := by
  induction calls using List.reverseRecOn with
  | nil => rfl
  | append_singleton calls call ih =>
      rw [answerAll_concat, answerNext, List.map_append, ih]
      rfl

/-! ## One call -/

theorem checkEnvelopeFreshness_eq_ok_iff {created : Option Int} {now time : Int} :
    checkEnvelopeFreshness window created now = .ok time ↔
      created = some time ∧ now - window.maxAgeMs ≤ time ∧ time ≤ now + window.maxSkewMs := by
  cases created with
  | none => simp [checkEnvelopeFreshness]
  | some created =>
      simp only [checkEnvelopeFreshness, Option.some.injEq]
      split_ifs with hfuture hexpired
      · simp only [false_iff]
        omega
      · simp only [false_iff]
        omega
      · simp only [Except.ok.injEq]
        omega

theorem checkEnvelopeFreshness_ne_replayed {created : Option Int} {now : Int} :
    checkEnvelopeFreshness window created now ≠ .error .replayed := by
  cases created with
  | none => simp [checkEnvelopeFreshness]
  | some created =>
      simp only [checkEnvelopeFreshness]
      split_ifs <;> simp

/-- What a call does: it rejects what is not fresh, rejects an id it remembers, or remembers the
id. -/
theorem accept_cases (window : FreshnessWindow) (parseDate : JsString → Option Int)
    (seen : ReplayGuard) (call : AcceptCall) :
    (∃ reason, reason ≠ .replayed ∧
      seen.accept window call.id (parseDate call.createdAt) call.now = (.error reason, seen)) ∨
    ((seen.prune window call.now).has call.id = true ∧
      seen.accept window call.id (parseDate call.createdAt) call.now =
        (.error .replayed, seen.prune window call.now)) ∨
    ∃ created, parseDate call.createdAt = some created ∧
      call.now - window.maxAgeMs ≤ created ∧ created ≤ call.now + window.maxSkewMs ∧
      (seen.prune window call.now).get call.id = none ∧
      seen.accept window call.id (parseDate call.createdAt) call.now =
        (.ok (), (seen.prune window call.now).set call.id created) := by
  unfold accept
  cases hcheck : checkEnvelopeFreshness window (parseDate call.createdAt) call.now with
  | error reason =>
      left
      refine ⟨reason, ?_, rfl⟩
      intro heq
      exact checkEnvelopeFreshness_ne_replayed (heq ▸ hcheck)
  | ok created =>
      right
      obtain ⟨hcreated, hage, hskew⟩ := checkEnvelopeFreshness_eq_ok_iff.mp hcheck
      by_cases hseen : (seen.prune window call.now).has call.id = true
      · exact .inl ⟨hseen, if_pos hseen⟩
      · have hnone := (JsMap.has_eq_false_iff _ _).mp (Bool.eq_false_iff.mpr hseen)
        exact .inr ⟨created, hcreated, hage, hskew, hnone, if_neg hseen⟩

theorem prune_get_eq_some_iff {now : Int} {id : JsString} {created : Int} :
    (seen.prune window now).get id = some created ↔
      seen.get id = some created ∧ now - window.maxAgeMs ≤ created := by
  simp [prune, Option.filter_eq_some_iff]

/-! ## What the guard remembers -/

/-- The clock of the answers has not passed `now`. -/
def Until (history : List GuardAnswer) (now : Int) : Prop :=
  ∀ a ∈ history, a.call.now ≤ now

theorem until_concat {a : GuardAnswer} {now : Int} :
    Until (history ++ [a]) now ↔ Until history now ∧ a.call.now ≤ now := by
  simp [Until, or_imp, forall_and]

/-- What was accepted is remembered or is expired from now on, and only accepted ids are
remembered. -/
structure Remembers (window : FreshnessWindow) (parseDate : JsString → Option Int)
    (seen : ReplayGuard) (history : List GuardAnswer) : Prop where
  kept : ∀ a ∈ history, a.Accepted → ∀ created, parseDate a.call.createdAt = some created →
    seen.get a.call.id = some created ∨
      ∀ now, Until history now → created < now - window.maxAgeMs
  known : ∀ id created, seen.get id = some created →
    ∃ a ∈ history, a.Accepted ∧ a.call.id = id

theorem Remembers.empty : Remembers window parseDate .empty [] where
  kept := by simp
  known := by simp

/-- A rejected call leaves nothing new to remember. -/
theorem Remembers.reject (h : Remembers window parseDate seen history) {a : GuardAnswer}
    (ha : ¬a.Accepted) : Remembers window parseDate seen (history ++ [a]) where
  kept := by
    intro b hb haccepted created hcreated
    rcases List.mem_append.mp hb with hb | hb
    · apply (h.kept b hb haccepted created hcreated).imp_right
      intro hexpired now hnow
      exact hexpired now (until_concat.mp hnow).1
    · rw [List.mem_singleton.mp hb] at haccepted
      exact absurd haccepted ha
  known := by
    intro id created hget
    obtain ⟨b, hb, hid⟩ := h.known id created hget
    exact ⟨b, List.mem_append_left _ hb, hid⟩

/-- What a later call prunes is expired for every call after it. -/
theorem Remembers.prune (h : Remembers window parseDate seen history) {a : GuardAnswer}
    (ha : ¬a.Accepted) :
    Remembers window parseDate (seen.prune window a.call.now) (history ++ [a]) where
  kept := by
    intro b hb haccepted created hcreated
    rcases (h.reject ha).kept b hb haccepted created hcreated with hseen | hexpired
    · by_cases hage : a.call.now - window.maxAgeMs ≤ created
      · exact .inl (prune_get_eq_some_iff.mpr ⟨hseen, hage⟩)
      · right
        intro now hnow
        have hlater := (until_concat.mp hnow).2
        omega
    · exact .inr hexpired
  known := by
    intro id created hget
    exact (h.reject ha).known id created (prune_get_eq_some_iff.mp hget).1

theorem Remembers.accept (h : Remembers window parseDate seen history) {created : Int}
    (hcreated : parseDate call.createdAt = some created)
    (hnew : (seen.prune window call.now).get call.id = none) :
    Remembers window parseDate ((seen.prune window call.now).set call.id created)
      (history ++ [⟨call, .ok ()⟩]) where
  kept := by
    intro b hb haccepted time htime
    rcases List.mem_append.mp hb with hb | hb
    · rcases h.kept b hb haccepted time htime with hseen | hexpired
      · by_cases hage : call.now - window.maxAgeMs ≤ time
        · -- the id is still remembered, so it is not the new one
          have hpruned := prune_get_eq_some_iff.mpr ⟨hseen, hage⟩
          have hid : b.call.id ≠ call.id := by
            intro heq
            rw [heq, hnew] at hpruned
            cases hpruned
          exact .inl ((JsMap.get_set_of_ne _ created hid).trans hpruned)
        · right
          intro now hnow
          have hlater := (until_concat.mp hnow).2
          dsimp only at hlater
          omega
      · right
        intro now hnow
        exact hexpired now (until_concat.mp hnow).1
    · rw [List.mem_singleton.mp hb] at htime ⊢
      have hsame : time = created := Option.some.inj (htime.symm.trans hcreated)
      exact .inl (hsame ▸ JsMap.get_set_self _ _ _)
  known := by
    intro id time hget
    by_cases hid : id = call.id
    · exact ⟨⟨call, .ok ()⟩, by simp, rfl, hid.symm⟩
    · rw [JsMap.get_set_of_ne _ created hid] at hget
      obtain ⟨b, hb, hb'⟩ := h.known id time (prune_get_eq_some_iff.mp hget).1
      exact ⟨b, List.mem_append_left _ hb, hb'⟩

/-! ## All the answers -/

/-- Two answers do not accept the same envelope. -/
def Apart (a b : GuardAnswer) : Prop :=
  a.Accepted → b.Accepted → ¬(a.call.id = b.call.id ∧ a.call.createdAt = b.call.createdAt)

/-- What holds of an answer, given the ones before it. -/
def Justified (window : FreshnessWindow) (parseDate : JsString → Option Int)
    (before : List GuardAnswer) (a : GuardAnswer) : Prop :=
  (∀ b ∈ before, Apart b a) ∧ (a.Accepted → a.call.Fresh window parseDate) ∧
    (a.answer = .error .replayed → ∃ b ∈ before, b.Accepted ∧ b.call.id = a.call.id)

/-- One call keeps what the guard remembers, and its answer is justified. -/
theorem Remembers.answerNext (h : Remembers window parseDate seen history)
    (hclock : Until history call.now) :
    Remembers window parseDate (answerNext window parseDate (seen, history) call).1
        (answerNext window parseDate (seen, history) call).2 ∧
      ∃ answer, (answerNext window parseDate (seen, history) call).2 =
          history ++ [⟨call, answer⟩] ∧
        Justified window parseDate history ⟨call, answer⟩ := by
  rcases accept_cases window parseDate seen call with
    ⟨reason, hreason, haccept⟩ | ⟨hhas, haccept⟩ | ⟨created, hcreated, hage, hskew, hnew, haccept⟩
  · simp only [ReplayGuard.answerNext, haccept]
    refine ⟨h.reject (by simp [GuardAnswer.Accepted]), _, rfl, ?_, ?_, ?_⟩
    · intro b _ _ hok
      cases hok
    · intro hok
      cases hok
    · intro hreplayed
      exact absurd (Except.error.inj hreplayed) hreason
  · simp only [ReplayGuard.answerNext, haccept]
    have hrejected : ¬GuardAnswer.Accepted ⟨call, .error .replayed⟩ := by
      simp [GuardAnswer.Accepted]
    refine ⟨h.prune hrejected, _, rfl, ?_, ?_, ?_⟩
    · intro b _ _ hok
      exact absurd hok hrejected
    · intro hok
      exact absurd hok hrejected
    · intro _
      obtain ⟨created, hget⟩ := (JsMap.has_iff _ _).mp hhas
      exact h.known call.id created (prune_get_eq_some_iff.mp hget).1
  · simp only [ReplayGuard.answerNext, haccept]
    refine ⟨h.accept hcreated hnew, _, rfl, ?_, ?_, ?_⟩
    · rintro b hb haccepted - ⟨hid, hcreatedAt⟩
      dsimp only at hid hcreatedAt
      rw [← hcreatedAt] at hcreated
      rcases h.kept b hb haccepted created hcreated with hseen | hexpired
      · rw [hid] at hseen
        rw [prune_get_eq_some_iff.mpr ⟨hseen, hage⟩] at hnew
        cases hnew
      · have := hexpired call.now hclock
        omega
    · intro _
      exact ⟨created, hcreated, hage, hskew⟩
    · intro hreplayed
      cases hreplayed

/-- The invariant of all the calls of a clock that does not go back. -/
theorem remembers_answerAll (window : FreshnessWindow) (parseDate : JsString → Option Int)
    (calls : List AcceptCall) (hclock : calls.Pairwise fun a b => a.now ≤ b.now) :
    Remembers window parseDate (answerAll window parseDate calls).1
        (answerAll window parseDate calls).2 ∧
      Always (Justified window parseDate) (answerAll window parseDate calls).2 := by
  induction calls using List.reverseRecOn with
  | nil => exact ⟨.empty, always_nil⟩
  | append_singleton calls call ih =>
      obtain ⟨hearlier, -, hle⟩ := List.pairwise_append.mp hclock
      obtain ⟨hremembers, hjustified⟩ := ih hearlier
      have hbefore : Until (answerAll window parseDate calls).2 call.now := by
        intro a ha
        apply hle a.call _ call (List.mem_singleton.mpr rfl)
        rw [← answerAll_calls window parseDate calls]
        exact List.mem_map_of_mem ha
      obtain ⟨hnext, answer, hanswers, hlast⟩ := hremembers.answerNext hbefore
      rw [answerAll_concat]
      refine ⟨hnext, ?_⟩
      rw [hanswers, always_concat]
      exact ⟨hjustified, hlast⟩

end ReplayGuard

open ReplayGuard in
/-- Over all the calls of a guard, in a clock that does not go back: no two accepted envelopes have
one id and one `createdAt`, an accepted envelope was fresh when it was accepted, and one that is
rejected as replayed has the id of an envelope accepted before it. -/
theorem replay_guard_safe (window : FreshnessWindow) (parseDate : JsString → Option Int)
    (calls : List AcceptCall) (hclock : calls.Pairwise fun a b => a.now ≤ b.now) :
    (answerAll window parseDate calls).2.map GuardAnswer.call = calls ∧
      (answerAll window parseDate calls).2.Pairwise (fun a b => a.Accepted → b.Accepted →
        ¬(a.call.id = b.call.id ∧ a.call.createdAt = b.call.createdAt)) ∧
      (∀ a ∈ (answerAll window parseDate calls).2, a.Accepted → a.call.Fresh window parseDate) ∧
      Always (fun before a => a.answer = .error .replayed →
        ∃ b ∈ before, b.Accepted ∧ b.call.id = a.call.id)
        (answerAll window parseDate calls).2 := by
  obtain ⟨-, hjustified⟩ := remembers_answerAll window parseDate calls hclock
  refine ⟨answerAll_calls window parseDate calls, ?_, ?_, ?_⟩
  · apply pairwise_of_always
    intro before a after hsplit
    exact (hjustified before a after hsplit).1
  · intro a ha
    obtain ⟨before, after, hsplit⟩ := List.append_of_mem ha
    exact (hjustified before a after hsplit).2.1
  · intro before a after hsplit
    exact (hjustified before a after hsplit).2.2

/-- One envelope sent three times: within its window, and when it has expired. -/
def resentCalls : List AcceptCall :=
  [⟨js "m-1", js "1970-01-01T00:00:00.000Z", 0⟩, ⟨js "m-1", js "1970-01-01T00:00:00.000Z", 300000⟩,
    ⟨js "m-1", js "1970-01-01T00:00:00.000Z", 300001⟩]

open ReplayGuard in
theorem replay_guard_safe_resent :
    (resentCalls.Pairwise fun a b => a.now ≤ b.now) ∧
      (answerAll defaultWindow (fun _ => some 0) resentCalls).2.map GuardAnswer.answer =
        [.ok (), .error .replayed, .error .expired] ∧
      (answerAll defaultWindow (fun _ => some 0) resentCalls).2.Pairwise (fun a b =>
        a.Accepted → b.Accepted →
          ¬(a.call.id = b.call.id ∧ a.call.createdAt = b.call.createdAt)) := by
  have hclock : resentCalls.Pairwise fun a b => a.now ≤ b.now := by
    simp [resentCalls]
  exact ⟨hclock, rfl, (replay_guard_safe defaultWindow (fun _ => some 0) resentCalls hclock).2.1⟩

end H2a.Protocol
