import H2a.Handover.BridgeAnswers
import H2a.Library.JsonInteger
/-!
# Runs of the bridge

Every turn keeps what holds of each request (`step_inv`), so it holds after every run.
-/

namespace H2a.Handover

open H2a.Library RequestMappings

variable {N : Type} [JsonNumber N]

/-- A change of what is sent to upstream, and how. -/
theorem Sound.sending {resumed : List (Transport × Transport)} {view : View N}
    (h : Sound resumed view) (dispatchState : DispatchState) (requestDigest : Option JsString) :
    Sound resumed { view with entry := { view.entry with
      dispatchState := dispatchState, requestDigest := requestDigest } } :=
  { h with
    lines := h.lines_congr rfl rfl rfl rfl rfl rfl }

/-- A dispatch goes on to its post. -/
theorem Sound.posted {resumed : List (Transport × Transport)} {view : View N}
    (h : Sound resumed view) (hphase : view.call.phase = .waiting) (owner : Owner N) :
    Sound resumed { view with call := { view.call with phase := .posted owner } } :=
  { h with
    lines := h.lines_congr rfl rfl rfl rfl rfl rfl
    finished := nofun
    unseen := fun _ _ => nofun
    unread := fun _ _ => h.unread (by simp [hphase]) (by simp [hphase])
    unsent := nofun }

/-- A line written before the response was read is an error. -/
theorem Says.unread {entry : Entry N} {call : Call N} {line : Purpose N × Json N}
    (h : Says entry call line) (hframes : call.frames = []) (call' : Call N) :
    Says entry call' line := by
  cases h with
  | reply place frame hfind =>
      rw [hframes] at hfind
      cases hfind
  | replyTooLarge place frame hfind =>
      rw [hframes] at hfind
      cases hfind
  | error place code message retrySafe => exact .error place code message retrySafe
  | errorTooLarge place => exact .errorTooLarge place

/-- The response to its post is read. -/
theorem Sound.responded {resumed : List (Transport × Transport)} {view : View N}
    (h : Sound resumed view) {owner : Owner N} (hphase : view.call.phase = .posted owner)
    (frames : List (Json N)) :
    Sound resumed { view with
      call := { view.call with frames := frames, phase := .replying owner frames } } :=
  { h with
    lines := h.lines.imp_right fun ⟨line, hlines, hanswered, hsaid⟩ =>
      ⟨line, hlines, hanswered,
        hsaid.unread (h.unread (by simp [hphase]) (by simp [hphase])) _⟩
    finished := nofun
    unseen := by
      rintro _ _ ⟨⟩
      exact ⟨[], rfl, fun _ _ => nofun⟩
    unread := fun hnever _ => absurd rfl (hnever owner frames)
    unsent := nofun }

/-- The loop over the frames goes on. -/
theorem Sound.consumed {resumed : List (Transport × Transport)} {view : View N}
    (h : Sound resumed view) {owner : Owner N} {next : Json N} {rest : List (Json N)}
    (hphase : view.call.phase = .replying owner (next :: rest))
    (hnext : view.entry.terminalState = none →
      Bridge.repliesTo view.entry.upstreamId next = false) :
    Sound resumed { view with call := { view.call with phase := .replying owner rest } } :=
  { h with
    lines := h.lines_congr rfl rfl rfl rfl rfl rfl
    finished := nofun
    unseen := by
      rintro _ _ ⟨⟩
      obtain ⟨seen, hframes, hseen⟩ := h.unseen owner (next :: rest) hphase
      refine ⟨seen ++ [next], by simpa using hframes, fun hopen frame hframe => ?_⟩
      rcases List.mem_append.mp hframe with hframe | hframe
      · exact hseen hopen frame hframe
      · rw [List.mem_singleton.mp hframe]
        exact hnext hopen
    unread := fun hnever _ => absurd rfl (hnever owner rest)
    unsent := nofun }

/-- A dispatch ends: its request is settled, or the bridge is stopped. -/
theorem Sound.ended {resumed : List (Transport × Transport)} {view : View N}
    (h : Sound resumed view)
    (hsettled : view.entry.terminalState = none → view.stopped = true) :
    Sound resumed { view with call := { view.call with phase := .finished } } :=
  { h with
    lines := h.lines_congr rfl rfl rfl rfl rfl rfl
    finished := fun _ => hsettled
    unseen := fun _ _ => nofun
    unread := fun _ hnot => absurd rfl hnot
    unsent := nofun }

/-- The reply that is next in the response is the first of it, as long as the request is open. -/
theorem Sound.find_next {resumed : List (Transport × Transport)} {view : View N}
    (h : Sound resumed view) {owner : Owner N} {next : Json N} {rest : List (Json N)}
    (hphase : view.call.phase = .replying owner (next :: rest))
    (hopen : view.entry.terminalState = none)
    (hnext : Bridge.repliesTo view.entry.upstreamId next = true) :
    view.call.frames.find? (Bridge.repliesTo view.entry.upstreamId) = some next := by
  obtain ⟨seen, hframes, hseen⟩ := h.unseen owner (next :: rest) hphase
  rw [hframes, List.find?_append, List.find?_eq_none.mpr, Option.none_or, List.find?_cons, hnext]
  intro frame hframe
  simp [hseen hopen frame hframe]

theorem Sound.cancelled_of {resumed : List (Transport × Transport)} {view : View N}
    (h : Sound resumed view) {entry' : Entry N} (hcancels : Cancels view.entry entry') :
    Sound resumed { view with entry := entry' } := by
  rcases hcancels with rfl | ⟨hopen, rfl⟩
  · exact h
  · exact { h with
      lines := Or.inl ⟨h.lines_of_open hopen, nofun⟩
      cancelled := ⟨fun _ => rfl, fun _ => rfl⟩
      closed := nofun
      finished := fun _ => nofun
      unseen := fun owner rest hphase => by
        obtain ⟨seen, hframes, -⟩ := h.unseen owner rest hphase
        exact ⟨seen, hframes, nofun⟩ }

/-- A request that was just admitted. -/
theorem Sound.admitted {resumed : List (Transport × Transport)} {entry : Entry N} {message id : Json N}
    (hid : message.get (js "id") = some id) (hopened : Opened id entry) (stopped : Bool) :
    Sound resumed
      ⟨entry, { message := message, phase := .waiting, frames := [] }, [], stopped⟩ where
  id := by rw [hopened.downstreamId, hid]
  lines := Or.inl ⟨rfl, by simp [hopened.terminalState, TerminalState.answered]⟩
  cancelled := by simp [hopened.cancellationWon, hopened.terminalState]
  closed := by simp [hopened.terminalState]
  finished := nofun
  unseen := fun _ _ => nofun
  unread := fun _ _ => rfl
  unsent := fun _ => hopened.owner
  source := by simp [hopened.notificationOwner]

theorem Sender.mono {resumed : List (Transport × Transport)} {entry : Entry N} {transport : Transport}
    (h : Sender resumed entry transport) (added : Transport × Transport) :
    Sender (resumed ++ [added]) entry transport := by
  obtain ⟨owner, howner, hchain⟩ := h
  refine ⟨owner, howner, Relation.ReflTransGen.mono ?_ _ _ hchain⟩
  exact fun _ _ hmem => List.mem_append_left _ hmem

/-- The sender of a request is resumed by the next transport. -/
theorem Sender.followed {resumed : List (Transport × Transport)} {entry : Entry N}
    {previous : Transport} (h : Sender resumed entry previous) (next : Transport) :
    Sender (resumed ++ [(previous, next)]) { entry with notificationOwner := some next } next := by
  obtain ⟨owner, howner, hchain⟩ := h.mono (previous, next)
  exact ⟨owner, howner, hchain.tail (List.mem_append_right _ List.mem_cons_self)⟩

theorem Sound.followed {resumed : List (Transport × Transport)} {view : View N}
    (h : Sound resumed view) {previous next : Transport} {entry' : Entry N}
    (hfollows : Follows previous next view.entry entry') :
    Sound (resumed ++ [(previous, next)]) { view with entry := entry' } := by
  rcases hfollows with rfl | ⟨horigin, rfl⟩
  · exact { h with source := fun transport hsource => (h.source transport hsource).mono _ }
  · have hsender : Sender resumed view.entry previous := by
      cases hsource : view.entry.notificationOwner with
      | some transport =>
          rw [hsource] at horigin
          obtain rfl := Option.some.inj horigin
          exact h.source transport hsource
      | none =>
          rw [hsource] at horigin
          obtain ⟨owner, howner, hprevious⟩ := Option.map_eq_some_iff.mp horigin
          exact ⟨owner, howner, hprevious ▸ .refl⟩
    exact { h with
      lines := h.lines_congr rfl rfl rfl rfl rfl rfl
      source := fun transport hsource => by
        rw [← Option.some.inj hsource]
        exact hsender.followed next }

namespace Bridge

variable (host : BridgeHost N)

/-! ## Values -/

omit [JsonNumber N] in
theorem get_withMember {value : Json N} {k x : JsString} {member : Json N} {old : Json N}
    (hold : value.get x = some old) : (withMember k member value).get k = some member := by
  cases value with
  | obj members => simp [withMember, Json.get]
  | _ => cases hold

@[simp] theorem get_errorLine (id : Json N) (code message : JsString) (retrySafe : Bool) :
    (errorLine (some id) code message retrySafe).get (js "id") = some id := by
  have hne : js "jsonrpc" ≠ js "id" := by decide
  simp [errorLine, Json.get, lookupMember, hne]

theorem isSome_of_repliesTo {upstreamId : JsString} {frame : Json N}
    (h : repliesTo upstreamId frame = true) :
    frame.get (js "id") = some (.str upstreamId) := by
  simp only [repliesTo, Bool.and_eq_true] at h
  cases hid : frame.get (js "id") with
  | none =>
      rw [hid] at h
      cases h.2
  | some id =>
      rw [hid] at h
      cases id with
      | str s => rw [show s = upstreamId by simpa [Json.isText] using h.2]
      | _ => cases h.2

/-- The proof of a refusal has a digest, so that it can be compared. -/
theorem nonAdmission_ok {entry : Entry N} {call : Call N} {thrown : Thrown N} {error : String} :
    nonAdmission host entry call thrown ≠ .error error := by
  rw [nonAdmission]
  split
  case h_1 owner refusal _ _ =>
    have hmatches : ∃ answer,
        nonAdmissionMatches host refusal.json entry owner call.message = .ok answer := by
      rw [nonAdmissionMatches]
      split_ifs
      · split
        · exact ⟨false, rfl⟩
        case h_2 publicationEpoch hget =>
          have hclaimed : digest host publicationEpoch = .ok (host.hash publicationEpoch) := by
            rw [digest, uncanonical_get refusal.canonical hget]
          have hpublished : digest host owner.publicationEpoch.json =
              .ok (host.hash owner.publicationEpoch.json) := by
            rw [digest, owner.publicationEpoch.canonical]
          rw [hclaimed, hpublished]
          exact ⟨_, rfl⟩
      · exact ⟨false, rfl⟩
    obtain ⟨answer, hanswer⟩ := hmatches
    rw [hanswer, ok_bind]
    split
    · split <;> exact nofun
    · exact nofun
  · exact nofun

/-! ## The parts of a dispatch -/

theorem Inv.failure {bridge : Bridge N} (h : Inv bridge) {place : Nat} {entry : Entry N}
    {call : Call N} (hat : bridge.dispatching place = some (entry, call))
    {terminalState : TerminalState} (hstate : TerminalState.answered (some terminalState) = true)
    (code message : JsString) (retrySafe : Bool) :
    Inv (bridge.answer place terminalState (.failure place)
      (errorLine (some entry.downstreamId) code message retrySafe)) := by
  apply h.answer hat (get_errorLine _ _ _ _) (by simp [Purpose.answers, eq_comm]) hstate
  intro _ line hline
  obtain ⟨line', hline', rfl | rfl⟩ :=
    exists_lineOf (get_errorLine entry.downstreamId code message retrySafe)
  · rw [Option.some.inj (hline.symm.trans hline')]
    exact .error place code message retrySafe
  · rw [Option.some.inj (hline.symm.trans hline')]
    exact .errorTooLarge place

theorem failure_settles {bridge : Bridge N} {place : Nat} {entry : Entry N}
    (hentry : bridge.mappings.entries[place]? = some entry) {terminalState : TerminalState}
    {id : Json N} {code message : JsString} {retrySafe : Bool} {view : View N}
    (h : (bridge.answer place terminalState (.failure place)
      (errorLine (some id) code message retrySafe)).view place = some view) :
    view.entry.terminalState.isSome = true :=
  answer_settles hentry (get_errorLine _ _ _ _) (by simp [Purpose.answers, eq_comm]) h

theorem Inv.caught {bridge : Bridge N} (h : Inv bridge) (place : Nat) (thrown : Thrown N) :
    Inv (bridge.caught host place thrown) := by
  rw [Bridge.caught]
  split
  · exact h
  case h_2 entry call hat =>
    split_ifs
    · exact h
    · split
      · exact h
      · exact h.failure hat rfl _ _ _
      · dsimp only
        generalize dispatchStateAfter entry thrown = dispatchState
        have hamended : Inv (bridge.amendEntry place fun entry =>
            { entry with dispatchState := dispatchState }) :=
          h.amendEntry (fun _ => rfl) fun view _ hsound => hsound.sending dispatchState _
        have hanswered : TerminalState.answered (some .error) = true := rfl
        exact hamended.failure (dispatching_amendEntry hat _) hanswered _ _ _

/-- A dispatch that ends in its `catch` leaves its request settled, or the bridge is stopped. -/
theorem caught_settles {bridge : Bridge N} {place : Nat} {thrown : Thrown N} {view : View N}
    (hview : (bridge.caught host place thrown).view place = some view)
    (hopen : view.entry.terminalState = none) : view.stopped = true := by
  have hsettled : view.entry.terminalState.isSome ≠ true := by simp [hopen]
  rw [Bridge.caught] at hview
  split at hview
  case h_1 hnone => simp [Bridge.view, hnone] at hview
  case h_2 entry call hat =>
    obtain ⟨hentry, -⟩ := dispatching_eq_some_iff.mp hat
    split_ifs at hview with hdone
    · obtain ⟨hentry', -, -, hstopped⟩ := view_eq_some_iff.mp hview
      rw [← Option.some.inj (hentry.symm.trans hentry')] at hsettled
      rw [← hstopped]
      simpa [hsettled] using hdone
    · split at hview
      case h_1 error herror => exact absurd herror (nonAdmission_ok host)
      case h_2 => exact absurd (failure_settles hentry hview) hsettled
      case h_3 =>
        obtain ⟨hamended, -⟩ := dispatching_eq_some_iff.mp (dispatching_amendEntry hat _)
        exact absurd (failure_settles hamended hview) hsettled

theorem Inv.finish {bridge : Bridge N} (h : Inv bridge) {place : Nat}
    (hsettled : ∀ view, bridge.view place = some view → view.entry.terminalState = none →
      view.stopped = true) : Inv (bridge.moveTo place .finished) := by
  apply h.amendCall
  exact fun view hview hsound => hsound.ended (hsettled view hview)

theorem Inv.fail {bridge : Bridge N} (h : Inv bridge) (place : Nat) (thrown : Thrown N) :
    Inv (bridge.fail host place thrown) :=
  (h.caught host place thrown).finish fun _ => caught_settles host

theorem Inv.resolve {bridge : Bridge N} (h : Inv bridge) (place : Nat) (owner : Owner N) (now : Int)
    (canCall : Bool) : Inv (bridge.resolve host place owner now canCall) := by
  rw [Bridge.resolve]
  split
  · exact h
  case h_2 entry call hat =>
    obtain ⟨hentry, hcall⟩ := dispatching_eq_some_iff.mp hat
    split
    case h_1 hphase =>
      have hview : bridge.view place =
          some ⟨entry, call, bridge.answersOf place, bridge.stopped⟩ :=
        view_eq_some_iff.mpr ⟨hentry, hcall, rfl, rfl⟩
      have hunsent : entry.owner = none := (h.sound place _ hview).unsent hphase
      have hnobody : entry.notificationOwner = none := by
        cases hsource : entry.notificationOwner with
        | none => rfl
        | some transport =>
            obtain ⟨owner, howner, -⟩ := (h.sound place _ hview).source transport hsource
            rw [hunsent] at howner
            cases howner
      split_ifs with hsettled hdeadline hcannot
      · apply h.finish
        intro view hview' hopen
        rw [← Option.some.inj (hentry.symm.trans (view_eq_some_iff.mp hview').1)] at hopen
        simp [hopen] at hsettled
      · exact h.fail host place _
      · apply (h.failure hat rfl _ _ _).finish
        intro view hview' hopen
        have hdone := failure_settles hentry hview'
        simp [hopen] at hdone
      · have hposted : Inv (bridge.moveTo place (.posted owner)) :=
          h.amendCall fun view hview hsound => by
            have hcall' := (view_eq_some_iff.mp hview).2.1
            rw [hcall] at hcall'
            apply hsound.posted _ owner
            rw [← Option.some.inj hcall']
            exact hphase
        have hsent : Inv ((bridge.moveTo place (.posted owner)).amendEntry place fun entry =>
            { entry with owner := some owner, dispatchState := .possible }) := by
          refine hposted.amendEntry (fun _ => rfl) fun view hview' hsound => ?_
          obtain rfl := Option.some.inj (hentry.symm.trans (view_eq_some_iff.mp hview').1)
          have hphase' : view.call.phase = .posted owner := by
            have hcall' := (view_eq_some_iff.mp hview').2.1
            simp only [moveTo, Bridge.amendCall, List.getElem?_modify, if_true, hcall,
              Option.map_eq_map, Option.map_some] at hcall'
            rw [← Option.some.inj hcall']
          exact { hsound with
            lines := hsound.lines_congr rfl rfl rfl rfl rfl rfl
            unsent := fun hwaiting => by
              rw [hphase'] at hwaiting
              cases hwaiting
            source := fun transport hsource => by
              rw [hnobody] at hsource
              cases hsource }
        dsimp only
        split
        · exact hsent.fail host place _
        · exact hsent.amendEntry (fun _ => rfl) fun view _ hsound => hsound.sending _ _
    case h_2 => exact h

theorem Inv.throwAt {bridge : Bridge N} (h : Inv bridge) (place : Nat) (thrown : Thrown N) :
    Inv (bridge.throwAt host place thrown) := by
  rw [Bridge.throwAt]
  split
  · exact h
  · split
    · exact h
    · exact h.fail host place thrown

theorem Inv.respond {bridge : Bridge N} (h : Inv bridge) (place : Nat) (frames : List (Json N)) :
    Inv (bridge.respond place frames) := by
  rw [Bridge.respond]
  split
  · exact h
  case h_2 entry call hat =>
    obtain ⟨hentry, hcall⟩ := dispatching_eq_some_iff.mp hat
    split
    case h_1 owner hphase =>
      apply h.amendCall
      intro view hview hsound
      apply hsound.responded
      rw [← Option.some.inj (hcall.symm.trans (view_eq_some_iff.mp hview).2.1)]
      exact hphase
    case h_2 => exact h

/-! ## Notifications -/

theorem Inv.deliver {bridge : Bridge N} (h : Inv bridge) (message : Json N) (owner : Transport) :
    Inv (bridge.deliver message owner).1 := by
  rw [Bridge.deliver]
  dsimp only
  split_ifs
  · split
    · exact h
    · exact h
    · split
      · exact h.write _ fun _ => rfl
      · exact h
  · exact h
  · exact h.write _ fun _ => rfl
  · exact h

theorem Inv.receive {bridge : Bridge N} (h : Inv bridge) (message : Json N) (owner : Transport) :
    Inv (bridge.receive message owner).1 := by
  rw [Bridge.receive]
  split_ifs
  · exact h
  · split
    · exact h.deliver message owner
    · split_ifs
      · exact h
      · apply Inv.deliver
        exact { h with }

/-! ## The frames of a response -/

theorem phase_of_dispatching {bridge : Bridge N} {place : Nat} {entry : Entry N} {call : Call N}
    (hat : bridge.dispatching place = some (entry, call)) {view : View N}
    (hview : bridge.view place = some view) : view.entry = entry ∧ view.call = call := by
  obtain ⟨hentry, hcall⟩ := dispatching_eq_some_iff.mp hat
  obtain ⟨hentry', hcall', -⟩ := view_eq_some_iff.mp hview
  exact ⟨Option.some.inj (hentry'.symm.trans hentry), Option.some.inj (hcall'.symm.trans hcall)⟩

theorem write_calls (bridge : Bridge N) (purpose : Purpose N) (value : Json N) :
    (bridge.write purpose value).calls = bridge.calls := by
  obtain ⟨heq, -⟩ | ⟨heq, -⟩ | ⟨line, queued, -, -, heq⟩ := write_cases bridge purpose value
  · rw [heq]
  · rw [heq, Bridge.stop]
    split_ifs <;> rfl
  · rw [heq]

theorem answer_calls (bridge : Bridge N) (place : Nat) (terminalState : TerminalState)
    (purpose : Purpose N) (value : Json N) :
    (bridge.answer place terminalState purpose value).calls = bridge.calls := by
  rw [Bridge.answer]
  split
  · rfl
  · exact write_calls _ purpose value

theorem Inv.frame {bridge : Bridge N} (h : Inv bridge) (place : Nat) :
    Inv (bridge.frame host place) := by
  rw [Bridge.frame]
  split
  · exact h
  case h_2 entry call hat =>
    obtain ⟨hentry, hcall⟩ := dispatching_eq_some_iff.mp hat
    split
    case h_1 owner next rest hphase =>
      have hconsumed (hnext : repliesTo entry.upstreamId next = false) :
          Inv (bridge.moveTo place (.replying owner rest)) := by
        apply h.amendCall
        intro view hview hsound
        obtain ⟨rfl, rfl⟩ := phase_of_dispatching hat hview
        exact hsound.consumed hphase fun _ => hnext
      split_ifs with hmethod hreplies
      · have hnext : repliesTo entry.upstreamId next = false := by simp [repliesTo, hmethod]
        have hreceived := (hconsumed hnext).receive next owner.transport
        split
        case h_1 bridge' hreceive =>
          rw [hreceive] at hreceived
          exact hreceived
        case h_2 bridge' error hreceive =>
          rw [hreceive] at hreceived
          exact hreceived.fail host place _
      · have hid : (withMember (js "id") entry.downstreamId next).get (js "id") =
            some entry.downstreamId := get_withMember (isSome_of_repliesTo hreplies)
        have hpurpose : ∀ p, (Purpose.reply place next).answers p = true ↔ p = place := by
          simp [Purpose.answers, eq_comm]
        have hsaid : entry.terminalState = none → ∀ line,
            lineOf (withMember (js "id") entry.downstreamId next) = some line →
              Says entry call (.reply place next, line) := by
          intro hopen line hline
          have hview : bridge.view place =
              some ⟨entry, call, bridge.answersOf place, bridge.stopped⟩ :=
            view_eq_some_iff.mpr ⟨hentry, hcall, rfl, rfl⟩
          have hfind := (h.sound place _ hview).find_next hphase hopen hreplies
          obtain ⟨line', hline', rfl | rfl⟩ := exists_lineOf hid
          · rw [Option.some.inj (hline.symm.trans hline')]
            exact .reply place next hfind
          · rw [Option.some.inj (hline.symm.trans hline')]
            exact .replyTooLarge place next hfind
        apply (h.answer hat hid hpurpose rfl hsaid).amendCall
        intro view hview hsound
        have hcall' := (view_eq_some_iff.mp hview).2.1
        rw [answer_calls, hcall] at hcall'
        rw [Option.some.inj hcall'] at hphase
        apply hsound.consumed hphase
        intro hopen
        have hsettled := answer_settles hentry hid hpurpose hview
        simp [hopen] at hsettled
      · exact hconsumed (by simpa using hreplies)
    case h_2 => exact h

theorem Inv.conclude {bridge : Bridge N} (h : Inv bridge) (place : Nat) :
    Inv (bridge.conclude place) := by
  rw [Bridge.conclude]
  split
  · exact h
  case h_2 entry call hat =>
    split
    case h_1 owner hphase =>
      have hanswered : TerminalState.answered (some .unknown) = true := rfl
      apply (h.failure hat hanswered _ _ _).finish
      intro view hview hopen
      have hdone := failure_settles (dispatching_eq_some_iff.mp hat).1 hview
      simp [hopen] at hdone
    case h_2 => exact h

/-! ## Messages and connections -/

/-- A change of the entries alone. -/
theorem Inv.mapped {bridge : Bridge N} (h : Inv bridge) {mappings : RequestMappings N}
    (hforgets : Forgets bridge.mappings mappings)
    (hentries : ∀ (p : Nat) (entry' : Entry N), mappings.entries[p]? = some entry' →
      ∃ entry, bridge.mappings.entries[p]? = some entry ∧ ∀ view : View N, view.entry = entry →
        Sound bridge.resumed view → Sound bridge.resumed { view with entry := entry' }) :
    Inv ({ bridge with mappings := mappings } : Bridge N) := by
  refine h.extends ⟨rfl, hforgets, rfl, fun _ hline => Or.inl hline⟩ fun p view' hview' => ?_
  obtain ⟨hentry', hcall, hlines, hstopped⟩ := view_eq_some_iff.mp hview'
  obtain ⟨entry, hentry, hsound⟩ := hentries p view'.entry hentry'
  have hview : bridge.view p = some { view' with entry := entry } :=
    view_eq_some_iff.mpr ⟨hentry, hcall, hlines, hstopped⟩
  exact hsound { view' with entry := entry } rfl (h.sound p _ hview)

theorem Inv.cancel {bridge : Bridge N} (h : Inv bridge) (id : Option (Json N)) :
    Inv ({ bridge with mappings := bridge.mappings.cancel id } : Bridge N) := by
  apply h.mapped (cancel_forgets _ id)
  intro p entry' hentry'
  obtain ⟨entry, hentry, hcancels⟩ := cancel_get hentry'
  refine ⟨entry, hentry, fun view hview hsound => ?_⟩
  rw [← hview] at hcancels
  exact hsound.cancelled_of hcancels

theorem Inv.admitCall {bridge : Bridge N} (h : Inv bridge) {message id : Json N}
    (hid : message.get (js "id") = some id) (arrival : Arrival N) :
    Inv (bridge.admitCall host message id arrival) := by
  rw [Bridge.admitCall]
  obtain ⟨error, mappings, hbegin, hentries, htokens⟩ |
    ⟨entry, mappings, hbegin, hentries, hopened, htokens⟩ := begin_cases host bridge.mappings
      message id (deadlineOf message arrival.now) arrival.requestUid arrival.requestNonce
  · rw [hbegin]
    apply Inv.write _ _ fun _ => rfl
    apply h.mapped ⟨by rw [hentries], by rw [htokens]; exact fun _ _ h => h⟩
    intro p entry' hentry'
    rw [hentries] at hentry'
    exact ⟨entry', hentry', by rintro view rfl hsound; exact hsound⟩
  · rw [hbegin]
    constructor
    · simp [hentries, h.length]
    · intro line hline place hplace
      have hlt := h.places line hline place hplace
      simp only [hentries, List.length_append, List.length_singleton]
      omega
    · intro token place hget
      have hold {place : Nat} (hplace : bridge.mappings.tokens.get token = some place) :
          (mappings.entries.map Entry.progressToken)[place]? = some (some token) := by
        rw [hentries, List.map_append]
        exact List.getElem?_append_left (List.getElem?_eq_some_iff.mp (h.tokens _ _ hplace)).1 ▸
          h.tokens _ _ hplace
      rcases htokens with ⟨-, htokens⟩ | ⟨added, hadded, htokens⟩
      · rw [htokens] at hget
        exact hold hget
      · rw [htokens, JsMap.get_set] at hget
        split_ifs at hget with heq
        · rw [← Option.some.inj hget, hentries, List.map_append, heq, ← hadded]
          simp
        · exact hold hget
    · intro p view hview
      obtain ⟨hentry, hcall, hlines, hstopped⟩ := view_eq_some_iff.mp hview
      dsimp only at hentry hcall
      rw [hentries] at hentry
      rcases Nat.lt_trichotomy p bridge.mappings.entries.length with hlt | heq | hgt
      · rw [List.getElem?_append_left hlt] at hentry
        rw [List.getElem?_append_left (by rwa [h.length])] at hcall
        exact h.sound p view (view_eq_some_iff.mpr ⟨hentry, hcall, hlines, hstopped⟩)
      · -- the request that is admitted
        rw [heq, List.getElem?_concat_length] at hentry
        rw [heq, ← h.length, List.getElem?_concat_length] at hcall
        have hnone : view.lines = [] := by
          rw [← hlines, answersOf, List.filter_eq_nil_iff]
          intro line hline hplace
          have hlt := h.places line hline p hplace
          omega
        have hview : view =
            ⟨entry, { message := message, phase := .waiting, frames := [] }, [], view.stopped⟩ :=
          View.ext (Option.some.inj hentry).symm (Option.some.inj hcall).symm hnone rfl
        rw [hview]
        exact .admitted hid hopened view.stopped
      · rw [List.getElem?_eq_none (by simp; omega)] at hentry
        cases hentry

theorem Inv.onInitialize {bridge : Bridge N} (h : Inv bridge) (message : Json N) :
    Inv (bridge.onInitialize host message) := by
  rw [Bridge.onInitialize]
  dsimp only
  split_ifs
  · exact h.write _ fun _ => rfl
  · exact { h with }
  · apply Inv.write _ _ fun _ => rfl
    exact { h with }

/-- What a message brings about: a line, a cancellation, a session, nothing, or a call. -/
theorem onMessage_of {P : Bridge N → Prop} {bridge : Bridge N} {message : Json N}
    {arrival : Arrival N} (hline : ∀ line, P (bridge.write .other line))
    (hcancel : ∀ id, P { bridge with mappings := bridge.mappings.cancel id })
    (hsession : P (bridge.onInitialize host message)) (hsame : P bridge)
    (hcall : ∀ id, message.get (js "id") = some id →
      P (bridge.admitCall host message id arrival)) :
    P (bridge.onMessage host message arrival) := by
  unfold Bridge.onMessage
  refine iteInduction (fun _ => hline _) fun _ => ?_
  refine iteInduction (fun _ => hline _) fun _ => ?_
  refine iteInduction (fun _ => hcancel _) fun _ => ?_
  refine iteInduction (fun _ => hsession) fun _ => ?_
  refine iteInduction (fun _ => ?_) fun _ => ?_
  · split
    · exact hsame
    · exact hline _
  refine iteInduction (fun _ => hsame) fun _ => ?_
  split
  · exact hsame
  case h_2 id hid => exact iteInduction (fun _ => hline _) fun _ => hcall id hid

theorem Inv.onMessage {bridge : Bridge N} (h : Inv bridge) (message : Json N)
    (arrival : Arrival N) : Inv (bridge.onMessage host message arrival) :=
  onMessage_of host (fun _ => h.write _ fun _ => rfl) (fun _ => h.cancel _)
    (h.onInitialize host message) h fun _ hid => h.admitCall host hid arrival

theorem Inv.resume {bridge : Bridge N} (h : Inv bridge) (sessionId : JsString) :
    Inv (bridge.resume sessionId) := by
  rw [Bridge.resume]
  split
  · exact h
  case h_2 previous hcurrent =>
    have hforgets := resumeNotifications_forgets bridge.mappings previous
      (successor previous sessionId)
    constructor
    · exact h.length.trans hforgets.length.symm
    · intro line hline place hplace
      rw [hforgets.length]
      exact h.places line hline place hplace
    · exact hforgets.keeps h.tokens
    · intro p view' hview'
      obtain ⟨hentry', hcall, hlines, hstopped⟩ := view_eq_some_iff.mp hview'
      obtain ⟨entry, hentry, ⟨hnot, heq⟩ | ⟨hresumes, hfollows⟩⟩ := resumeNotifications_get hentry'
      · have hview : bridge.view p = some view' :=
          view_eq_some_iff.mpr ⟨by rw [heq]; exact hentry, hcall, hlines, hstopped⟩
        simpa [hnot] using h.sound p view' hview
      · have hview : bridge.view p = some { view' with entry := entry } :=
          view_eq_some_iff.mpr ⟨hentry, hcall, hlines, hstopped⟩
        simpa [hresumes] using (h.sound p _ hview).followed hfollows

/-! ## Runs -/

theorem step_inv {bridge : Bridge N} (h : Inv bridge) (action : BridgeAction N) :
    Inv (bridge.step host action) := by
  cases action with
  | message message arrival => exact h.onMessage host message arrival
  | resolve place owner now canCall => exact h.resolve host place owner now canCall
  | throwAt place thrown => exact h.throwAt host place thrown
  | respond place frames => exact h.respond place frames
  | frame place => exact h.frame host place
  | conclude place => exact h.conclude place
  | notify message owner => exact h.receive message owner
  | resume sessionId => exact h.resume sessionId
  | handshake =>
      rw [step]
      split
      · exact h
      case h_2 mappings hnext =>
        obtain rfl := nextId_counts hnext
        exact { h with }
  | connect owner => exact { h with }
  | registryAnswer id failed =>
      rw [step, registryAnswer.eq_def]
      split
      · apply Inv.write _ _ fun _ => rfl
        exact { h with }
      · exact h.write _ fun _ => rfl
      · exact h
  | announce value => exact h.write value fun _ => rfl
  | flushed size => exact { h with }
  | stop => exact h.stop

theorem start_inv : Inv (start host) where
  length := rfl
  places := nofun
  tokens := by
    intro token place hget
    simp [start, RequestMappings.empty] at hget
  sound := by
    intro place view hview
    simp [Bridge.view, dispatching, start, RequestMappings.empty] at hview

/-- The state after a run. -/
def run (actions : List (BridgeAction N)) : Bridge N := actions.foldl (step host) (start host)

theorem run_inv (actions : List (BridgeAction N)) : Inv (run host actions) :=
  List.foldlRecOn actions (step host) (start_inv host) fun _ h action _ => step_inv host h action

/-! ## Progress -/

/-- What is written in a turn meets `P`. -/
def Adds (P : Purpose N × Json N → Prop) (bridge bridge' : Bridge N) : Prop :=
  ∃ lines, bridge'.written = bridge.written ++ lines ∧ ∀ line ∈ lines, P line

section Added

variable {P : Purpose N × Json N → Prop}

theorem Adds.of_same {bridge bridge' : Bridge N} (h : bridge'.written = bridge.written) :
    Adds P bridge bridge' := ⟨[], by simp [h], by simp⟩

theorem Adds.trans {b₁ b₂ b₃ : Bridge N} (h : Adds P b₁ b₂) (h' : Adds P b₂ b₃) : Adds P b₁ b₃ := by
  obtain ⟨lines, hlines, hP⟩ := h
  obtain ⟨more, hmore, hP'⟩ := h'
  refine ⟨lines ++ more, by rw [hmore, hlines, List.append_assoc], fun line hline => ?_⟩
  rcases List.mem_append.mp hline with hline | hline
  · exact hP line hline
  · exact hP' line hline

theorem stop_written (bridge : Bridge N) : bridge.stop.written = bridge.written := by
  rw [Bridge.stop]
  split_ifs <;> rfl

theorem Adds.write (bridge : Bridge N) {purpose : Purpose N} {value : Json N}
    (h : ∀ line, lineOf value = some line → P (purpose, line)) :
    Adds P bridge (bridge.write purpose value) := by
  obtain ⟨heq, -⟩ | ⟨heq, -⟩ | ⟨line, queued, hline, -, heq⟩ := write_cases bridge purpose value
  · exact .of_same (by rw [heq])
  · exact .of_same (by rw [heq, stop_written])
  · exact ⟨[(purpose, line)], by rw [heq], by simpa using h line hline⟩

theorem Adds.answer (bridge : Bridge N) (place : Nat) (terminalState : TerminalState)
    {purpose : Purpose N} {value : Json N}
    (h : ∀ line, lineOf value = some line → P (purpose, line)) :
    Adds P bridge (bridge.answer place terminalState purpose value) := by
  rw [Bridge.answer]
  split
  · exact .of_same rfl
  case h_2 mappings _ =>
    exact Adds.trans (.of_same rfl) (Adds.write ({ bridge with mappings := mappings } : Bridge N) h)

/-! Only `deliver` writes progress. -/

variable (hP : ∀ line : Purpose N × Json N, line.1.isProgress = false → P line)

include hP

theorem Adds.caught (bridge : Bridge N) (place : Nat) (thrown : Thrown N) :
    Adds P bridge (bridge.caught host place thrown) := by
  rw [Bridge.caught]
  split
  · exact .of_same rfl
  · split_ifs
    · exact .of_same rfl
    · split
      · exact .of_same rfl
      · exact Adds.answer _ _ _ fun _ _ => hP _ rfl
      · exact Adds.trans (.of_same rfl) (Adds.answer _ _ _ fun _ _ => hP _ rfl)

theorem Adds.fail (bridge : Bridge N) (place : Nat) (thrown : Thrown N) :
    Adds P bridge (bridge.fail host place thrown) :=
  (Adds.caught host hP bridge place thrown).trans (.of_same rfl)

theorem Adds.resolve (bridge : Bridge N) (place : Nat) (owner : Owner N) (now : Int)
    (canCall : Bool) : Adds P bridge (bridge.resolve host place owner now canCall) := by
  rw [Bridge.resolve]
  split
  · exact .of_same rfl
  · split
    · split_ifs
      · exact .of_same rfl
      · exact Adds.fail host hP bridge place _
      · exact (Adds.answer _ _ _ fun _ _ => hP _ rfl).trans (.of_same rfl)
      · dsimp only
        split
        · exact Adds.trans (.of_same rfl) (Adds.fail host hP _ place _)
        · exact .of_same rfl
    · exact .of_same rfl

theorem Adds.throwAt (bridge : Bridge N) (place : Nat) (thrown : Thrown N) :
    Adds P bridge (bridge.throwAt host place thrown) := by
  rw [Bridge.throwAt]
  split
  · exact .of_same rfl
  · split
    · exact .of_same rfl
    · exact Adds.fail host hP bridge place thrown

theorem Adds.frame (bridge : Bridge N) (place : Nat)
    (hreceive : ∀ (phase : Phase N) (message : Json N) (owner : Transport),
      Adds P bridge ((bridge.moveTo place phase).receive message owner).1) :
    Adds P bridge (bridge.frame host place) := by
  rw [Bridge.frame]
  split
  · exact .of_same rfl
  · split
    case h_1 owner next rest _ =>
      split_ifs
      · have hreceived := hreceive (.replying owner rest) next owner.transport
        split
        case h_1 bridge' heq =>
          rw [heq] at hreceived
          exact hreceived
        case h_2 bridge' error heq =>
          rw [heq] at hreceived
          exact hreceived.trans (Adds.fail host hP bridge' place _)
      · exact (Adds.answer _ _ _ fun _ _ => hP _ rfl).trans (.of_same rfl)
      · exact .of_same rfl
    case h_2 => exact .of_same rfl

theorem Adds.conclude (bridge : Bridge N) (place : Nat) :
    Adds P bridge (bridge.conclude place) := by
  rw [Bridge.conclude]
  split
  · exact .of_same rfl
  · split
    · exact (Adds.answer _ _ _ fun _ _ => hP _ rfl).trans (.of_same rfl)
    · exact .of_same rfl

theorem Adds.other (bridge : Bridge N) (value : Json N) :
    Adds P bridge (bridge.write .other value) := Adds.write bridge fun _ _ => hP _ rfl

theorem Adds.admitCall (bridge : Bridge N) (message id : Json N) (arrival : Arrival N) :
    Adds P bridge (bridge.admitCall host message id arrival) := by
  rw [Bridge.admitCall]
  split
  · exact Adds.trans (.of_same rfl) (Adds.other hP _ _)
  · exact .of_same rfl

theorem Adds.onInitialize (bridge : Bridge N) (message : Json N) :
    Adds P bridge (bridge.onInitialize host message) := by
  rw [Bridge.onInitialize]
  dsimp only
  split_ifs
  · exact Adds.other hP bridge _
  · exact .of_same rfl
  · exact Adds.trans (.of_same rfl) (Adds.other hP _ _)

theorem Adds.onMessage (bridge : Bridge N) (message : Json N) (arrival : Arrival N) :
    Adds P bridge (bridge.onMessage host message arrival) :=
  onMessage_of host (fun _ => Adds.other hP bridge _) (fun _ => .of_same rfl)
    (Adds.onInitialize host hP bridge message) (.of_same rfl)
    fun id _ => Adds.admitCall host hP bridge message id arrival

omit hP

end Added

/-- A line of progress as it may be written: it has the token of a request that is open, and comes
from the transport the request was sent on or a successor of it. -/
def Forwards (bridge : Bridge N) (line : Purpose N × Json N) : Prop :=
  ∀ place token source, line.1 = .progress place token source →
    ∃ entry, bridge.mappings.entries[place]? = some entry ∧ entry.terminalState = none ∧
      entry.progressToken = some token ∧
      optional (js "progressToken") (line.2.get (js "params")) = entry.downstreamProgressToken ∧
      Sender bridge.resumed entry source

theorem forwards_of_other (bridge : Bridge N) (line : Purpose N × Json N)
    (h : line.1.isProgress = false) : Forwards bridge line := by
  intro place token source hpurpose
  rw [hpurpose] at h
  cases h

theorem progress_eq_some {mappings : RequestMappings N} {token : Option (Json N)}
    {source : Transport} {place : Nat} {downstream : Json N}
    (h : mappings.progress token source = .ok (some (place, downstream))) :
    ∃ text entry sent, token = some (.str text) ∧ mappings.tokens.get text = some place ∧
      mappings.entries[place]? = some entry ∧ entry.terminalState = none ∧
      entry.owner = some sent ∧ entry.downstreamProgressToken = some downstream ∧
      (sent.transport = source ∨ entry.notificationOwner = some source) := by
  rw [progress.eq_def] at h
  split at h
  case h_2 => cases h
  case h_1 text =>
    split at h
    · cases h
    case h_2 found hfound =>
      split at h
      · cases h
      case h_2 entry hentry =>
        split_ifs at h with hsettled
        · cases h
        · split at h
          · cases h
          case h_2 sent howner =>
            split_ifs at h with hsource
            · obtain ⟨downstream', hdownstream, heq⟩ := Option.map_eq_some_iff.mp (Except.ok.inj h)
              obtain ⟨rfl, rfl⟩ := Prod.mk.inj heq
              exact ⟨text, entry, sent, rfl, hfound, hentry, by simpa using hsettled, howner,
                hdownstream, hsource⟩
            · cases h

omit [JsonNumber N] in
theorem get_withMember_of_ne {k x : JsString} (hne : x ≠ k) (member value : Json N) :
    (withMember k member value).get x = value.get x := by
  cases value with
  | obj members => simp [withMember, Json.get, hne]
  | _ => rfl

omit [JsonNumber N] in
theorem optional_eq_some {k : JsString} {value : Option (Json N)} {member : Json N}
    (h : optional k value = some member) : ∃ holder, value = some holder ∧
      holder.get k = some member := Option.bind_eq_some_iff.mp h

omit [JsonNumber N] in
/-- A line of progress differs from its message in the token. -/
theorem progressLine_token {message token downstream : Json N}
    (h : optional (js "progressToken") (message.get (js "params")) = some token) :
    optional (js "progressToken") ((progressLine message downstream).get (js "params")) =
      some downstream := by
  obtain ⟨params, hparams, htoken⟩ := optional_eq_some h
  rw [progressLine, hparams, Option.getD_some, get_withMember hparams, optional, Option.bind_some]
  exact get_withMember htoken

theorem deliver_adds {bridge bridge' : Bridge N} (h : Inv bridge)
    (hmappings : bridge'.mappings = bridge.mappings) (message : Json N) (owner : Transport)
    (hid : message.get (js "id") = none) :
    Adds (Forwards bridge) bridge' (bridge'.deliver message owner).1 := by
  rw [Bridge.deliver]
  dsimp only
  split_ifs
  · split
    · exact .of_same rfl
    · exact .of_same rfl
    case h_3 place downstream hprogress =>
      rw [hmappings] at hprogress
      obtain ⟨text, entry, sent, htoken, hplace, hentry, hopen, howner, hdownstream, hsource⟩ :=
        progress_eq_some hprogress
      have hheld := h.tokens text place hplace
      rw [List.getElem?_map, hentry] at hheld
      rw [htoken]
      apply Adds.write
      rintro line hline _ _ _ ⟨⟩
      have hvalue : line = progressLine message downstream := by
        have hne : js "id" ≠ js "params" := by decide
        rw [lineOf, progressLine, get_withMember_of_ne hne, hid, Option.map_none] at hline
        split_ifs at hline
        exact (Option.some.inj hline).symm
      refine ⟨entry, hentry, hopen, Option.some.inj hheld, ?_, ?_⟩
      · rw [hvalue, progressLine_token htoken, hdownstream]
      · rcases hsource with rfl | hsource
        · exact ⟨sent, howner, .refl⟩
        · have hlt : place < bridge.calls.length := by
            rw [h.length]
            exact (List.getElem?_eq_some_iff.mp hentry).1
          have hview : bridge.view place =
              some ⟨entry, bridge.calls[place], bridge.answersOf place, bridge.stopped⟩ :=
            view_eq_some_iff.mpr ⟨hentry, List.getElem?_eq_getElem hlt, rfl, rfl⟩
          exact (h.sound place _ hview).source owner hsource
  · exact .of_same rfl
  · exact Adds.other (forwards_of_other bridge) bridge' message
  · exact .of_same rfl

theorem receive_adds {bridge bridge' : Bridge N} (h : Inv bridge)
    (hmappings : bridge'.mappings = bridge.mappings) (message : Json N) (owner : Transport) :
    Adds (Forwards bridge) bridge' (bridge'.receive message owner).1 := by
  rw [Bridge.receive]
  split_ifs with hignored
  · exact .of_same rfl
  · have hid : message.get (js "id") = none := by
      simp only [Bool.or_eq_true, not_or] at hignored
      simpa using hignored.1
    split
    · exact deliver_adds h hmappings message owner hid
    · split_ifs
      · exact .of_same rfl
      · refine Adds.trans (.of_same rfl) (deliver_adds h ?_ message owner hid)
        exact hmappings

/-- The progress that a turn writes may be written. -/
theorem step_forwards {bridge : Bridge N} (h : Inv bridge) (action : BridgeAction N) :
    Adds (Forwards bridge) bridge (bridge.step host action) := by
  have hother := forwards_of_other bridge
  cases action with
  | message message arrival => exact Adds.onMessage host hother bridge message arrival
  | resolve place owner now canCall => exact Adds.resolve host hother bridge place owner now canCall
  | throwAt place thrown => exact Adds.throwAt host hother bridge place thrown
  | respond place frames =>
      apply Adds.of_same
      rw [step, Bridge.respond]
      split
      · rfl
      · split <;> rfl
  | frame place =>
      apply Adds.frame host hother
      intro phase message owner
      have hsame : (bridge.moveTo place phase).mappings = bridge.mappings := rfl
      exact Adds.trans (.of_same rfl) (receive_adds h hsame message owner)
  | conclude place => exact Adds.conclude hother bridge place
  | notify message owner => exact receive_adds h rfl message owner
  | resume sessionId =>
      apply Adds.of_same
      rw [step, Bridge.resume]
      split <;> rfl
  | handshake =>
      apply Adds.of_same
      rw [step]
      split <;> rfl
  | connect owner => exact .of_same rfl
  | registryAnswer id failed =>
      rw [step, registryAnswer.eq_def]
      split
      · exact Adds.trans (.of_same rfl) (Adds.other hother _ _)
      · exact Adds.other hother bridge _
      · exact .of_same rfl
  | announce value => exact Adds.other hother bridge value
  | flushed size => exact .of_same rfl
  | stop => exact .of_same (stop_written bridge)

/-! ## One answer for each request -/

/-- What an answer says, it says under the id of the request. -/
theorem says_id {entry : Entry N} {call : Call N} {line : Purpose N × Json N}
    (h : Says entry call line) : line.2.get (js "id") = some entry.downstreamId := by
  have hplain : (tooLarge entry.downstreamId).get (js "id") = some entry.downstreamId := by
    have hne : js "jsonrpc" ≠ js "id" := by decide
    simp [tooLarge, plainError, Json.get, lookupMember, hne]
  cases h with
  | reply place frame hfind =>
      exact get_withMember (isSome_of_repliesTo (List.find?_some hfind))
  | replyTooLarge place frame hfind => exact hplain
  | error place code message retrySafe => exact get_errorLine _ code message retrySafe
  | errorTooLarge place => exact hplain

/-- After every run, a request that was admitted has at most one answer, which is the first reply to
its upstream id or one error, under the id of its message; none once it was cancelled; and one once
its dispatch has finished, unless it was cancelled or the bridge is stopped.  Progress that is then
written has the token of an open request and comes from the transport it was sent on, or from one
that this transport was resumed by. -/
theorem exactly_one_answer (actions : List (BridgeAction N)) :
    (∀ place entry call, (run host actions).dispatching place = some (entry, call) →
      ((run host actions).answersOf place).length ≤ 1 ∧
      (∀ line ∈ (run host actions).answersOf place, Says entry call line ∧
        line.2.get (js "id") = call.message.get (js "id")) ∧
      (entry.cancellationWon = true → (run host actions).answersOf place = []) ∧
      (call.phase = .finished → entry.cancellationWon = false →
        (run host actions).stopped = false →
          ((run host actions).answersOf place).length = 1)) ∧
    ∀ action, Adds (Forwards (run host actions)) (run host actions)
      ((run host actions).step host action) := by
  have h := run_inv host actions
  refine ⟨fun place entry call hat => ?_, fun action => step_forwards host h action⟩
  obtain ⟨hentry, hcall⟩ := dispatching_eq_some_iff.mp hat
  have hview : (run host actions).view place =
      some ⟨entry, call, (run host actions).answersOf place, (run host actions).stopped⟩ :=
    view_eq_some_iff.mpr ⟨hentry, hcall, rfl, rfl⟩
  have hsound := h.sound place _ hview
  have hid := hsound.id
  have hcancelled := hsound.cancelled
  have hfinished := hsound.finished
  dsimp only at hid hcancelled hfinished
  rcases hsound.lines with ⟨hnone, hanswered⟩ | ⟨line, hline, hanswered, hsaid⟩
  · dsimp only at hnone hanswered
    rw [hnone]
    refine ⟨Nat.zero_le 1, nofun, fun _ => rfl, fun hphase huncancelled hrunning => ?_⟩
    -- a dispatch that has finished has settled its request, and not by a close
    cases hterminal : entry.terminalState with
    | none => simp [hfinished hphase hterminal] at hrunning
    | some terminalState =>
        rw [hterminal] at hanswered hcancelled
        have hclosed := hsound.closed
        cases terminalState <;> simp_all [TerminalState.answered]
  · dsimp only at hline hanswered hsaid
    rw [hline]
    refine ⟨le_rfl, ?_, ?_, fun _ _ _ => rfl⟩
    · intro line' hline'
      rw [List.mem_singleton.mp hline', hid]
      exact ⟨hsaid, says_id hsaid⟩
    · intro hwon
      rw [hcancelled.mp hwon] at hanswered
      cases hanswered

/-! A request whose reply comes after the transport was resumed, and with one for another id. -/

def plainHost : BridgeHost Int where
  idPrefix := js "p"
  hash value := ⟨value.render.map fun c => UInt16.ofNat c.toNat⟩
  registryTools := false
  packageVersion := js "1"

def plainTransport : Transport where
  generation := js "g"
  sessionId := some (js "s")
  attachmentId := js "a"
  transportEpoch := 1

def plainOwner : Owner Int := ⟨plainTransport, js "g", ⟨.null, rfl⟩⟩

def plainArrival : Arrival Int := ⟨0, js "u", js "n", .error (js "catalogue_incomplete")⟩

def plainRequest (id : Int) (method : String) : Json Int :=
  .obj [(js "jsonrpc", .str (js "2.0")), (js "id", .num id), (js "method", .str (js method)),
    (js "params", .obj [(js "_meta", .obj [(js "progressToken", .str (js "t"))])])]

def plainReply (id : String) : Json Int :=
  .obj [(js "jsonrpc", .str (js "2.0")), (js "id", .str (js id)), (js "result", .bool true)]

def resumedWork : List (BridgeAction Int) := [
  .message (plainRequest 1 "initialize") plainArrival,
  .connect plainTransport,
  .message (plainRequest 7 "work") plainArrival,
  .resolve 0 plainOwner 1 true,
  .resume (js "r"),
  .respond 0 [plainReply "p:9", plainReply "p:1", plainReply "p:1"],
  .frame 0, .frame 0, .frame 0, .conclude 0]

theorem exactly_one_answer_resumed_work :
    ((run plainHost resumedWork).answersOf 0).length = 1 := by
  have hdone : ((run plainHost resumedWork).dispatching 0).any (fun dispatch =>
      !dispatch.1.cancellationWon && dispatch.2.phase.isFinished) = true := by
    decide +kernel
  obtain ⟨⟨entry, call⟩, hat, hdone⟩ := (Option.any_eq_true _ _).mp hdone
  rw [Bool.and_eq_true, Bool.not_eq_true'] at hdone
  have hphase : call.phase = .finished := by
    cases hphase : call.phase with
    | finished => rfl
    | _ => simp [hphase, Phase.isFinished] at hdone
  have hrunning : (run plainHost resumedWork).stopped = false := by decide +kernel
  exact ((exactly_one_answer plainHost resumedWork).1 0 entry call hat).2.2.2 hphase hdone.1
    hrunning

end Bridge

end H2a.Handover
