import H2a.Handover.Bridge
import H2a.Library.Transition
/-!
# One answer for each request

What is written for a request depends on its entry, its call and the lines written so far: its
view.  While anything else happens a view stays as it is, unless the bridge stops and closes the
requests that are open (`Aside`); an answer settles the entry and adds one line (`Answered`).
-/

namespace H2a.Handover

open H2a.Library

variable {N : Type} [JsonNumber N]

/-! ## Views -/

/-- The request at a place that a line answers. -/
def Purpose.answers (place : Nat) : Purpose N → Bool
  | .reply p _ => p = place
  | .failure p => p = place
  | _ => false

def Purpose.isProgress : Purpose N → Bool
  | .progress _ _ _ => true
  | _ => false

/-- The lines that answer the request at a place. -/
def Bridge.answersOf (bridge : Bridge N) (place : Nat) : List (Purpose N × Json N) :=
  bridge.written.filter fun line => line.1.answers place

@[ext] structure View (N : Type) [JsonNumber N] where
  entry : Entry N
  call : Call N
  lines : List (Purpose N × Json N)
  stopped : Bool

def Bridge.view (bridge : Bridge N) (place : Nat) : Option (View N) :=
  (bridge.dispatching place).map fun (entry, call) =>
    { entry := entry, call := call, lines := bridge.answersOf place, stopped := bridge.stopped }

/-- What an answer says: it is the first reply of the response to the upstream id, or one error,
under the id of the request. -/
inductive Says (entry : Entry N) (call : Call N) : Purpose N × Json N → Prop
  | reply (place : Nat) (frame : Json N) :
      call.frames.find? (Bridge.repliesTo entry.upstreamId) = some frame →
      Says entry call (.reply place frame, withMember (js "id") entry.downstreamId frame)
  | replyTooLarge (place : Nat) (frame : Json N) :
      call.frames.find? (Bridge.repliesTo entry.upstreamId) = some frame →
      Says entry call (.reply place frame, tooLarge entry.downstreamId)
  | error (place : Nat) (code message : JsString) (retrySafe : Bool) :
      Says entry call
        (.failure place, errorLine (some entry.downstreamId) code message retrySafe)
  | errorTooLarge (place : Nat) : Says entry call (.failure place, tooLarge entry.downstreamId)

/-- The states that come with an answer. -/
def TerminalState.answered : Option TerminalState → Bool
  | none => false
  | some .cancelled => false
  | some .closed => false
  | some _ => true

/-- The transport a request was sent on, or one that a resumption has led to from it. -/
def Sender (resumed : List (Transport × Transport)) (entry : Entry N) (transport : Transport) :
    Prop :=
  ∃ owner, entry.owner = some owner ∧
    Relation.ReflTransGen (fun t t' => (t, t') ∈ resumed) owner.transport transport

/-- What holds of a request at any time. -/
structure Sound (resumed : List (Transport × Transport)) (view : View N) : Prop where
  id : view.call.message.get (js "id") = some view.entry.downstreamId
  lines : (view.lines = [] ∧
      (TerminalState.answered view.entry.terminalState = true → view.stopped = true)) ∨
    ∃ line, view.lines = [line] ∧ TerminalState.answered view.entry.terminalState = true ∧
      Says view.entry view.call line
  cancelled : view.entry.cancellationWon = true ↔ view.entry.terminalState = some .cancelled
  closed : view.entry.terminalState = some .closed → view.stopped = true
  finished : view.call.phase = .finished → view.entry.terminalState = none → view.stopped = true
  unseen : ∀ owner rest, view.call.phase = .replying owner rest →
    ∃ seen, view.call.frames = seen ++ rest ∧ (view.entry.terminalState = none →
      ∀ frame ∈ seen, Bridge.repliesTo view.entry.upstreamId frame = false)
  unread : (∀ owner rest, view.call.phase ≠ .replying owner rest) →
    view.call.phase ≠ .finished → view.call.frames = []
  unsent : view.call.phase = .waiting → view.entry.owner = none
  source : ∀ transport, view.entry.notificationOwner = some transport →
    Sender resumed view.entry transport

/-! ## Requests that are left aside -/

/-- The close of an entry, if it is open. -/
def Closes (entry entry' : Entry N) : Prop :=
  entry' = entry ∨
    entry.terminalState = none ∧ entry' = { entry with terminalState := some .closed }

inductive Aside : View N → View N → Prop
  | same (view : View N) : Aside view view
  | closed {view : View N} {entry : Entry N} (hcloses : Closes view.entry entry) :
      Aside view { view with entry := entry, stopped := true }

theorem Sound.aside {resumed : List (Transport × Transport)} {view view' : View N}
    (h : Sound resumed view) (haside : Aside view view') : Sound resumed view' := by
  cases haside with
  | same => exact h
  | closed hcloses =>
      rcases hcloses with rfl | ⟨hopen, rfl⟩
      · exact { h with
          lines := h.lines.imp_left fun hlines => ⟨hlines.1, fun _ => rfl⟩
          closed := fun _ => rfl
          finished := fun _ _ => rfl }
      · exact {
          id := h.id
          lines := by
            rcases h.lines with ⟨hnone, -⟩ | ⟨line, -, hanswered, -⟩
            · exact Or.inl ⟨hnone, fun _ => rfl⟩
            · rw [hopen] at hanswered
              cases hanswered
          cancelled := by
            constructor
            · intro hwon
              rw [h.cancelled.mp hwon] at hopen
              cases hopen
            · rintro ⟨⟩
          closed := fun _ => rfl
          finished := fun _ _ => rfl
          unseen := fun owner rest hphase => by
            obtain ⟨seen, hframes, -⟩ := h.unseen owner rest hphase
            exact ⟨seen, hframes, nofun⟩
          unread := h.unread
          unsent := h.unsent
          source := h.source }

/-! ## Answers -/

/-- What `settle` does to an entry that is open. -/
def RequestMappings.settled (terminalState : TerminalState) (entry : Entry N) : Entry N :=
  { entry with terminalState := some terminalState }

/-- The answer to an open request: it is settled, and the line is written unless the bridge is, or
is now, stopped. -/
inductive Answered (terminalState : TerminalState) (purpose : Purpose N) (value : Json N) :
    View N → View N → Prop
  | stopped {view : View N} (hopen : view.entry.terminalState = none) :
      Answered terminalState purpose value view
        { view with entry := RequestMappings.settled terminalState view.entry, stopped := true }
  | line {view : View N} {line : Json N} (hopen : view.entry.terminalState = none)
      (hline : Bridge.lineOf value = some line) :
      Answered terminalState purpose value view
        { view with
          entry := RequestMappings.settled terminalState view.entry
          lines := view.lines ++ [(purpose, line)] }

theorem Says.congr {entry entry' : Entry N} {call call' : Call N} {line : Purpose N × Json N}
    (h : Says entry call line) (hdownstream : entry'.downstreamId = entry.downstreamId)
    (hupstream : entry'.upstreamId = entry.upstreamId) (hframes : call'.frames = call.frames) :
    Says entry' call' line := by
  cases h with
  | reply place frame hfind =>
      rw [← hdownstream]
      rw [← hupstream, ← hframes] at hfind
      exact .reply place frame hfind
  | replyTooLarge place frame hfind =>
      rw [← hdownstream]
      rw [← hupstream, ← hframes] at hfind
      exact .replyTooLarge place frame hfind
  | error place code message retrySafe =>
      rw [← hdownstream]
      exact .error place code message retrySafe
  | errorTooLarge place =>
      rw [← hdownstream]
      exact .errorTooLarge place

/-- What the lines say does not depend on the rest of the request. -/
theorem Sound.lines_congr {resumed : List (Transport × Transport)} {view view' : View N}
    (h : Sound resumed view) (hlines : view'.lines = view.lines)
    (hstopped : view'.stopped = view.stopped)
    (hterminal : view'.entry.terminalState = view.entry.terminalState)
    (hdownstream : view'.entry.downstreamId = view.entry.downstreamId)
    (hupstream : view'.entry.upstreamId = view.entry.upstreamId)
    (hframes : view'.call.frames = view.call.frames) :
    (view'.lines = [] ∧
      (TerminalState.answered view'.entry.terminalState = true → view'.stopped = true)) ∨
    ∃ line, view'.lines = [line] ∧ TerminalState.answered view'.entry.terminalState = true ∧
      Says view'.entry view'.call line := by
  rw [hlines, hstopped, hterminal]
  rcases h.lines with hnone | ⟨line, hline, hanswered, hsaid⟩
  · exact Or.inl hnone
  · exact Or.inr ⟨line, hline, hanswered, hsaid.congr hdownstream hupstream hframes⟩

theorem Sound.lines_of_open {resumed : List (Transport × Transport)} {view : View N}
    (h : Sound resumed view) (hopen : view.entry.terminalState = none) : view.lines = [] := by
  rcases h.lines with ⟨hnone, -⟩ | ⟨line, -, hanswered, -⟩
  · exact hnone
  · rw [hopen] at hanswered
    cases hanswered

theorem Sound.answered {resumed : List (Transport × Transport)} {view view' : View N}
    (h : Sound resumed view) {terminalState : TerminalState} {purpose : Purpose N} {value : Json N}
    (hstate : TerminalState.answered (some terminalState) = true)
    (hsaid : ∀ line, Bridge.lineOf value = some line → Says view.entry view.call (purpose, line))
    (hanswered : Answered terminalState purpose value view view') : Sound resumed view' := by
  have hcancelled (hopen : view.entry.terminalState = none) :
      view.entry.cancellationWon = true ↔ some terminalState = some .cancelled := by
    rw [h.cancelled, hopen]
    cases terminalState <;> simp [TerminalState.answered] at hstate ⊢
  have hclosed : some terminalState ≠ some .closed := by
    rintro ⟨⟩
    cases hstate
  cases hanswered with
  | stopped hopen =>
      exact {
        id := h.id
        lines := Or.inl ⟨h.lines_of_open hopen, fun _ => rfl⟩
        cancelled := hcancelled hopen
        closed := fun _ => rfl
        finished := fun _ _ => rfl
        unseen := fun owner rest hphase => by
          obtain ⟨seen, hframes, -⟩ := h.unseen owner rest hphase
          exact ⟨seen, hframes, nofun⟩
        unread := h.unread
        unsent := h.unsent
        source := h.source }
  | line hopen hline =>
      exact {
        id := h.id
        lines := by
          right
          refine ⟨_, ?_, hstate, (hsaid _ hline).congr rfl rfl rfl⟩
          rw [h.lines_of_open hopen, List.nil_append]
        cancelled := hcancelled hopen
        closed := fun hterminal => absurd hterminal hclosed
        finished := fun _ => nofun
        unseen := fun owner rest hphase => by
          obtain ⟨seen, hframes, -⟩ := h.unseen owner rest hphase
          exact ⟨seen, hframes, nofun⟩
        unread := h.unread
        unsent := h.unsent
        source := h.source }

/-! ## Mappings -/

namespace RequestMappings

/-- The tokens lead to the entries that have them. -/
def Tokens (mappings : RequestMappings N) : Prop :=
  ∀ token place, mappings.tokens.get token = some place →
    (mappings.entries.map Entry.progressToken)[place]? = some (some token)

/-- Tokens are only forgotten. -/
structure Forgets (mappings mappings' : RequestMappings N) : Prop where
  entries : mappings'.entries.map Entry.progressToken = mappings.entries.map Entry.progressToken
  tokens : ∀ token place, mappings'.tokens.get token = some place →
    mappings.tokens.get token = some place

theorem Forgets.refl (mappings : RequestMappings N) : Forgets mappings mappings :=
  ⟨rfl, fun _ _ h => h⟩

theorem Forgets.trans {m₁ m₂ m₃ : RequestMappings N} (h : Forgets m₁ m₂) (h' : Forgets m₂ m₃) :
    Forgets m₁ m₃ :=
  ⟨h'.entries.trans h.entries, fun _ _ hget => h.tokens _ _ (h'.tokens _ _ hget)⟩

theorem Forgets.keeps {mappings mappings' : RequestMappings N} (h : Forgets mappings mappings')
    (htokens : mappings.Tokens) : mappings'.Tokens := by
  intro token place hget
  rw [h.entries]
  exact htokens token place (h.tokens _ _ hget)

theorem Forgets.length {mappings mappings' : RequestMappings N} (h : Forgets mappings mappings') :
    mappings'.entries.length = mappings.entries.length := by
  simpa using congrArg List.length h.entries

theorem amend_get (mappings : RequestMappings N) (place p : Nat) (f : Entry N → Entry N) :
    (mappings.amend place f).entries[p]? =
      if place = p then mappings.entries[p]?.map f else mappings.entries[p]? := by
  rw [amend, List.getElem?_modify]
  split_ifs <;> simp

theorem amend_forgets (mappings : RequestMappings N) (place : Nat) {f : Entry N → Entry N}
    (hf : ∀ entry, (f entry).progressToken = entry.progressToken) :
    Forgets mappings (mappings.amend place f) := by
  constructor
  · apply List.ext_getElem?
    intro p
    rw [List.getElem?_map, List.getElem?_map, amend_get]
    split_ifs
    · simp [Function.comp_def, hf]
    · rfl
  · exact fun _ _ h => h

theorem settle_get (mappings : RequestMappings N) (place p : Nat) (terminalState : TerminalState) :
    (mappings.settle place terminalState).1.entries[p]? =
      if place = p then mappings.entries[p]?.map fun entry =>
        if entry.terminalState.isSome then entry else settled terminalState entry
      else mappings.entries[p]? := by
  rw [settle]
  by_cases hp : place = p
  · subst hp
    rw [if_pos rfl]
    split
    case h_1 hnone => simp [hnone]
    case h_2 entry hentry =>
      split_ifs with hsettled
      · simp [hentry, hsettled]
      · have hget := amend_get mappings place place (settled terminalState)
        rw [if_pos rfl] at hget
        exact hget.trans (by simp [hentry, hsettled])
  · rw [if_neg hp]
    split
    · rfl
    · split_ifs
      · rfl
      · have hget := amend_get mappings place p (settled terminalState)
        rwa [if_neg hp] at hget

theorem settle_true {mappings : RequestMappings N} {place : Nat} {entry : Entry N}
    (hentry : mappings.entries[place]? = some entry) (hopen : entry.terminalState = none)
    (terminalState : TerminalState) : (mappings.settle place terminalState).2 = true := by
  simp [settle, hentry, hopen]

theorem settle_false {mappings : RequestMappings N} {place : Nat}
    (h : ∀ entry, mappings.entries[place]? = some entry → entry.terminalState.isSome)
    (terminalState : TerminalState) :
    mappings.settle place terminalState = (mappings, false) := by
  rw [settle]
  split
  · rfl
  case h_2 entry hentry => rw [if_pos (h entry hentry)]

theorem settle_forgets (mappings : RequestMappings N) (place : Nat)
    (terminalState : TerminalState) :
    Forgets mappings (mappings.settle place terminalState).1 := by
  rw [settle]
  split
  · exact .refl mappings
  case h_2 entry hentry =>
    split_ifs
    · exact .refl mappings
    · constructor
      · exact (amend_forgets mappings place (f := settled terminalState) fun _ => rfl).entries
      · intro token p hget
        cases hprogress : entry.progressToken with
        | none => simpa [hprogress] using hget
        | some progressToken =>
            simp only [hprogress, Option.elim_some, JsMap.get_delete] at hget
            split_ifs at hget
            exact hget

/-- A loop of changes of single entries: what each turn does to an entry at a place, all do. -/
theorem foldl_get {R : Entry N → Entry N → Prop} (hrefl : ∀ entry, R entry entry)
    (htrans : ∀ e₁ e₂ e₃, R e₁ e₂ → R e₂ e₃ → R e₁ e₃)
    {f : RequestMappings N → Nat → RequestMappings N}
    (hf : ∀ (mappings : RequestMappings N) (place p : Nat) (entry' : Entry N),
      (f mappings place).entries[p]? = some entry' →
        ∃ entry, mappings.entries[p]? = some entry ∧ R entry entry')
    (places : List Nat) (mappings : RequestMappings N) {p : Nat} {entry' : Entry N}
    (h : (places.foldl f mappings).entries[p]? = some entry') :
    ∃ entry, mappings.entries[p]? = some entry ∧ R entry entry' := by
  induction places generalizing mappings with
  | nil => exact ⟨entry', h, hrefl entry'⟩
  | cons place places ih =>
      obtain ⟨entry, hentry, hR⟩ := ih (f mappings place) h
      obtain ⟨first, hfirst, hR'⟩ := hf mappings place p entry hentry
      exact ⟨first, hfirst, htrans _ _ _ hR' hR⟩

theorem foldl_forgets {f : RequestMappings N → Nat → RequestMappings N}
    (hf : ∀ mappings place, Forgets mappings (f mappings place)) (places : List Nat)
    (mappings : RequestMappings N) : Forgets mappings (places.foldl f mappings) := by
  induction places generalizing mappings with
  | nil => exact .refl mappings
  | cons place places ih => exact (hf mappings place).trans (ih (f mappings place))

theorem close_forgets (mappings : RequestMappings N) : Forgets mappings mappings.close :=
  foldl_forgets (fun mappings place => settle_forgets mappings place .closed) _ mappings

theorem close_get {mappings : RequestMappings N} {p : Nat} {entry' : Entry N}
    (h : mappings.close.entries[p]? = some entry') :
    ∃ entry, mappings.entries[p]? = some entry ∧ Closes entry entry' := by
  apply foldl_get _ _ _ _ mappings h
  · exact fun entry => Or.inl rfl
  · rintro e₁ e₂ e₃ (rfl | ⟨hopen, rfl⟩) h₂
    · exact h₂
    · rcases h₂ with rfl | ⟨h₂, -⟩
      · exact Or.inr ⟨hopen, rfl⟩
      · cases h₂
  · intro mappings place p entry' hget
    rw [settle_get] at hget
    split_ifs at hget with hp
    · obtain ⟨entry, hentry, rfl⟩ := Option.map_eq_some_iff.mp hget
      refine ⟨entry, hentry, ?_⟩
      split_ifs with hsettled
      · exact Or.inl rfl
      · exact Or.inr ⟨by simpa using hsettled, rfl⟩
    · exact ⟨entry', hget, Or.inl rfl⟩

/-- What a resumption does to an entry. -/
def Follows (previous next : Transport) (entry entry' : Entry N) : Prop :=
  entry' = entry ∨ (entry.notificationOwner <|> entry.owner.map Owner.transport) = some previous ∧
    entry' = { entry with notificationOwner := some next }

theorem resumeEntry_follows (previous next : Transport) (entry : Entry N) :
    Follows previous next entry (resumeEntry previous next entry) := by
  rw [resumeEntry]
  split_ifs with horigin
  · exact Or.inr ⟨horigin, rfl⟩
  · exact Or.inl rfl

theorem resumeNotifications_get {mappings : RequestMappings N} {previous next : Transport} {p : Nat}
    {entry' : Entry N}
    (h : (mappings.resumeNotifications previous next).entries[p]? = some entry') :
    ∃ entry, mappings.entries[p]? = some entry ∧
      (resumes previous next = false ∧ entry' = entry ∨
        resumes previous next = true ∧ Follows previous next entry entry') := by
  rw [resumeNotifications] at h
  split_ifs at h with hresumes
  · have hfold : ∃ entry, mappings.entries[p]? = some entry ∧ Follows previous next entry entry' := by
      apply foldl_get _ _ _ _ mappings h
      · exact fun entry => Or.inl rfl
      · rintro e₁ e₂ e₃ (rfl | ⟨horigin, rfl⟩) h₂
        · exact h₂
        · exact Or.inr ⟨horigin, h₂.elim id fun h₂ => h₂.2⟩
      · intro mappings place p entry' hget
        rw [amend_get] at hget
        split_ifs at hget
        · obtain ⟨entry, hentry, rfl⟩ := Option.map_eq_some_iff.mp hget
          exact ⟨entry, hentry, resumeEntry_follows previous next entry⟩
        · exact ⟨entry', hget, Or.inl rfl⟩
    obtain ⟨entry, hentry, hfollows⟩ := hfold
    exact ⟨entry, hentry, Or.inr ⟨hresumes, hfollows⟩⟩
  · exact ⟨entry', h, Or.inl ⟨by simpa using hresumes, rfl⟩⟩

theorem resumeNotifications_forgets (mappings : RequestMappings N) (previous next : Transport) :
    Forgets mappings (mappings.resumeNotifications previous next) := by
  rw [resumeNotifications]
  split_ifs
  · apply foldl_forgets
    intro mappings place
    apply amend_forgets
    intro entry
    rcases resumeEntry_follows previous next entry with heq | ⟨-, heq⟩ <;> rw [heq]
  · exact .refl mappings

/-- What a cancellation does to an entry. -/
def Cancels (entry entry' : Entry N) : Prop :=
  entry' = entry ∨ entry.terminalState = none ∧
    entry' = { entry with cancellationWon := true, terminalState := some .cancelled }

theorem cancel_get {mappings : RequestMappings N} {id : Option (Json N)} {p : Nat}
    {entry' : Entry N} (h : (mappings.cancel id).entries[p]? = some entry') :
    ∃ entry, mappings.entries[p]? = some entry ∧ Cancels entry entry' := by
  rw [cancel] at h
  split at h
  · exact ⟨entry', h, Or.inl rfl⟩
  · split at h
    · exact ⟨entry', h, Or.inl rfl⟩
    case h_2 place _ entry hentry =>
      split_ifs at h with hsettled
      · exact ⟨entry', h, Or.inl rfl⟩
      · rw [settle_get, amend_get] at h
        split_ifs at h with hp
        · subst hp
          rw [hentry] at h
          refine ⟨entry, hentry, Or.inr ⟨by simpa using hsettled, ?_⟩⟩
          simpa [hsettled, settled] using h.symm
        · exact ⟨entry', h, Or.inl rfl⟩

theorem cancel_forgets (mappings : RequestMappings N) (id : Option (Json N)) :
    Forgets mappings (mappings.cancel id) := by
  rw [cancel]
  split
  · exact .refl mappings
  · split
    · exact .refl mappings
    · split_ifs
      · exact .refl mappings
      · apply Forgets.trans _ (settle_forgets _ _ .cancelled)
        exact amend_forgets mappings _ fun _ => rfl

theorem nextId_counts {host : BridgeHost N} {mappings mappings' : RequestMappings N}
    {id : JsString} (h : mappings.nextId host = some (id, mappings')) :
    mappings' = { mappings with counter := mappings.counter + 1 } := by
  rw [nextId] at h
  split_ifs at h
  exact (Prod.mk.inj (Option.some.inj h)).2.symm

/-- A new entry. -/
structure Opened (id : Json N) (entry : Entry N) : Prop where
  downstreamId : entry.downstreamId = id
  owner : entry.owner = none
  notificationOwner : entry.notificationOwner = none
  cancellationWon : entry.cancellationWon = false
  terminalState : entry.terminalState = none

/-- What `begin` does: it throws and leaves the entries, or adds one. -/
theorem begin_cases (host : BridgeHost N) (mappings : RequestMappings N) (message id : Json N)
    (deadline : Int) (requestUid requestNonce : JsString) :
    (∃ error mappings', mappings.begin host message id deadline requestUid requestNonce =
        (mappings', .error error) ∧ mappings'.entries = mappings.entries ∧
        mappings'.tokens = mappings.tokens) ∨
      ∃ entry mappings', mappings.begin host message id deadline requestUid requestNonce =
        (mappings', .ok mappings.entries.length) ∧ mappings'.entries = mappings.entries ++ [entry] ∧
        Opened id entry ∧ (entry.progressToken = none ∧ mappings'.tokens = mappings.tokens ∨
          ∃ token, entry.progressToken = some token ∧
            mappings'.tokens = mappings.tokens.set token mappings.entries.length) := by
  rw [begin]
  dsimp only
  split_ifs
  · exact Or.inl ⟨_, _, rfl, rfl, rfl⟩
  · exact Or.inl ⟨_, _, rfl, rfl, rfl⟩
  · split
    · exact Or.inl ⟨_, _, rfl, rfl, rfl⟩
    case h_2 upstreamId first hfirst =>
      obtain rfl := nextId_counts hfirst
      split
      · exact Or.inr ⟨_, _, rfl, rfl, ⟨rfl, rfl, rfl, rfl, rfl⟩, Or.inl ⟨rfl, rfl⟩⟩
      · split
        · exact Or.inl ⟨_, _, rfl, rfl, rfl⟩
        case h_2 token second hsecond =>
          obtain rfl := nextId_counts hsecond
          exact Or.inr ⟨_, _, rfl, rfl, ⟨rfl, rfl, rfl, rfl, rfl⟩, Or.inr ⟨token, rfl, rfl⟩⟩

end RequestMappings

/-! ## Parts of a turn -/

namespace Bridge

open RequestMappings

theorem view_eq_some_iff {bridge : Bridge N} {place : Nat} {view : View N} :
    bridge.view place = some view ↔
      bridge.mappings.entries[place]? = some view.entry ∧ bridge.calls[place]? = some view.call ∧
        bridge.answersOf place = view.lines ∧ bridge.stopped = view.stopped := by
  rw [Bridge.view, dispatching]
  cases bridge.mappings.entries[place]? <;> cases bridge.calls[place]? <;>
    simp [View.ext_iff]

theorem dispatching_eq_some_iff {bridge : Bridge N} {place : Nat} {entry : Entry N}
    {call : Call N} : bridge.dispatching place = some (entry, call) ↔
      bridge.mappings.entries[place]? = some entry ∧ bridge.calls[place]? = some call := by
  rw [dispatching]
  cases bridge.mappings.entries[place]? <;> cases bridge.calls[place]? <;> simp

/-- What a turn leaves in place. -/
structure Extends (bridge bridge' : Bridge N) : Prop where
  calls : bridge'.calls.length = bridge.calls.length
  mappings : Forgets bridge.mappings bridge'.mappings
  resumed : bridge'.resumed = bridge.resumed
  written : ∀ line ∈ bridge'.written, line ∈ bridge.written ∨
    ∀ place, line.1.answers place = true → place < bridge.mappings.entries.length

theorem Extends.refl (bridge : Bridge N) : Extends bridge bridge :=
  ⟨rfl, .refl _, rfl, fun _ hline => Or.inl hline⟩

/-- The invariant of the bridge. -/
structure Inv (bridge : Bridge N) : Prop where
  length : bridge.calls.length = bridge.mappings.entries.length
  places : ∀ line ∈ bridge.written, ∀ place, line.1.answers place = true →
    place < bridge.mappings.entries.length
  tokens : bridge.mappings.Tokens
  sound : ∀ place view, bridge.view place = some view → Sound bridge.resumed view

theorem Inv.extends {bridge bridge' : Bridge N} (h : Inv bridge) (hextends : Extends bridge bridge')
    (hsound : ∀ place view, bridge'.view place = some view → Sound bridge.resumed view) :
    Inv bridge' := by
  have hlength := hextends.mappings.length
  constructor
  · rw [hextends.calls, h.length, hlength]
  · intro line hline place hplace
    rw [hlength]
    rcases hextends.written line hline with hline | hnew
    · exact h.places line hline place hplace
    · exact hnew place hplace
  · exact hextends.mappings.keeps h.tokens
  · rw [hextends.resumed]
    exact hsound

/-- A turn that leaves every request aside. -/
theorem Inv.aside {bridge bridge' : Bridge N} (h : Inv bridge) (hextends : Extends bridge bridge')
    (haside : ∀ place view', bridge'.view place = some view' →
      ∃ view, bridge.view place = some view ∧ Aside view view') : Inv bridge' := by
  apply h.extends hextends
  intro place view' hview'
  obtain ⟨view, hview, hkept⟩ := haside place view' hview'
  exact (h.sound place view hview).aside hkept

theorem stop_extends (bridge : Bridge N) : Extends bridge bridge.stop := by
  rw [stop]
  split_ifs
  · exact .refl bridge
  · exact ⟨rfl, close_forgets _, rfl, fun _ hline => Or.inl hline⟩

theorem stop_aside {bridge : Bridge N} {place : Nat} {view' : View N}
    (h : bridge.stop.view place = some view') :
    ∃ view, bridge.view place = some view ∧ Aside view view' := by
  rw [stop] at h
  split_ifs at h with hstopped
  · exact ⟨view', h, .same view'⟩
  · obtain ⟨hentry', hcall, hlines, hview⟩ := view_eq_some_iff.mp h
    obtain ⟨entry, hentry, hcloses⟩ := close_get hentry'
    refine ⟨⟨entry, view'.call, view'.lines, bridge.stopped⟩,
      view_eq_some_iff.mpr ⟨hentry, hcall, hlines, rfl⟩, ?_⟩
    obtain ⟨entry', call', lines', stopped'⟩ := view'
    obtain rfl : true = stopped' := hview
    exact .closed hcloses

/-- What is written is nothing, the end of the bridge, or a line. -/
theorem write_cases (bridge : Bridge N) (purpose : Purpose N) (value : Json N) :
    (bridge.write purpose value = bridge ∧ (bridge.stopped = true ∨ lineOf value = none)) ∨
      (bridge.write purpose value = bridge.stop ∧ bridge.stopped = false) ∨
      ∃ line queued, lineOf value = some line ∧ bridge.stopped = false ∧
        bridge.write purpose value =
          { bridge with queued := queued, written := bridge.written ++ [(purpose, line)] } := by
  rw [write]
  by_cases hstopped : bridge.stopped = true
  · exact Or.inl ⟨if_pos hstopped, Or.inl hstopped⟩
  · have hrunning : bridge.stopped = false := by simpa using hstopped
    rw [if_neg hstopped]
    cases hline : lineOf value with
    | none => exact Or.inl ⟨rfl, Or.inr rfl⟩
    | some line =>
        right
        dsimp only
        split_ifs
        · exact Or.inl ⟨rfl, hrunning⟩
        · exact Or.inr ⟨line, _, rfl, hrunning, rfl⟩

theorem write_extends (bridge : Bridge N) {purpose : Purpose N} (value : Json N)
    (hpurpose : ∀ place, purpose.answers place = true → place < bridge.mappings.entries.length) :
    Extends bridge (bridge.write purpose value) := by
  obtain ⟨heq, -⟩ | ⟨heq, -⟩ | ⟨line, queued, -, -, heq⟩ := write_cases bridge purpose value
  · rw [heq]
    exact .refl bridge
  · rw [heq]
    exact stop_extends bridge
  · rw [heq]
    refine ⟨rfl, .refl _, rfl, fun written hwritten => ?_⟩
    rcases List.mem_append.mp hwritten with hwritten | hwritten
    · exact Or.inl hwritten
    · obtain rfl := List.mem_singleton.mp hwritten
      exact Or.inr hpurpose

theorem answersOf_append (bridge : Bridge N) (place queued : Nat) (line : Purpose N × Json N) :
    ({ bridge with queued := queued, written := bridge.written ++ [line] } : Bridge N).answersOf
      place = bridge.answersOf place ++ if line.1.answers place then [line] else [] := by
  simp [answersOf, List.filter_append, List.filter_singleton]

/-- A line that does not answer a request leaves it aside. -/
theorem write_aside {bridge : Bridge N} {purpose : Purpose N} {value : Json N} {place : Nat}
    {view' : View N} (hpurpose : purpose.answers place = false)
    (h : (bridge.write purpose value).view place = some view') :
    ∃ view, bridge.view place = some view ∧ Aside view view' := by
  obtain ⟨heq, -⟩ | ⟨heq, -⟩ | ⟨line, queued, -, -, heq⟩ := write_cases bridge purpose value
  · rw [heq] at h
    exact ⟨view', h, .same view'⟩
  · rw [heq] at h
    exact stop_aside h
  · rw [heq, view_eq_some_iff, answersOf_append, if_neg (by simp [hpurpose]),
      List.append_nil] at h
    exact ⟨view', view_eq_some_iff.mpr h, .same view'⟩

theorem Inv.stop {bridge : Bridge N} (h : Inv bridge) : Inv bridge.stop :=
  h.aside (stop_extends bridge) fun _ _ hview => stop_aside hview

theorem Inv.write {bridge : Bridge N} (h : Inv bridge) {purpose : Purpose N} (value : Json N)
    (hpurpose : ∀ place, purpose.answers place = false) : Inv (bridge.write purpose value) := by
  apply h.aside
  · apply write_extends
    intro place hplace
    rw [hpurpose place] at hplace
    cases hplace
  · exact fun place _ hview => write_aside (hpurpose place) hview

/-- A change of a call that keeps what holds of its request. -/
theorem Inv.amendCall {bridge : Bridge N} (h : Inv bridge) {place : Nat} {f : Call N → Call N}
    (hf : ∀ view, bridge.view place = some view → Sound bridge.resumed view →
      Sound bridge.resumed { view with call := f view.call }) : Inv (bridge.amendCall place f) := by
  apply h.extends
  · exact ⟨by simp [Bridge.amendCall], .refl _, rfl, fun _ hline => Or.inl hline⟩
  · intro p view' hview'
    obtain ⟨hentry, hcall, hlines, hstopped⟩ := view_eq_some_iff.mp hview'
    rw [Bridge.amendCall, List.getElem?_modify] at hcall
    split_ifs at hcall with hp
    · subst hp
      obtain ⟨call, hcall, hf'⟩ := Option.map_eq_some_iff.mp hcall
      have hview : bridge.view place = some { view' with call := call } :=
        view_eq_some_iff.mpr ⟨hentry, hcall, hlines, hstopped⟩
      have hsound := hf _ hview (h.sound _ _ hview)
      dsimp only at hsound
      rwa [hf'] at hsound
    · have hview : bridge.view p = some view' :=
        view_eq_some_iff.mpr ⟨hentry, by simpa using hcall, hlines, hstopped⟩
      exact h.sound _ _ hview

theorem dispatching_amendEntry {bridge : Bridge N} {place : Nat} {entry : Entry N} {call : Call N}
    (hat : bridge.dispatching place = some (entry, call)) (f : Entry N → Entry N) :
    (bridge.amendEntry place f).dispatching place = some (f entry, call) := by
  obtain ⟨hentry, hcall⟩ := dispatching_eq_some_iff.mp hat
  refine dispatching_eq_some_iff.mpr ⟨?_, hcall⟩
  rw [Bridge.amendEntry, amend_get, if_pos rfl, hentry, Option.map_some]

/-- A change of an entry that keeps what holds of its request. -/
theorem Inv.amendEntry {bridge : Bridge N} (h : Inv bridge) {place : Nat} {f : Entry N → Entry N}
    (htoken : ∀ entry, (f entry).progressToken = entry.progressToken)
    (hf : ∀ view, bridge.view place = some view → Sound bridge.resumed view →
      Sound bridge.resumed { view with entry := f view.entry }) :
    Inv (bridge.amendEntry place f) := by
  apply h.extends
  · exact ⟨rfl, amend_forgets _ place htoken, rfl, fun _ hline => Or.inl hline⟩
  · intro p view' hview'
    obtain ⟨hentry, hcall, hlines, hstopped⟩ := view_eq_some_iff.mp hview'
    rw [Bridge.amendEntry, amend_get] at hentry
    split_ifs at hentry with hp
    · subst hp
      obtain ⟨entry, hentry, hf'⟩ := Option.map_eq_some_iff.mp hentry
      have hview : bridge.view place = some { view' with entry := entry } :=
        view_eq_some_iff.mpr ⟨hentry, hcall, hlines, hstopped⟩
      have hsound := hf _ hview (h.sound _ _ hview)
      dsimp only at hsound
      rwa [hf'] at hsound
    · exact h.sound _ _ (view_eq_some_iff.mpr ⟨hentry, hcall, hlines, hstopped⟩)

/-! ## Answers of the bridge -/

theorem exists_lineOf {value id : Json N} (hid : value.get (js "id") = some id) :
    ∃ line, lineOf value = some line ∧ (line = value ∨ line = tooLarge id) := by
  rw [lineOf, hid]
  split_ifs
  · exact ⟨_, rfl, Or.inr rfl⟩
  · exact ⟨_, rfl, Or.inl rfl⟩

theorem answer_of_settled {bridge : Bridge N} {place : Nat} {entry : Entry N}
    (hentry : bridge.mappings.entries[place]? = some entry)
    (hsettled : entry.terminalState.isSome = true) (terminalState : TerminalState)
    (purpose : Purpose N) (value : Json N) :
    bridge.answer place terminalState purpose value = bridge := by
  have hfalse : bridge.mappings.settle place terminalState = (bridge.mappings, false) := by
    apply settle_false
    intro entry' hentry'
    obtain rfl := Option.some.inj (hentry.symm.trans hentry')
    exact hsettled
  rw [answer, hfalse]

theorem answer_of_open {bridge : Bridge N} {place : Nat} {entry : Entry N}
    (hentry : bridge.mappings.entries[place]? = some entry) (hopen : entry.terminalState = none)
    (terminalState : TerminalState) (purpose : Purpose N) (value : Json N) :
    bridge.answer place terminalState purpose value =
      ({ bridge with mappings := (bridge.mappings.settle place terminalState).1 } : Bridge N).write
        purpose value := by
  rw [answer]
  split
  case h_1 mappings hfalse =>
    have htrue := settle_true hentry hopen terminalState
    rw [hfalse] at htrue
    cases htrue
  case h_2 mappings htrue => rw [htrue]

theorem answer_extends {bridge : Bridge N} {place : Nat} {entry : Entry N}
    (hentry : bridge.mappings.entries[place]? = some entry) (terminalState : TerminalState)
    {purpose : Purpose N} (value : Json N)
    (hpurpose : ∀ p, purpose.answers p = true ↔ p = place) :
    Extends bridge (bridge.answer place terminalState purpose value) := by
  cases hopen : entry.terminalState with
  | some _ =>
      rw [answer_of_settled hentry (by simp [hopen])]
      exact .refl bridge
  | none =>
      rw [answer_of_open hentry hopen]
      have hsettle := settle_forgets bridge.mappings place terminalState
      let settled : Bridge N :=
        { bridge with mappings := (bridge.mappings.settle place terminalState).1 }
      have hwrite : Extends settled (settled.write purpose value) :=
        write_extends settled value (by
          intro p hp
          rw [hsettle.length, (hpurpose p).mp hp]
          exact (List.getElem?_eq_some_iff.mp hentry).1)
      constructor
      · exact hwrite.calls
      · exact hsettle.trans hwrite.mappings
      · exact hwrite.resumed
      · intro line hline
        rw [← hsettle.length]
        exact hwrite.written line hline

theorem settle_view {bridge : Bridge N} {place p : Nat} {entry : Entry N}
    (hentry : bridge.mappings.entries[place]? = some entry) (hopen : entry.terminalState = none)
    {terminalState : TerminalState} {view' : View N}
    (h : ({ bridge with mappings := (bridge.mappings.settle place terminalState).1 } :
      Bridge N).view p = some view') :
    ∃ view, bridge.view p = some view ∧ (p ≠ place ∧ view' = view ∨
      p = place ∧ view.entry.terminalState = none ∧
        view' = { view with entry := settled terminalState view.entry }) := by
  obtain ⟨hentry', hcall, hlines, hstopped⟩ := view_eq_some_iff.mp h
  rw [settle_get] at hentry'
  split_ifs at hentry' with hp
  · subst hp
    rw [hentry, Option.map_some, if_neg (by simp [hopen])] at hentry'
    refine ⟨{ view' with entry := entry }, view_eq_some_iff.mpr ⟨hentry, hcall, hlines, hstopped⟩,
      Or.inr ⟨rfl, hopen, ?_⟩⟩
    exact View.ext (Option.some.inj hentry').symm rfl rfl rfl
  · exact ⟨view', view_eq_some_iff.mpr ⟨hentry', hcall, hlines, hstopped⟩,
      Or.inl ⟨Ne.symm hp, rfl⟩⟩

theorem stopped_of_view {bridge : Bridge N} {p : Nat} {view : View N}
    (h : bridge.view p = some view) : view.stopped = bridge.stopped :=
  (view_eq_some_iff.mp h).2.2.2.symm

theorem stop_stopped (bridge : Bridge N) : bridge.stop.stopped = true := by
  rw [Bridge.stop]
  split_ifs with hstopped
  · exact hstopped
  · rfl

/-- The answer to an open request, as it is seen at its own place. -/
theorem answer_view_self {bridge : Bridge N} {place : Nat} {entry : Entry N}
    (hentry : bridge.mappings.entries[place]? = some entry) (hopen : entry.terminalState = none)
    {terminalState : TerminalState} {purpose : Purpose N} {value id : Json N}
    (hid : value.get (js "id") = some id) (hpurpose : purpose.answers place = true)
    {view' : View N}
    (h : (bridge.answer place terminalState purpose value).view place = some view') :
    ∃ view, bridge.view place = some view ∧
      Answered terminalState purpose value view view' := by
  rw [answer_of_open hentry hopen] at h
  obtain ⟨line, hline, -⟩ := exists_lineOf hid
  obtain ⟨heq, hcase⟩ | ⟨heq, -⟩ | ⟨line, queued, hline, -, heq⟩ := write_cases
    ({ bridge with mappings := (bridge.mappings.settle place terminalState).1 } : Bridge N)
    purpose value
  · -- the bridge is stopped
    rw [heq] at h
    have hstopped : bridge.stopped = true := hcase.resolve_right (by simp [hline])
    obtain ⟨view, hview, ⟨hne, -⟩ | ⟨-, hopen, rfl⟩⟩ := settle_view hentry hopen h
    · exact absurd rfl hne
    · have hsame : view.stopped = true := (stopped_of_view hview).trans hstopped
      refine ⟨view, hview, ?_⟩
      rw [hsame]
      exact .stopped hopen
  · -- the bridge stops at this line
    rw [heq] at h
    obtain ⟨between, hbetween, haside⟩ := stop_aside h
    have hstopped := (stopped_of_view h).trans (stop_stopped _)
    obtain ⟨view, hview, ⟨hne, -⟩ | ⟨-, hopen, rfl⟩⟩ := settle_view hentry hopen hbetween
    · exact absurd rfl hne
    · refine ⟨view, hview, ?_⟩
      cases haside with
      | same =>
          dsimp only at hstopped
          rw [hstopped]
          exact .stopped hopen
      | closed hcloses =>
          rcases hcloses with rfl | ⟨hsettled, -⟩
          · exact .stopped hopen
          · cases hsettled
  · rw [heq, view_eq_some_iff, answersOf_append, if_pos hpurpose] at h
    obtain ⟨hentry', hcall, hlines, hstopped⟩ := h
    have hbetween : ({ bridge with mappings := (bridge.mappings.settle place terminalState).1 } :
        Bridge N).view place = some { view' with lines := bridge.answersOf place } :=
      view_eq_some_iff.mpr ⟨hentry', hcall, rfl, hstopped⟩
    obtain ⟨view, hview, ⟨hne, -⟩ | ⟨-, hopen, heq'⟩⟩ := settle_view hentry hopen hbetween
    · exact absurd rfl hne
    · refine ⟨view, hview, ?_⟩
      have hview' : view' = { view with
          entry := settled terminalState view.entry, lines := view.lines ++ [(purpose, line)] } := by
        obtain ⟨hentry'', hcall'', -, hstopped''⟩ := View.ext_iff.mp heq'
        have hbefore := congrArg (· ++ [(purpose, line)]) (view_eq_some_iff.mp hview).2.2.1
        exact View.ext hentry'' hcall'' (hlines.symm.trans hbefore) hstopped''
      rw [hview']
      exact .line hopen hline

/-- An answer to a request leaves the others aside. -/
theorem answer_view {bridge : Bridge N} {place p : Nat} {entry : Entry N}
    (hentry : bridge.mappings.entries[place]? = some entry) {terminalState : TerminalState}
    {purpose : Purpose N} {value id : Json N} (hid : value.get (js "id") = some id)
    (hpurpose : ∀ p, purpose.answers p = true ↔ p = place) {view' : View N}
    (h : (bridge.answer place terminalState purpose value).view p = some view') :
    ∃ view, bridge.view p = some view ∧
      (Aside view view' ∧ (p = place → view'.entry.terminalState.isSome = true) ∨
        p = place ∧ Answered terminalState purpose value view view') := by
  cases hopen : entry.terminalState with
  | some _ =>
      rw [answer_of_settled hentry (by simp [hopen])] at h
      refine ⟨view', h, Or.inl ⟨.same view', ?_⟩⟩
      rintro rfl
      rw [← Option.some.inj (hentry.symm.trans (view_eq_some_iff.mp h).1), hopen]
      rfl
  | none =>
      by_cases hp : p = place
      · subst hp
        obtain ⟨view, hview, hanswered⟩ :=
          answer_view_self hentry hopen hid ((hpurpose p).mpr rfl) h
        exact ⟨view, hview, Or.inr ⟨rfl, hanswered⟩⟩
      · rw [answer_of_open hentry hopen] at h
        have hother : purpose.answers p = false := by simpa using mt (hpurpose p).mp hp
        obtain ⟨between, hbetween, haside⟩ := write_aside hother h
        obtain ⟨view, hview, ⟨-, rfl⟩ | ⟨hp', -⟩⟩ := settle_view hentry hopen hbetween
        · exact ⟨between, hview, Or.inl ⟨haside, fun hp' => absurd hp' hp⟩⟩
        · exact absurd hp' hp

/-- An answer keeps the invariant, when it says the right thing. -/
theorem Inv.answer {bridge : Bridge N} (h : Inv bridge) {place : Nat} {entry : Entry N}
    {call : Call N} (hat : bridge.dispatching place = some (entry, call))
    {terminalState : TerminalState} {purpose : Purpose N} {value id : Json N}
    (hid : value.get (js "id") = some id) (hpurpose : ∀ p, purpose.answers p = true ↔ p = place)
    (hstate : TerminalState.answered (some terminalState) = true)
    (hsaid : entry.terminalState = none →
      ∀ line, lineOf value = some line → Says entry call (purpose, line)) :
    Inv (bridge.answer place terminalState purpose value) := by
  obtain ⟨hentry, hcall⟩ := dispatching_eq_some_iff.mp hat
  apply h.extends (answer_extends hentry terminalState value hpurpose)
  intro p view' hview'
  obtain ⟨view, hview, ⟨haside, -⟩ | ⟨rfl, hanswered⟩⟩ := answer_view hentry hid hpurpose hview'
  · exact (h.sound p view hview).aside haside
  · obtain ⟨hentry', hcall', -⟩ := view_eq_some_iff.mp hview
    rw [hentry] at hentry'
    rw [hcall] at hcall'
    obtain rfl := Option.some.inj hentry'
    obtain rfl := Option.some.inj hcall'
    apply (h.sound p view hview).answered hstate _ hanswered
    apply hsaid
    cases hanswered with
    | stopped hopen => exact hopen
    | line hopen _ => exact hopen

/-- After it the request is settled. -/
theorem answer_settles {bridge : Bridge N} {place : Nat} {entry : Entry N}
    (hentry : bridge.mappings.entries[place]? = some entry) {terminalState : TerminalState}
    {purpose : Purpose N} {value id : Json N} (hid : value.get (js "id") = some id)
    (hpurpose : ∀ p, purpose.answers p = true ↔ p = place) {view : View N}
    (h : (bridge.answer place terminalState purpose value).view place = some view) :
    view.entry.terminalState.isSome = true := by
  obtain ⟨_, -, ⟨-, hsettled⟩ | ⟨-, hanswered⟩⟩ := answer_view hentry hid hpurpose h
  · exact hsettled rfl
  · cases hanswered <;> rfl

end Bridge

end H2a.Handover
