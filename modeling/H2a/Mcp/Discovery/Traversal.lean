import H2a.Mcp.AnswersKept
import H2a.Mcp.Discovery.Listing
/-!
# Traversals of discovery

A client that goes on with the cursors it is given reads the whole listing, each row once and in
order, whatever is written to the registry meanwhile (`traversal_exact`), and no client that is
given an answer has been led past a row (`answers_continue`).  Both hold up to a collision of the
digest; the second up to a cursor that the pager did not give.
-/

namespace H2a.Mcp.Discovery

open H2a.Library

variable {N : Type} [JsonNumber N] {σ : Type} {pager : Pager σ}

/-! ## Calls -/

/-- A call and its answer. -/
structure Exchange (N σ : Type) where
  attempts : Nat → CaptureAttempt
  args : DiscoverInstancesArgs N
  before : σ
  outcome : DiscoverOutcome N
  after : σ

/-- The answer is the one the pager gives. -/
def Exchange.Happens (ex : Exchange N σ) (pager : Pager σ) : Prop :=
  discover pager ex.attempts ex.args ex.before = (.ok ex.outcome, ex.after)

/-- Two calls of a run captured different sources of one digest. -/
def Collision (host : DiscoveryHost) (run : List (Exchange N σ)) : Prop :=
  ∃ ex ∈ run, ∃ ex' ∈ run, ∃ a b, captureSources ex.attempts = .ok (some a) ∧
    captureSources ex'.attempts = .ok (some b) ∧ Collide host a b

/-- The same selection, from another offset. -/
def Selection.at (sel : Selection N) (offset : Nat) : Selection N :=
  { sel with
    position := ⟨offset, sel.position.role, sel.position.scope, sel.position.limit⟩ }

/-- A call that goes on with a cursor the pager gave reads on in the same generation. -/
theorem Selected.resumed {base : Selection N} (hsound : base.Sound pager) {n : Nat}
    {attempts : Nat → CaptureAttempt} {args : DiscoverInstancesArgs N} {capture : SourceCapture}
    {sel : Selection N} (h : Selected pager attempts args capture sel) {raw : JsString}
    (hraw : args.cursor = some (.str raw))
    (hdecode : decodeCursor N pager raw = .ok (payloadAt pager base n)) :
    sel.generation = base.generation ∧ sel.position = (base.at n).position := by
  obtain ⟨role, scope, limit, cursor, -, -, -, hcursor, hplace⟩ := h.positioned
  rw [hraw, validateCursor] at hcursor
  obtain ⟨-, hcursor⟩ := ok_of_guard hcursor
  rw [← Except.ok.inj hcursor, position, hdecode] at hplace
  obtain ⟨hgeneration, hplace⟩ := ok_of_guard hplace
  obtain ⟨-, hplace⟩ := ok_of_guard hplace
  obtain ⟨-, hplace⟩ := ok_of_guard hplace
  obtain ⟨-, hplace⟩ := ok_of_guard hplace
  have hposition := Except.ok.inj hplace
  rw [payloadAt] at hgeneration hposition
  dsimp only at hgeneration hposition
  rw [filterOf_getD hsound.plain.role, filterOf_getD hsound.plain.scope] at hposition
  exact ⟨(not_ne_iff.mp hgeneration).symm, hposition.symm⟩

/-- In one capture there is one listing of a query. -/
theorem Selected.sorted_eq {attempts attempts' : Nat → CaptureAttempt}
    {args args' : DiscoverInstancesArgs N} {capture : SourceCapture} {sel sel' : Selection N}
    (h : Selected pager attempts args capture sel)
    (h' : Selected pager attempts' args' capture sel')
    (hrole : sel'.position.role = sel.position.role)
    (hscope : sel'.position.scope = sel.position.scope) : sel'.sorted = sel.sorted := by
  obtain ⟨corpus, hparsed, hlisted⟩ := h.listed
  obtain ⟨corpus', hparsed', hlisted'⟩ := h'.listed
  rw [hparsed] at hparsed'
  obtain rfl := Option.some.inj (Except.ok.inj hparsed')
  rw [hrole, hscope, hlisted] at hlisted'
  exact (Except.ok.inj hlisted').symm

/-- A call that goes on reads on in the same listing, or a collision has been found. -/
theorem Selected.resumed_at {attempts attempts' : Nat → CaptureAttempt}
    {args args' : DiscoverInstancesArgs N} {capture capture' : SourceCapture}
    {sel sel' : Selection N} (h : Selected pager attempts args capture sel)
    (hsound : sel.Sound pager) (h' : Selected pager attempts' args' capture' sel') {n : Nat}
    {raw : JsString} (hraw : args'.cursor = some (.str raw))
    (hdecode : decodeCursor N pager raw = .ok (payloadAt pager sel n)) :
    Collide pager.host capture capture' ∨ capture = capture' ∧ sel' = sel.at n := by
  obtain ⟨hgeneration, hposition⟩ := h'.resumed hsound hraw hdecode
  have hdigest : computeGeneration pager.host capture = computeGeneration pager.host capture' := by
    rw [← h.generation, ← h'.generation, hgeneration]
  rcases capture_eq_or_collide hdigest with rfl | hcollide
  · refine Or.inr ⟨rfl, ?_⟩
    have hsorted : sel'.sorted = sel.sorted :=
      h.sorted_eq h' (by rw [hposition]; rfl) (by rw [hposition]; rfl)
    obtain ⟨generation, place, all⟩ := sel'
    dsimp only at hgeneration hposition hsorted
    rw [hgeneration, hposition, hsorted]
    rfl
  · exact Or.inl hcollide

omit [JsonNumber N] in
theorem Selection.Sound.at {sel : Selection N} (h : sel.Sound pager) {n : Nat}
    (hn : n ≤ sel.total) : (sel.at n).Sound pager :=
  ⟨⟨h.plain.role, h.plain.scope, h.plain.limit_pos, h.plain.limit_le⟩, h.generation, hn, h.total⟩

/-! ## Traversals -/

/-- A call that goes on with a cursor: its filters and limit are left out, or those of the first. -/
structure Resumes (first : DiscoverInstancesArgs N) (cursor : JsString)
    (args : DiscoverInstancesArgs N) : Prop where
  cursor : args.cursor = some (.str cursor)
  role : args.role = none ∨ args.role = first.role
  scope : args.scope = none ∨ args.scope = first.scope
  limit : args.limit = none ∨ args.limit = first.limit

/-- The calls of a client that goes on with each cursor it is given, and the cursor it is left
with. -/
inductive Traversal (pager : Pager σ) (first : DiscoverInstancesArgs N) :
    List (Exchange N σ) → Option JsString → Prop
  | first {ex : Exchange N σ} {next : Option JsString} (happens : ex.Happens pager)
      (args : ex.args = first) (hnext : ex.outcome.next = some next) :
      Traversal pager first [ex] next
  | next {run : List (Exchange N σ)} {cursor : JsString} {ex : Exchange N σ}
      {next : Option JsString} (before : Traversal pager first run (some cursor))
      (happens : ex.Happens pager) (resumes : Resumes first cursor ex.args)
      (hnext : ex.outcome.next = some next) : Traversal pager first (run ++ [ex]) next

/-- What a traversal has read of `base`, the selection of its first call. -/
structure Traversed (pager : Pager σ) (first : DiscoverInstancesArgs N) (run : List (Exchange N σ))
    (next : Option JsString) (capture : SourceCapture) (base : Selection N) (n : Nat) : Prop where
  selected : ∃ attempts, Selected pager attempts first capture base
  sound : base.Sound pager
  start : base.position.offset = 0
  nonempty : run ≠ []
  captured : ∀ ex ∈ run, captureSources ex.attempts = .ok (some capture)
  shown : ∃ segments, List.Forall₂ (fun ex entries =>
    DiscoverOutcome.Shows pager.host entries (Exchange.outcome ex)) run segments ∧
      segments.flatten = base.sorted.take n
  totals : ∀ ex ∈ run, ex.outcome.total = some base.total ∧
    ex.outcome.generation = some base.generation
  within : n ≤ base.total
  next : next = cursorAfter pager base n
  steps : run.length ≤ n ∨ n = base.total ∧ run.length = 1

theorem traversed_first {first : DiscoverInstancesArgs N} (hfirst : first.cursor = none)
    {ex : Exchange N σ} (happens : ex.Happens pager) (hargs : ex.args = first)
    {next : Option JsString} (hnext : ex.outcome.next = some next) :
    ∃ capture base n, Traversed pager first [ex] next capture base n := by
  obtain ⟨capture, sel, hselected, hanswer⟩ := discover_ok happens hnext
  rw [hargs] at hselected
  obtain ⟨hplain, hoffset⟩ := hselected.first hfirst
  obtain ⟨n, hanswers⟩ := answer_ok hplain hselected.offset hanswer
  have hwithin := hanswers.within
  have hshows := hanswers.shows
  have hcursor := hanswers.next
  have hprogress := hanswers.progress
  rw [hoffset, Nat.zero_add] at hwithin hcursor
  rw [hoffset, List.drop_zero] at hshows
  rw [hoffset] at hprogress
  rw [hnext] at hcursor
  have hsteps : [ex].length ≤ n ∨ n = sel.total ∧ [ex].length = 1 := by
    rcases Nat.eq_zero_or_pos n with hn | hn
    · exact Or.inr ⟨hn.trans (hprogress hn), rfl⟩
    · exact Or.inl hn
  refine ⟨capture, sel, n, ⟨_, hselected⟩, hselected.sound hplain, hoffset,
    List.cons_ne_nil _ _, List.forall_mem_singleton.mpr hselected.captured,
    ⟨[sel.sorted.take n], ?_, ?_⟩,
    List.forall_mem_singleton.mpr ⟨hanswers.total, hanswers.generation⟩, hwithin,
    Option.some.inj hcursor, hsteps⟩
  · exact .cons hshows .nil
  · rw [List.flatten_singleton]

/-- Where a traversal is left with a cursor, it stands for what has been read. -/
theorem Traversed.cursor {first : DiscoverInstancesArgs N} {run : List (Exchange N σ)}
    {cursor : JsString} {capture : SourceCapture} {base : Selection N} {n : Nat}
    (h : Traversed pager first run (some cursor) capture base n) :
    n < base.total ∧ cursor = cursorAt pager base n ∧ run.length ≤ n := by
  have hcursor := h.next
  have hsteps := h.steps
  rw [cursorAfter] at hcursor
  split at hcursor
  · exact ⟨‹_›, Option.some.inj hcursor, by omega⟩
  · cases hcursor

/-- A call that goes on reads the next entries of what the calls before it read. -/
theorem Traversed.step (hpager : pager.Sound) (hnumbers : PrintsIntegers N)
    {first : DiscoverInstancesArgs N} {run : List (Exchange N σ)} {cursor : JsString}
    {capture : SourceCapture} {base : Selection N} {n : Nat}
    (h : Traversed pager first run (some cursor) capture base n) {ex : Exchange N σ}
    (happens : ex.Happens pager) (hresumes : Resumes first cursor ex.args)
    {next : Option JsString} (hnext : ex.outcome.next = some next) :
    Collision pager.host (run ++ [ex]) ∨
      ∃ n', Traversed pager first (run ++ [ex]) next capture base n' := by
  obtain ⟨attempts, hbase⟩ := h.selected
  obtain ⟨capture', sel, hselected, hanswer⟩ := discover_ok happens hnext
  obtain ⟨hmore, rfl, hlength⟩ := h.cursor
  have hdecode := decode_cursorAt hpager hnumbers h.sound (Nat.le_of_lt hmore)
  rcases hbase.resumed_at h.sound hselected hresumes.cursor hdecode with hcollide | ⟨rfl, rfl⟩
  · obtain ⟨ex₀, hex₀⟩ := List.exists_mem_of_ne_nil run h.nonempty
    exact Or.inl ⟨ex₀, List.mem_append_left _ hex₀, ex, by simp, capture, capture',
      h.captured ex₀ hex₀, hselected.captured, hcollide⟩
  · have hsound := h.sound.at (Nat.le_of_lt hmore)
    obtain ⟨m, hanswers⟩ := answer_ok hsound.plain hsound.offset hanswer
    have hwithin : n + m ≤ base.total := hanswers.within
    have hprogress : m = 0 → n = base.total := hanswers.progress
    have hcursor := hanswers.next
    rw [hnext] at hcursor
    obtain ⟨segments, hshows, hflatten⟩ := h.shown
    refine Or.inr ⟨n + m, ⟨attempts, hbase⟩, h.sound, h.start, by simp, ?_,
      ⟨segments ++ [(base.sorted.drop n).take m], ?_, ?_⟩, ?_, hwithin, Option.some.inj hcursor,
      Or.inl ?_⟩
    · exact List.forall_mem_append.mpr
        ⟨h.captured, List.forall_mem_singleton.mpr hselected.captured⟩
    · exact List.rel_append hshows (.cons hanswers.shows .nil)
    · rw [List.flatten_append, List.flatten_singleton, hflatten, ← List.take_add]
    · exact List.forall_mem_append.mpr ⟨h.totals,
        List.forall_mem_singleton.mpr ⟨hanswers.total, hanswers.generation⟩⟩
    · rw [List.length_append, List.length_singleton]
      omega

omit [JsonNumber N] in
theorem Collision.append {host : DiscoveryHost} {run : List (Exchange N σ)}
    (h : Collision host run) (more : List (Exchange N σ)) : Collision host (run ++ more) := by
  obtain ⟨ex, hex, ex', hex', h⟩ := h
  exact ⟨ex, List.mem_append_left _ hex, ex', List.mem_append_left _ hex', h⟩

theorem traversal_traversed (hpager : pager.Sound) (hnumbers : PrintsIntegers N)
    {first : DiscoverInstancesArgs N} (hfirst : first.cursor = none) {run : List (Exchange N σ)}
    {next : Option JsString} (h : Traversal pager first run next) :
    Collision pager.host run ∨
      ∃ capture base n, Traversed pager first run next capture base n := by
  induction h with
  | first happens args hnext => exact Or.inr (traversed_first hfirst happens args hnext)
  | @next run cursor ex next before happens resumes hnext ih =>
      rcases ih with hcollision | ⟨capture, base, n, h⟩
      · exact Or.inl (hcollision.append _)
      · rcases h.step hpager hnumbers happens resumes hnext with hcollision | ⟨n', h'⟩
        · exact Or.inl hcollision
        · exact Or.inr ⟨capture, base, n', h'⟩

/-- The arguments of a first call give a call that goes on what its cursor has. -/
theorem Selected.resume (hpager : pager.Sound) (hnumbers : PrintsIntegers N)
    {attempts attempts' : Nat → CaptureAttempt} {first args : DiscoverInstancesArgs N}
    {capture : SourceCapture} {base : Selection N}
    (hbase : Selected pager attempts first capture base) (hfirst : first.cursor = none)
    (hsound : base.Sound pager) {n : Nat} (hn : n ≤ base.total)
    (hcaptured : captureSources attempts' = .ok (some capture))
    (hresumes : Resumes first (cursorAt pager base n) args) :
    Selected pager attempts' args capture (base.at n) := by
  obtain ⟨role, scope, limit, cursor, hrole, hscope, hlimit, hcursor, hplace⟩ := hbase.positioned
  rw [hfirst] at hcursor
  obtain rfl := Except.ok.inj hcursor
  have hposition : base.position = ⟨0, role, scope, limit.getD defaultLimit⟩ :=
    (Except.ok.inj hplace).symm
  have hdecode := decode_cursorAt hpager hnumbers hsound hn
  refine ⟨hcaptured, hbase.generation, hbase.listed, hn, ?_⟩
  have hrole' : ∃ role', validateFilter args.role maxRoleBytes = .ok role' ∧
      (args.role.isSome → role' = role) := by
    rcases hresumes.role with h | h <;> rw [h]
    · exact ⟨none, rfl, nofun⟩
    · exact ⟨role, hrole, fun _ => rfl⟩
  have hscope' : ∃ scope', validateFilter args.scope maxScopeBytes = .ok scope' ∧
      (args.scope.isSome → scope' = scope) := by
    rcases hresumes.scope with h | h <;> rw [h]
    · exact ⟨none, rfl, nofun⟩
    · exact ⟨scope, hscope, fun _ => rfl⟩
  have hlimit' : ∃ limit', validateLimit args.limit = .ok limit' ∧
      (limit'.isSome → limit' = some (limit.getD defaultLimit)) := by
    rcases hresumes.limit with h | h <;> rw [h]
    · exact ⟨none, rfl, nofun⟩
    · refine ⟨limit, hlimit, fun hsome => ?_⟩
      obtain ⟨l, rfl⟩ := Option.isSome_iff_exists.mp hsome
      rfl
  obtain ⟨role', hrole', hsame⟩ := hrole'
  obtain ⟨scope', hscope', hsame'⟩ := hscope'
  obtain ⟨limit', hlimit', hsame''⟩ := hlimit'
  refine ⟨role', scope', limit', _, hrole', hscope', hlimit',
    hresumes.cursor ▸ validateCursor_cursorAt hpager hnumbers hsound hn, ?_⟩
  have hfilters : filterOf (payloadAt pager base n).r = role ∧
      filterOf (payloadAt pager base n).s = scope := by
    have h := filterOf_getD hsound.plain.role
    have h' := filterOf_getD hsound.plain.scope
    rw [hposition] at h h'
    rw [payloadAt, hposition]
    exact ⟨h, h'⟩
  have hl : (payloadAt pager base n).l = limit.getD defaultLimit := by
    rw [payloadAt, hposition]
  have hgeneration : (payloadAt pager base n).g = (base.at n).generation := rfl
  rw [position, hdecode]
  dsimp only
  rw [hfilters.1, hfilters.2, hl, if_neg (not_ne_iff.mpr hgeneration),
    if_neg fun h => h.2 (hsame h.1), if_neg fun h => h.2 (hsame' h.1),
    if_neg fun h => h.2 (hsame'' h.1), Selection.at, hposition]
  rfl

/-- What a traversal has read when it is left with `next`: of the one capture all its calls met, the
first `n` rows of the listing of its filters. -/
structure TraversalExact (pager : Pager σ) (first : DiscoverInstancesArgs N)
    (run : List (Exchange N σ)) (next : Option JsString) (capture : SourceCapture)
    (corpus : ParsedCorpus N) (role scope : Option JsString) (all : List (Registration N))
    (n : Nat) : Prop where
  captured : ∀ ex ∈ run, captureSources ex.attempts = .ok (some capture)
  parsed : parseCorpus N capture = .ok (some corpus)
  filters : validateFilter first.role maxRoleBytes = .ok role ∧
    validateFilter first.scope maxScopeBytes = .ok scope
  canonical : CanonicalListing pager.host corpus role scope all
  /-- each call shows the entries that follow those before it, none left out and none twice -/
  shown : ∃ segments, List.Forall₂ (fun ex entries =>
    DiscoverOutcome.Shows pager.host entries (Exchange.outcome ex)) run segments ∧
      segments.flatten = all.take n
  totals : ∀ ex ∈ run, ex.outcome.total = some all.length ∧
    ex.outcome.generation = some (computeGeneration pager.host capture)
  steps : run.length ≤ max 1 all.length
  /-- without a cursor there is nothing left -/
  complete : next = none → n = all.length
  /-- with one there is, and while the registry stays as it is the call that goes on is answered,
  unless it throws -/
  goes_on : ∀ cursor, next = some cursor → n < all.length ∧
    ∀ attempts args s, captureSources attempts = .ok (some capture) → Resumes first cursor args →
      (∃ message, (discover pager attempts args s).1 = .error message) ∨
        ∃ outcome next', (discover pager attempts args s).1 = .ok outcome ∧
          outcome.next = some next'

/-- A traversal reads the listing of one capture from its start, each row once and in order, or two
of its calls met captures of one digest.  The registry may change between the calls: a call that
meets another capture is refused. -/
theorem traversal_exact (hpager : pager.Sound) (hnumbers : PrintsIntegers N)
    {first : DiscoverInstancesArgs N} (hfirst : first.cursor = none) {run : List (Exchange N σ)}
    {next : Option JsString} (h : Traversal pager first run next) :
    Collision pager.host run ∨ ∃ capture corpus role scope all n,
      TraversalExact pager first run next capture corpus role scope all n := by
  rcases traversal_traversed hpager hnumbers hfirst h with hcollision | ⟨capture, base, n, h⟩
  · exact Or.inl hcollision
  · obtain ⟨attempts, hbase⟩ := h.selected
    obtain ⟨corpus, hparsed, hlisted⟩ := hbase.listed
    obtain ⟨role, scope, limit, cursor, hrole, hscope, -, hcursor, hplace⟩ := hbase.positioned
    rw [hfirst] at hcursor
    obtain rfl := Except.ok.inj hcursor
    rw [← Except.ok.inj hplace] at hlisted
    have hwithin := h.within
    have hsteps := h.steps
    refine Or.inr ⟨capture, corpus, role, scope, base.sorted, n, h.captured, hparsed,
      ⟨hrole, hscope⟩, listing_canonical hparsed hlisted, h.shown, ?_, ?_, ?_, ?_⟩
    · intro ex hex
      rw [← hbase.generation]
      exact h.totals ex hex
    · unfold Selection.total at hwithin hsteps
      omega
    · intro hnone
      have hnext := h.next
      rw [hnone, cursorAfter] at hnext
      split at hnext
      · cases hnext
      · unfold Selection.total at *
        omega
    · intro cursor hcursor
      subst hcursor
      obtain ⟨hmore, rfl, -⟩ := h.cursor
      refine ⟨hmore, fun attempts' args s hcaptured hresumes => ?_⟩
      have hselected := hbase.resume hpager hnumbers hfirst h.sound (Nat.le_of_lt hmore) hcaptured
        hresumes
      have hsound := h.sound.at (Nat.le_of_lt hmore)
      rw [discover, hselected.select_eq]
      rcases answer_or_throws hsound.plain hsound.offset s with hthrown | ⟨outcome, m, hok, hm⟩
      · exact Or.inl hthrown
      · exact Or.inr ⟨outcome, _, hok, hm.next⟩

/-! ## Any client -/

/-- A call was let through with the code of a text that no answer before it had given. -/
def Forged (pager : Pager σ) (run : List (Exchange N σ)) : Prop :=
  ∃ (earlier : List (Exchange N σ)) (ex : Exchange N σ) (later : List (Exchange N σ))
    (raw : JsString), run = earlier ++ ex :: later ∧ ex.args.cursor = some (.str raw) ∧
    pager.host.fromBase64url (splitCursor raw).2 = macFor pager (splitCursor raw).1 ∧
      ∀ ex' ∈ earlier, ∀ cursor, ex'.outcome.next = some (some cursor) →
        (splitCursor cursor).1 ≠ (splitCursor raw).1

/-- While no code is forged, the body of a cursor that is accepted was given before. -/
theorem given_of_unforged {run earlier later : List (Exchange N σ)} {ex : Exchange N σ}
    (hforged : ¬Forged pager run) (hsplit : run = earlier ++ ex :: later) {raw : JsString}
    (hargs : ex.args.cursor = some (.str raw)) {p : CursorPayload}
    (hdecode : decodeCursor N pager raw = .ok p) :
    ∃ (before : List (Exchange N σ)) (ex' : Exchange N σ) (between : List (Exchange N σ))
      (cursor : JsString), earlier = before ++ ex' :: between ∧
      ex'.outcome.next = some (some cursor) ∧ (splitCursor cursor).1 = (splitCursor raw).1 := by
  by_contra hnone
  refine hforged ⟨earlier, ex, later, raw, hsplit, hargs, (decodeCursor_ok hdecode).2, ?_⟩
  intro ex' hex' cursor hcursor hbody
  obtain ⟨before, between, heq⟩ := List.append_of_mem hex'
  exact hnone ⟨before, ex', between, cursor, heq, hcursor, hbody⟩

/-- A cursor with the body the pager gives is read as what the pager put into it. -/
theorem decoded_body (hpager : pager.Sound) {sel : Selection N} (hplain : sel.position.Plain)
    {raw : JsString} {n : Nat}
    (hbody : (splitCursor raw).1 = cursorBody N (payloadAt pager sel n)) {p : CursorPayload}
    (hdecode : decodeCursor N pager raw = .ok p) : p = payloadAt pager sel n := by
  have hread := (decodeCursor_ok hdecode).1
  have hl : 0 ≤ (payloadAt pager sel n).l := Int.le_trans (by decide) hplain.limit_pos
  rw [hbody, readBody_cursorBody hpager.host hl] at hread
  exact (Option.some.inj hread).symm

/-- The answers before a call have shown all that comes before what it shows. -/
structure Continues (pager : Pager σ) (earlier : List (Exchange N σ)) (ex : Exchange N σ)
    (capture : SourceCapture) (sel : Selection N) (n : Nat) : Prop where
  selected : Selected pager ex.attempts ex.args capture sel
  sound : sel.Sound pager
  answers : Answers pager sel ex.outcome n
  shown : ∃ chain segments, chain.Sublist earlier ∧
    List.Forall₂ (fun ex entries =>
      DiscoverOutcome.Shows pager.host entries (Exchange.outcome ex)) chain segments ∧
    (∀ ex' ∈ chain, captureSources ex'.attempts = .ok (some capture)) ∧
    segments.flatten = sel.sorted.take sel.position.offset

/-- An answer continues where the cursor it was asked with was given. -/
theorem Continues.next {earlier before : List (Exchange N σ)} {ex ex' : Exchange N σ}
    {capture capture' : SourceCapture} {sel sel' : Selection N} {n : Nat}
    (h : Continues pager before ex' capture sel n) (hpager : pager.Sound)
    (hbefore : (before ++ [ex']).Sublist earlier)
    (hselected : Selected pager ex.attempts ex.args capture' sel') {raw : JsString}
    (hraw : ex.args.cursor = some (.str raw))
    (hbody : (splitCursor raw).1 = cursorBody N (payloadAt pager sel (sel.position.offset + n)))
    {p : CursorPayload} (hdecode : decodeCursor N pager raw = .ok p) {s s' : σ}
    (hanswer : answer pager sel' s = (.ok ex.outcome, s')) :
    Collide pager.host capture capture' ∨
      ∃ n', Continues pager earlier ex capture' sel' n' := by
  have hwithin := h.answers.within
  obtain rfl := decoded_body hpager h.sound.plain hbody hdecode
  rcases h.selected.resumed_at h.sound hselected hraw hdecode with hcollide | ⟨rfl, rfl⟩
  · exact Or.inl hcollide
  · have hsound := h.sound.at hwithin
    obtain ⟨n', hn'⟩ := answer_ok hsound.plain hsound.offset hanswer
    obtain ⟨chain, segments, hchain, hshows, hcaptured, hflatten⟩ := h.shown
    refine Or.inr ⟨n', hselected, hsound, hn', chain ++ [ex'],
      segments ++ [(sel.sorted.drop sel.position.offset).take n], ?_, ?_, ?_, ?_⟩
    · exact (hchain.append_right [ex']).trans hbefore
    · exact List.rel_append hshows (.cons h.answers.shows .nil)
    · exact List.forall_mem_append.mpr
        ⟨hcaptured, List.forall_mem_singleton.mpr h.selected.captured⟩
    · rw [List.flatten_append, List.flatten_singleton, hflatten, ← List.take_add]
      rfl

/-- A call with a cursor that is not refused had it read. -/
theorem Selected.decoded {attempts : Nat → CaptureAttempt} {args : DiscoverInstancesArgs N}
    {capture : SourceCapture} {sel : Selection N} (h : Selected pager attempts args capture sel)
    {value : Json N} (hcursor : args.cursor = some value) :
    ∃ raw p, value = .str raw ∧ decodeCursor N pager raw = .ok p := by
  obtain ⟨role, scope, limit, cursor, -, -, -, hread, hplace⟩ := h.positioned
  rw [hcursor] at hread
  unfold validateCursor at hread
  split at hread
  · cases ‹some value = none›
  · rename_i raw hvalue
    obtain ⟨-, hread⟩ := ok_of_guard hread
    rw [← Except.ok.inj hread, position] at hplace
    cases hdecode : decodeCursor N pager raw with
    | error code =>
        rw [hdecode] at hplace
        cases hplace
    | ok p => exact ⟨raw, p, Option.some.inj hvalue, hdecode⟩
  · cases hread

/-- The body of a cursor that an answer gave. -/
theorem Answers.body {sel : Selection N} {outcome : DiscoverOutcome N} {n : Nat}
    (h : Answers pager sel outcome n) {cursor : JsString}
    (hcursor : outcome.next = some (some cursor)) :
    (splitCursor cursor).1 = cursorBody N (payloadAt pager sel (sel.position.offset + n)) := by
  have hnext := h.next
  rw [hcursor, cursorAfter] at hnext
  split at hnext
  · rw [Option.some.inj (Option.some.inj hnext), cursorAt]
    exact congrArg Prod.fst (splitCursor_encodeCursor _)
  · cases hnext

/-- Whatever calls are made with whatever cursors while the registry changes, an answer shows the
entries of a listing that follow those shown before: no client is led past a row.  Otherwise two
calls met captures of one digest, or a call was let through with a code that no answer had given. -/
theorem answers_continue (hpager : pager.Sound) {run : List (Exchange N σ)}
    (hrun : ∀ ex ∈ run, ex.Happens pager) :
    Forged pager run ∨ Collision pager.host run ∨
      ∀ earlier ex later, run = earlier ++ ex :: later → ∀ next, ex.outcome.next = some next →
        ∃ capture sel n, Continues pager earlier ex capture sel n := by
  by_cases hforged : Forged pager run
  · exact Or.inl hforged
  by_cases hcollision : Collision pager.host run
  · exact Or.inr (Or.inl hcollision)
  refine Or.inr (Or.inr fun earlier => ?_)
  -- the answer that gave the cursor comes before, with fewer calls before it
  induction hlength : earlier.length using Nat.strongRecOn generalizing earlier with
  | ind length ih =>
      intro ex later hsplit next hnext
      have hex : ex ∈ run := hsplit ▸ List.mem_append_right _ List.mem_cons_self
      obtain ⟨capture, sel, hselected, hanswer⟩ := discover_ok (hrun ex hex) hnext
      cases hargs : ex.args.cursor with
      | none =>
          obtain ⟨hplain, hoffset⟩ := hselected.first hargs
          obtain ⟨n, hn⟩ := answer_ok hplain hselected.offset hanswer
          exact ⟨capture, sel, n, hselected, hselected.sound hplain, hn, [], [],
            List.nil_sublist _, .nil, nofun, by rw [hoffset]; rfl⟩
      | some value =>
          obtain ⟨raw, p, rfl, hdecode⟩ := hselected.decoded hargs
          obtain ⟨before, ex', between, cursor, rfl, hcursor, hbody⟩ :=
            given_of_unforged hforged hsplit hargs hdecode
          have hshort : before.length < length := by
            rw [← hlength, List.length_append, List.length_cons]
            omega
          have hbefore : (before ++ [ex']).Sublist (before ++ ex' :: between) :=
            (List.singleton_sublist.mpr List.mem_cons_self).append_left before
          rw [List.append_assoc, List.cons_append] at hsplit
          obtain ⟨capture', sel', n', h⟩ := ih _ hshort before rfl ex' _ hsplit _ hcursor
          rw [h.answers.body hcursor] at hbody
          rcases h.next hpager hbefore hselected hargs hbody.symm hdecode hanswer with
            hcollide | ⟨n, hcontinues⟩
          · have hex'' : ex' ∈ run := hsplit ▸ List.mem_append_right _ List.mem_cons_self
            exact absurd ⟨ex', hex'', ex, hex, capture', capture, h.selected.captured,
              hselected.captured, hcollide⟩ hcollision
          · exact ⟨capture, sel, n, hcontinues⟩

/-! ## Two rows, one at a time -/

/-- A registry of two instances, `a` and `b`. -/
def sampleContent : FileContent :=
  ⟨Utf8.encode (['\x7b'] ++ "\"instance\":\"a\"".toList ++ ['\x7d', '\n', '\x7b'] ++
    "\"instance\":\"b\"".toList ++ ['\x7d', '\n']), by decide⟩

def sampleCapture : SourceCapture := ⟨sampleContent, emptyContent⟩

/-- Its digest. -/
def sampleDigest : List UInt8 :=
  [113, 125, 9, 244, 12, 21, 118, 150, 168, 240, 144, 78, 226, 167, 135, 78, 173, 253, 195, 128,
    3, 25, 159, 167, 250, 93, 105, 221, 42, 251, 210, 185]

/-- The body of the cursor after the first row. -/
def sampleBody : List Char :=
  ("eyJ2IjoxLCJlIjoiMSIsImciOiJzaGEyNTY6NzE3ZDA5ZjQwYzE1NzY5NmE4ZjA5MDRlZTJhNzg3NGVh" ++
    "ZGZkYzM4MDAzMTk5ZmE3ZmE1ZDY5ZGQyYWZiZDJiOSIsIm8iOjEsImwiOjEsInIiOiIiLCJzIjoiIn0").toList

/-- Its code, under the secret of the sample. -/
def sampleMac : List UInt8 :=
  [35, 4, 65, 63, 99, 157, 151, 3, 253, 248, 205, 16, 136, 197, 67, 78, 167, 202, 220, 62, 100,
    117, 240, 246, 71, 62, 195, 189, 201, 89, 119, 225]

/-- The digests of the two texts that are met. -/
def sampleHost : DiscoveryHost where
  sha256 bytes := if bytes = sampleCapture.framed then sampleDigest else List.replicate 32 0
  hmacSha256 _ text := if text = Utf8.encode sampleBody then sampleMac else List.replicate 32 0
  fromBase64url s := Base64.decodeUrl (s.units.map fun u => Char.ofNat u.toNat)
  parseDate _ := none

def samplePager : Pager Unit :=
  ⟨sampleHost, List.replicate 32 0x6B, js "1", ⟨mcpMaxFrameBytes⟩, none⟩

def sampleAttempt (_ : Nat) : CaptureAttempt :=
  { beforeI := none
    beforeG := none
    instances := .content sampleContent
    grants := .absent
    instances2 := .content sampleContent
    grants2 := .absent
    afterI := none
    afterG := none }

def samplePage (name : JsString) (next : Option JsString) : DiscoverOutcome Int :=
  .page
    { instances := [⟨name, [], [], [(js "instance", .str name), (js "roles", .arr []),
        (js "scopes", .arr [])]⟩]
      total := 2
      hasMore := next.isSome
      nextCursor := next
      generation := js "sha256:" ++ hexText sampleDigest
      limit := 1
      returned := 1 }

def sampleCursor : JsString := ⟨unitsOf (sampleBody ++ '.' :: Base64.encodeUrl sampleMac)⟩

/-- One row at a time. -/
def sampleArgs (cursor : Option (Json Int)) : DiscoverInstancesArgs Int :=
  ⟨none, none, some (.num 1), cursor⟩

def sampleFirst : Exchange Int Unit :=
  ⟨sampleAttempt, sampleArgs none, (), samplePage (js "a") (some sampleCursor), ()⟩

def sampleSecond : Exchange Int Unit :=
  ⟨sampleAttempt, sampleArgs (some (.str sampleCursor)), (), samplePage (js "b") none, ()⟩

theorem unitsOf_dotted (body code : List Char) :
    (⟨unitsOf body⟩ ++ js "." ++ ⟨unitsOf code⟩ : JsString) =
      ⟨unitsOf (body ++ '.' :: code)⟩ := by
  have hdot : js "." = ⟨unitsOf ['.']⟩ := by decide
  rw [hdot]
  apply JsString.ext_units
  simp [unitsOf, List.append_assoc]

/-- A row as it is read. -/
def sampleRow (name : JsString) : Registration Int :=
  ⟨name, [], [], [(js "instance", .str name), (js "roles", .arr []), (js "scopes", .arr [])]⟩

/-- Both rows, from an offset on. -/
def sampleSelection (offset : Nat) : Selection Int :=
  ⟨js "sha256:" ++ hexText sampleDigest, ⟨offset, none, none, 1⟩,
    [sampleRow (js "a"), sampleRow (js "b")]⟩

/-- What the cursor after the first row stands for. -/
def samplePayload : CursorPayload :=
  ⟨js "1", js "sha256:" ++ hexText sampleDigest, 1, 1, js "", js ""⟩

theorem cursorBody_sample : cursorBody Int samplePayload = ⟨unitsOf sampleBody⟩ := by
  have hread : sampleBody = _ := toList_append_ofList _ _
  rw [hread]
  decide +kernel

theorem macFor_sample : macFor samplePager ⟨unitsOf sampleBody⟩ = sampleMac := by
  have hbytes : utf8Bytes ⟨unitsOf sampleBody⟩ = Utf8.encode sampleBody := by
    have hread : sampleBody = _ := toList_append_ofList _ _
    rw [hread]
    decide +kernel
  rw [macFor, hbytes]
  simp only [samplePager, sampleHost, if_true]

theorem cursorAt_sample (offset : Nat) :
    cursorAt samplePager (sampleSelection offset) 1 = sampleCursor := by
  change encodeCursor Int samplePager samplePayload = sampleCursor
  rw [encodeCursor, cursorBody_sample, macFor_sample]
  exact unitsOf_dotted sampleBody (Base64.encodeUrl sampleMac)

theorem generation_sample :
    computeGeneration samplePager.host sampleCapture = js "sha256:" ++ hexText sampleDigest := by
  simp only [computeGeneration, samplePager, sampleHost, if_true]

/-- A call on the registry that asks for one of the two rows has read both. -/
theorem selected_sample {args : DiscoverInstancesArgs Int} {offset : Nat} (hoffset : offset ≤ 2)
    (hpositioned : ∃ role scope limit cursor,
      validateFilter args.role maxRoleBytes = .ok role ∧
        validateFilter args.scope maxScopeBytes = .ok scope ∧
        validateLimit args.limit = .ok limit ∧ validateCursor args.cursor = .ok cursor ∧
        position samplePager args (sampleSelection offset).generation role scope limit cursor =
          .ok (sampleSelection offset).position) :
    Selected samplePager sampleAttempt args sampleCapture (sampleSelection offset) where
  captured := by decide +kernel
  generation := generation_sample.symm
  listed := by
    refine ⟨⟨[sampleRow (js "a"), sampleRow (js "b")], []⟩, by decide +kernel, ?_⟩
    change listing sampleHost _ none none = Except.ok [sampleRow (js "a"), sampleRow (js "b")]
    decide +kernel
  offset := hoffset
  positioned := hpositioned

theorem sampleSelection_sound {offset : Nat} (hoffset : offset ≤ 2) :
    (sampleSelection offset).Sound samplePager where
  plain := ⟨nofun, nofun, Int.le_refl 1, (by decide : (1 : Int) ≤ 1000)⟩
  generation := ⟨sampleCapture, generation_sample.symm⟩
  offset := hoffset
  total := (by decide : 2 < 10 ^ 21)

theorem pageFits_sampleFirst : pageFits samplePager (sampleSelection 0) 1 = .ok true := by
  have hpage : (buildPage samplePager (sampleSelection 0) 1).json = _ :=
    congrArg (fun cursor => DiscoverInstancesPage.json ⟨[sampleRow (js "a")], 2, true, some cursor,
      (sampleSelection 0).generation, 1, 1⟩) (cursorAt_sample 0)
  have hread : sampleBody = _ := toList_append_ofList _ _
  rw [sampleCursor, hread] at hpage
  rw [pageFits, frameBytesFor, hpage]
  decide +kernel

theorem pageFits_sampleSecond : pageFits samplePager (sampleSelection 1) 1 = .ok true := by
  decide +kernel

theorem answer_sample {offset : Nat} (hoffset : offset < 2)
    (h : pageFits samplePager (sampleSelection offset) 1 = .ok true) :
    answer samplePager (sampleSelection offset) () =
      (.ok (.page (buildPage samplePager (sampleSelection offset) 1)), ()) := by
  have hmax : maxAvailable (sampleSelection offset) = 1 := by
    change min (1 : Int) ((2 : Nat) - offset) = 1
    omega
  have htotal : (sampleSelection offset).total = 2 := rfl
  rw [answer, hmax, if_neg (by rw [htotal]; decide)]
  simp [bisect, h, Except.bind]

theorem answer_sampleFirst : answer samplePager (sampleSelection 0) () =
    (.ok (samplePage (js "a") (some sampleCursor)), ()) := by
  rw [answer_sample (by decide) pageFits_sampleFirst, ← cursorAt_sample 0]
  rfl

theorem answer_sampleSecond : answer samplePager (sampleSelection 1) () =
    (.ok (samplePage (js "b") none), ()) := by
  rw [answer_sample (by decide) pageFits_sampleSecond]
  rfl

theorem samplePager_sound : samplePager.Sound where
  host :=
    { sha256_length := by
        intro bytes
        simp only [samplePager, sampleHost]
        split <;> rfl
      hmac_length := by
        intro secret text
        simp only [samplePager, sampleHost]
        split <;> rfl
      fromBase64url_b64url := by
        intro bytes
        have hchars : (b64url bytes).units.map (fun u => Char.ofNat u.toNat) =
            Base64.encodeUrl bytes := by
          rw [unitsOf_encodeUrl, List.map_map]
          refine (List.map_congr_left fun c hc => ?_).trans (List.map_id _)
          have hascii := (Base64.encodeUrl_mem hc).2.2.1
          have hsmall : c.toNat < 2 ^ 16 := by omega
          rw [Function.comp_apply, UInt16.toNat_ofNat', Nat.mod_eq_of_lt hsmall, Char.ofNat_toNat]
          rfl
        simp only [samplePager, sampleHost]
        rw [hchars, Base64.decodeUrl_encodeUrl] }
  epoch := by decide

theorem sampleFirst_happens : sampleFirst.Happens samplePager := by
  have hselected : Selected samplePager sampleAttempt (sampleArgs none) sampleCapture
      (sampleSelection 0) :=
    selected_sample (by decide) ⟨none, none, some 1, none, rfl, rfl, rfl, rfl, rfl⟩
  change discover samplePager sampleAttempt (sampleArgs none) () = _
  rw [discover, hselected.select_eq]
  exact answer_sampleFirst

theorem sampleSecond_happens : sampleSecond.Happens samplePager := by
  have hdecode : decodeCursor Int samplePager sampleCursor =
      .ok (payloadAt samplePager (sampleSelection 0) 1) := by
    rw [← cursorAt_sample 0]
    exact decode_cursorAt samplePager_sound printsIntegers_int
      (sampleSelection_sound (by decide)) (by decide)
  have hcursor : validateCursor (some (.str sampleCursor : Json Int)) =
      .ok (some sampleCursor) := by
    have hguard := hdecode
    rw [decodeCursor] at hguard
    rw [validateCursor, if_neg (ok_of_guard hguard).1]
  have hposition : position samplePager (sampleArgs (some (.str sampleCursor)))
      (sampleSelection 1).generation none none (some 1) (some sampleCursor) =
        .ok (sampleSelection 1).position := by
    rw [position, hdecode]
    simp [payloadAt, sampleSelection, sampleArgs, filterOf, JsString.ofString]
  have hselected : Selected samplePager sampleAttempt (sampleArgs (some (.str sampleCursor)))
      sampleCapture (sampleSelection 1) :=
    selected_sample (by decide)
      ⟨none, none, some 1, some sampleCursor, rfl, rfl, rfl, hcursor, hposition⟩
  change discover samplePager sampleAttempt (sampleArgs (some (.str sampleCursor))) () = _
  rw [discover, hselected.select_eq]
  exact answer_sampleSecond

theorem sample_traversal :
    Traversal samplePager (sampleArgs none) [sampleFirst, sampleSecond] none :=
  .next (.first sampleFirst_happens rfl rfl) sampleSecond_happens
    ⟨rfl, Or.inl rfl, Or.inl rfl, Or.inr rfl⟩ rfl

theorem traversal_exact_sample :
    Collision samplePager.host [sampleFirst, sampleSecond] ∨
      ∃ capture corpus role scope all n, TraversalExact samplePager (sampleArgs none)
        [sampleFirst, sampleSecond] none capture corpus role scope all n :=
  traversal_exact samplePager_sound printsIntegers_int rfl sample_traversal

theorem answers_continue_sample :
    Forged samplePager [sampleFirst, sampleSecond] ∨
      Collision samplePager.host [sampleFirst, sampleSecond] ∨
        ∀ earlier ex later, [sampleFirst, sampleSecond] = earlier ++ ex :: later →
          ∀ next, ex.outcome.next = some next →
            ∃ capture sel n, Continues samplePager earlier ex capture sel n := by
  refine answers_continue samplePager_sound ?_
  intro ex hex
  rcases List.mem_pair.mp hex with rfl | rfl
  · exact sampleFirst_happens
  · exact sampleSecond_happens

end H2a.Mcp.Discovery
