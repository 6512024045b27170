import H2a.Mcp.Discovery.Cursors
/-!
# The pages of discovery

What one call does: where it is not refused it reads the listing of what it captured (`select_ok`),
and answers with the entries from its offset on, or with one that fits no frame, and a cursor for
those after them (`answer_ok`).
-/

namespace H2a.Mcp.Discovery

open H2a.Library

variable {N : Type} [JsonNumber N] {σ : Type} {pager : Pager σ}

/-! ## The selection -/

/-- What a call that is not refused has read. -/
structure Selected (pager : Pager σ) (attempts : Nat → CaptureAttempt)
    (args : DiscoverInstancesArgs N) (capture : SourceCapture) (sel : Selection N) : Prop where
  captured : captureSources attempts = .ok (some capture)
  generation : sel.generation = computeGeneration pager.host capture
  listed : ∃ corpus, parseCorpus N capture = .ok (some corpus) ∧
    listing pager.host corpus sel.position.role sel.position.scope = .ok sel.sorted
  offset : sel.position.offset ≤ sel.total
  positioned : ∃ role scope limit cursor,
    validateFilter args.role maxRoleBytes = .ok role ∧
      validateFilter args.scope maxScopeBytes = .ok scope ∧
      validateLimit args.limit = .ok limit ∧ validateCursor args.cursor = .ok cursor ∧
      position pager args sel.generation role scope limit cursor = .ok sel.position

omit [JsonNumber N] in
theorem orThrown_ok {α : Type} {x : Except String α} {a : α}
    (h : (orThrown x : Except (Stop N) α) = .ok a) : x = .ok a := by
  cases x with
  | ok b => exact congrArg Except.ok (Except.ok.inj h)
  | error e => cases h

omit [JsonNumber N] in
theorem orRefused_ok {α : Type} {x : Except (DiscoveryError N) α} {a : α}
    (h : orRefused x = .ok a) : x = .ok a := by
  cases x with
  | ok b => exact congrArg Except.ok (Except.ok.inj h)
  | error e => cases h

omit [JsonNumber N] in
theorem orElseRefused_ok {α : Type} {x : Option α} {error : DiscoveryError N} {a : α}
    (h : orElseRefused x error = .ok a) : x = some a := by
  cases x with
  | some b => exact congrArg some (Except.ok.inj h)
  | none => cases h

theorem select_ok {attempts : Nat → CaptureAttempt} {args : DiscoverInstancesArgs N}
    {sel : Selection N} (h : select pager attempts args = .ok sel) :
    ∃ capture, Selected pager attempts args capture sel := by
  unfold select at h
  obtain ⟨role, hrole, h⟩ := bind_eq_ok_iff.mp h
  obtain ⟨scope, hscope, h⟩ := bind_eq_ok_iff.mp h
  obtain ⟨limit, hlimit, h⟩ := bind_eq_ok_iff.mp h
  obtain ⟨cursor, hcursor, h⟩ := bind_eq_ok_iff.mp h
  obtain ⟨captured, hcaptured, h⟩ := bind_eq_ok_iff.mp h
  obtain ⟨capture, hcapture, h⟩ := bind_eq_ok_iff.mp h
  obtain ⟨parsed, hparsed, h⟩ := bind_eq_ok_iff.mp h
  obtain ⟨corpus, hcorpus, h⟩ := bind_eq_ok_iff.mp h
  obtain ⟨place, hplace, h⟩ := bind_eq_ok_iff.mp h
  obtain ⟨all, hall, h⟩ := bind_eq_ok_iff.mp h
  obtain ⟨hoffset, h⟩ := ok_of_guard h
  rw [pure_eq_ok] at h
  obtain rfl := Except.ok.inj h
  rw [orElseRefused_ok hcapture] at hcaptured
  rw [orElseRefused_ok hcorpus] at hparsed
  exact ⟨capture, orThrown_ok hcaptured, rfl, ⟨corpus, orThrown_ok hparsed, orThrown_ok hall⟩,
    Nat.not_lt.mp hoffset, role, scope, limit, cursor, orRefused_ok hrole, orRefused_ok hscope,
    orRefused_ok hlimit, orRefused_ok hcursor, orRefused_ok hplace⟩

/-- A call is not refused where its parts are not. -/
theorem Selected.select_eq {attempts : Nat → CaptureAttempt} {args : DiscoverInstancesArgs N}
    {capture : SourceCapture} {sel : Selection N}
    (h : Selected pager attempts args capture sel) : select pager attempts args = .ok sel := by
  obtain ⟨corpus, hparsed, hlisted⟩ := h.listed
  obtain ⟨role, scope, limit, cursor, hrole, hscope, hlimit, hcursor, hplace⟩ := h.positioned
  obtain ⟨generation, place, all⟩ := sel
  obtain rfl := h.generation
  unfold select
  rw [hrole, hscope, hlimit, hcursor, h.captured]
  simp only [orRefused, orThrown, orElseRefused, Except.mapError, ok_bind, Option.elim, hparsed,
    hplace, hlisted, pure_eq_ok]
  exact if_neg (Nat.not_lt.mpr h.offset)

/-! ## Sizes -/

theorem length_parseRows {lines : List (List Char)} :
    ∀ {seen : List JsString} {rows : List (Registration N)},
      parseRows seen lines = .ok (some rows) → rows.length ≤ lines.length := by
  induction lines with
  | nil =>
      intro seen rows h
      rw [← Option.some.inj (Except.ok.inj h)]
      exact Nat.le_refl 0
  | cons line lines ih =>
      intro seen rows h
      rw [parseRows] at h
      split at h
      · exact Nat.le_succ_of_le (ih h)
      · obtain ⟨parsed, hparsed, h⟩ := bind_eq_ok_iff.mp h
        cases parsed with
        | none => cases h
        | some reg =>
            dsimp only at h
            split at h
            · cases h
            · obtain ⟨rest, hrest, h⟩ := map_eq_ok_iff.mp h
              cases rest with
              | none => cases h
              | some rest =>
                  rw [← Option.some.inj h, List.length_cons, List.length_cons]
                  exact Nat.succ_le_succ (ih hrest)

theorem length_splitOn_le (text : List Char) :
    (text.splitOn '\n').length ≤ text.length + 1 := by
  induction text with
  | nil => exact Nat.le_refl 1
  | cons c text ih =>
      rw [List.splitOn_cons_eq_if_modifyHead]
      split
      · rw [List.length_cons, List.length_cons]
        omega
      · rw [List.length_modifyHead, List.length_cons]
        omega

/-- A state has a character to give at most, and a byte adds one. -/
theorem length_decodeFrom_le (bytes : List UInt8) : ∀ state : Utf8.State,
    (Utf8.decodeFrom state bytes).length ≤
      bytes.length + if state = .boundary then 0 else 1 := by
  have hfirst : ∀ b, (Utf8.first b).1.length + (if (Utf8.first b).2 = .boundary then 0 else 1) ≤
      1 :=
    fun b => Utf8.first_of (P := fun r => r.1.length + (if r.2 = .boundary then 0 else 1) ≤ 1)
      (fun _ => Nat.le_refl 1) (fun _ _ _ _ => Nat.le_refl 1) b
  induction bytes with
  | nil =>
      intro state
      cases state with
      | boundary => exact Nat.le_refl 0
      | inside more lower upper codePoint => exact Nat.le_refl 1
  | cons b bytes ih =>
      intro state
      have hstep : (Utf8.step state b).1.length +
          (if (Utf8.step state b).2 = .boundary then 0 else 1) ≤
            1 + if state = .boundary then 0 else 1 := by
        have hb := hfirst b.toNat
        cases state with
        | boundary => exact hb
        | inside more lower upper codePoint =>
            simp only [Utf8.step]
            split
            · cases more <;> simp
            · simp only [List.length_cons, reduceCtorEq, if_false]
              omega
      have hrest := ih (Utf8.step state b).2
      rw [Utf8.decodeFrom, List.length_append, List.length_cons]
      omega

theorem sorted_perm (host : DiscoveryHost) (filtered : List (Registration N)) :
    (sorted host filtered).Perm filtered := by
  have hmap : (filtered.map (decorate host)).map Decorated.reg = filtered := by
    rw [List.map_map]
    exact List.map_id filtered
  have hperm := (List.perm_insertionSort (fun x y => compareDecorated x y ≤ 0)
    (filtered.map (decorate host))).map Decorated.reg
  rw [hmap] at hperm
  exact hperm

/-- A listing is as long as its file at most. -/
theorem length_listing_lt {host : DiscoveryHost} {capture : SourceCapture}
    {corpus : ParsedCorpus N} (hparsed : parseCorpus N capture = .ok (some corpus))
    {role scope : Option JsString} {all : List (Registration N)}
    (hlisted : listing host corpus role scope = .ok all) : all.length < 10 ^ 21 := by
  obtain ⟨rows, hrows, hcorpus⟩ := map_eq_ok_iff.mp hparsed
  obtain ⟨registrations, rfl, hcorpus⟩ := Option.bind_eq_some_iff.mp hcorpus
  obtain ⟨grants, -, rfl⟩ := Option.map_eq_some_iff.mp hcorpus
  obtain ⟨effective, -, rfl⟩ := map_eq_ok_iff.mp hlisted
  have hmatching : (matching effective role scope registrations).length ≤ registrations.length :=
    Nat.le_trans (List.length_filter_le _ _) (List.length_filter_le _ _)
  have hparse := length_parseRows hrows
  have hsplit := length_splitOn_le (Utf8.decode capture.instances.val)
  have hdecode := length_decodeFrom_le capture.instances.val .boundary
  have hbytes := capture.instances.property
  change (Utf8.decode capture.instances.val).length ≤ _ at hdecode
  rw [if_pos rfl] at hdecode
  rw [(sorted_perm host _).length_eq]
  unfold linesOf at hparse
  dsimp only at hparse ⊢
  omega

/-- What a call selects can be paged on. -/
theorem Selected.sound {attempts : Nat → CaptureAttempt} {args : DiscoverInstancesArgs N}
    {capture : SourceCapture} {sel : Selection N} (h : Selected pager attempts args capture sel)
    (hplain : sel.position.Plain) : sel.Sound pager := by
  obtain ⟨corpus, hparsed, hlisted⟩ := h.listed
  exact ⟨hplain, ⟨capture, h.generation⟩, h.offset, length_listing_lt hparsed hlisted⟩

/-- Without a cursor a call reads the listing of its filters, from the start. -/
theorem Selected.first {attempts : Nat → CaptureAttempt} {args : DiscoverInstancesArgs N}
    {capture : SourceCapture} {sel : Selection N} (h : Selected pager attempts args capture sel)
    (hcursor : args.cursor = none) : sel.position.Plain ∧ sel.position.offset = 0 := by
  obtain ⟨role, scope, limit, cursor, hrole, hscope, hlimit, hread, hplace⟩ := h.positioned
  rw [hcursor] at hread
  obtain rfl := Except.ok.inj hread
  rw [← Except.ok.inj hplace]
  have hrange := validateLimit_ok hlimit
  exact ⟨⟨validateFilter_ok hrole, validateFilter_ok hscope, hrange.1, hrange.2⟩, rfl⟩

/-! ## The answer -/

/-- What an answer shows: a page its entries, and an error the name and the digest of an entry that
fits no frame. -/
def DiscoverOutcome.Shows (host : DiscoveryHost) (entries : List (Registration N)) :
    DiscoverOutcome N → Prop
  | .page p => p.instances = entries ∧ p.returned = entries.length
  | .error e => ∃ entry, entries = [entry] ∧ e.code = .entryTooLarge ∧
      textOf (lookupMember (js "id") e.data) = some (clipId (regKey entry)) ∧
      textOf (lookupMember (js "entrySha256") e.data) =
        some (js "sha256:" ++ hexText (host.sha256 (Utf8.encode (stringify entry.json))))

/-- The cursor to go on with: `nextCursor` or `resumeCursor`, and `none` inside where there is
nothing more.  There is none at all in a refusal. -/
def DiscoverOutcome.next : DiscoverOutcome N → Option (Option JsString)
  | .page p => some p.nextCursor
  | .error e =>
      if e.code = .entryTooLarge then some (textOf (lookupMember (js "resumeCursor") e.data))
      else none

/-- `total`, of a page or of an error that has one. -/
def DiscoverOutcome.total : DiscoverOutcome N → Option Nat
  | .page p => some p.total
  | .error e => Json.counter? (lookupMember (js "total") e.data)

/-- `generation`, of a page or of an error that has one. -/
def DiscoverOutcome.generation : DiscoverOutcome N → Option JsString
  | .page p => some p.generation
  | .error e => textOf (lookupMember (js "generation") e.data)

/-- The cursor of an offset, where entries follow it. -/
def cursorAfter (pager : Pager σ) (sel : Selection N) (offset : Nat) : Option JsString :=
  if offset < sel.total then some (cursorAt pager sel offset) else none

/-- An answer that goes `n` entries on. -/
structure Answers (pager : Pager σ) (sel : Selection N) (outcome : DiscoverOutcome N) (n : Nat) :
    Prop where
  shows : outcome.Shows pager.host ((sel.sorted.drop sel.position.offset).take n)
  within : sel.position.offset + n ≤ sel.total
  progress : n = 0 → sel.position.offset = sel.total
  next : outcome.next = some (cursorAfter pager sel (sel.position.offset + n))
  total : outcome.total = some sel.total
  generation : outcome.generation = some sel.generation

theorem buildPage_answers (sel : Selection N) {n : Nat}
    (hwithin : sel.position.offset + n ≤ sel.total)
    (hprogress : n = 0 → sel.position.offset = sel.total) :
    Answers pager sel (.page (buildPage pager sel n)) n := by
  refine ⟨⟨rfl, ?_⟩, hwithin, hprogress, ?_, rfl, rfl⟩
  · unfold Selection.total at hwithin
    rw [List.length_take, List.length_drop, buildPage]
    dsimp only
    omega
  · rw [DiscoverOutcome.next, buildPage, cursorAfter]
    by_cases hmore : sel.position.offset + n < sel.total
    · simp [hmore]
    · simp [hmore]

omit [JsonNumber N] in
theorem take_one_of_getElem? {all : List (Registration N)} {offset : Nat} {entry : Registration N}
    (h : all[offset]? = some entry) : (all.drop offset).take 1 = [entry] := by
  obtain ⟨hoffset, hget⟩ := List.getElem?_eq_some_iff.mp h
  rw [List.drop_eq_getElem_cons hoffset, List.take_succ_cons, List.take_zero, hget]

theorem entryTooLarge_answers (sel : Selection N) {entry : Registration N}
    (hentry : sel.sorted[sel.position.offset]? = some entry)
    (recovery : Option PayloadRecoveryRef) :
    Answers pager sel (.error (entryTooLarge pager sel entry recovery)) 1 := by
  have hoffset := (List.getElem?_eq_some_iff.mp hentry).1
  have hnext : textOf (some (textOrNull (resumeCursor pager sel) : Json N)) =
      resumeCursor pager sel := by
    cases resumeCursor pager sel <;> rfl
  have htotal : (DiscoverOutcome.error (entryTooLarge pager sel entry recovery)).total =
      Json.counter? (some (.num (JsonNumber.ofNat sel.total : N))) := rfl
  refine ⟨⟨entry, take_one_of_getElem? hentry, rfl, rfl, rfl⟩, hoffset, nofun,
    congrArg some hnext, ?_, rfl⟩
  rw [htotal, Json.counter?_ofNat]

/-- An answer shows the entries from the offset on, at least one where there is one, and gives the
cursor of what follows them. -/
theorem answer_ok {sel : Selection N} (hplain : sel.position.Plain)
    (hoffset : sel.position.offset ≤ sel.total) {s s' : σ} {outcome : DiscoverOutcome N}
    (h : answer pager sel s = (.ok outcome, s')) : ∃ n, Answers pager sel outcome n := by
  have hlimit := hplain.limit_pos
  unfold answer at h
  split at h
  · rename_i hnone
    obtain ⟨h, -⟩ := Prod.mk.inj h
    refine ⟨0, Except.ok.inj h ▸ buildPage_answers sel (by omega) fun _ => ?_⟩
    unfold maxAvailable at hnone
    omega
  · rename_i hsome
    dsimp only at h
    have havailable : sel.position.offset + (maxAvailable sel).toNat ≤ sel.total := by
      unfold maxAvailable
      omega
    split at h
    · cases h
    · split at h
      · cases h
      · rename_i entry hentry
        obtain ⟨h, -⟩ := Prod.mk.inj h
        exact ⟨1, Except.ok.inj h ▸ entryTooLarge_answers sel hentry _⟩
    · rename_i n hfound
      obtain ⟨h, -⟩ := Prod.mk.inj h
      have hupper := (bisect_ok _ (Nat.zero_le _) (Nat.le_of_eq (Nat.sub_zero _)) hfound).upper
      exact ⟨n + 1, Except.ok.inj h ▸ buildPage_answers sel (by omega) nofun⟩

/-- An answer is no refusal: where a call selects, it answers or throws. -/
theorem answer_or_throws {sel : Selection N} (hplain : sel.position.Plain)
    (hoffset : sel.position.offset ≤ sel.total) (s : σ) :
    (∃ message, (answer pager sel s).1 = .error message) ∨
      ∃ outcome n, (answer pager sel s).1 = .ok outcome ∧ Answers pager sel outcome n := by
  cases h : (answer pager sel s).1 with
  | error message => exact Or.inl ⟨message, rfl⟩
  | ok outcome =>
      have hanswer : answer pager sel s = (.ok outcome, (answer pager sel s).2) := Prod.ext h rfl
      obtain ⟨n, hn⟩ := answer_ok hplain hoffset hanswer
      exact Or.inr ⟨outcome, n, rfl, hn⟩

/-! ## Refusals -/

/-- The errors that stop a call. -/
inductive Refusal (host : DiscoveryHost) : DiscoveryError N → Prop
  | filter : Refusal host invalidFilter
  | limit : Refusal host invalidLimit
  | cursor : Refusal host invalidCursor
  | stale : Refusal host cursorStale
  | changed : Refusal host registryChanged
  | inconsistent (capture : SourceCapture) :
      Refusal host (registryInconsistent (computeGeneration host capture))

omit [JsonNumber N] in
theorem Refusal.code_ne {host : DiscoveryHost} {e : DiscoveryError N} (h : Refusal host e) :
    e.code ≠ .entryTooLarge := by
  cases h <;> exact nofun

/-- What stops a call is a refusal, or an exception. -/
def Refuses {α : Type} (host : DiscoveryHost) (x : Except (Stop N) α) : Prop :=
  ∀ e, x = .error (.refused e) → Refusal host e

section Refuses

variable {host : DiscoveryHost}

omit [JsonNumber N] in
theorem Refuses.bind {α β : Type} {x : Except (Stop N) α} {f : α → Except (Stop N) β}
    (hx : Refuses host x) (hf : ∀ a, Refuses host (f a)) : Refuses host (x >>= f) := by
  cases x with
  | ok a => exact hf a
  | error stop =>
      intro e he
      rw [error_bind] at he
      exact hx e (congrArg Except.error (Except.error.inj he))

omit [JsonNumber N] in
theorem refuses_orThrown {α : Type} (x : Except String α) :
    Refuses host (orThrown x : Except (Stop N) α) := by
  cases x with
  | ok a => exact nofun
  | error message => exact nofun

omit [JsonNumber N] in
theorem refuses_orRefused {α : Type} {x : Except (DiscoveryError N) α}
    (h : ∀ e, x = .error e → Refusal host e) : Refuses host (orRefused x) := by
  cases x with
  | ok a => exact nofun
  | error e =>
      intro e' he'
      obtain rfl := Stop.refused.inj (Except.error.inj he')
      exact h _ rfl

omit [JsonNumber N] in
theorem refuses_orElseRefused {α : Type} (x : Option α) {e : DiscoveryError N}
    (h : Refusal host e) : Refuses host (orElseRefused x e) := by
  refine refuses_orRefused fun e' he' => ?_
  cases x with
  | some a => cases he'
  | none => exact Except.error.inj he' ▸ h

end Refuses

omit [JsonNumber N] in
theorem validateFilter_refuses {value : Option (Json N)} {maxBytes : Nat} {e : DiscoveryError N}
    (h : validateFilter value maxBytes = .error e) : e = invalidFilter := by
  unfold validateFilter at h
  split at h
  · cases h
  · split at h
    · exact (Except.error.inj h).symm
    · split at h
      · exact (Except.error.inj h).symm
      · cases h
  · exact (Except.error.inj h).symm

theorem validateLimit_refuses {value : Option (Json N)} {e : DiscoveryError N}
    (h : validateLimit value = .error e) : e = invalidLimit := by
  unfold validateLimit at h
  split at h
  · cases h
  · split at h
    · split at h
      · exact (Except.error.inj h).symm
      · cases h
    · exact (Except.error.inj h).symm

omit [JsonNumber N] in
theorem validateCursor_refuses {value : Option (Json N)} {e : DiscoveryError N}
    (h : validateCursor value = .error e) : e = invalidCursor := by
  unfold validateCursor at h
  split at h
  · cases h
  · split at h
    · exact (Except.error.inj h).symm
    · cases h
  · exact (Except.error.inj h).symm

theorem position_refuses {args : DiscoverInstancesArgs N} {generation : JsString}
    {role scope : Option JsString} {limit : Option Int} {cursor : Option JsString}
    {e : DiscoveryError N}
    (h : position pager args generation role scope limit cursor = .error e) :
    e = invalidCursor ∨ e = cursorStale := by
  unfold position at h
  split at h
  · cases h
  · split at h
    · rw [← Except.error.inj h, refusal]
      split
      · exact Or.inr rfl
      · exact Or.inl rfl
    · repeat' split at h
      · exact Or.inr (Except.error.inj h).symm
      · exact Or.inl (Except.error.inj h).symm
      · exact Or.inl (Except.error.inj h).symm
      · exact Or.inl (Except.error.inj h).symm
      · cases h

theorem refuses_select (attempts : Nat → CaptureAttempt) (args : DiscoverInstancesArgs N) :
    Refuses pager.host (select pager attempts args) := by
  have hfilter : ∀ (value : Option (Json N)) maxBytes,
      Refuses pager.host (orRefused (validateFilter value maxBytes)) := by
    intro value maxBytes
    exact refuses_orRefused fun e he => validateFilter_refuses he ▸ .filter
  unfold select
  refine (hfilter _ _).bind fun role => (hfilter _ _).bind fun scope => ?_
  refine (refuses_orRefused fun e he => validateLimit_refuses he ▸ .limit).bind fun limit => ?_
  refine (refuses_orRefused fun e he => validateCursor_refuses he ▸ .cursor).bind fun cursor => ?_
  refine (refuses_orThrown _).bind fun captured => ?_
  refine (refuses_orElseRefused _ .changed).bind fun capture => ?_
  refine (refuses_orThrown _).bind fun parsed => ?_
  refine (refuses_orElseRefused _ (.inconsistent capture)).bind fun corpus => ?_
  refine (refuses_orRefused fun e he => ?_).bind fun place => ?_
  · rcases position_refuses he with rfl | rfl
    · exact .cursor
    · exact .stale
  refine (refuses_orThrown _).bind fun all e he => ?_
  split at he
  · obtain rfl := Stop.refused.inj (Except.error.inj he)
    exact .stale
  · cases he

/-- A call that is answered has been refused, or has selected. -/
theorem discover_cases {attempts : Nat → CaptureAttempt} {args : DiscoverInstancesArgs N}
    {s s' : σ} {outcome : DiscoverOutcome N}
    (h : discover pager attempts args s = (.ok outcome, s')) :
    (∃ e, outcome = .error e ∧ Refusal pager.host e) ∨
      ∃ capture sel, Selected pager attempts args capture sel ∧
        answer pager sel s = (.ok outcome, s') := by
  unfold discover at h
  split at h
  · cases h
  · rename_i e hselect
    obtain ⟨h, -⟩ := Prod.mk.inj h
    exact Or.inl ⟨e, (Except.ok.inj h).symm, refuses_select attempts args e hselect⟩
  · rename_i sel hselect
    obtain ⟨capture, hselected⟩ := select_ok hselect
    exact Or.inr ⟨capture, sel, hselected, h⟩

/-- A call that gives a cursor to go on with, or says that there is none, has selected. -/
theorem discover_ok {attempts : Nat → CaptureAttempt} {args : DiscoverInstancesArgs N} {s s' : σ}
    {outcome : DiscoverOutcome N} {next : Option JsString}
    (h : discover pager attempts args s = (.ok outcome, s')) (hnext : outcome.next = some next) :
    ∃ capture sel, Selected pager attempts args capture sel ∧
      answer pager sel s = (.ok outcome, s') := by
  rcases discover_cases h with ⟨e, rfl, hrefusal⟩ | hselected
  · rw [DiscoverOutcome.next, if_neg hrefusal.code_ne] at hnext
    cases hnext
  · exact hselected

end H2a.Mcp.Discovery
