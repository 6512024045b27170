import H2a.Drive.Consent
/-!
# Consent does not depend on the order of the journal

What `projectConsent` answers is a matter of which entries there are: in another order, or
with entries repeated, `ok` and the reason of a denial are the same (`consent_verdict`).
Evidence against consent can only take it away.
-/

namespace H2a.Drive

open H2a.Library H2a.Protocol

variable {N : Type} [JsonNumber N] {platform : ConsentPlatform N} {store : ConsentReader}
  {sender receiver : JsString} {a b : ActorRegistration}

/-! ## What each part returns -/

/-- The event of an entry. -/
def eventOf (sender receiver pairId : JsString) (entry : JournalEntry N) :
    Option (ConsentEvent N) :=
  match readEntry sender receiver pairId entry with
  | .event event => some event
  | _ => none

/-- Whether an event is a valid request; `none` is an error. -/
def requestOf (platform : ConsentPlatform N) (store : ConsentReader) (sender : JsString)
    (a b : ActorRegistration) (event : ConsentEvent N) : Option Bool :=
  if event.hasKind requestKind then (requestValid platform store sender a b event).toOption
  else some false

/-- Whether an event is a valid grant of a request; `none` is an error. -/
def grantOf (platform : ConsentPlatform N) (store : ConsentReader) (receiver : JsString)
    (a b : ActorRegistration) (request : Json N) (event : ConsentEvent N) : Option Bool :=
  if event.hasKind grantKind then
    (grantValid platform store receiver a b request event).toOption
  else some false

/-- Whether an event revokes the pair at `now`. -/
def revokes (platform : ConsentPlatform N) (store : ConsentReader) (sender receiver : JsString)
    (a b : ActorRegistration) (now : ℚ) (event : ConsentEvent N) : Bool :=
  event.isPairRevocation && pairRevocationValid platform store sender receiver a b event &&
    isBefore now (instant platform (event.body.payload.get (js "notAfter")))

/-- Whether an event ends what it is related to. -/
def terminates (platform : ConsentPlatform N) (store : ConsentReader) (kind : JsString)
    (parties : List JsString) (event : ConsentEvent N) : Bool :=
  event.hasKind kind && signedByParty platform store event parties &&
    (instant platform (event.body.payload.get (js "at"))).isSome

/-- The hash of what is granted. -/
def hashOf (platform : ConsentPlatform N) (event : ConsentEvent N) : Option JsString :=
  (computeHash platform.sha256 event.body.payload).toOption

/-- What `settleGrants` returns. -/
def settled (platform : ConsentPlatform N) (store : ConsentReader) (receiver : JsString)
    (b : ActorRegistration) (now : ℚ) (request : Json N) (related grants : List (ConsentEvent N)) :
    Option ConsentDecision :=
  (whereAll grants (hashOf platform) (grants.filterMap (hashOf platform))).bind fun hashes =>
    if 1 < hashes.toFinset.card then some (.denied .consentInvalid)
    else
      match grants with
      | [] => some (.denied (withoutGrant platform store receiver b now request related))
      | g :: _ => (withGrant platform store b now request g.body.payload grants).toOption

/-- What `decideRequest` returns. -/
def decided (platform : ConsentPlatform N) (store : ConsentReader) (sender receiver : JsString)
    (a b : ActorRegistration) (now : ℚ) (events : List (ConsentEvent N))
    (request : ConsentEvent N) : Option ConsentDecision :=
  (hashOf platform request).bind fun hash =>
    let related := events.filter (isRelated request.body.payload hash)
    if related.any (terminates platform store revocationKind [receiver, sender]) then
      some (.denied .consentRevoked)
    else if related.any (terminates platform store refusalKind [receiver]) then
      some (.denied .consentRefused)
    else
      let granted := grantOf platform store receiver a b request.body.payload
      (whereAll related granted (related.filter fun e => granted e == some true)).bind fun grants =>
        settled platform store receiver b now request.body.payload related grants

/-- What `judge` returns on the events. -/
def judged (platform : ConsentPlatform N) (store : ConsentReader) (sender receiver : JsString)
    (a b : ActorRegistration) (now : ℚ) (events : List (ConsentEvent N)) :
    Option (ConsentDecision × Nat) :=
  let requested := requestOf platform store sender a b
  (whereAll events requested (events.filter fun e => requested e == some true)).bind fun requests =>
    if requests.isEmpty then
      some (.denied (if events.isEmpty then .unauthorized else .consentInvalid), 0)
    else if events.any (revokes platform store sender receiver a b now) then
      some (.denied .consentRevoked, requests.length)
    else
      let decide := decided platform store sender receiver a b now events
      (whereAll requests decide (requests.filterMap decide)).map fun decisions =>
        (choose decisions, requests.length)

omit [JsonNumber N] in
theorem checked_returns (entry : JournalEntry N) (valid : Bool) :
    Returns (checked entry valid) (some valid) := by
  cases valid with
  | true => exact Returns.pure true
  | false => exact (Returns.modify _).bind fun _ _ => Returns.pure false

theorem collectEvent_returns (pairId : JsString) (entry : JournalEntry N) :
    Returns (collectEvent sender receiver pairId entry)
      (some (eventOf sender receiver pairId entry)) := by
  unfold collectEvent eventOf
  cases readEntry sender receiver pairId entry with
  | audit => exact Returns.pure none
  | anomaly => exact (Returns.modify _).bind fun _ _ => Returns.pure none
  | event event => exact Returns.pure (some event)

theorem isRequest_returns (event : ConsentEvent N) :
    Returns (isRequest platform store sender a b event)
      (requestOf platform store sender a b event) := by
  apply Returns.ite
  · have hall := (Returns.lift (requestValid platform store sender a b event)).bind
      fun valid _ => checked_returns event.entry valid
    rwa [Option.bind_fun_some] at hall
  · exact Returns.pure false

theorem isGrant_returns (request : Json N) (event : ConsentEvent N) :
    Returns (isGrant platform store receiver a b request event)
      (grantOf platform store receiver a b request event) := by
  apply Returns.ite
  · have hall := (Returns.lift (grantValid platform store receiver a b request event)).bind
      fun valid _ => checked_returns event.entry valid
    rwa [Option.bind_fun_some] at hall
  · exact Returns.pure false

theorem revokesPair_returns (now : ℚ) (event : ConsentEvent N) :
    Returns (revokesPair platform store sender receiver a b now event)
      (some (revokes platform store sender receiver a b now event)) := by
  unfold revokesPair revokes
  cases event.isPairRevocation with
  | true =>
      rw [if_pos rfl, Bool.true_and]
      exact (checked_returns event.entry _).bindSome (Returns.pure _)
  | false => exact Returns.pure false

theorem isTerminal_returns (kind : JsString) (parties : List JsString) (event : ConsentEvent N) :
    Returns (isTerminal platform store kind parties event)
      (some (terminates platform store kind parties event)) := by
  unfold isTerminal terminates
  cases event.hasKind kind with
  | true =>
      rw [if_pos rfl, Bool.true_and]
      exact checked_returns event.entry _
  | false => exact Returns.pure false

theorem settleGrants_returns (now : ℚ) (request : Json N) (related grants : List (ConsentEvent N)) :
    Returns (settleGrants platform store receiver b now request related grants)
      (settled platform store receiver b now request related grants) := by
  apply (Returns.mapM fun g _ => Returns.lift (computeHash platform.sha256 g.body.payload)).bind
  intro hashes _
  apply Returns.ite (Returns.pure _)
  cases grants with
  | nil => exact Returns.pure _
  | cons g grants => exact Returns.lift _

theorem decideRequest_returns (now : ℚ) (events : List (ConsentEvent N))
    (request : ConsentEvent N) :
    Returns (decideRequest platform store sender receiver a b now events request)
      (decided platform store sender receiver a b now events request) := by
  apply (Returns.lift (computeHash platform.sha256 request.body.payload)).bind
  intro hash _
  have hrevoked : Returns
      ((events.filter (isRelated request.body.payload hash)).anyM
        (isTerminal platform store revocationKind [receiver, sender])) _ :=
    Returns.anyM fun e _ => isTerminal_returns _ _ e
  have hrefused : Returns
      ((events.filter (isRelated request.body.payload hash)).anyM
        (isTerminal platform store refusalKind [receiver])) _ :=
    Returns.anyM fun e _ => isTerminal_returns _ _ e
  apply hrevoked.bindSome
  apply Returns.ite (Returns.pure _)
  apply hrefused.bindSome
  apply Returns.ite (Returns.pure _)
  apply (Returns.filterM fun e _ => isGrant_returns request.body.payload e).bind
  intro grants _
  exact settleGrants_returns now request.body.payload _ grants

theorem judge_returns (now : ℚ) (pairId : JsString)
    (hpair : consentPairId platform sender receiver = .ok pairId)
    (entries : List (JournalEntry N)) :
    Returns (judge platform store sender receiver a b now entries)
      (judged platform store sender receiver a b now
        (entries.filterMap (eventOf sender receiver pairId))) := by
  have hpairId : Returns (liftM (consentPairId platform sender receiver) : ConsentM JsString)
      (some pairId) := by
    intro log
    rw [hpair]
    rfl
  unfold judge
  apply hpairId.bindSome
  apply (Returns.filterMapM fun e _ => collectEvent_returns pairId e).bindSome
  apply (Returns.filterM fun e _ => isRequest_returns e).bind
  intro requests _
  apply Returns.ite (Returns.pure _)
  apply (Returns.anyM fun e _ => revokesPair_returns now e).bindSome
  apply Returns.ite (Returns.pure _)
  exact (Returns.mapM fun r _ => decideRequest_returns now _ r).bindPure fun decisions =>
    (choose decisions, requests.length)

/-! ## What a text tells -/

omit [JsonNumber N] in
theorem textOf_ordered_dropProto (value : Option (Json N)) :
    textOf ((value.map dropProto).map Json.ordered) = textOf value := by
  cases value with
  | none => rfl
  | some v =>
      cases v with
      | arr es => simp [dropProto_arr, Json.ordered_arr, textOf]
      | obj ms => simp [dropProto_obj, Json.ordered_obj, textOf]
      | _ => rfl

/-- Members of two values with one canonical text are the same texts. -/
theorem textOf_get_of_text {v w : Json N} {t : List Char} (hv : canonicalize v = .ok t)
    (hw : canonicalize w = .ok t) (hdistinctv : v.Distinct) (hdistinctw : w.Distinct)
    {k : JsString} (hk : k ≠ protoKey) : textOf (v.get k) = textOf (w.get k) := by
  have hsame := (canonicalize_eq_iff (canonicalize_eq_ok.mp hv).1
    (canonicalize_eq_ok.mp hw).1).mp (hv.trans hw.symm)
  have hread : ∀ {j : Json N}, j.Distinct →
      textOf ((dropProto j).ordered.get k) = textOf (j.get k) := by
    intro j hj
    cases j with
    | obj members =>
        have hnodup : ((members.map fun m => (m.1, dropProto m.2)).map Prod.fst).Nodup := by
          rw [List.map_map]
          exact ((Json.distinct_obj members).mp hj).1
        have herased : ((eraseMember protoKey
            (members.map fun m => (m.1, dropProto m.2))).map Prod.fst).Nodup :=
          nodup_filter _ hnodup
        rw [dropProto_obj, Json.get_ordered herased, lookupMember_eraseMember, if_neg hk,
          lookupMember_mapValues, textOf_ordered_dropProto]
        rfl
    | arr es =>
        rw [dropProto_arr, Json.ordered_arr]
        rfl
    | _ => rfl
  rw [← hread hdistinctv, ← hread hdistinctw, hsame]

theorem verifyCanonical_of_text {v w : Json N} (h : canonicalize v = canonicalize w)
    (signature pem : Json N) :
    verifyCanonical platform.crypto v signature pem =
      verifyCanonical platform.crypto w signature pem := by
  unfold verifyCanonical
  rw [h]

theorem verified_of_text {v w : Json N} (h : canonicalize v = canonicalize w)
    (signature : Option (Json N)) (signer : JsString) (historical : Bool) :
    verified platform store v signature signer historical =
      verified platform store w signature signer historical := by
  unfold verified
  simp only [verifyCanonical_of_text h]

/-- What is signed has a text. -/
theorem text_of_verified {v : Json N} {signature : Option (Json N)} {signer : JsString}
    {historical : Bool} (h : verified platform store v signature signer historical = true) :
    ∃ t, canonicalize v = .ok t := by
  cases signature with
  | none => cases h
  | some signature =>
      obtain ⟨-, hany⟩ := (Bool.and_eq_true _ _).mp h
      obtain ⟨key, -, hkey⟩ := List.any_eq_true.mp hany
      split at hkey
      next valid hvalid =>
        subst hkey
        obtain ⟨-, -, t, -, -, ht, -⟩ := verifyCanonical_eq_true.mp hvalid
        exact ⟨t, ht⟩
      next => cases hkey

/-! ## The same events -/

omit [JsonNumber N] in
theorem instant_of_text {v w : Option (Json N)} (h : textOf v = textOf w) :
    instant platform v = instant platform w := by
  unfold instant
  rw [h]

/-- Two grants with one hash are decided alike. -/
theorem withGrant_of_hash (hsha256 : Function.Injective platform.sha256) (now : ℚ)
    (request : Json N) {g g' : Json N} (hg : g.Distinct) (hg' : g'.Distinct) {hash : JsString}
    (hhash : computeHash platform.sha256 g = .ok hash)
    (hhash' : computeHash platform.sha256 g' = .ok hash) {grants grants' : List (ConsentEvent N)}
    (hsame : ∀ e, e ∈ grants ↔ e ∈ grants') :
    withGrant platform store b now request g grants =
      withGrant platform store b now request g' grants' := by
  obtain ⟨t, ht, rfl⟩ := computeHash_eq_ok.mp hhash
  obtain ⟨t', ht', htext⟩ := computeHash_eq_ok.mp hhash'
  obtain rfl : t = t' := hash_injective hsha256 htext
  have htextOf : ∀ {k : JsString}, k ≠ protoKey → textOf (g.get k) = textOf (g'.get k) :=
    fun hk => textOf_get_of_text ht ht' hg hg' hk
  have hnotAfter := htextOf (k := js "notAfter") (by decide)
  have hnotBefore := htextOf (k := js "notBefore") (by decide)
  have hverified : ∀ principal (grant : ConsentEvent N),
      verified platform store g grant.body.coSignature principal false =
        verified platform store g' grant.body.coSignature principal false :=
    fun _ _ => verified_of_text (ht.trans ht'.symm) _ _ _
  unfold withGrant accept
  rw [instant_of_text hnotAfter, instant_of_text hnotBefore, hnotAfter, hhash, hhash']
  simp only [hverified, any_eq_of_same hsame]

theorem withoutGrant_of_same (now : ℚ) (request : Json N)
    {related related' : List (ConsentEvent N)} (hsame : ∀ e, e ∈ related ↔ e ∈ related') :
    withoutGrant platform store receiver b now request related =
      withoutGrant platform store receiver b now request related' := by
  unfold withoutGrant
  simp only [any_eq_of_same hsame]

theorem settled_of_same (hsha256 : Function.Injective platform.sha256) (now : ℚ)
    (request : Json N) {related related' grants grants' : List (ConsentEvent N)}
    (hrelated : ∀ e, e ∈ related ↔ e ∈ related') (hgrants : ∀ e, e ∈ grants ↔ e ∈ grants')
    (hdistinct : ∀ e ∈ grants, e.body.payload.Distinct) :
    settled platform store receiver b now request related grants =
      settled platform store receiver b now request related' grants' := by
  unfold settled
  rw [bind_whereAll, bind_whereAll, all_eq_of_same hgrants]
  split
  next hall =>
    have hhashes : (grants.filterMap (hashOf platform)).toFinset =
        (grants'.filterMap (hashOf platform)).toFinset := by
      ext hash
      rw [List.mem_toFinset, List.mem_toFinset, filterMap_same hgrants]
    rw [hhashes]
    split
    next => rfl
    next hone =>
      cases grants with
      | nil =>
          cases grants' with
          | nil => rw [withoutGrant_of_same now request hrelated]
          | cons g' gs' => exact absurd ((hgrants g').mpr List.mem_cons_self) List.not_mem_nil
      | cons g gs =>
          cases grants' with
          | nil => exact absurd ((hgrants g).mp List.mem_cons_self) List.not_mem_nil
          | cons g' gs' =>
              have hmem : g ∈ g' :: gs' := (hgrants g).mp List.mem_cons_self
              have hmem' : g' ∈ g :: gs := (hgrants g').mpr List.mem_cons_self
              obtain ⟨hash, hhash⟩ := Option.isSome_iff_exists.mp (List.all_eq_true.mp hall g hmem)
              obtain ⟨hash', hhash'⟩ := Option.isSome_iff_exists.mp
                (List.all_eq_true.mp hall g' List.mem_cons_self)
              obtain rfl : hash = hash' := by
                apply Finset.card_le_one.mp (Nat.le_of_not_lt hone)
                · exact List.mem_toFinset.mpr (List.mem_filterMap.mpr ⟨g, hmem, hhash⟩)
                · exact List.mem_toFinset.mpr
                    (List.mem_filterMap.mpr ⟨g', List.mem_cons_self, hhash'⟩)
              exact congrArg Except.toOption (withGrant_of_hash hsha256 now request
                (hdistinct g List.mem_cons_self) (hdistinct g' hmem')
                (toOption_eq_some.mp hhash) (toOption_eq_some.mp hhash') hgrants)
  next => rfl

theorem decided_of_same (hsha256 : Function.Injective platform.sha256) (now : ℚ)
    {events events' : List (ConsentEvent N)} (hsame : ∀ e, e ∈ events ↔ e ∈ events')
    (hdistinct : ∀ e ∈ events, e.body.payload.Distinct) (request : ConsentEvent N) :
    decided platform store sender receiver a b now events request =
      decided platform store sender receiver a b now events' request := by
  unfold decided
  apply Option.bind_congr
  intro hash _
  have hrelated := filter_same hsame (isRelated request.body.payload hash)
  simp only [any_eq_of_same hrelated, bind_whereAll, all_eq_of_same hrelated]
  split_ifs
  · rfl
  · rfl
  · apply settled_of_same hsha256 now request.body.payload hrelated (filter_same hrelated _)
    exact fun e he => hdistinct e (List.mem_of_mem_filter (List.mem_of_mem_filter he))
  · rfl

/-! ## Choosing -/

theorem find_reason (decisions : List ConsentDecision) (reason : Option ConsentReason) :
    (decisions.find? fun d => d.reason? == reason).map ConsentDecision.reason? =
      if decisions.any fun d => d.reason? == reason then some reason else none := by
  cases h : decisions.find? fun d => d.reason? == reason with
  | none =>
      have hnone := List.find?_eq_none.mp h
      rw [if_neg]
      · rfl
      · rw [List.any_eq_true]
        exact fun ⟨d, hd, hreason⟩ => hnone d hd hreason
  | some d =>
      have hreason := List.find?_some h
      rw [if_pos (List.any_eq_true.mpr ⟨d, List.mem_of_find?_eq_some h, hreason⟩)]
      exact congrArg some (eq_of_beq hreason)

/-- The reason that is chosen, from the reasons there are. -/
theorem choose_reason (decisions : List ConsentDecision) :
    (choose decisions).reason? =
      if decisions.any fun d => d.reason? == none then none
      else
        (priority.findSome? fun reason =>
          if decisions.any fun d => d.reason? == some reason then some (some reason)
          else none).getD (some .consentInvalid) := by
  have hfirst := find_reason decisions none
  unfold choose
  cases h : decisions.find? fun d => d.reason? == none with
  | some d =>
      rw [h, Option.map_some] at hfirst
      split at hfirst
      next hany =>
        rw [if_pos hany]
        exact Option.some.inj hfirst
      next => cases hfirst
  | none =>
      rw [h, Option.map_none] at hfirst
      split at hfirst
      next => cases hfirst
      next hany =>
        rw [if_neg hany]
        change ((priority.findSome? fun reason =>
          decisions.find? fun d => d.reason? == some reason).getD _).reason? = _
        rw [← Option.getD_map ConsentDecision.reason?, List.map_findSome?]
        apply congrArg (Option.getD · (some ConsentReason.consentInvalid))
        apply congrArg (List.findSome? · priority)
        funext reason
        exact find_reason decisions (some reason)

theorem choose_reason_of_same {decisions decisions' : List ConsentDecision}
    (hsame : ∀ d, d ∈ decisions ↔ d ∈ decisions') :
    (choose decisions).reason? = (choose decisions').reason? := by
  rw [choose_reason, choose_reason]
  simp only [any_eq_of_same hsame]

theorem choose_ok_iff (decisions : List ConsentDecision) :
    (choose decisions).reason? = none ↔ ∃ d ∈ decisions, d.reason? = none := by
  have hany : (decisions.any fun d => d.reason? == none) = true ↔
      ∃ d ∈ decisions, d.reason? = none := by
    simp only [List.any_eq_true, beq_iff_eq]
  rw [choose_reason, ← hany]
  split
  next hok => exact iff_of_true rfl hok
  next hok =>
    apply iff_of_false _ hok
    cases h : priority.findSome? fun reason =>
      if decisions.any fun d => d.reason? == some reason then some (some reason) else none with
    | none => exact Option.some_ne_none _
    | some r =>
        obtain ⟨reason, -, hreason⟩ := List.exists_of_findSome?_eq_some h
        split at hreason
        next =>
          cases hreason
          exact Option.some_ne_none _
        next => cases hreason

theorem judged_of_same (hsha256 : Function.Injective platform.sha256) (now : ℚ)
    {events events' : List (ConsentEvent N)} (hsame : ∀ e, e ∈ events ↔ e ∈ events')
    (hdistinct : ∀ e ∈ events, e.body.payload.Distinct) :
    (judged platform store sender receiver a b now events).map (fun j => j.1.reason?) =
      (judged platform store sender receiver a b now events').map (fun j => j.1.reason?) := by
  have hempty : ∀ {α : Type} {l l' : List α}, (∀ x, x ∈ l ↔ x ∈ l') → l.isEmpty = l'.isEmpty := by
    intro α l l' h
    rw [Bool.eq_iff_iff, List.isEmpty_iff, List.isEmpty_iff, List.eq_nil_iff_forall_not_mem,
      List.eq_nil_iff_forall_not_mem]
    exact forall_congr' fun x => not_congr (h x)
  have hdecided : ∀ request, decided platform store sender receiver a b now events request =
      decided platform store sender receiver a b now events' request :=
    decided_of_same hsha256 now hsame hdistinct
  have hrequests := filter_same hsame fun e => requestOf platform store sender a b e == some true
  unfold judged
  simp only [bind_whereAll, all_eq_of_same hsame, any_eq_of_same hsame, hempty hsame,
    hempty hrequests]
  split_ifs
  · rfl
  · rfl
  · rfl
  · have hdecide : decided platform store sender receiver a b now events =
        decided platform store sender receiver a b now events' := funext hdecided
    rw [Option.map_map, Option.map_map, map_whereAll, map_whereAll, hdecide, whereAll, whereAll,
      all_eq_of_same hrequests]
    have hchosen := choose_reason_of_same
      (filterMap_same hrequests (decided platform store sender receiver a b now events'))
    simp only [Function.comp, hchosen]
  · rfl

/-! ## More events -/

/-- What can only be the right party's own doing: a request it signed, or a grant. -/
def IsSigned (platform : ConsentPlatform N) (store : ConsentReader) (sender receiver : JsString)
    (event : ConsentEvent N) : Prop :=
  (event.hasKind requestKind = true ∧
      verified platform store event.body.payload (some event.body.signature) sender true = true) ∨
    event.hasKind grantKind = true ∧
      verified platform store event.body.payload (some event.body.signature) receiver false = true

theorem isSigned_of_requestOf {event : ConsentEvent N}
    (h : requestOf platform store sender a b event = some true) :
    IsSigned platform store sender receiver event := by
  unfold requestOf at h
  split at h
  next hkind =>
    have hvalid := toOption_eq_some.mp h
    unfold requestValid at hvalid
    dsimp only at hvalid
    split at hvalid
    next =>
      obtain ⟨sameScope, -, hall⟩ := bind_eq_ok_iff.mp hvalid
      have hverified := ((Bool.and_eq_true _ _).mp (Except.ok.inj hall)).2
      exact Or.inl ⟨hkind, hverified⟩
    next => cases hvalid
  next => cases h

theorem isSigned_of_grantOf {request : Json N} {event : ConsentEvent N}
    (h : grantOf platform store receiver a b request event = some true) :
    IsSigned platform store sender receiver event := by
  unfold grantOf at h
  split at h
  next hkind =>
    have hvalid := toOption_eq_some.mp h
    unfold grantValid at hvalid
    dsimp only at hvalid
    split at hvalid
    next =>
      obtain ⟨sameScope, -, hall⟩ := bind_eq_ok_iff.mp hvalid
      have hverified := ((Bool.and_eq_true _ _).mp (Except.ok.inj hall)).2
      exact Or.inr ⟨hkind, hverified⟩
    next => cases hvalid
  next => cases h

/-- A grant that is accepted is accepted whatever else there is. -/
theorem settled_ok {now : ℚ} {request : Json N} {related grants : List (ConsentEvent N)}
    {decision : ConsentDecision} (hok : decision.reason? = none)
    (h : settled platform store receiver b now request related grants = some decision)
    (others : List (ConsentEvent N)) :
    settled platform store receiver b now request others grants = some decision := by
  unfold settled at h ⊢
  rw [bind_whereAll] at h ⊢
  split at h
  next hall =>
    rw [if_pos hall]
    split at h
    next =>
      cases h
      cases hok
    next hone =>
      rw [if_neg hone]
      cases grants with
      | nil =>
          cases h
          cases hok
      | cons g gs => exact h
  next => cases h

section More

variable {events events' : List (ConsentEvent N)} (hsub : ∀ e ∈ events, e ∈ events')
  (hmore : ∀ e ∈ events', IsSigned platform store sender receiver e → e ∈ events)

include hsub hmore in
/-- A request that is granted still is without the evidence that is not signed. -/
theorem decided_ok_of_more (hsha256 : Function.Injective platform.sha256) (now : ℚ)
    (hdistinct : ∀ e ∈ events', e.body.payload.Distinct) {request : ConsentEvent N}
    {decision : ConsentDecision} (hok : decision.reason? = none)
    (h : decided platform store sender receiver a b now events' request = some decision) :
    decided platform store sender receiver a b now events request = some decision := by
  have hany : ∀ hash (p : ConsentEvent N → Bool),
      ¬(events'.filter (isRelated request.body.payload hash)).any p = true →
        ¬(events.filter (isRelated request.body.payload hash)).any p = true := by
    intro hash p hno hyes
    obtain ⟨e, he, hp⟩ := List.any_eq_true.mp hyes
    obtain ⟨he, hrelated⟩ := List.mem_filter.mp he
    exact hno (List.any_eq_true.mpr ⟨e, List.mem_filter.mpr ⟨hsub e he, hrelated⟩, hp⟩)
  unfold decided at h ⊢
  obtain ⟨hash, hhash, h⟩ := Option.bind_eq_some_iff.mp h
  rw [hhash, Option.bind_some]
  dsimp only at h ⊢
  split at h
  next =>
    cases h
    cases hok
  next hrevoked =>
    rw [if_neg (hany hash _ hrevoked)]
    split at h
    next =>
      cases h
      cases hok
    next hrefused =>
      rw [if_neg (hany hash _ hrefused)]
      rw [bind_whereAll] at h ⊢
      split at h
      next hall =>
        rw [if_pos]
        · have hgrants : ∀ e, e ∈ (events.filter (isRelated request.body.payload hash)).filter
              (grantOf platform store receiver a b request.body.payload · == some true) ↔
              e ∈ (events'.filter (isRelated request.body.payload hash)).filter
                (grantOf platform store receiver a b request.body.payload · == some true) := by
            intro e
            simp only [List.mem_filter]
            constructor
            · rintro ⟨⟨he, hrelated⟩, hgrant⟩
              exact ⟨⟨hsub e he, hrelated⟩, hgrant⟩
            · rintro ⟨⟨he, hrelated⟩, hgrant⟩
              exact ⟨⟨hmore e he (isSigned_of_grantOf (eq_of_beq hgrant)), hrelated⟩, hgrant⟩
          have hsettled := settled_ok hok h (events.filter (isRelated request.body.payload hash))
          rw [← hsettled]
          apply settled_of_same hsha256 now request.body.payload (fun _ => Iff.rfl) hgrants
          intro e he
          exact hdistinct e (hsub e (List.mem_of_mem_filter (List.mem_of_mem_filter he)))
        · apply List.all_eq_true.mpr
          intro e he
          obtain ⟨he, hrelated⟩ := List.mem_filter.mp he
          exact List.all_eq_true.mp hall e (List.mem_filter.mpr ⟨hsub e he, hrelated⟩)
      next => cases h

include hsub hmore in
/-- What the evidence that is not signed leaves accepted was accepted without it. -/
theorem judged_ok_of_more (hsha256 : Function.Injective platform.sha256) (now : ℚ)
    (hdistinct : ∀ e ∈ events', e.body.payload.Distinct) {judgement judgement' : ConsentDecision × Nat}
    (h : judged platform store sender receiver a b now events = some judgement)
    (h' : judged platform store sender receiver a b now events' = some judgement')
    (hok : judgement'.1.reason? = none) : judgement.1.reason? = none := by
  unfold judged at h h'
  dsimp only at h h'
  rw [bind_whereAll] at h h'
  split at h'
  next hall' =>
    split at h'
    next =>
      cases h'
      cases hok
    next hsome' =>
      split at h'
      next =>
        cases h'
        cases hok
      next hrevoked' =>
        obtain ⟨decisions', hdecisions', rfl⟩ := Option.map_eq_some_iff.mp h'
        obtain ⟨-, rfl⟩ := whereAll_eq_some.mp hdecisions'
        obtain ⟨decision, hmem, hdecision⟩ := (choose_ok_iff _).mp hok
        obtain ⟨request, hrequest, hdecided⟩ := List.mem_filterMap.mp hmem
        obtain ⟨hevent', hvalid⟩ := List.mem_filter.mp hrequest
        have hevent := hmore request hevent' (isSigned_of_requestOf (eq_of_beq hvalid))
        have hrequest' : request ∈ events.filter fun e =>
            requestOf platform store sender a b e == some true :=
          List.mem_filter.mpr ⟨hevent, hvalid⟩
        have hdecided' := decided_ok_of_more hsub hmore hsha256 now hdistinct hdecision hdecided
        have hrevoked : ¬events.any (revokes platform store sender receiver a b now) = true := by
          intro hany
          obtain ⟨e, he, hrevokes⟩ := List.any_eq_true.mp hany
          exact hrevoked' (List.any_eq_true.mpr ⟨e, hsub e he, hrevokes⟩)
        have hall : (events.all fun e => (requestOf platform store sender a b e).isSome) = true :=
          List.all_eq_true.mpr fun e he => List.all_eq_true.mp hall' e (hsub e he)
        have hnonempty : ¬(events.filter fun e =>
            requestOf platform store sender a b e == some true).isEmpty = true :=
          fun hempty => List.ne_nil_of_mem hrequest' (List.isEmpty_iff.mp hempty)
        rw [if_pos hall, if_neg hnonempty, if_neg hrevoked] at h
        obtain ⟨decisions, hdecisions, rfl⟩ := Option.map_eq_some_iff.mp h
        obtain ⟨-, rfl⟩ := whereAll_eq_some.mp hdecisions
        exact (choose_ok_iff _).mpr
          ⟨decision, List.mem_filterMap.mpr ⟨request, hrequest', hdecided'⟩, hdecision⟩
  next => cases h'

end More

omit [JsonNumber N] in
theorem ConsentEvent.kind_unique {event : ConsentEvent N} {kind kind' : JsString}
    (h : event.hasKind kind = true) (h' : event.hasKind kind' = true) : kind = kind' := by
  unfold ConsentEvent.hasKind Json.isText at h h'
  split at h
  next text htext =>
    rw [htext] at h'
    exact (eq_of_beq h).symm.trans (eq_of_beq h')
  next => cases h

/-- A revocation in force ends every decision on a valid request. -/
theorem judged_revoked {events events' : List (ConsentEvent N)} {now : ℚ}
    (hsub : ∀ e ∈ events, e ∈ events') {event : ConsentEvent N} (hevent : event ∈ events')
    (hmore : ∀ e ∈ events', e ∈ events ∨ e = event)
    (hrevokes : revokes platform store sender receiver a b now event = true)
    {judgement : ConsentDecision × Nat}
    (h : judged platform store sender receiver a b now events = some judgement)
    (hrequests : 0 < judgement.2) :
    ∃ requests, judged platform store sender receiver a b now events' =
      some (.denied .consentRevoked, requests) := by
  have hkind : event.hasKind revocationKind = true :=
    ((Bool.and_eq_true _ _).mp ((Bool.and_eq_true _ _).mp ((Bool.and_eq_true _ _).mp hrevokes).1).1).1
  have hnoRequest : requestOf platform store sender a b event = some false := by
    apply if_neg
    intro hrequest
    exact absurd (ConsentEvent.kind_unique hkind hrequest) (by decide)
  unfold judged at h ⊢
  dsimp only at h ⊢
  rw [bind_whereAll] at h ⊢
  split at h
  next hall =>
    rw [if_pos]
    · have hnonempty : ¬(events'.filter fun e =>
          requestOf platform store sender a b e == some true).isEmpty = true := by
        split at h
        next =>
          cases h
          cases hrequests
        next hnonempty =>
          obtain ⟨request, hrequest⟩ := List.exists_mem_of_ne_nil _
            fun hnil => hnonempty (List.isEmpty_iff.mpr hnil)
          obtain ⟨hmem, hvalid⟩ := List.mem_filter.mp hrequest
          have hrequest' : request ∈ events'.filter fun e =>
              requestOf platform store sender a b e == some true :=
            List.mem_filter.mpr ⟨hsub request hmem, hvalid⟩
          exact fun hempty => List.ne_nil_of_mem hrequest' (List.isEmpty_iff.mp hempty)
      rw [if_neg hnonempty, if_pos (List.any_eq_true.mpr ⟨event, hevent, hrevokes⟩)]
      exact ⟨_, rfl⟩
    · apply List.all_eq_true.mpr
      intro e he
      rcases hmore e he with he | rfl
      · exact List.all_eq_true.mp hall e he
      · rw [hnoRequest]
        rfl
  next => cases h

/-! ## The projection -/

/-- What an answer says: that it is `ok`, or why it is not; `none` where there is no answer. -/
def verdict (answer : Except String ConsentProjection) : Option (Option ConsentReason) :=
  answer.toOption.map fun p => p.decision.reason?

/-- An entry that is a request of the sender or a grant of the receiver, and signed as one. -/
def SignedByRightParty (platform : ConsentPlatform N) (store : ConsentReader)
    (sender receiver : JsString) (entry : JournalEntry N) : Prop :=
  ∃ body, evidence entry.body = some body ∧
    IsSigned platform store sender receiver ⟨body, entry⟩

/-- An entry that revokes the pair by the signature of a party, and is in force at `now`. -/
def RevokesPair (platform : ConsentPlatform N) (store : ConsentReader) (sender receiver : JsString)
    (now : Option ℚ) (entry : JournalEntry N) : Prop :=
  ∃ time a b pairId event, now = some time ∧ store.findInstance sender = some a ∧
    store.findInstance receiver = some b ∧ consentPairId platform sender receiver = .ok pairId ∧
    readEntry sender receiver pairId entry = .event event ∧
    revokes platform store sender receiver a b time event = true

theorem consentPairId_ok : ∃ pairId, consentPairId platform sender receiver = .ok pairId := by
  have hfinite : AllFinite
      (.obj [(js "from", .str sender), (js "to", .str receiver)] : Json N) := by
    rw [allFinite_obj]
    intro m hm
    rcases List.mem_pair.mp (mem_ofMembers hm) with rfl | rfl
    · trivial
    · trivial
  obtain ⟨hash, hhash⟩ : ∃ hash, computeHash platform.sha256
      (.obj [(js "from", .str sender), (js "to", .str receiver)] : Json N) = .ok hash :=
    ⟨_, computeHash_eq_ok.mpr ⟨_, canonicalize_eq_ok.mpr ⟨hfinite, rfl⟩, rfl⟩⟩
  exact ⟨js "drive-consent:" ++ hash, bind_eq_ok_iff.mpr ⟨hash, hhash, rfl⟩⟩

/-- What is projected, between two registered parties. -/
theorem projected {now : ℚ} (ha : store.findInstance sender = some a)
    (hb : store.findInstance receiver = some b) {pairId : JsString}
    (hpair : consentPairId platform sender receiver = .ok pairId)
    (entries : List (JournalEntry N)) :
    (projectConsent platform store sender receiver entries (some now)).toOption.map
        (fun p => (p.decision, p.requests)) =
      judged platform store sender receiver a b now
        (entries.filterMap (eventOf sender receiver pairId)) := by
  have hjudge : Returns (judge platform store sender receiver a b now entries) _ :=
    judge_returns now pairId hpair entries
  have hrun := hjudge []
  unfold projectConsent
  rw [ha, hb]
  dsimp only
  cases h : (judge platform store sender receiver a b now entries).run [] with
  | error e =>
      rw [h] at hrun
      exact hrun
  | ok p =>
      rw [h] at hrun
      exact hrun

omit [JsonNumber N] in
theorem distinct_of_evidence {x : Json N} (hx : x.Distinct) {body : ConsentEvidence N}
    (h : evidence x = some body) : body.payload.Distinct := by
  unfold evidence at h
  split at h
  next kind payload signature hkind hpayload hsignature =>
    split at h
    next =>
      cases h
      exact distinct_get hx hpayload
    next => cases h
  next => cases h

theorem eventOf_eq_some {pairId : JsString} {entry : JournalEntry N} {event : ConsentEvent N} :
    eventOf sender receiver pairId entry = some event ↔
      readEntry sender receiver pairId entry = .event event := by
  unfold eventOf
  cases readEntry sender receiver pairId entry with
  | audit => simp
  | anomaly => simp
  | event event' => simp

theorem evidence_of_readEntry {pairId : JsString} {entry : JournalEntry N} {event : ConsentEvent N}
    (h : readEntry sender receiver pairId entry = .event event) :
    event.entry = entry ∧ evidence entry.body = some event.body := by
  unfold readEntry at h
  split at h
  next => cases h
  next =>
    split at h
    next => cases h
    next body hbody =>
      split at h
      next =>
        cases h
        exact ⟨rfl, hbody⟩
      next => cases h

theorem signedByRightParty_of_event {pairId : JsString} {entry : JournalEntry N}
    {event : ConsentEvent N} (h : eventOf sender receiver pairId entry = some event)
    (hsigned : IsSigned platform store sender receiver event) :
    SignedByRightParty platform store sender receiver entry := by
  obtain ⟨rfl, hbody⟩ := evidence_of_readEntry (eventOf_eq_some.mp h)
  exact ⟨event.body, hbody, hsigned⟩

/-- Where the time is no number or a party is not registered, no entry is read. -/
theorem unjudged {now : Option ℚ}
    (h : ¬∃ time a b, now = some time ∧ store.findInstance sender = some a ∧
      store.findInstance receiver = some b) :
    ∃ reason, ∀ entries : List (JournalEntry N),
      projectConsent platform store sender receiver entries now = .ok ⟨.denied reason, [], 0⟩ := by
  cases now with
  | none => exact ⟨.consentUnavailable, fun _ => rfl⟩
  | some time =>
      refine ⟨.consentInvalid, fun entries => ?_⟩
      unfold projectConsent
      cases ha : store.findInstance sender with
      | none => rfl
      | some a =>
          cases hb : store.findInstance receiver with
          | none => rfl
          | some b => exact absurd ⟨time, a, b, rfl, ha, hb⟩ h

variable (platform store) in
/-- Entries in another order, or repeated, get the same answer; what is not a request or a grant
of the right party does not turn a denial into consent; and a revocation of the pair in force
ends the consent there is. -/
theorem consent_verdict (hsha256 : Function.Injective platform.sha256)
    (sender receiver : JsString) (now : Option ℚ) (entries entries' : List (JournalEntry N)) :
    ((∀ e, e ∈ entries ↔ e ∈ entries') →
      verdict (projectConsent platform store sender receiver entries now) =
        verdict (projectConsent platform store sender receiver entries' now)) ∧
    ∀ entry, (∀ e, e ∈ entries' ↔ e = entry ∨ e ∈ entries) →
      (¬SignedByRightParty platform store sender receiver entry → ∀ reason,
        verdict (projectConsent platform store sender receiver entries now) = some (some reason) →
          verdict (projectConsent platform store sender receiver entries' now) ≠ some none) ∧
      (RevokesPair platform store sender receiver now entry → ∀ answer,
        projectConsent platform store sender receiver entries now = .ok answer →
          0 < answer.requests →
          verdict (projectConsent platform store sender receiver entries' now) =
            some (some .consentRevoked)) := by
  by_cases hjudged : ∃ time a b, now = some time ∧ store.findInstance sender = some a ∧
      store.findInstance receiver = some b
  · obtain ⟨time, a, b, rfl, ha, hb⟩ := hjudged
    obtain ⟨pairId, hpair⟩ : ∃ pairId, consentPairId platform sender receiver = .ok pairId :=
      consentPairId_ok
    have hprojected : ∀ entries : List (JournalEntry N),
        (projectConsent platform store sender receiver entries (some time)).toOption.map
            (fun p => (p.decision, p.requests)) =
          judged platform store sender receiver a b time
            (entries.filterMap (eventOf sender receiver pairId)) :=
      projected ha hb hpair
    have hverdict : ∀ entries : List (JournalEntry N),
        verdict (projectConsent platform store sender receiver entries (some time)) = (judged platform store sender receiver a b time
          (entries.filterMap (eventOf sender receiver pairId))).map fun j => j.1.reason? := by
      intro entries
      rw [← hprojected, Option.map_map]
      rfl
    have hdistinct : ∀ entries : List (JournalEntry N), ∀ e ∈ entries.filterMap (eventOf sender receiver pairId),
        e.body.payload.Distinct := by
      intro entries e he
      obtain ⟨entry, -, hentry⟩ := List.mem_filterMap.mp he
      exact distinct_of_evidence entry.distinct
        (evidence_of_readEntry (eventOf_eq_some.mp hentry)).2
    constructor
    · intro hsame
      rw [hverdict, hverdict]
      exact judged_of_same hsha256 time (filterMap_same hsame _) (hdistinct entries)
    · intro entry hentries
      have hsub : ∀ e ∈ entries.filterMap (eventOf sender receiver pairId),
          e ∈ entries'.filterMap (eventOf sender receiver pairId) := by
        intro e he
        obtain ⟨x, hx, hevent⟩ := List.mem_filterMap.mp he
        exact List.mem_filterMap.mpr ⟨x, (hentries x).mpr (Or.inr hx), hevent⟩
      have hmore : ∀ e ∈ entries'.filterMap (eventOf sender receiver pairId),
          e ∈ entries.filterMap (eventOf sender receiver pairId) ∨
            eventOf sender receiver pairId entry = some e := by
        intro e he
        obtain ⟨x, hx, hevent⟩ := List.mem_filterMap.mp he
        rcases (hentries x).mp hx with rfl | hx
        · exact Or.inr hevent
        · exact Or.inl (List.mem_filterMap.mpr ⟨x, hx, hevent⟩)
      constructor
      · intro hsigned reason hdenied hok
        rw [hverdict] at hdenied hok
        obtain ⟨judgement, hjudgement, hreason⟩ := Option.map_eq_some_iff.mp hdenied
        obtain ⟨judgement', hjudgement', hreason'⟩ := Option.map_eq_some_iff.mp hok
        have haccepted := judged_ok_of_more hsub (fun e he he' => (hmore e he).resolve_right
          fun hevent => hsigned (signedByRightParty_of_event hevent he')) hsha256 time
          (hdistinct entries') hjudgement hjudgement' hreason'
        rw [haccepted] at hreason
        cases hreason
      · rintro ⟨time', a', b', pairId', event, htime, ha', hb', hpair', hread, hrevokes⟩
        cases htime
        obtain rfl : a = a' := Option.some.inj (ha.symm.trans ha')
        obtain rfl : b = b' := Option.some.inj (hb.symm.trans hb')
        obtain rfl : pairId = pairId' := Except.ok.inj (hpair.symm.trans hpair')
        have hevent := eventOf_eq_some.mpr hread
        intro answer hanswer hrequests
        have hjudgement := hprojected entries
        rw [hanswer] at hjudgement
        obtain ⟨requests, hrevoked⟩ := judged_revoked hsub
          (List.mem_filterMap.mpr ⟨entry, (hentries entry).mpr (Or.inl rfl), hevent⟩)
          (fun e he => (hmore e he).imp_right fun h => Option.some.inj (h.symm.trans hevent))
          hrevokes hjudgement.symm hrequests
        rw [hverdict, hrevoked]
        rfl
  · obtain ⟨reason, hreason⟩ : ∃ reason, ∀ entries : List (JournalEntry N),
        projectConsent platform store sender receiver entries now =
          .ok ⟨.denied reason, [], 0⟩ := unjudged hjudged
    have hverdict : ∀ entries, verdict (projectConsent platform store sender receiver entries now) =
        some (some reason) := by
      intro entries
      rw [hreason]
      rfl
    constructor
    · intro _
      rw [hverdict, hverdict]
    · intro entry _
      constructor
      · intro _ _ _
        rw [hverdict]
        simp
      · intro _ answer hanswer hrequests
        rw [hreason] at hanswer
        cases hanswer
        cases hrequests

/-! ## A request, its grant and a revocation -/

/-- Three times, with their numbers. -/
def exampleTimes : List (JsString × Int) :=
  [(js "1970-01-01T00:00:00.000Z", 0), (js "1970-01-01T00:10:00.000Z", 600000),
    (js "1970-01-01T01:00:00.000Z", 3600000)]

/-- Hashes and signatures that are what they are made of. -/
def examplePlatform : ConsentPlatform Int where
  sha256 bytes := ⟨bytes.map UInt8.toUInt16⟩
  crypto := plainCrypto
  parseDate text := lookupMember text exampleTimes
  toISOString n := ((exampleTimes.find? fun t => t.2 == n).map Prod.fst).getD default

/-- Two parties, without a principal. -/
def exampleReader : ConsentReader where
  findInstance id := if id = js "a" ∨ id = js "b" then some ⟨none, none, [js "key"]⟩ else none
  listInstanceKeys _ := [js "key"]
  listKeyEvents := []

/-- The signature of `signer` on a payload. -/
def exampleSigned (signer : JsString) (payload : Json Int) : Json Int :=
  .obj [(js "kind", (payload.get (js "kind")).getD .null), (js "payload", payload),
    (js "signature", .obj [(js "by", .str signer), (js "alg", .str (js "ed25519")),
      (js "value", .str ⟨((canonicalize payload).toOption.getD []).map fun c =>
        UInt16.ofNat c.toNat⟩)])]

def exampleText (name value : String) : JsString × Json Int := (js name, .str (js value))

def exampleParties : List (JsString × Json Int) :=
  [(js "v", .num 1), exampleText "from" "a", exampleText "to" "b"]

def requestPayload : Json Int :=
  .obj (exampleParties ++ [(js "kind", .str requestKind),
    exampleText "requestId" "0123456789abcdef0123456789abcdef", (js "scope", consentScope),
    exampleText "createdAt" "1970-01-01T00:00:00.000Z",
    exampleText "answerBy" "1970-01-01T00:10:00.000Z",
    exampleText "requestedNotAfter" "1970-01-01T01:00:00.000Z"])

def grantPayload : Json Int :=
  .obj (exampleParties ++ [(js "kind", .str grantKind),
    exampleText "requestId" "0123456789abcdef0123456789abcdef",
    (js "requestHash", .str ((computeHash examplePlatform.sha256 requestPayload).toOption.getD default)),
    (js "scope", consentScope),
    exampleText "issuedAt" "1970-01-01T00:00:00.000Z",
    exampleText "notBefore" "1970-01-01T00:00:00.000Z",
    exampleText "notAfter" "1970-01-01T01:00:00.000Z"])

def revocationPayload : Json Int :=
  .obj (exampleParties ++ [(js "kind", .str revocationKind), (js "pair", .bool true),
    exampleText "at" "1970-01-01T00:00:00.000Z",
    exampleText "notAfter" "1970-01-01T01:00:00.000Z"])

def examplePairId : JsString :=
  (consentPairId examplePlatform (js "a") (js "b")).toOption.getD default

theorem exampleSigned_distinct (signer : JsString) {payload : Json Int} (h : payload.Distinct) :
    (exampleSigned signer payload).Distinct := by
  have hkind : ((payload.get (js "kind")).getD .null).Distinct := by
    cases hk : payload.get (js "kind") with
    | none => trivial
    | some kind => exact distinct_get h hk
  have hnames : [js "kind", js "payload", js "signature"].Nodup := by decide
  have hsignature : [js "by", js "alg", js "value"].Nodup := by decide
  exact ⟨hnames, hkind, h, ⟨hsignature, trivial, trivial, trivial, trivial⟩, trivial⟩

theorem consentScope_distinct : (consentScope : Json Int).Distinct :=
  ⟨by decide, trivial, trivial, trivial⟩

theorem requestPayload_distinct : requestPayload.Distinct :=
  ⟨by decide, trivial, trivial, trivial, trivial, trivial, consentScope_distinct, trivial, trivial,
    trivial, trivial⟩

theorem grantPayload_distinct : grantPayload.Distinct :=
  ⟨by decide, trivial, trivial, trivial, trivial, trivial, trivial, consentScope_distinct, trivial,
    trivial, trivial, trivial⟩

theorem revocationPayload_distinct : revocationPayload.Distinct :=
  ⟨by decide, trivial, trivial, trivial, trivial, trivial, trivial, trivial, trivial⟩

/-- The entry of a payload that `signer` signed. -/
def exampleEntry (id : String) (signer : JsString) (payload : Json Int) (h : payload.Distinct) :
    JournalEntry Int where
  id := js id
  negotiationId := examplePairId
  createdAt := js "1970-01-01T00:00:00.000Z"
  body := exampleSigned signer payload
  distinct := exampleSigned_distinct signer h

def requestEntry : JournalEntry Int :=
  exampleEntry "request" (js "a") requestPayload requestPayload_distinct

def grantEntry : JournalEntry Int :=
  exampleEntry "grant" (js "b") grantPayload grantPayload_distinct

def revocationEntry : JournalEntry Int :=
  exampleEntry "revocation" (js "a") revocationPayload revocationPayload_distinct

/-- After the request and its grant there is consent. -/
theorem consent_granted : ∃ answer,
    projectConsent examplePlatform exampleReader (js "a") (js "b") [requestEntry, grantEntry]
      (some 0) = .ok answer ∧ answer.decision.reason? = none ∧ 0 < answer.requests :=
  exists_ok_of_any (by decide +kernel)

/-- A grant read twice is consent as it is after its request, and the revocation ends it. -/
theorem consent_verdict_granted :
    verdict (projectConsent examplePlatform exampleReader (js "a") (js "b")
      [grantEntry, requestEntry, grantEntry] (some 0)) = some none ∧
    verdict (projectConsent examplePlatform exampleReader (js "a") (js "b")
      [revocationEntry, requestEntry, grantEntry] (some 0)) = some (some .consentRevoked) := by
  have hverdict := consent_verdict examplePlatform exampleReader plainHash_injective (js "a")
    (js "b") (some 0) [requestEntry, grantEntry]
  obtain ⟨answer, hanswer, hreason, hrequests⟩ := consent_granted
  constructor
  · rw [← (hverdict [grantEntry, requestEntry, grantEntry]).1 (by simp), verdict, hanswer]
    exact congrArg some hreason
  · have hrevoked := ((hverdict [revocationEntry, requestEntry, grantEntry]).2 revocationEntry
      (by simp)).2
    have hread : readEntry (js "a") (js "b") examplePairId revocationEntry =
        .event ⟨⟨revocationKind, revocationPayload,
          (revocationEntry.body.get (js "signature")).getD .null, none⟩, revocationEntry⟩ := by
      rfl
    exact hrevoked ⟨0, ⟨none, none, [js "key"]⟩, ⟨none, none, [js "key"]⟩, examplePairId, _, rfl, rfl,
      rfl, rfl, hread, by decide +kernel⟩ answer hanswer hrequests

end H2a.Drive
