import H2a.Library.JsonInteger
import H2a.LocalFiles.Mailbox
/-!
# Mail is neither lost nor mixed

A file holds what was put there until one pop removes it, and a read finds it in the
directory of its actor.  This rests on the directories and file names not meeting, and on
no file being removed under a read (`mailbox_safe`).
-/

namespace H2a.LocalFiles

open H2a.Library H2a.Protocol

variable {N : Type}

/-! ## Merging -/

theorem messageId_of_valid [JsonNumber N] {envelope : Json N}
    (h : isH2AEnvelope envelope = true) : envelopeId envelope = some (messageId envelope) := by
  obtain ⟨-, -, -, hid, -⟩ := (isH2AEnvelope_iff envelope).mp h
  rw [messageId, envelopeId]
  cases hget : envelope.get (js "id") with
  | none => simp [hget, isString] at hid
  | some v =>
      cases v with
      | str id => rfl
      | _ => simp [hget, isString] at hid

/-- What the map holds after some envelopes: one of each id. -/
structure Merged (envelopes : List (Json N)) (byId : JsMap JsString (Json N)) : Prop where
  source : ∀ id envelope, byId.get id = some envelope →
    envelope ∈ envelopes ∧ envelopeId envelope = some id
  has : ∀ envelope ∈ envelopes, ∀ id, envelopeId envelope = some id → byId.has id = true

theorem Merged.step {envelopes : List (Json N)} {byId : JsMap JsString (Json N)}
    (h : Merged envelopes byId) (envelope : Json N) :
    Merged (envelopes ++ [envelope]) (mergeEnvelope byId envelope) := by
  rw [mergeEnvelope]
  cases hid : envelopeId envelope with
  | none =>
      constructor
      · intro id e he
        exact ⟨List.mem_append_left _ (h.source id e he).1, (h.source id e he).2⟩
      · intro e he id hid'
        rcases List.mem_append.mp he with he | he
        · exact h.has e he id hid'
        · rw [List.mem_singleton.mp he, hid] at hid'
          simp at hid'
  | some id =>
      dsimp only
      split_ifs with hhas
      · constructor
        · intro id' e he
          exact ⟨List.mem_append_left _ (h.source id' e he).1, (h.source id' e he).2⟩
        · intro e he id' hid'
          rcases List.mem_append.mp he with he | he
          · exact h.has e he id' hid'
          · rw [List.mem_singleton.mp he, hid] at hid'
            exact Option.some.inj hid' ▸ hhas
      · constructor
        · intro id' e he
          rw [JsMap.get_set] at he
          split_ifs at he with heq
          · obtain rfl := Option.some.inj he
            exact ⟨List.mem_append_right _ (List.mem_singleton_self _), heq ▸ hid⟩
          · exact ⟨List.mem_append_left _ (h.source id' e he).1, (h.source id' e he).2⟩
        · intro e he id' hid'
          rw [JsMap.has, JsMap.get_set]
          split_ifs with heq
          · rfl
          · rcases List.mem_append.mp he with he | he
            · exact h.has e he id' hid'
            · rw [List.mem_singleton.mp he, hid] at hid'
              exact absurd (Option.some.inj hid').symm heq

theorem merged_foldl (envelopes : List (Json N)) :
    Merged envelopes (envelopes.foldl mergeEnvelope .empty) := by
  induction envelopes using List.reverseRecOn with
  | nil => exact ⟨fun _ _ h => by simp at h, fun _ h => absurd h List.not_mem_nil⟩
  | append_singleton envelopes envelope ih =>
      rw [List.foldl_append]
      exact ih.step envelope

theorem mem_of_mem_merge {envelopes : List (Json N)} {envelope : Json N}
    (h : envelope ∈ mergeInboxDedup envelopes) : envelope ∈ envelopes := by
  rw [mergeInboxDedup, List.mem_insertionSort, JsMap.mem_values_iff] at h
  obtain ⟨id, hget⟩ := h
  exact ((merged_foldl envelopes).source id envelope hget).1

/-- An envelope is kept when no other has its id. -/
theorem mem_merge {envelopes : List (Json N)} {envelope : Json N} {id : JsString}
    (h : envelope ∈ envelopes) (hid : envelopeId envelope = some id)
    (hunique : ∀ e ∈ envelopes, envelopeId e = some id → e = envelope) :
    envelope ∈ mergeInboxDedup envelopes := by
  have hmerged := merged_foldl envelopes
  rw [mergeInboxDedup, List.mem_insertionSort, JsMap.mem_values_iff]
  obtain ⟨e, he⟩ := (JsMap.has_iff _ _).mp (hmerged.has envelope h id hid)
  obtain ⟨hmem, hid'⟩ := hmerged.source id e he
  exact ⟨id, hunique e hmem hid' ▸ he⟩

theorem mem_envelopeFilesOf {files : InboxFiles N} {dir name : JsString} :
    name ∈ envelopeFilesOf files dir ↔
      (∃ c, files.get (dir, name) = some c) ∧ name.endsWith (js ".json") = true := by
  rw [envelopeFilesOf, List.mem_insertionSort, List.mem_map]
  constructor
  · rintro ⟨⟨dir', name'⟩, hpath, rfl⟩
    obtain ⟨hkey, hfilter⟩ := List.mem_filter.mp hpath
    obtain ⟨rfl, hname⟩ := of_decide_eq_true hfilter
    refine ⟨?_, hname⟩
    rw [← Option.isSome_iff_exists, Option.isSome_iff_ne_none, Ne, JsMap.get_eq_none_iff]
    exact not_not.mpr hkey
  · rintro ⟨⟨c, hget⟩, hname⟩
    have hkey := JsMap.mem_keys_of_get hget
    exact ⟨(dir, name), List.mem_filter.mpr ⟨hkey, decide_eq_true ⟨rfl, hname⟩⟩, rfl⟩

namespace MailSystem

variable {P : Type} [JsonNumber N] {toLowerCase : JsString → JsString}
  {aliases : List H2AIdentityAlias} {s : MailSystem P N}

/-! ## The invariant -/

/-- Where an envelope is put. -/
def pathOf (toLowerCase : JsString → JsString) (put : JsString × Json N) : JsString × JsString :=
  (inboxDir toLowerCase put.1, envelopeFile (messageId put.2))

/-- A file holds what was put there, as long as no pop has removed it. -/
structure StoreOk (toLowerCase : JsString → JsString) (aliases : List H2AIdentityAlias)
    (s : MailSystem P N) : Prop where
  file : ∀ path c, s.files.get path = some c →
    ∃ put ∈ s.puts, put.2 = c ∧ pathOf toLowerCase put = path ∧ messageId c ∉ s.taken
  stored : ∀ put ∈ s.puts,
    s.files.get (pathOf toLowerCase put) = some put.2 ∨ messageId put.2 ∈ s.taken
  unique : ∀ put ∈ s.puts, ∀ put' ∈ s.puts, messageId put.2 = messageId put'.2 → put = put'
  names : ∀ put ∈ s.puts, ∀ put' ∈ s.puts,
    envelopeFile (messageId put.2) = envelopeFile (messageId put'.2) → ∀ reader,
      inboxDir toLowerCase put.1 ∈ inboxSourceDirs toLowerCase aliases reader →
      inboxDir toLowerCase put'.1 ∈ inboxSourceDirs toLowerCase aliases reader → put = put'
  valid : ∀ put ∈ s.puts, isH2AEnvelope put.2 = true
  apart : ∀ caller ∈ s.callers, ∀ put ∈ s.puts, Apart toLowerCase aliases caller put.1

/-- The envelope was put in a directory that `actor` reads. -/
def Seen (toLowerCase : JsString → JsString) (aliases : List H2AIdentityAlias)
    (s : MailSystem P N) (actor : JsString) (envelope : Json N) : Prop :=
  ∃ put ∈ s.puts, put.2 = envelope ∧
    inboxDir toLowerCase put.1 ∈ inboxSourceDirs toLowerCase aliases actor

/-- A read has found the envelope, or will find it in `dirs` or at `paths`, or a pop has
removed it. -/
def Awaited (toLowerCase : JsString → JsString) (s : MailSystem P N) (dirs : List JsString)
    (paths : List (JsString × JsString)) (found : List (Json N)) (envelope : Json N) : Prop :=
  messageId envelope ∈ s.taken ∨ envelope ∈ found ∨
    ∃ put ∈ s.puts, put.2 = envelope ∧
      (inboxDir toLowerCase put.1 ∈ dirs ∨ pathOf toLowerCase put ∈ paths)

/-- What a read has done so far. -/
structure ReadOk (toLowerCase : JsString → JsString) (aliases : List H2AIdentityAlias)
    (s : MailSystem P N) (actor : JsString) (due : List (Json N)) (dirs : List JsString)
    (paths : List (JsString × JsString)) (found : List (Json N)) : Prop where
  caller : actor ∈ s.callers
  within : dirs ⊆ inboxSourceDirs toLowerCase aliases actor
  listed : ∀ path ∈ paths, path.1 ∈ inboxSourceDirs toLowerCase aliases actor ∧
    ∃ c, s.files.get path = some c
  seen : ∀ c ∈ found, Seen toLowerCase aliases s actor c
  awaited : ∀ c ∈ due, Awaited toLowerCase s dirs paths found c

/-- What a pop has removed. -/
structure Removed (toLowerCase : JsString → JsString) (aliases : List H2AIdentityAlias)
    (s : MailSystem P N) (actor id : JsString) (envelope : Json N) : Prop where
  seen : Seen toLowerCase aliases s actor envelope
  name : envelopeFile (messageId envelope) = envelopeFile id
  taken : messageId envelope ∈ s.taken

/-- What holds of a process where it stands. -/
def PcOk (toLowerCase : JsString → JsString) (aliases : List H2AIdentityAlias)
    (s : MailSystem P N) : MailPc N → Prop
  | .idle => True
  | .putLocking _ envelope => isH2AEnvelope envelope.json = true
  | .publishing _ envelope => isH2AEnvelope envelope.json = true
  | .listing actor due dirs found => ReadOk toLowerCase aliases s actor due dirs [] found
  | .opening actor due dir names dirs found =>
      ReadOk toLowerCase aliases s actor due dirs (names.map fun name => (dir, name)) found
  | .readThrew => False
  | .popLocking actor _ => actor ∈ s.callers
  | .looking actor id dirs found =>
      actor ∈ s.callers ∧ dirs ⊆ inboxSourceDirs toLowerCase aliases actor ∧
        ∀ c, found = some c → Removed toLowerCase aliases s actor id c
  | .loading actor _ dir dirs =>
      actor ∈ s.callers ∧ dir :: dirs ⊆ inboxSourceDirs toLowerCase aliases actor
  | .unlinking actor id dir dirs found =>
      actor ∈ s.callers ∧ dir :: dirs ⊆ inboxSourceDirs toLowerCase aliases actor ∧
        ∃ put ∈ s.puts, put.2 = found ∧ pathOf toLowerCase put = (dir, envelopeFile id)

structure Inv (toLowerCase : JsString → JsString) (aliases : List H2AIdentityAlias)
    (s : MailSystem P N) : Prop where
  store : StoreOk toLowerCase aliases s
  pcs : ∀ p, PcOk toLowerCase aliases s (s.pc p)
  /-- no two pops hold the same envelope, or one that is returned -/
  holders : ∀ p q c c', (s.pc p).holds = some c → (s.pc q).holds = some c' →
    messageId c = messageId c' → p = q
  unreturned : ∀ p c, (s.pc p).holds = some c → ∀ pop ∈ s.pops, messageId pop.2 ≠ messageId c
  pops : ∀ pop ∈ s.pops, messageId pop.2 ∈ s.taken ∧ pop.1 ∈ s.callers ∧
    Seen toLowerCase aliases s pop.1 pop.2
  reads : ∀ r ∈ s.reads, r.actor ∈ s.callers ∧
    (∀ c ∈ r.result, Seen toLowerCase aliases s r.actor c) ∧
      ∀ c ∈ r.due, c ∈ r.result ∨ messageId c ∈ r.taken
  delivered : ∀ id ∈ s.taken, (∃ pop ∈ s.pops, messageId pop.2 = id) ∨
    ∃ p c, (s.pc p).holds = some c ∧ messageId c = id
  once : (s.pops.map fun pop => messageId pop.2).Nodup

/-- What is seen of an owner may be read. -/
theorem StoreOk.mayRead (h : StoreOk toLowerCase aliases s) {actor : JsString}
    (hcaller : actor ∈ s.callers) {put : JsString × Json N} (hput : put ∈ s.puts)
    (hseen : Seen toLowerCase aliases s actor put.2) :
    MayRead toLowerCase aliases actor put.1 := by
  obtain ⟨put', hput', hsame, hdir⟩ := hseen
  obtain rfl : put' = put := h.unique put' hput' put hput (congrArg messageId hsame)
  exact h.apart actor hcaller put' hput' hdir

theorem Inv.safe [DecidableEq P] (h : Inv toLowerCase aliases s) : Safe toLowerCase aliases s where
  noThrow p heq := by
    have hpc := h.pcs p
    rw [heq] at hpc
    exact hpc
  kept r hr envelope hdue := (h.reads r hr).2.2 envelope hdue
  delivered := h.delivered
  once := h.once
  apart put hput := by
    constructor
    · intro r hr hresult
      obtain ⟨hcaller, hseen, -⟩ := h.reads r hr
      exact h.store.mayRead hcaller hput (hseen put.2 hresult)
    · intro pop hpop hsame
      obtain ⟨-, hcaller, hseen⟩ := h.pops pop hpop
      exact h.store.mayRead hcaller hput (hsame ▸ hseen)

theorem inv_empty : Inv toLowerCase aliases (empty : MailSystem P N) where
  store := by
    constructor
    · intro path c hget
      simp [empty] at hget
    all_goals simp [empty]
  pcs p := trivial
  holders p q c c' hc := by simp [empty, MailPc.holds] at hc
  unreturned p c hc := by simp [empty, MailPc.holds] at hc
  pops := by simp [empty]
  reads := by simp [empty]
  delivered := by simp [empty]
  once := List.nodup_nil

/-! ## What a process keeps while others go on -/

/-- What others do: nothing that has happened is undone. -/
structure Grows (s t : MailSystem P N) : Prop where
  puts : s.puts ⊆ t.puts
  callers : s.callers ⊆ t.callers
  taken : s.taken ⊆ t.taken

omit [JsonNumber N] in
theorem Seen.mono {t : MailSystem P N} (hgrows : Grows s t) {actor : JsString} {c : Json N}
    (h : Seen toLowerCase aliases s actor c) : Seen toLowerCase aliases t actor c := by
  obtain ⟨put, hput, hsame, hdir⟩ := h
  exact ⟨put, hgrows.puts hput, hsame, hdir⟩

omit [JsonNumber N] in
theorem Awaited.mono {t : MailSystem P N} (hgrows : Grows s t) {dirs : List JsString}
    {paths : List (JsString × JsString)} {found : List (Json N)} {c : Json N}
    (h : Awaited toLowerCase s dirs paths found c) : Awaited toLowerCase t dirs paths found c := by
  rcases h with htaken | hfound | ⟨put, hput, hwhere⟩
  · exact Or.inl (hgrows.taken htaken)
  · exact Or.inr (Or.inl hfound)
  · exact Or.inr (Or.inr ⟨put, hgrows.puts hput, hwhere⟩)

omit [JsonNumber N] in
theorem ReadOk.mono {t : MailSystem P N} (hgrows : Grows s t) {actor : JsString}
    {due found : List (Json N)} {dirs : List JsString} {paths : List (JsString × JsString)}
    (hfiles : ∀ path ∈ paths, ∀ c, s.files.get path = some c → ∃ c', t.files.get path = some c')
    (h : ReadOk toLowerCase aliases s actor due dirs paths found) :
    ReadOk toLowerCase aliases t actor due dirs paths found where
  caller := hgrows.callers h.caller
  within := h.within
  listed path hpath := by
    obtain ⟨hdir, c, hget⟩ := h.listed path hpath
    exact ⟨hdir, hfiles path hpath c hget⟩
  seen c hc := (h.seen c hc).mono hgrows
  awaited c hc := (h.awaited c hc).mono hgrows

omit [JsonNumber N] in
theorem Removed.mono {t : MailSystem P N} (hgrows : Grows s t) {actor id : JsString} {c : Json N}
    (h : Removed toLowerCase aliases s actor id c) : Removed toLowerCase aliases t actor id c :=
  ⟨h.seen.mono hgrows, h.name, hgrows.taken h.taken⟩

/-- What holds of a process still holds when others have gone on, as long as the files it has
listed are there. -/
theorem PcOk.mono {t : MailSystem P N} (hgrows : Grows s t) {pc : MailPc N}
    (hfiles : ∀ path ∈ pc.pending, ∀ c, s.files.get path = some c → ∃ c', t.files.get path = some c')
    (h : PcOk toLowerCase aliases s pc) : PcOk toLowerCase aliases t pc := by
  cases pc with
  | idle => trivial
  | putLocking => exact h
  | publishing => exact h
  | listing => exact ReadOk.mono hgrows (fun _ hpath => absurd hpath List.not_mem_nil) h
  | opening => exact ReadOk.mono hgrows hfiles h
  | readThrew => exact h
  | popLocking => exact hgrows.callers h
  | looking =>
      obtain ⟨hcaller, hdirs, hremoved⟩ := h
      exact ⟨hgrows.callers hcaller, hdirs, fun c hc => (hremoved c hc).mono hgrows⟩
  | loading => exact ⟨hgrows.callers h.1, h.2⟩
  | unlinking =>
      obtain ⟨hcaller, hdirs, put, hput, hwhere⟩ := h
      exact ⟨hgrows.callers hcaller, hdirs, put, hgrows.puts hput, hwhere⟩

/-- What holds of a process does not depend on the locks, the other processes and the calls that
have returned. -/
theorem PcOk.congr {t : MailSystem P N} {pc : MailPc N} (hfiles : t.files = s.files)
    (hputs : t.puts = s.puts) (hcallers : s.callers ⊆ t.callers) (htaken : t.taken = s.taken)
    (h : PcOk toLowerCase aliases s pc) : PcOk toLowerCase aliases t pc := by
  apply h.mono
  · exact ⟨fun _ hx => hputs ▸ hx, hcallers, fun _ hx => htaken ▸ hx⟩
  · intro path _ c hget
    exact ⟨c, hfiles ▸ hget⟩

/-! ## Steps that touch no mail -/

theorem StoreOk.path_injective (h : StoreOk toLowerCase aliases s) {put put' : JsString × Json N}
    (hput : put ∈ s.puts) (hput' : put' ∈ s.puts)
    (hpath : pathOf toLowerCase put = pathOf toLowerCase put') : put = put' := by
  obtain ⟨hdir, hname⟩ := Prod.mk.inj hpath
  have hmem := @inboxDir_mem_sourceDirs toLowerCase aliases put.1
  exact h.names put hput put' hput' hname put.1 hmem (hdir ▸ hmem)

theorem Inv.withLock (h : Inv toLowerCase aliases s) (lock : JsString → Option P) :
    Inv toLowerCase aliases { s with lock } where
  store := ⟨h.store.file, h.store.stored, h.store.unique, h.store.names, h.store.valid,
    h.store.apart⟩
  pcs p := (h.pcs p).congr (by rfl) (by rfl) (by exact fun _ hx => hx) (by rfl)
  holders := h.holders
  unreturned := h.unreturned
  pops := h.pops
  reads := h.reads
  delivered := h.delivered
  once := h.once

theorem Inv.withCaller (h : Inv toLowerCase aliases s) {actor : JsString}
    (hapart : ∀ put ∈ s.puts, Apart toLowerCase aliases actor put.1) :
    Inv toLowerCase aliases { s with callers := s.callers ++ [actor] } where
  store := by
    refine ⟨h.store.file, h.store.stored, h.store.unique, h.store.names, h.store.valid, ?_⟩
    intro caller hcaller
    rcases List.mem_append.mp hcaller with hcaller | hcaller
    · exact h.store.apart caller hcaller
    · exact List.mem_singleton.mp hcaller ▸ hapart
  pcs p := (h.pcs p).congr (by rfl) (by rfl) (by exact List.subset_append_left _ _) (by rfl)
  holders := h.holders
  unreturned := h.unreturned
  pops pop hpop := by
    obtain ⟨htaken, hcaller, hseen⟩ := h.pops pop hpop
    exact ⟨htaken, List.mem_append_left _ hcaller, hseen⟩
  reads r hr := by
    obtain ⟨hcaller, hseen⟩ := h.reads r hr
    exact ⟨List.mem_append_left _ hcaller, hseen⟩
  delivered := h.delivered
  once := h.once

variable [DecidableEq P] {p : P}

omit [JsonNumber N] in
theorem goto_pc (pc : MailPc N) : (s.goto p pc).pc = Function.update s.pc p pc := rfl

omit [JsonNumber N] in
theorem holds_goto {pc : MailPc N} (hholds : pc.holds = (s.pc p).holds) (q : P) :
    ((s.goto p pc).pc q).holds = (s.pc q).holds := by
  rw [goto_pc]
  by_cases hq : q = p
  · rw [hq, Function.update_self, hholds]
  · rw [Function.update_of_ne hq]

/-- A step of a process that touches no file. -/
theorem Inv.goto (h : Inv toLowerCase aliases s) {pc : MailPc N}
    (hpc : PcOk toLowerCase aliases s pc) (hholds : pc.holds = (s.pc p).holds) :
    Inv toLowerCase aliases (s.goto p pc) where
  store := ⟨h.store.file, h.store.stored, h.store.unique, h.store.names, h.store.valid,
    h.store.apart⟩
  pcs q := by
    have hq : PcOk toLowerCase aliases s ((s.goto p pc).pc q) := by
      rw [goto_pc]
      by_cases hq : q = p
      · rw [hq, Function.update_self]
        exact hpc
      · rw [Function.update_of_ne hq]
        exact h.pcs q
    exact hq.congr (by rfl) (by rfl) (by exact fun _ hx => hx) (by rfl)
  holders q q' c c' hc hc' := by
    rw [holds_goto hholds] at hc hc'
    exact h.holders q q' c c' hc hc'
  unreturned q c hc := by
    rw [holds_goto hholds] at hc
    exact h.unreturned q c hc
  pops := h.pops
  reads := h.reads
  delivered id hid := by
    refine (h.delivered id hid).imp_right fun ⟨q, c, hc, hcid⟩ => ⟨q, c, ?_, hcid⟩
    rw [holds_goto hholds]
    exact hc
  once := h.once

theorem Inv.acquire (h : Inv toLowerCase aliases s) {dir : JsString} {pc : MailPc N}
    (hpc : PcOk toLowerCase aliases s pc) (hholds : pc.holds = (s.pc p).holds) :
    Inv toLowerCase aliases (s.acquire p dir pc) := by
  rw [MailSystem.acquire]
  split_ifs
  · refine (h.withLock _).goto ?_ hholds
    exact hpc.congr (by rfl) (by rfl) (by exact fun _ hx => hx) (by rfl)
  · exact h

theorem Inv.release (h : Inv toLowerCase aliases s) (dir : JsString)
    (hholds : (s.pc p).holds = none) : Inv toLowerCase aliases (s.release p dir) :=
  (h.withLock _).goto trivial hholds.symm

/-! ## Putting -/

omit [DecidableEq P] in
/-- What is removed was put. -/
theorem Inv.put_of_taken (h : Inv toLowerCase aliases s) {id : JsString} (hid : id ∈ s.taken) :
    ∃ put ∈ s.puts, messageId put.2 = id := by
  rcases h.delivered id hid with ⟨pop, hpop, rfl⟩ | ⟨q, c, hc, rfl⟩
  · obtain ⟨-, -, put, hput, hsame, -⟩ := h.pops pop hpop
    exact ⟨put, hput, congrArg messageId hsame⟩
  · have hpc := h.pcs q
    cases hq : s.pc q with
    | looking actor id dirs found =>
        rw [hq] at hpc hc
        obtain ⟨put, hput, hsame, -⟩ := (hpc.2.2 c hc).seen
        exact ⟨put, hput, congrArg messageId hsame⟩
    | _ => simp [hq, MailPc.holds] at hc

theorem messageId_readBack {envelope : JsValue N} :
    messageId envelope.json.readBack = messageId envelope.json := by
  rw [messageId, envelopeId_readBack envelope.distinct, messageId]

omit [DecidableEq P] in
/-- An envelope is published where there is no file. -/
theorem Inv.publish (h : Inv toLowerCase aliases s) {actor : JsString} {envelope : JsValue N}
    (hvalid : isH2AEnvelope envelope.json = true)
    (hfresh : ∀ put ∈ s.puts, messageId put.2 ≠ messageId envelope.json)
    (hapart : ∀ caller ∈ s.callers, Apart toLowerCase aliases caller actor)
    (hnames : ∀ put ∈ s.puts,
      envelopeFile (messageId put.2) = envelopeFile (messageId envelope.json) → ∀ reader,
        inboxDir toLowerCase actor ∈ inboxSourceDirs toLowerCase aliases reader →
        inboxDir toLowerCase put.1 ∉ inboxSourceDirs toLowerCase aliases reader) :
    Inv toLowerCase aliases { s with
      files := s.files.set (inboxDir toLowerCase actor, envelopeFile (messageId envelope.json))
        envelope.json.readBack
      puts := s.puts ++ [(actor, envelope.json.readBack)] } := by
  let path := (inboxDir toLowerCase actor, envelopeFile (messageId envelope.json))
  have hid : messageId envelope.json.readBack = messageId envelope.json := messageId_readBack
  have hpath : pathOf toLowerCase (actor, envelope.json.readBack) = path := by
    rw [pathOf, hid]
  have habsent : s.files.get path = none := by
    cases hget : s.files.get path with
    | none => rfl
    | some c =>
        obtain ⟨put, hput, rfl, hwhere, -⟩ := h.store.file path c hget
        obtain ⟨hdir, hname⟩ := Prod.mk.inj hwhere
        have hmem := @inboxDir_mem_sourceDirs toLowerCase aliases actor
        exact absurd (hdir ▸ hmem) (hnames put hput hname actor hmem)
  have huntaken : messageId envelope.json ∉ s.taken := by
    intro htaken
    obtain ⟨put, hput, heq⟩ := h.put_of_taken htaken
    exact hfresh put hput heq
  have hgrows : Grows s { s with
      files := s.files.set path envelope.json.readBack
      puts := s.puts ++ [(actor, envelope.json.readBack)] } :=
    ⟨List.subset_append_left _ _, fun _ hx => hx, fun _ hx => hx⟩
  refine { h with store := ?_, pcs := ?_, pops := ?_, reads := ?_ }
  · constructor
    · intro path' c hget
      rw [JsMap.get_set] at hget
      split_ifs at hget with heq
      · obtain rfl := Option.some.inj hget
        exact ⟨_, List.mem_append_right _ (List.mem_singleton_self _), rfl, hpath.trans heq.symm,
          hid ▸ huntaken⟩
      · obtain ⟨put, hput, hfile⟩ := h.store.file path' c hget
        exact ⟨put, List.mem_append_left _ hput, hfile⟩
    · intro put hput
      rcases List.mem_append.mp hput with hput | hput
      · refine (h.store.stored put hput).imp_left fun hget => ?_
        have hne : pathOf toLowerCase put ≠ path := by
          intro heq
          rw [heq, habsent] at hget
          simp at hget
        rw [JsMap.get_set_of_ne _ _ hne]
        exact hget
      · rw [List.mem_singleton.mp hput, hpath]
        exact Or.inl (JsMap.get_set_self _ _ _)
    · intro put hput put' hput' heq
      rcases List.mem_append.mp hput with hput | hput <;>
        rcases List.mem_append.mp hput' with hput' | hput'
      · exact h.store.unique put hput put' hput' heq
      · rw [List.mem_singleton.mp hput', hid] at heq
        exact absurd heq (hfresh put hput)
      · rw [List.mem_singleton.mp hput, hid] at heq
        exact absurd heq.symm (hfresh put' hput')
      · rw [List.mem_singleton.mp hput, List.mem_singleton.mp hput']
    · intro put hput put' hput' heq reader hdir hdir'
      rcases List.mem_append.mp hput with hput | hput <;>
        rcases List.mem_append.mp hput' with hput' | hput'
      · exact h.store.names put hput put' hput' heq reader hdir hdir'
      · rw [List.mem_singleton.mp hput', hid] at heq
        rw [List.mem_singleton.mp hput'] at hdir'
        exact absurd hdir (hnames put hput heq reader hdir')
      · rw [List.mem_singleton.mp hput, hid] at heq
        rw [List.mem_singleton.mp hput] at hdir
        exact absurd hdir' (hnames put' hput' heq.symm reader hdir)
      · rw [List.mem_singleton.mp hput, List.mem_singleton.mp hput']
    · intro put hput
      rcases List.mem_append.mp hput with hput | hput
      · exact h.store.valid put hput
      · rw [List.mem_singleton.mp hput, isH2AEnvelope_readBack envelope.distinct]
        exact hvalid
    · intro caller hcaller put hput
      rcases List.mem_append.mp hput with hput | hput
      · exact h.store.apart caller hcaller put hput
      · rw [List.mem_singleton.mp hput]
        exact hapart caller hcaller
  · intro q
    refine (h.pcs q).mono hgrows fun path' _ c hget => ?_
    rw [JsMap.get_set]
    split_ifs
    · exact ⟨_, rfl⟩
    · exact ⟨c, hget⟩
  · intro pop hpop
    obtain ⟨htaken, hcaller, hseen⟩ := h.pops pop hpop
    exact ⟨htaken, hcaller, hseen.mono hgrows⟩
  · intro r hr
    obtain ⟨hcaller, hseen, hkept⟩ := h.reads r hr
    exact ⟨hcaller, fun c hc => (hseen c hc).mono hgrows, hkept⟩

/-! ## Reading -/

omit [JsonNumber N] [DecidableEq P] in
/-- A read is called: it waits for what is due in the directory of its actor. -/
theorem readOk_start {actor : JsString} (hcaller : actor ∈ s.callers) :
    ReadOk toLowerCase aliases s actor (s.due toLowerCase actor)
      (inboxSourceDirs toLowerCase aliases actor) [] [] where
  caller := hcaller
  within _ hx := hx
  listed _ hpath := absurd hpath List.not_mem_nil
  seen _ hc := absurd hc List.not_mem_nil
  awaited c hc := by
    obtain ⟨put, hput, rfl⟩ := List.mem_map.mp hc
    obtain ⟨hput, hfilter⟩ := List.mem_filter.mp hput
    obtain ⟨haddress, -⟩ := of_decide_eq_true hfilter
    refine Or.inr (Or.inr ⟨put, hput, rfl, Or.inl ?_⟩)
    rw [inboxDir, haddress]
    exact inboxDir_mem_sourceDirs aliases actor

omit [DecidableEq P] in
/-- A directory is listed: what is put there and not removed is among its files. -/
theorem Inv.readOk_list (h : Inv toLowerCase aliases s) {actor dir : JsString}
    {due found : List (Json N)} {dirs : List JsString}
    (hread : ReadOk toLowerCase aliases s actor due (dir :: dirs) [] found) :
    ReadOk toLowerCase aliases s actor due dirs
      ((envelopeFilesOf s.files dir).map fun name => (dir, name)) found where
  caller := hread.caller
  within _ hx := hread.within (List.mem_cons_of_mem _ hx)
  listed path hpath := by
    obtain ⟨name, hname, rfl⟩ := List.mem_map.mp hpath
    exact ⟨hread.within List.mem_cons_self, (mem_envelopeFilesOf.mp hname).1⟩
  seen := hread.seen
  awaited c hc := by
    rcases hread.awaited c hc with htaken | hfound | ⟨put, hput, rfl, hdir | hpath⟩
    · exact Or.inl htaken
    · exact Or.inr (Or.inl hfound)
    · rcases List.mem_cons.mp hdir with hdir | hdir
      · rcases h.store.stored put hput with hget | htaken
        · refine Or.inr (Or.inr ⟨put, hput, rfl, Or.inr (List.mem_map.mpr
            ⟨envelopeFile (messageId put.2), mem_envelopeFilesOf.mpr ⟨⟨put.2, ?_⟩, ?_⟩, ?_⟩)⟩)
          · exact hdir ▸ hget
          · exact JsString.endsWith_append _ _
          · rw [pathOf, hdir]
        · exact Or.inl htaken
      · exact Or.inr (Or.inr ⟨put, hput, rfl, Or.inl hdir⟩)
    · exact absurd hpath List.not_mem_nil

omit [DecidableEq P] in
/-- A file is read: it is there, and holds what was put there. -/
theorem Inv.readOk_open (h : Inv toLowerCase aliases s) {actor : JsString}
    {path : JsString × JsString} {paths : List (JsString × JsString)} {due found : List (Json N)}
    {dirs : List JsString} (hread : ReadOk toLowerCase aliases s actor due dirs (path :: paths) found) :
    ∃ c, s.files.get path = some c ∧ isH2AEnvelope c = true ∧
      ReadOk toLowerCase aliases s actor due dirs paths (found ++ [c]) := by
  obtain ⟨hdir, c, hget⟩ := hread.listed path List.mem_cons_self
  obtain ⟨put, hput, rfl, hpath, -⟩ := h.store.file path c hget
  refine ⟨put.2, hget, h.store.valid put hput, hread.caller, hread.within,
    fun path' hpath' => hread.listed path' (List.mem_cons_of_mem _ hpath'), ?_, ?_⟩
  · intro c hc
    rcases List.mem_append.mp hc with hc | hc
    · exact hread.seen c hc
    · rw [List.mem_singleton.mp hc]
      exact ⟨put, hput, rfl, by rw [← hpath] at hdir; exact hdir⟩
  · intro c hc
    rcases hread.awaited c hc with htaken | hfound | ⟨put', hput', rfl, hdir' | hpath'⟩
    · exact Or.inl htaken
    · exact Or.inr (Or.inl (List.mem_append_left _ hfound))
    · exact Or.inr (Or.inr ⟨put', hput', rfl, Or.inl hdir'⟩)
    · rcases List.mem_cons.mp hpath' with heq | hpath'
      · obtain rfl : put = put' := h.store.path_injective hput hput' (hpath.trans heq.symm)
        exact Or.inr (Or.inl (List.mem_append_right _ (List.mem_singleton_self _)))
      · exact Or.inr (Or.inr ⟨put', hput', rfl, Or.inr hpath'⟩)

omit [DecidableEq P] in
/-- A read returns what it has found: all that was due, but for what pops have removed. -/
theorem Inv.returnRead (h : Inv toLowerCase aliases s) {actor : JsString}
    {due found : List (Json N)} (hread : ReadOk toLowerCase aliases s actor due [] [] found) :
    Inv toLowerCase aliases
      { s with reads := s.reads ++ [⟨actor, due, mergeInboxDedup found, s.taken⟩] } where
  store := ⟨h.store.file, h.store.stored, h.store.unique, h.store.names, h.store.valid,
    h.store.apart⟩
  pcs p := (h.pcs p).congr (by rfl) (by rfl) (by exact fun _ hx => hx) (by rfl)
  holders := h.holders
  unreturned := h.unreturned
  pops := h.pops
  reads r hr := by
    rcases List.mem_append.mp hr with hr | hr
    · exact h.reads r hr
    · obtain rfl := List.mem_singleton.mp hr
      refine ⟨hread.caller, fun c hc => hread.seen c (mem_of_mem_merge hc), fun c hc => ?_⟩
      rcases hread.awaited c hc with htaken | hfound | ⟨put, -, -, hdir | hpath⟩
      · exact Or.inr htaken
      · obtain ⟨put, hput, rfl, -⟩ := hread.seen c hfound
        have hid := messageId_of_valid (h.store.valid put hput)
        refine Or.inl (mem_merge hfound hid fun e he heq => ?_)
        obtain ⟨put', hput', rfl, -⟩ := hread.seen e he
        have hid' := messageId_of_valid (h.store.valid put' hput')
        rw [h.store.unique put' hput' put hput (Option.some.inj (hid'.symm.trans heq))]
      · exact absurd hdir List.not_mem_nil
      · exact absurd hpath List.not_mem_nil
  delivered := h.delivered
  once := h.once

/-! ## Popping -/

/-- A pop returns what it has removed, if it found anything. -/
theorem Inv.returnPop (h : Inv toLowerCase aliases s) {actor id : JsString}
    {found : Option (Json N)} (hpc : s.pc p = .looking actor id [] found) (dir : JsString) :
    Inv toLowerCase aliases
      (MailSystem.release { s with pops := s.pops ++ found.toList.map fun c => (actor, c) } p dir) := by
  have hp := h.pcs p
  rw [hpc] at hp
  obtain ⟨hcaller, -, hremoved⟩ := hp
  have hholds : (s.pc p).holds = found := by rw [hpc, MailPc.holds]
  have hother : ∀ q c, ((s.goto p .idle).pc q).holds = some c →
      q ≠ p ∧ (s.pc q).holds = some c := by
    intro q c hc
    rw [goto_pc] at hc
    by_cases hq : q = p
    · rw [hq, Function.update_self] at hc
      simp [MailPc.holds] at hc
    · rw [Function.update_of_ne hq] at hc
      exact ⟨hq, hc⟩
  constructor
  · exact ⟨h.store.file, h.store.stored, h.store.unique, h.store.names, h.store.valid,
      h.store.apart⟩
  · intro q
    have hq : PcOk toLowerCase aliases s ((s.goto p .idle).pc q) := by
      rw [goto_pc]
      by_cases hq : q = p
      · rw [hq, Function.update_self]
        trivial
      · rw [Function.update_of_ne hq]
        exact h.pcs q
    exact hq.congr (by rfl) (by rfl) (by exact fun _ hx => hx) (by rfl)
  · intro q q' c c' hc hc'
    exact h.holders q q' c c' (hother q c hc).2 (hother q' c' hc').2
  · intro q c hc pop hpop heq
    obtain ⟨hq, hc⟩ := hother q c hc
    rcases List.mem_append.mp hpop with hpop | hpop
    · exact h.unreturned q c hc pop hpop heq
    · obtain ⟨c', hc', rfl⟩ := List.mem_map.mp hpop
      rw [Option.mem_toList] at hc'
      exact hq (h.holders q p c c' hc (hholds.trans hc') heq.symm)
  · intro pop hpop
    rcases List.mem_append.mp hpop with hpop | hpop
    · exact h.pops pop hpop
    · obtain ⟨c, hc, rfl⟩ := List.mem_map.mp hpop
      have hc := hremoved c (Option.mem_toList.mp hc)
      exact ⟨hc.taken, hcaller, hc.seen⟩
  · exact h.reads
  · intro taken htaken
    rcases h.delivered taken htaken with ⟨pop, hpop, heq⟩ | ⟨q, c, hc, heq⟩
    · exact Or.inl ⟨pop, List.mem_append_left _ hpop, heq⟩
    · by_cases hq : q = p
      · rw [hq, hholds] at hc
        refine Or.inl ⟨(actor, c), List.mem_append_right _ (List.mem_map.mpr ⟨c, ?_, rfl⟩), heq⟩
        exact Option.mem_toList.mpr hc
      · refine Or.inr ⟨q, c, ?_, heq⟩
        change (Function.update s.pc p .idle q).holds = some c
        rw [Function.update_of_ne hq]
        exact hc
  · change ((s.pops ++ found.toList.map fun c => (actor, c)).map fun pop => messageId pop.2).Nodup
    cases found with
    | none => exact (List.append_nil s.pops).symm ▸ h.once
    | some c =>
        rw [List.map_append, List.nodup_append]
        refine ⟨h.once, List.nodup_singleton _, ?_⟩
        intro id hid id' hid' heq
        obtain ⟨pop, hpop, rfl⟩ := List.mem_map.mp hid
        rw [List.mem_singleton.mp hid'] at heq
        exact h.unreturned p c hholds pop hpop heq

/-- A pop removes a file that no read is about to open, and that holds what it has loaded. -/
theorem Inv.unlink (h : Inv toLowerCase aliases s) {actor id dir : JsString}
    {dirs : List JsString} {found c : Json N} (hpc : s.pc p = .unlinking actor id dir dirs found)
    (hallowed : ∀ q, (dir, envelopeFile id) ∉ (s.pc q).pending)
    (hget : s.files.get (dir, envelopeFile id) = some c) :
    Inv toLowerCase aliases
      (MailSystem.goto { s with
        files := s.files.delete (dir, envelopeFile id)
        taken := s.taken ++ [messageId c] } p (.looking actor id dirs (some found))) := by
  have hp := h.pcs p
  rw [hpc] at hp
  obtain ⟨hcaller, hdirs, put, hput, rfl, hpath⟩ := hp
  obtain ⟨put', hput', rfl, hpath', huntaken⟩ := h.store.file _ c hget
  obtain rfl : put' = put := h.store.path_injective hput' hput (hpath'.trans hpath.symm)
  have hmem : messageId put'.2 ∈ s.taken ++ [messageId put'.2] :=
    List.mem_append_right _ (List.mem_singleton_self _)
  have hholds : ∀ q c, (Function.update s.pc p (.looking actor id dirs (some put'.2)) q).holds =
      some c → q = p ∧ c = put'.2 ∨ q ≠ p ∧ (s.pc q).holds = some c := by
    intro q c hc
    by_cases hq : q = p
    · rw [hq, Function.update_self] at hc
      exact Or.inl ⟨hq, (Option.some.inj hc).symm⟩
    · rw [Function.update_of_ne hq] at hc
      exact Or.inr ⟨hq, hc⟩
  -- an envelope that another pop holds, or that is returned, is removed already
  have hheld : ∀ q c, (s.pc q).holds = some c → messageId c ∈ s.taken := by
    intro q c hc
    have hq := h.pcs q
    cases hcases : s.pc q with
    | looking actor' id' dirs' found' =>
        rw [hcases] at hq hc
        exact (hq.2.2 c hc).taken
    | _ => simp [hcases, MailPc.holds] at hc
  constructor
  · constructor
    · intro path c' hget'
      rw [MailSystem.goto, JsMap.get_delete] at hget'
      split_ifs at hget' with hne
      obtain ⟨put, hput'', rfl, hwhere, huntaken'⟩ := h.store.file path c' hget'
      refine ⟨put, hput'', rfl, hwhere, fun htaken => ?_⟩
      rcases List.mem_append.mp htaken with htaken | htaken
      · exact huntaken' htaken
      · obtain rfl : put = put' := h.store.unique put hput'' put' hput' (List.mem_singleton.mp htaken)
        exact hne (hwhere.symm.trans hpath)
    · intro put hput''
      rcases h.store.stored put hput'' with hstored | htaken
      · by_cases hwhere : pathOf toLowerCase put = (dir, envelopeFile id)
        · obtain rfl : put = put' :=
            h.store.path_injective hput'' hput' (hwhere.trans hpath.symm)
          exact Or.inr hmem
        · left
          change (s.files.delete _).get _ = _
          rw [JsMap.get_delete, if_neg hwhere]
          exact hstored
      · exact Or.inr (List.mem_append_left _ htaken)
    · exact h.store.unique
    · exact h.store.names
    · exact h.store.valid
    · exact h.store.apart
  · intro q
    change PcOk _ _ _ (Function.update s.pc p _ q)
    by_cases hq : q = p
    · rw [hq, Function.update_self]
      refine ⟨hcaller, fun _ hx => hdirs (List.mem_cons_of_mem _ hx), ?_⟩
      rintro _ ⟨⟩
      obtain ⟨hdir, hname⟩ := Prod.mk.inj hpath
      exact ⟨⟨put', hput', rfl, hdir ▸ hdirs List.mem_cons_self⟩, hname, hmem⟩
    · rw [Function.update_of_ne hq]
      refine PcOk.mono ?_ ?_ (h.pcs q)
      · exact ⟨fun _ hx => hx, fun _ hx => hx, List.subset_append_left _ _⟩
      intro path hpending c' hget'
      have hne : path ≠ (dir, envelopeFile id) := fun heq => hallowed q (heq ▸ hpending)
      refine ⟨c', ?_⟩
      change (s.files.delete _).get _ = _
      rw [JsMap.get_delete, if_neg hne]
      exact hget'
  · intro q q' c c' hc hc' heq
    rcases hholds q c hc with ⟨hq, rfl⟩ | ⟨hq, hc⟩ <;>
      rcases hholds q' c' hc' with ⟨hq', rfl⟩ | ⟨hq', hc'⟩
    · exact hq.trans hq'.symm
    · exact absurd (heq ▸ hheld q' c' hc') huntaken
    · exact absurd (heq ▸ hheld q c hc) huntaken
    · exact h.holders q q' c c' hc hc' heq
  · intro q c hc pop hpop heq
    rcases hholds q c hc with ⟨-, rfl⟩ | ⟨-, hc⟩
    · exact huntaken (heq ▸ (h.pops pop hpop).1)
    · exact h.unreturned q c hc pop hpop heq
  · intro pop hpop
    obtain ⟨htaken, hcaller', hseen⟩ := h.pops pop hpop
    exact ⟨List.mem_append_left _ htaken, hcaller', hseen⟩
  · exact h.reads
  · intro taken htaken
    rcases List.mem_append.mp htaken with htaken | htaken
    · rcases h.delivered taken htaken with hpops | ⟨q, c, hc, heq⟩
      · exact Or.inl hpops
      refine Or.inr ⟨q, c, ?_, heq⟩
      change (Function.update s.pc p _ q).holds = some c
      by_cases hq : q = p
      · rw [hq, hpc] at hc
        simp [MailPc.holds] at hc
      · rw [Function.update_of_ne hq]
        exact hc
    · refine Or.inr ⟨p, put'.2, ?_, (List.mem_singleton.mp htaken).symm⟩
      change (Function.update s.pc p _ p).holds = some put'.2
      rw [Function.update_self, MailPc.holds]
  · exact h.once

/-! ## Runs -/

theorem Inv.next (h : Inv toLowerCase aliases s) (hfresh : FreshId s (.step p))
    (hallowed : Allowed toLowerCase aliases s (.step p)) :
    Inv toLowerCase aliases (s.next toLowerCase aliases p) := by
  have hp := h.pcs p
  rw [Allowed] at hallowed
  rw [MailSystem.next]
  cases hpc : s.pc p with
  | idle => exact h
  | putLocking actor envelope =>
      rw [hpc] at hp
      exact h.acquire hp (hpc ▸ rfl)
  | publishing actor envelope =>
      rw [hpc] at hp hallowed
      obtain ⟨hapart, hnames⟩ := hallowed
      exact (h.publish hp (hfresh actor envelope hpc) hapart hnames).release _ (hpc ▸ rfl)
  | listing actor due dirs found =>
      rw [hpc] at hp
      cases dirs with
      | nil => exact (h.returnRead hp).goto trivial (hpc ▸ rfl)
      | cons dir dirs => exact h.goto (h.readOk_list hp) (hpc ▸ rfl)
  | opening actor due dir names dirs found =>
      rw [hpc] at hp
      cases names with
      | nil => exact h.goto hp (hpc ▸ rfl)
      | cons name names =>
          obtain ⟨c, hget, hvalid, hread⟩ := h.readOk_open hp
          dsimp only
          rw [hget]
          dsimp only
          rw [if_pos hvalid]
          exact h.goto hread (hpc ▸ rfl)
  | readThrew => exact h
  | popLocking actor id =>
      rw [hpc] at hp
      exact h.acquire ⟨hp, fun _ hx => hx, by rintro _ ⟨⟩⟩ (hpc ▸ rfl)
  | looking actor id dirs found =>
      rw [hpc] at hp
      obtain ⟨hcaller, hdirs, hremoved⟩ := hp
      cases dirs with
      | nil => exact h.returnPop hpc _
      | cons dir dirs =>
          dsimp only
          split_ifs with hhas
          · cases found with
            | none => exact h.goto ⟨hcaller, hdirs⟩ (hpc ▸ rfl)
            | some c =>
                -- what is removed is in no other directory that the actor reads
                obtain ⟨c', hget⟩ := (JsMap.has_iff _ _).mp hhas
                obtain ⟨put', hput', hsame, hpath, huntaken⟩ := h.store.file _ c' hget
                obtain ⟨⟨put, hput, rfl, hdir⟩, hname, htaken⟩ := hremoved c rfl
                obtain ⟨hdir', hname'⟩ := Prod.mk.inj hpath
                have hwhere : inboxDir toLowerCase put'.1 ∈
                    inboxSourceDirs toLowerCase aliases actor :=
                  hdir' ▸ hdirs List.mem_cons_self
                have heq := h.store.names put' hput' put hput (hname'.trans hname.symm) actor
                  hwhere hdir
                exact absurd (heq ▸ htaken) (hsame ▸ huntaken)
          · exact h.goto ⟨hcaller, fun _ hx => hdirs (List.mem_cons_of_mem _ hx), hremoved⟩
              (hpc ▸ rfl)
  | loading actor id dir dirs =>
      rw [hpc] at hp
      dsimp only
      cases hget : s.files.get (dir, envelopeFile id) with
      | none => exact h.release _ (hpc ▸ rfl)
      | some c =>
          obtain ⟨put, hput, hsame, hpath, -⟩ := h.store.file _ c hget
          exact h.goto ⟨hp.1, hp.2, put, hput, hsame, hpath⟩ (hpc ▸ rfl)
  | unlinking actor id dir dirs found =>
      rw [hpc] at hallowed
      dsimp only
      cases hget : s.files.get (dir, envelopeFile id) with
      | none => exact h.release _ (hpc ▸ rfl)
      | some c => exact h.unlink hpc hallowed hget

theorem Inv.act (h : Inv toLowerCase aliases s) {a : MailAction P N} (hfresh : FreshId s a)
    (hallowed : Allowed toLowerCase aliases s a) :
    Inv toLowerCase aliases (s.act toLowerCase aliases a) := by
  cases a with
  | put p actor envelope =>
      rw [MailSystem.act]
      cases hpc : s.pc p with
      | idle =>
          dsimp only
          split_ifs with hvalid
          · exact h.goto hvalid (hpc ▸ rfl)
          · exact h
      | _ => exact h
  | read p actor =>
      rw [MailSystem.act]
      cases hpc : s.pc p with
      | idle =>
          refine (h.withCaller hallowed).goto ?_ (hpc ▸ rfl)
          exact readOk_start (List.mem_append_right _ (List.mem_singleton_self _))
      | _ => exact h
  | pop p actor id =>
      rw [MailSystem.act]
      cases hpc : s.pc p with
      | idle =>
          refine (h.withCaller hallowed).goto ?_ (hpc ▸ rfl)
          exact List.mem_append_right _ (List.mem_singleton_self _)
      | _ => exact h
  | step p => exact h.next hfresh hallowed
  | timeout p =>
      rw [MailSystem.act]
      cases hpc : s.pc p with
      | putLocking => exact h.goto trivial (hpc ▸ rfl)
      | popLocking => exact h.goto trivial (hpc ▸ rfl)
      | _ => exact h

/-- In every run of calls that put envelopes of different ids, and that meets the condition
on directories and files, mail is neither lost nor mixed. -/
theorem mailbox_safe (toLowerCase : JsString → JsString) (aliases : List H2AIdentityAlias)
    {actions : List (MailAction P N)}
    (h : EachMeets (MailSystem.act toLowerCase aliases)
      (fun s a => FreshId s a ∧ Allowed toLowerCase aliases s a) empty actions) :
    Throughout (MailSystem.act toLowerCase aliases) (Safe toLowerCase aliases) empty actions :=
  throughout_of_eachMeets (I := Inv toLowerCase aliases) (fun _ h => h.safe)
    (fun _ _ h hok => h.act hok.1 hok.2) inv_empty h

end MailSystem

/-! ## A file that is removed under a read -/

/-- An event from `claude:a`. -/
def plainMail : JsValue Int where
  json := .obj [(js "protocol", .str (js "sentropic.h2a")), (js "version", .str (js "0.1")),
    (js "id", .str (js "env:1")), (js "type", .str (js "event")),
    (js "actor", .obj [(js "instance", .str (js "claude:a"))]), (js "body", .obj []),
    (js "createdAt", .str (js "t"))]
  distinct := ⟨by decide, trivial, trivial, trivial, trivial, ⟨by decide, trivial, trivial⟩,
    ⟨by decide, trivial⟩, trivial, trivial⟩

/-- The mail is put and popped by one process; the other reads it in between. -/
def lostRaceRun : List (MailAction Bool Int) :=
  [.put false (js "claude:a") plainMail, .step false, .step false,
    .read true (js "claude:a"), .step true,
    .pop false (js "claude:a") (js "env:1"), .step false, .step false, .step false, .step false,
    .step true]

theorem removed_mail_breaks_read :
    ¬∀ (toLowerCase : JsString → JsString) (aliases : List H2AIdentityAlias)
      (actions : List (MailAction Bool Int)),
      EachMeets (MailSystem.act toLowerCase aliases) MailSystem.FreshId MailSystem.empty
          actions →
        Throughout (MailSystem.act toLowerCase aliases) (MailSystem.Safe toLowerCase aliases)
          MailSystem.empty actions := by
  intro h
  have hfresh : EachMeets (MailSystem.act id []) MailSystem.FreshId MailSystem.empty
      lostRaceRun := by
    refine ⟨trivial, ?_, ?_, trivial, ?_, trivial, ?_, ?_, ?_, ?_, ?_, trivial⟩
    -- the second step publishes the mail, when there is none yet
    case refine_2 => rintro _ _ - _ ⟨⟩
    all_goals rintro _ _ ⟨⟩
  exact (h id [] lostRaceRun hfresh).last.noThrow true rfl

/-- The same, without the other process. -/
def plainPopRun : List (MailAction Bool Int) :=
  [.put false (js "claude:a") plainMail, .step false, .step false,
    .pop false (js "claude:a") (js "env:1"), .step false, .step false, .step false, .step false,
    .step false]

theorem mailbox_safe_pop :
    Throughout (MailSystem.act id []) (MailSystem.Safe id [])
      (MailSystem.empty : MailSystem Bool Int) plainPopRun := by
  refine MailSystem.mailbox_safe id [] ⟨⟨trivial, trivial⟩, ⟨?_, trivial⟩, ?_⟩
  · rintro _ _ ⟨⟩
  refine ⟨⟨?_, ?_, ?_⟩, ⟨trivial, ?_⟩, ?_⟩
  · rintro _ _ - _ ⟨⟩
  · rintro _ ⟨⟩
  · rintro _ ⟨⟩
  · rintro put hput -
    obtain rfl := List.mem_singleton.mp hput
    exact Or.inl rfl
  refine ⟨⟨?_, trivial⟩, ⟨?_, trivial⟩, ⟨?_, trivial⟩, ⟨?_, ?_⟩, ⟨?_, trivial⟩, trivial⟩
  -- the file is removed when no process reads
  case refine_5 => rintro (_ | _) ⟨⟩
  all_goals rintro _ _ ⟨⟩

end H2a.LocalFiles
