import Mathlib.Data.List.Sort
import Mathlib.Logic.Function.Basic
import H2a.Library.JsMap
import H2a.Library.Transition
import H2a.LocalFiles.Address
import H2a.Protocol.EnvelopeForm
/-!
# Mailboxes

`putInboxMessage`, `readInbox` and `popInboxMessage` of
`packages/h2a/src/runtime/local-files/store.ts`, step by step, for any number of
processes.  "Readers do not take the writer lock": a directory is listed first and its
files are read one after the other.  A complete file is published by one rename.
-/

namespace H2a.LocalFiles

open H2a.Library H2a.Protocol

variable {N : Type}

/-! ## The files -/

/-- A value of the language: its objects have each key once. -/
structure JsValue (N : Type) where
  json : Json N
  distinct : json.Distinct

/-- The files of the inboxes, by directory and name. -/
abbrev InboxFiles (N : Type) := JsMap (JsString × JsString) (Json N)

/-- The id of an envelope that has one. -/
def messageId (envelope : Json N) : JsString := (envelopeId envelope).getD ⟨[]⟩

/-- The name of `envelopeFile(dir, envelopeId)`. -/
def envelopeFile (id : JsString) : JsString := safePathSegment id ++ js ".json"

/-- `readdirSync(dir).filter((f) => f.endsWith(".json")).sort()` -/
def envelopeFilesOf (files : InboxFiles N) (dir : JsString) : List JsString :=
  ((files.keys.filter fun path => path.1 = dir ∧ path.2.endsWith (js ".json")).map
    Prod.snd).insertionSort fun a b => ¬b < a

/-- One turn of the loop of `mergeInboxDedup`: the first of an id wins. -/
def mergeEnvelope (byId : JsMap JsString (Json N)) (envelope : Json N) :
    JsMap JsString (Json N) :=
  match envelopeId envelope with
  | none => byId
  | some id => if byId.has id then byId else byId.set id envelope

/-- `mergeInboxDedup(sets)`, on the sets one after the other. -/
def mergeInboxDedup (envelopes : List (Json N)) : List (Json N) :=
  (envelopes.foldl mergeEnvelope .empty).values.insertionSort
    fun a b => ¬messageId b < messageId a

/-! ## Processes -/

/-- Where a process stands. -/
inductive MailPc (N : Type) where
  | idle
  /-- in `putInboxMessage`: before the lock, and holding it -/
  | putLocking (actor : JsString) (envelope : JsValue N)
  | publishing (actor : JsString) (envelope : JsValue N)
  /-- in `readInbox`: `due` are the envelopes to be returned, `found` those read so far -/
  | listing (actor : JsString) (due : List (Json N)) (dirs : List JsString)
      (found : List (Json N))
  | opening (actor : JsString) (due : List (Json N)) (dir : JsString) (names : List JsString)
      (dirs : List JsString) (found : List (Json N))
  | readThrew
  /-- in `popInboxMessage`: before the lock -/
  | popLocking (actor id : JsString)
  /-- before `existsSync` in the first of `dirs` -/
  | looking (actor id : JsString) (dirs : List JsString) (found : Option (Json N))
  /-- before `readFileSync` in `dir` -/
  | loading (actor id dir : JsString) (dirs : List JsString)
  /-- before `unlinkSync` in `dir` -/
  | unlinking (actor id dir : JsString) (dirs : List JsString) (found : Json N)

/-- A `readInbox` that returned; `taken` are the ids that pops had removed by then. -/
structure InboxRead (N : Type) where
  actor : JsString
  due : List (Json N)
  result : List (Json N)
  taken : List JsString

/-- The files, the locks of the inboxes and the processes, with what has happened. -/
structure MailSystem (P N : Type) where
  files : InboxFiles N
  lock : JsString → Option P
  pc : P → MailPc N
  /-- the envelopes put, as they are read back, each with its actor -/
  puts : List (JsString × Json N)
  /-- the actors that have called `readInbox` or `popInboxMessage` -/
  callers : List JsString
  /-- the ids of the envelopes that pops have removed -/
  taken : List JsString
  reads : List (InboxRead N)
  /-- the envelopes that pops have returned, each with its actor -/
  pops : List (JsString × Json N)

inductive MailAction (P N : Type) where
  | put (p : P) (actor : JsString) (envelope : JsValue N)
  | read (p : P) (actor : JsString)
  | pop (p : P) (actor id : JsString)
  /-- the next step of the call of a process -/
  | step (p : P)
  /-- the wait for a lock times out -/
  | timeout (p : P)

namespace MailSystem

variable {P : Type} [DecidableEq P] [JsonNumber N]

section Steps

variable (toLowerCase : JsString → JsString) (aliases : List H2AIdentityAlias)

/-- What a `readInbox` of `actor` that is called now has to return: the envelopes put to the
actor that no pop has removed. -/
def due (s : MailSystem P N) (actor : JsString) : List (Json N) :=
  (s.puts.filter fun put =>
    canonicalAddress toLowerCase put.1 = canonicalAddress toLowerCase actor ∧
      messageId put.2 ∉ s.taken).map Prod.snd

/-- The process goes on at `pc`. -/
def goto (s : MailSystem P N) (p : P) (pc : MailPc N) : MailSystem P N :=
  { s with pc := Function.update s.pc p pc }

/-- The process takes the lock of an inbox, if it is free. -/
def acquire (s : MailSystem P N) (p : P) (dir : JsString) (pc : MailPc N) : MailSystem P N :=
  if (s.lock dir).isNone then goto { s with lock := Function.update s.lock dir (some p) } p pc
  else s

/-- The process releases the lock, and its call ends. -/
def release (s : MailSystem P N) (p : P) (dir : JsString) : MailSystem P N :=
  goto { s with lock := Function.update s.lock dir none } p .idle

/-- The next step of the call of a process. -/
def next (s : MailSystem P N) (p : P) : MailSystem P N :=
  match s.pc p with
  | .idle => s
  | .putLocking actor envelope =>
      s.acquire p (inboxDir toLowerCase actor) (.publishing actor envelope)
  | .publishing actor envelope =>
      let path := (inboxDir toLowerCase actor, envelopeFile (messageId envelope.json))
      release { s with
        files := s.files.set path envelope.json.readBack
        puts := s.puts ++ [(actor, envelope.json.readBack)] } p (inboxDir toLowerCase actor)
  | .listing actor due [] found =>
      goto { s with reads := s.reads ++ [⟨actor, due, mergeInboxDedup found, s.taken⟩] } p .idle
  | .listing actor due (dir :: dirs) found =>
      s.goto p (.opening actor due dir (envelopeFilesOf s.files dir) dirs found)
  | .opening actor due _ [] dirs found => s.goto p (.listing actor due dirs found)
  | .opening actor due dir (name :: names) dirs found =>
      match s.files.get (dir, name) with
      | none => s.goto p .readThrew
      | some envelope =>
          s.goto p (.opening actor due dir names dirs
            (if isH2AEnvelope envelope then found ++ [envelope] else found))
  | .readThrew => s
  | .popLocking actor id =>
      s.acquire p (inboxDir toLowerCase actor)
        (.looking actor id (inboxSourceDirs toLowerCase aliases actor) none)
  | .looking actor _ [] found =>
      release { s with pops := s.pops ++ found.toList.map fun envelope => (actor, envelope) } p
        (inboxDir toLowerCase actor)
  | .looking actor id (dir :: dirs) found =>
      if s.files.has (dir, envelopeFile id) then
        match found with
        | none => s.goto p (.loading actor id dir dirs)
        | some envelope => s.goto p (.unlinking actor id dir dirs envelope)
      else s.goto p (.looking actor id dirs found)
  | .loading actor id dir dirs =>
      match s.files.get (dir, envelopeFile id) with
      | none => s.release p (inboxDir toLowerCase actor)
      | some envelope => s.goto p (.unlinking actor id dir dirs envelope)
  | .unlinking actor id dir dirs found =>
      match s.files.get (dir, envelopeFile id) with
      | none => s.release p (inboxDir toLowerCase actor)
      | some envelope =>
          goto { s with
            files := s.files.delete (dir, envelopeFile id)
            taken := s.taken ++ [messageId envelope] } p (.looking actor id dirs (some found))

/-- What an action leads to; a process makes one call at a time. -/
def act (s : MailSystem P N) : MailAction P N → MailSystem P N
  | .put p actor envelope =>
      match s.pc p with
      | .idle =>
          if isH2AEnvelope envelope.json then s.goto p (.putLocking actor envelope) else s
      | _ => s
  | .read p actor =>
      match s.pc p with
      | .idle =>
          goto { s with callers := s.callers ++ [actor] } p
            (.listing actor (s.due toLowerCase actor)
              (inboxSourceDirs toLowerCase aliases actor) [])
      | _ => s
  | .pop p actor id =>
      match s.pc p with
      | .idle =>
          goto { s with callers := s.callers ++ [actor] } p (.popLocking actor id)
      | _ => s
  | .step p => s.next toLowerCase aliases p
  | .timeout p =>
      match s.pc p with
      | .putLocking .. => s.goto p .idle
      | .popLocking .. => s.goto p .idle
      | _ => s

/-- No mail. -/
def empty : MailSystem P N := ⟨.empty, fun _ => none, fun _ => .idle, [], [], [], [], []⟩

end Steps

/-! ## What is claimed -/

/-- `actor` reads what is put to `owner`: its own address, or one it has as a legacy alias. -/
def MayRead (toLowerCase : JsString → JsString) (aliases : List H2AIdentityAlias)
    (actor owner : JsString) : Prop :=
  canonicalAddress toLowerCase actor = canonicalAddress toLowerCase owner ∨
    ∃ legacy ∈ ownedLegacy aliases actor,
      canonicalAddress toLowerCase legacy = canonicalAddress toLowerCase owner

end MailSystem

namespace MailPc

/-- What a pop has removed and not returned yet. -/
def holds : MailPc N → Option (Json N)
  | .looking _ _ _ found => found
  | _ => none

/-- The files a read has listed and not read yet. -/
def pending : MailPc N → List (JsString × JsString)
  | .opening _ _ dir names _ _ => names.map fun name => (dir, name)
  | _ => []

end MailPc

namespace MailSystem

variable {P : Type} [DecidableEq P] [JsonNumber N]

/-- Mail is neither lost nor mixed. -/
structure Safe (toLowerCase : JsString → JsString) (aliases : List H2AIdentityAlias)
    (s : MailSystem P N) : Prop where
  noThrow : ∀ p, s.pc p ≠ .readThrew
  /-- what a read did not return, pops had removed -/
  kept : ∀ r ∈ s.reads, ∀ envelope ∈ r.due,
    envelope ∈ r.result ∨ messageId envelope ∈ r.taken
  /-- what is removed is returned by a pop -/
  delivered : ∀ id ∈ s.taken, (∃ pop ∈ s.pops, messageId pop.2 = id) ∨
    ∃ p envelope, (s.pc p).holds = some envelope ∧ messageId envelope = id
  once : (s.pops.map fun pop => messageId pop.2).Nodup
  apart : ∀ put ∈ s.puts, (∀ r ∈ s.reads, put.2 ∈ r.result →
      MayRead toLowerCase aliases r.actor put.1) ∧
    ∀ pop ∈ s.pops, pop.2 = put.2 → MayRead toLowerCase aliases pop.1 put.1

/-- The envelopes have pairwise different ids. -/
def FreshId (s : MailSystem P N) : MailAction P N → Prop
  | .step p => ∀ actor envelope, s.pc p = .publishing actor envelope →
      ∀ put ∈ s.puts, messageId put.2 ≠ messageId envelope.json
  | _ => True

/-- No directory `actor` reads is that of `owner`, unless it may read what is put there. -/
def Apart (toLowerCase : JsString → JsString) (aliases : List H2AIdentityAlias)
    (actor owner : JsString) : Prop :=
  inboxDir toLowerCase owner ∈ inboxSourceDirs toLowerCase aliases actor →
    MayRead toLowerCase aliases actor owner

/-- The directories and files do not meet: no directory of an actor is that of an unrelated
one, no file name stands for two envelopes that one actor reads, and no pop removes a file
that a read has listed and not read yet. -/
def Allowed (toLowerCase : JsString → JsString) (aliases : List H2AIdentityAlias)
    (s : MailSystem P N) : MailAction P N → Prop
  | .read _ actor => ∀ put ∈ s.puts, Apart toLowerCase aliases actor put.1
  | .pop _ actor _ => ∀ put ∈ s.puts, Apart toLowerCase aliases actor put.1
  | .step p =>
      match s.pc p with
      | .publishing actor envelope =>
          (∀ caller ∈ s.callers, Apart toLowerCase aliases caller actor) ∧
            ∀ put ∈ s.puts,
              envelopeFile (messageId put.2) = envelopeFile (messageId envelope.json) →
                ∀ reader, inboxDir toLowerCase actor ∈ inboxSourceDirs toLowerCase aliases reader →
                  inboxDir toLowerCase put.1 ∉ inboxSourceDirs toLowerCase aliases reader
      | .unlinking _ id dir _ _ => ∀ q, (dir, envelopeFile id) ∉ (s.pc q).pending
      | _ => True
  | _ => True

end MailSystem

end H2a.LocalFiles
