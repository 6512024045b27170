import H2a.Library.JsMap
import H2a.LocalFiles.Negotiation
import H2a.LocalFiles.Paths
import H2a.LocalFiles.Registry
import H2a.Protocol.Authority
import H2a.Protocol.Envelope
/-!
# Stabilization

`openNegotiation`, `updateNegotiationStatus` and `stabilizeNegotiation` of
`packages/h2a/src/runtime/local-files/store.ts`.  Each runs under the lock of the
negotiation.  A stabilization that throws may leave the artifact and some events of the
journal behind; `state.json` is written last.
-/

namespace H2a.LocalFiles

open H2a.Library H2a.Protocol

variable {N : Type}

/-! ## Records -/

/-- The files a negotiation is kept in, and the immutable tree of the store. -/
structure NegotiationFiles (N : Type) where
  /-- `state.json`, as it is read back -/
  state : Option (Members N)
  /-- `journal.jsonl` -/
  journal : FileBytes
  /-- the stabilized artifacts, as they are read back -/
  artifacts : JsMap Path (Json N)

def negotiationStates : List JsString :=
  [js "draft", js "proposed", js "countered", js "accepted", js "rejected", js "withdrawn",
    js "expired", js "stabilized", js "abandoned"]

/-- `assertValidNegotiationState(state)` -/
def assertValidNegotiationState [JsonNumber N] (state : Option (Json N)) : Except String Unit :=
  if negotiationStates.any fun s => Json.isText s state then .ok ()
  else .error ("Unknown negotiation state: " ++ Json.displayMember state)

section Source

variable [JsonNumber N]

/-- `openNegotiation(record)` -/
def openNegotiation (record : Members N) (files : NegotiationFiles N) :
    Except String (Members N) × NegotiationFiles N :=
  match assertValidNegotiationState (lookupMember (js "status") record) with
  | .error error => (.error error, files)
  | .ok () =>
      if files.state.isSome then
        (.error ("Negotiation already open: " ++
          Json.displayMember (lookupMember (js "id") record)), files)
      else (.ok record, { files with state := some (Json.readBackMembers record) })

/-- `updateNegotiationStatus(id, status)` -/
def updateNegotiationStatus (id status : JsString) (files : NegotiationFiles N) :
    Except String (Members N) × NegotiationFiles N :=
  match assertValidNegotiationState (N := N) (some (.str status)) with
  | .error error => (.error error, files)
  | .ok () =>
      match files.state with
      | none => (.error s!"Negotiation not found: {id}", files)
      | some current =>
          let updated := spread current [(js "status", .str status)]
          (.ok updated, { files with state := some (Json.readBackMembers updated) })

/-! ## The quorum -/

/-- `if (condition) throw new Error(message)` -/
def refuseWhen (condition : Bool) (message : String) : Except String Unit :=
  if condition then .error message else .ok ()

/-- `if (value === undefined) throw new Error(message)` -/
def orThrow {α : Type} (value : Option α) (message : String) : Except String α :=
  value.elim (.error message) .ok

/-- What stabilization uses of its surroundings. -/
structure StabilizeEnv (N : Type) where
  sha256 : List UInt8 → JsString
  crypto : NodeCrypto N
  root : JsString
  /-- `new Date().toISOString()` -/
  now : JsString
  /-- the payloads of the events for `derivePosturesConflitFor`, which may throw -/
  conflictAdvisories : Members N → List (Json N) → Json N → Except String (List (Members N))
  /-- the payload of the event for `derivePostureConfianceFor` -/
  trustAdvisory : Members N → List (Json N) → Json N → Except String (Option (Members N))

/-- The signatures for each hash, by signer. -/
abbrev SignaturesByHash (N : Type) := JsMap JsString (JsMap JsString (Json N))

/-- The hash and the signature of a signature entry. -/
def signatureOf (entry : Json N) : Option (JsString × Json N) :=
  (entry.get (js "body")).bind fun body =>
    if Json.isText (js "signature") (body.get (js "kind")) then
      match body.get (js "artifactHash"), body.get (js "signature") with
      | some (.str artifactHash), some signature =>
          if signature.truthy then some (artifactHash, signature) else none
      | _, _ => none
    else none

/-- `entry.actor.instance` -/
def actorInstance (entry : Json N) : Except String (Option (Json N)) :=
  match entry.get (js "actor") with
  | none => .error "Cannot read properties of undefined (reading 'instance')"
  | some actor => actor.member (js "instance")

/-- `{ artifactHash }` -/
def signedHash (artifactHash : JsString) : Json N := .obj [(js "artifactHash", .str artifactHash)]

/-- `keys.some((pem) => verifyCanonical({ artifactHash }, sig, pem))` -/
def someKeyVerifies (crypto : NodeCrypto N) (artifactHash : JsString) (signature : Json N) :
    List JsString → Except String Bool
  | [] => .ok false
  | pem :: keys => do
      if ← verifyCanonical crypto (signedHash artifactHash) signature (.str pem) then return true
      else someKeyVerifies crypto artifactHash signature keys

/-- `findInstance(signer)`; the ids of the registry are texts -/
def registrationOf (registry : Registry) (signer : Option (Json N)) :
    Option H2AActorRegistration :=
  match signer with
  | some (.str id) => registry.findInstance id
  | _ => none

/-- The checks of one signature entry: its signer, which is the id of a registration. -/
def checkSignature (crypto : NodeCrypto N) (registry : Registry) (negotiationId : JsString)
    (entry : Json N) (artifactHash : JsString) (signature : Json N) : Except String JsString := do
  let actor ← actorInstance entry
  let by_ := signature.get (js "by")
  let signer := Json.displayMember actor
  refuseWhen (!Json.strictEq by_ actor)
    (s!"Negotiation {negotiationId}: signature by " ++ Json.displayMember by_ ++
      s!" does not match actor.instance {signer}")
  let registration ← orThrow (registrationOf registry actor)
    s!"Negotiation {negotiationId}: signer {signer} is not registered"
  refuseWhen registration.publicKeys.isEmpty
    s!"Negotiation {negotiationId}: signer {signer} has no publicKeys in the registry"
  let verified ← someKeyVerifies crypto artifactHash signature registration.publicKeys
  refuseWhen (!verified)
    (s!"Negotiation {negotiationId}: signature by {signer} fails verification " ++
      "against registered keys")
  return registration.id

/-- One turn of the loop over the journal. -/
def collectSignature (crypto : NodeCrypto N) (registry : Registry) (negotiationId : JsString)
    (byHash : SignaturesByHash N) (entry : Json N) : Except String (SignaturesByHash N) :=
  match signatureOf entry with
  | none => .ok byHash
  | some (artifactHash, signature) => do
      let signer ← checkSignature crypto registry negotiationId entry artifactHash signature
      let bucket := (byHash.get artifactHash).getD .empty
      return byHash.set artifactHash (bucket.set signer signature)

/-- `[...required].every((id) => have.has(id))` -/
def hasQuorum (required : List (Json N)) (bucket : JsMap JsString (Json N)) : Bool :=
  required.all fun id =>
    match id with
    | .str id => bucket.has id
    | _ => false

/-- The first hash with the full quorum. -/
def findWinner (required : List (Json N)) (byHash : SignaturesByHash N) :
    Option (JsString × JsMap JsString (Json N)) :=
  byHash.entries.find? fun e => hasQuorum required e.2

/-- The first artifact of the journal that hashes to the winning hash. -/
def findArtifact (sha256 : List UInt8 → JsString) (winningHash : JsString) :
    List (Json N) → Except String (Option (Json N))
  | [] => .ok none
  | entry :: entries =>
      match (entry.get (js "body")).bind (Json.get (js "artifact")) with
      | none => findArtifact sha256 winningHash entries
      | some artifact => do
          let hash ← computeHash sha256 artifact
          if hash = winningHash then return some artifact
          else findArtifact sha256 winningHash entries

/-- `knownKind` -/
def artifactKind (artifact : Json N) : Option H2AArtifactKind :=
  match artifact.get (js "kind") with
  | some (.str kind) => H2AArtifactKind.ofText kind
  | _ => none

/-- Every signer of the winning hash has a role that may sign the kind. -/
def checkAuthority (registry : Registry) (negotiationId : JsString) (kind : H2AArtifactKind) :
    List JsString → Except String Unit
  | [] => .ok ()
  | signer :: signers => do
      let roles := ((registry.findInstance signer).map (·.roles)).getD []
      if roles.any fun role => canSignArtifactKind role kind then
        checkAuthority registry negotiationId kind signers
      else
        let texts (roles : List H2ARole) :=
          String.intercalate "," (roles.map fun role => (roleText role).toText)
        throw (s!"Negotiation {negotiationId}: signer {signer} is not authorized to sign " ++
          "artifact kind " ++ kind.text.toText ++ " (roles: [" ++ texts roles ++
          "]); allowed roles: [" ++ texts (authorityMatrix kind) ++ "]")

/-- The authority check, skipped when the kind is not known. -/
def checkKnownKind (registry : Registry) (negotiationId : JsString) (artifact : Json N)
    (signers : List JsString) : Except String Unit :=
  match artifactKind artifact with
  | some kind => checkAuthority registry negotiationId kind signers
  | none => .ok ()

/-- `resolveStabilizedArtifactPath(paths, artifact, artifactHash)` -/
def resolveStabilizedArtifactPath (artifact : Json N) (artifactHash : JsString) : Path :=
  let kind := artifact.get (js "kind")
  match artifact.get (js "id") with
  | some (.str id) =>
      if id.units.isEmpty then fallback
      else if Json.isText (js "CONTRACT") kind then
        [js "contracts", safePathSegment id, js "contract.json"]
      else if Json.isText (js "POLICY") kind then
        [js "policies", safePathSegment id ++ js ".json"]
      else if Json.isText (js "ENGAGEMENT") kind then
        [js "engagements", safePathSegment id, js "charter.json"]
      else fallback
  | _ => fallback
where
  /-- `artifactHash.replace(/:/g, "_")` -/
  fallback : Path :=
    [js "artifacts", ⟨artifactHash.units.map fun u => if u = 0x3A then 0x5F else u⟩ ++ js ".json"]

/-- `record.requiredSigners`, when it is an array that is not empty -/
def signersOf (record : Members N) : Option (List (Json N)) :=
  match lookupMember (js "requiredSigners") record with
  | some (.arr signers) => if signers.isEmpty then none else some signers
  | _ => none

/-- What a stabilization settles before it writes. -/
structure Decision (N : Type) where
  record : Members N
  requiredSigners : List (Json N)
  entries : List (Json N)
  winningHash : JsString
  winningArtifact : Json N

/-- The guards, the quorum, the artifact and the authority of its signers. -/
def decideStabilization (env : StabilizeEnv N) (registry : Registry) (negotiationId : JsString)
    (files : NegotiationFiles N) : Except String (Decision N) := do
  let record ← orThrow files.state s!"Negotiation not found: {negotiationId}"
  refuseWhen (Json.isText (js "stabilized") (lookupMember (js "status") record))
    s!"Negotiation already stabilized: {negotiationId}"
  let requiredSigners ← orThrow (signersOf record)
    s!"Negotiation {negotiationId} has no requiredSigners"
  let entries ← readNegotiationJournal env.sha256 negotiationId files.journal
  let byHash ← entries.foldlM (collectSignature env.crypto registry negotiationId) .empty
  let winner ← orThrow (findWinner requiredSigners byHash)
    (s!"Negotiation {negotiationId}: no artifactHash has the full quorum (" ++
      (Json.arr requiredSigners).display ++ "). Collected: " ++ summary byHash)
  let found ← findArtifact env.sha256 winner.1 entries
  let winningArtifact ← orThrow found
    ("stabilizeNegotiation: no offer/counter event matches the winning artifactHash " ++
      winner.1.toText)
  checkKnownKind registry negotiationId winningArtifact winner.2.keys
  return ⟨record, requiredSigners, entries, winner.1, winningArtifact⟩
where
  summary (byHash : SignaturesByHash N) : String :=
    String.intercalate " | " (byHash.entries.map fun e =>
      e.1.toText ++ " signed by " ++ String.intercalate "," (e.2.keys.map JsString.toText))

/-! ## The writes -/

/-- A computation on the files that leaves what it wrote behind when it throws. -/
abbrev FileM (N : Type) := ExceptT String (StateM (NegotiationFiles N))

/-- A computation that writes nothing. -/
def FileM.ofExcept {α : Type} (x : Except String α) : FileM N α := ExceptT.mk (pure x)

/-- Append the events of the payloads to the journal, one after the other. -/
def appendEvents (sha256 : List UInt8 → JsString) :
    List (Members N) → List (Json N) → FileM N (List (Json N))
  | [], entries => return entries
  | payload :: payloads, entries => do
      let entry ← FileM.ofExcept (nextEntry sha256 entries.getLast? payload)
      modify fun files => { files with journal := appendJsonl files.journal entry }
      appendEvents sha256 payloads (entries ++ [entry])

/-- The payload of the final event. -/
def stabilizedPayload (env : StabilizeEnv N) (decision : Decision N) (eventId artifactPath : JsString) :
    Members N :=
  let scope := (lookupMember (js "scope") decision.record).elim [] fun scope =>
    [(js "scope", scope)]
  [(js "id", .str eventId), (js "type", .str (js "event")),
    (js "actor", .obj ([(js "instance", Json.str (js "h2a-cli")),
      (js "role", .str (js "MANDATAIRE"))] ++ scope)),
    (js "body", .obj [(js "kind", .str (js "stabilized")),
      (js "artifactHash", .str decision.winningHash),
      (js "signers", .arr decision.requiredSigners),
      (js "artifactPath", .str artifactPath)]),
    (js "createdAt", .str env.now)]

/-- What `stabilizeNegotiation` returns. -/
structure StabilizeResult (N : Type) where
  record : Members N
  artifactHash : JsString
  signers : List (Json N)
  /-- the final event and the advisory events before it -/
  events : List (Json N)
  artifactPath : Path

/-- The artifact, written once. -/
def writeArtifact (env : StabilizeEnv N) (decision : Decision N) (path : Path) : FileM N Unit := do
  let files ← get
  FileM.ofExcept (refuseWhen (files.artifacts.get path).isSome
    ("stabilizeNegotiation: stabilized artifact already on disk at " ++
      (joinPath env.root path).toText))
  modify fun files =>
    { files with artifacts := files.artifacts.set path decision.winningArtifact.readBack }

/-- The advisory events and the final one: the entries of the journal, then. -/
def writeEvents (env : StabilizeEnv N) (decision : Decision N) (path : Path) (eventId : JsString) :
    FileM N (List (Json N)) := do
  let conflicts ← FileM.ofExcept
    (env.conflictAdvisories decision.record decision.entries decision.winningArtifact)
  let entries ← appendEvents env.sha256 conflicts decision.entries
  let trust ← FileM.ofExcept (env.trustAdvisory decision.record entries decision.winningArtifact)
  let entries ← appendEvents env.sha256 trust.toList entries
  appendEvents env.sha256 [stabilizedPayload env decision eventId (joinPath env.root path)] entries

/-- `{ ...record, status: "stabilized", currentArtifactHash: winningHash }` -/
def stabilizedRecord (record : Members N) (winningHash : JsString) : Members N :=
  spread record [(js "status", .str (js "stabilized")),
    (js "currentArtifactHash", .str winningHash)]

/-- The writes of a stabilization, the state last. -/
def persist (env : StabilizeEnv N) (decision : Decision N) (eventId : JsString) :
    FileM N (StabilizeResult N) := do
  let path := resolveStabilizedArtifactPath decision.winningArtifact decision.winningHash
  writeArtifact env decision path
  let entries ← writeEvents env decision path eventId
  let updated := stabilizedRecord decision.record decision.winningHash
  modify fun files => { files with state := some (Json.readBackMembers updated) }
  return ⟨updated, decision.winningHash, decision.requiredSigners,
    entries.drop decision.entries.length, path⟩

/-- `stabilizeNegotiation(negotiationId, { eventId })` -/
def stabilizeNegotiation (env : StabilizeEnv N) (registry : Registry)
    (negotiationId eventId : JsString) : FileM N (StabilizeResult N) := do
  let files ← get
  let subject := files.state.bind (lookupMember (js "subject"))
  FileM.ofExcept (refuseWhen
    (isConsentId negotiationId || Json.isText (js "drive-consent") subject)
    "Cannot stabilize drive-consent")
  let decision ← FileM.ofExcept (decideStabilization env registry negotiationId files)
  persist env decision eventId

end Source

/-! ## What a stabilization that returns has checked -/

section Returns

variable [JsonNumber N] {env : StabilizeEnv N} {registry : Registry} {id eventId : JsString}
  {files files' : NegotiationFiles N}

theorem refuseWhen_eq_ok {condition : Bool} {message : String} {u : Unit} :
    refuseWhen condition message = .ok u ↔ condition = false := by
  cases condition <;> simp [refuseWhen]

theorem orThrow_eq_ok {α : Type} {value : Option α} {message : String} {a : α} :
    orThrow value message = .ok a ↔ value = some a := by
  cases value <;> simp [orThrow]

omit [JsonNumber N] in
theorem ofExcept_eq_ok {α : Type} {x : Except String α} {a : α} :
    (FileM.ofExcept x).run.run files = (.ok a, files') ↔ x = .ok a ∧ files = files' := by
  change (x, files) = (.ok a, files') ↔ _
  rw [Prod.mk.injEq]

omit [JsonNumber N] in
theorem run_ofExcept {α : Type} {x : Except String α} {a : α} (h : x = .ok a)
    (files : NegotiationFiles N) : (FileM.ofExcept x).run.run files = (.ok a, files) := by
  rw [h]
  rfl

/-- The checks a decision has passed. -/
structure Decided (env : StabilizeEnv N) (registry : Registry) (id : JsString)
    (files : NegotiationFiles N) (decision : Decision N) : Prop where
  state : files.state = some decision.record
  status : Json.isText (js "stabilized") (lookupMember (js "status") decision.record) = false
  signers : signersOf decision.record = some decision.requiredSigners
  journal : readNegotiationJournal env.sha256 id files.journal = .ok decision.entries
  quorum : ∃ byHash bucket,
    decision.entries.foldlM (collectSignature env.crypto registry id) .empty = .ok byHash ∧
      findWinner decision.requiredSigners byHash = some (decision.winningHash, bucket) ∧
      checkKnownKind registry id decision.winningArtifact bucket.keys = .ok ()
  artifact : findArtifact env.sha256 decision.winningHash decision.entries =
    .ok (some decision.winningArtifact)

theorem decideStabilization_eq_ok {decision : Decision N} :
    decideStabilization env registry id files = .ok decision ↔
      Decided env registry id files decision := by
  simp only [decideStabilization, bind_eq_ok_iff, orThrow_eq_ok, refuseWhen_eq_ok]
  constructor
  · rintro ⟨record, hstate, _, hstatus, signers, hsigners, entries, hjournal, byHash, hcollected,
      ⟨hash, bucket⟩, hwinner, found, hfound, artifact, rfl, _, hkind, hdecision⟩
    obtain rfl := Except.ok.inj hdecision
    exact ⟨hstate, hstatus, hsigners, hjournal, ⟨byHash, bucket, hcollected, hwinner, hkind⟩,
      hfound⟩
  · rintro ⟨hstate, hstatus, hsigners, hjournal, ⟨byHash, bucket, hcollected, hwinner, hkind⟩,
      hfound⟩
    exact ⟨_, hstate, (), hstatus, _, hsigners, _, hjournal, byHash, hcollected, _, hwinner, _,
      hfound, _, rfl, (), hkind, rfl⟩

/-- A stabilization that returns has decided, and then written the artifact and the state. -/
theorem stabilize_eq_ok {result : StabilizeResult N}
    (h : (stabilizeNegotiation env registry id eventId).run.run files = (.ok result, files')) :
    ∃ decision, Decided env registry id files decision ∧
      (persist env decision eventId).run.run files = (.ok result, files') := by
  rw [stabilizeNegotiation, stateRun_get_bind] at h
  obtain ⟨_, _, hrefuse, h⟩ := stateRun_bind_eq_ok.mp h
  obtain ⟨-, rfl⟩ := ofExcept_eq_ok.mp hrefuse
  obtain ⟨decision, _, hrun, h⟩ := stateRun_bind_eq_ok.mp h
  obtain ⟨hdecide, rfl⟩ := ofExcept_eq_ok.mp hrun
  exact ⟨decision, decideStabilization_eq_ok.mp hdecide, h⟩

end Returns

end H2a.LocalFiles
