import H2a.Library.Base64
import H2a.Library.Bisect
import H2a.Mcp.Discovery.Corpus
/-!
# The discovery pager

`createDiscoveryPager` of `packages/h2a/src/runtime/mcp/discovery-pagination.ts`: the cursors, the
checks of a call in their order, and the page, trimmed until its frame fits.  `select` is a call up
to the listing and the position in it, `answer` the rest.
-/

namespace H2a.Mcp.Discovery

open H2a.Library

/-! ## Constants -/

/-- `DEFAULT_LIMIT` -/
def defaultLimit : Int := 200

/-- `MAX_LIMIT` -/
def maxLimit : Int := 1000

/-- `MAX_ROLE_BYTES` -/
def maxRoleBytes : Nat := 64

/-- `MAX_SCOPE_BYTES` -/
def maxScopeBytes : Nat := 256

/-- `MAX_CURSOR_CHARS` -/
def maxCursorChars : Nat := 2048

/-- `PAGE_FRAME_RESERVE` -/
def pageFrameReserve : Nat := 1024

/-! ## Answers -/

inductive DiscoveryErrorCode where
  | invalidFilter
  | invalidLimit
  | invalidCursor
  | cursorStale
  | registryChanged
  | registryInconsistent
  | entryTooLarge
  deriving DecidableEq

def DiscoveryErrorCode.text : DiscoveryErrorCode → JsString
  | .invalidFilter => js "invalid_filter"
  | .invalidLimit => js "invalid_limit"
  | .invalidCursor => js "invalid_cursor"
  | .cursorStale => js "cursor_stale"
  | .registryChanged => js "registry_changed"
  | .registryInconsistent => js "registry_inconsistent"
  | .entryTooLarge => js "entry_too_large"

structure DiscoveryError (N : Type) where
  code : DiscoveryErrorCode
  message : JsString
  /-- no members where there is none -/
  data : List (JsString × Json N)

structure DiscoverInstancesPage (N : Type) where
  instances : List (Registration N)
  total : Nat
  hasMore : Bool
  nextCursor : Option JsString
  generation : JsString
  limit : Int
  returned : Nat

inductive DiscoverOutcome (N : Type) where
  | page (page : DiscoverInstancesPage N)
  | error (error : DiscoveryError N)

/-- The arguments of a call, as a client sends them. -/
structure DiscoverInstancesArgs (N : Type) where
  role : Option (Json N)
  scope : Option (Json N)
  limit : Option (Json N)
  cursor : Option (Json N)

/-- What keeps an oversize entry: `payloadStore.persistOutput`. -/
abbrev Persist (σ : Type) := List UInt8 → σ → Except PayloadStoreError PayloadRecoveryRef × σ

/-- What `createDiscoveryPager` closes over. -/
structure Pager (σ : Type) where
  host : DiscoveryHost
  secret : List UInt8
  serverEpoch : JsString
  budget : FrameBudget
  persist : Option (Persist σ)

/-- How a call ends before its page is built. -/
inductive Stop (N : Type) where
  | thrown (message : String)
  | refused (error : DiscoveryError N)

section Source

variable {N : Type} [JsonNumber N] {σ : Type}

/-- An integer as a number. -/
def intNumber : Int → N
  | .ofNat k => JsonNumber.ofNat k
  | .negSucc k => JsonNumber.ofToken (JsonInteger.print (.negSucc k))

/-- `value ?? null` -/
def textOrNull : Option JsString → Json N
  | some s => .str s
  | none => .null

/-- The same value, with `null` for a number that is not finite. -/
def finite : Json N → Json N
  | .num n => if JsonNumber.isFinite n then .num n else .null
  | .arr elements => .arr (finiteElements elements)
  | .obj members => .obj (finiteMembers members)
  | value => value
where
  finiteElements : List (Json N) → List (Json N)
    | [] => []
    | e :: es => finite e :: finiteElements es
  finiteMembers : List (JsString × Json N) → List (JsString × Json N)
    | [] => []
    | (k, v) :: ms => (k, finite v) :: finiteMembers ms

/-- `JSON.stringify(value)` -/
def stringify (value : Json N) : List Char := (finite value).render

def DiscoverInstancesPage.json (page : DiscoverInstancesPage N) : Json N :=
  .obj [(js "instances", .arr (page.instances.map Registration.json)),
    (js "total", .num (JsonNumber.ofNat page.total)), (js "hasMore", .bool page.hasMore),
    (js "nextCursor", textOrNull page.nextCursor), (js "generation", .str page.generation),
    (js "limit", .num (intNumber page.limit)),
    (js "returned", .num (JsonNumber.ofNat page.returned))]

/-- `{ content: [{ type: "text", text }] }` -/
def textContent (text : List Char) : Json N :=
  .obj [(js "content",
    .arr [.obj [(js "type", .str (js "text")), (js "text", .str ⟨unitsOf text⟩)]])]

/-! ## Cursors -/

/-- `CursorPayload`, without its version -/
structure CursorPayload where
  /-- the epoch of the server -/
  e : JsString
  /-- the generation -/
  g : JsString
  /-- the offset -/
  o : Nat
  /-- the limit -/
  l : Int
  /-- the role, empty where there is none -/
  r : JsString
  /-- the scope, empty where there is none -/
  s : JsString

variable (N) in
def CursorPayload.json (p : CursorPayload) : Json N :=
  .obj [(js "v", .num (JsonNumber.ofNat 1)), (js "e", .str p.e), (js "g", .str p.g),
    (js "o", .num (JsonNumber.ofNat p.o)), (js "l", .num (intNumber p.l)), (js "r", .str p.r),
    (js "s", .str p.s)]

/-- `b64url(input)` -/
def b64url (bytes : List UInt8) : JsString := ⟨unitsOf (Base64.encodeUrl bytes)⟩

/-- `Buffer.from(s, "utf8")` -/
def utf8Bytes (s : JsString) : List UInt8 := Utf8.encode (JsString.toText.decode s.units)

/-- `macFor(secret, body)` -/
def macFor (pager : Pager σ) (body : JsString) : List UInt8 :=
  pager.host.hmacSha256 pager.secret (utf8Bytes body)

variable (N) in
/-- The part of a cursor that is authenticated. -/
def cursorBody (payload : CursorPayload) : JsString :=
  b64url (Utf8.encode (payload.json N).render)

variable (N) in
/-- `encodeCursor(secret, payload)` -/
def encodeCursor (pager : Pager σ) (payload : CursorPayload) : JsString :=
  let body := cursorBody N payload
  body ++ js "." ++ b64url (macFor pager body)

/-- `value` where it is a string. -/
def textOf : Option (Json N) → Option JsString
  | some (.str s) => some s
  | _ => none

/-- `value` where `Number.isInteger`. -/
def intOf : Option (Json N) → Option Int
  | some (.num n) => JsonNumber.toInt? n
  | _ => none

/-- The payload of a JSON value that has the form of one. -/
def payloadOf (value : Json N) : Option CursorPayload :=
  if intOf (value.get (js "v")) = some 1 then
    match textOf (value.get (js "e")), textOf (value.get (js "g")), intOf (value.get (js "o")),
        intOf (value.get (js "l")), textOf (value.get (js "r")), textOf (value.get (js "s")) with
    | some e, some g, some (.ofNat o), some l, some r, some s => some ⟨e, g, o, l, r, s⟩
    | _, _, _, _, _, _ => none
  else none

/-- What stands before the first `.`, and what stands after it. -/
def splitCursor (raw : JsString) : JsString × JsString :=
  (⟨raw.units.takeWhile fun u => decide (u ≠ 0x2E)⟩,
    ⟨(raw.units.dropWhile fun u => decide (u ≠ 0x2E)).tail⟩)

variable (N) in
/-- `decodeCursor(secret, serverEpoch, raw)` -/
def decodeCursor (pager : Pager σ) (raw : JsString) : Except DiscoveryErrorCode CursorPayload :=
  if raw.units.isEmpty || decide (maxCursorChars < raw.units.length) then .error .invalidCursor
  else
    let (body, mac) := splitCursor raw
    if body.units.isEmpty || mac.units.isEmpty then .error .invalidCursor
    else
      match (Json.parse (Utf8.decode (pager.host.fromBase64url body)) : Option (Json N)).bind
          payloadOf with
      | none => .error .invalidCursor
      | some payload =>
          if pager.host.fromBase64url mac = macFor pager body then
            if payload.e ≠ pager.serverEpoch then .error .cursorStale else .ok payload
          else if payload.e ≠ pager.serverEpoch then .error .cursorStale
          else .error .invalidCursor

/-! ## The checks of a call -/

/-- `CURSOR_STALE_MESSAGE` -/
def cursorStaleMessage : JsString :=
  js "registry changed or server restarted; restart discovery without cursor"

def invalidFilter : DiscoveryError N :=
  ⟨.invalidFilter, js "role or scope exceeds the supported filter format", []⟩

def invalidLimit : DiscoveryError N :=
  ⟨.invalidLimit, js "limit must be an integer between 1 and 1000", []⟩

def invalidCursor : DiscoveryError N :=
  ⟨.invalidCursor, js "cursor is malformed or does not match the query", []⟩

def cursorStale : DiscoveryError N :=
  ⟨.cursorStale, cursorStaleMessage, [(js "restartRequired", .bool true)]⟩

def registryChanged : DiscoveryError N :=
  ⟨.registryChanged, js "registry changed during capture; retry discovery",
    [(js "retryable", .bool true)]⟩

def registryInconsistent (generation : JsString) : DiscoveryError N :=
  ⟨.registryInconsistent, js "registry contains conflicting or invalid records",
    [(js "generation", .str generation)]⟩

/-- `C0_DEL_RE` -/
def isC0OrDel (u : UInt16) : Bool := u.toNat ≤ 0x1F || u.toNat == 0x7F

/-- `validateFilter(value, maxBytes)`; the empty string is no filter -/
def validateFilter (value : Option (Json N)) (maxBytes : Nat) :
    Except (DiscoveryError N) (Option JsString) :=
  match value with
  | none => .ok none
  | some (.str s) =>
      if s.units.any isC0OrDel then .error invalidFilter
      else if maxBytes < Utf8.byteLength s then .error invalidFilter
      else .ok (if s.units.isEmpty then none else some s)
  | some _ => .error invalidFilter

/-- The check of `limit`. -/
def validateLimit (value : Option (Json N)) : Except (DiscoveryError N) (Option Int) :=
  match value with
  | none => .ok none
  | some value =>
      match intOf (some value) with
      | some l => if l < 1 ∨ maxLimit < l then .error invalidLimit else .ok (some l)
      | none => .error invalidLimit

/-- The check of `cursor`. -/
def validateCursor (value : Option (Json N)) : Except (DiscoveryError N) (Option JsString) :=
  match value with
  | none => .ok none
  | some (.str s) =>
      if s.units.isEmpty || decide (maxCursorChars < s.units.length) then .error invalidCursor
      else .ok (some s)
  | some _ => .error invalidCursor

/-- Where a call reads the listing, and which listing. -/
structure Position where
  offset : Nat
  role : Option JsString
  scope : Option JsString
  limit : Int

/-- `p.r === "" ? undefined : p.r` -/
def filterOf (text : JsString) : Option JsString := if text.units.isEmpty then none else some text

variable (N) in
/-- What is refused of a cursor: with the texts of both refusals. -/
def refusal (code : DiscoveryErrorCode) : DiscoveryError N :=
  if code = .cursorStale then cursorStale else invalidCursor

/-- The position a call asks for: of the cursor, where there is one, and then each argument that is
given agrees with it. -/
def position (pager : Pager σ) (args : DiscoverInstancesArgs N) (generation : JsString)
    (role scope : Option JsString) (limit : Option Int) (cursor : Option JsString) :
    Except (DiscoveryError N) Position :=
  match cursor with
  | none => .ok ⟨0, role, scope, limit.getD defaultLimit⟩
  | some raw =>
      match decodeCursor N pager raw with
      | .error code => .error (refusal N code)
      | .ok p =>
          if p.g ≠ generation then .error cursorStale
          else if args.role.isSome ∧ role ≠ filterOf p.r then .error invalidCursor
          else if args.scope.isSome ∧ scope ≠ filterOf p.s then .error invalidCursor
          else if limit.isSome ∧ limit ≠ some p.l then .error invalidCursor
          else .ok ⟨p.o, filterOf p.r, filterOf p.s, p.l⟩

/-- What a page is built from. -/
structure Selection (N : Type) where
  generation : JsString
  position : Position
  sorted : List (Registration N)

/-- `total` -/
def Selection.total (sel : Selection N) : Nat := sel.sorted.length

/-- An exception ends the call. -/
def orThrown {α : Type} (x : Except String α) : Except (Stop N) α := x.mapError Stop.thrown

/-- An error is the answer. -/
def orRefused {α : Type} (x : Except (DiscoveryError N) α) : Except (Stop N) α :=
  x.mapError Stop.refused

/-- `value` where there is one, else the answer `error`. -/
def orElseRefused {α : Type} (value : Option α) (error : DiscoveryError N) : Except (Stop N) α :=
  orRefused (value.elim (.error error) .ok)

/-- The steps 1 to 7 of `discover(args)`. -/
def select (pager : Pager σ) (attempts : Nat → CaptureAttempt) (args : DiscoverInstancesArgs N) :
    Except (Stop N) (Selection N) := do
  let role ← orRefused (validateFilter args.role maxRoleBytes)
  let scope ← orRefused (validateFilter args.scope maxScopeBytes)
  let limit ← orRefused (validateLimit args.limit)
  let cursor ← orRefused (validateCursor args.cursor)
  let captured ← orThrown (captureSources attempts)
  let capture ← orElseRefused captured registryChanged
  let generation := computeGeneration pager.host capture
  let parsed ← orThrown (parseCorpus N capture)
  let corpus ← orElseRefused parsed (registryInconsistent generation)
  let position ← orRefused (position pager args generation role scope limit cursor)
  let sorted ← orThrown (listing pager.host corpus position.role position.scope)
  if sorted.length < position.offset then .error (.refused cursorStale)
  else return ⟨generation, position, sorted⟩

/-! ## The page -/

/-- The cursor of an offset in the same listing. -/
def cursorAt (pager : Pager σ) (sel : Selection N) (offset : Nat) : JsString :=
  encodeCursor N pager
    { e := pager.serverEpoch
      g := sel.generation
      o := offset
      l := sel.position.limit
      r := sel.position.role.getD (js "")
      s := sel.position.scope.getD (js "") }

/-- `buildPage(n)` -/
def buildPage (pager : Pager σ) (sel : Selection N) (n : Nat) : DiscoverInstancesPage N :=
  let nextOffset := sel.position.offset + n
  let hasMore := decide (nextOffset < sel.total)
  { instances := (sel.sorted.drop sel.position.offset).take n
    total := sel.total
    hasMore := hasMore
    nextCursor := if hasMore then some (cursorAt pager sel nextOffset) else none
    generation := sel.generation
    limit := sel.position.limit
    returned := n }

/-- `frameBytesFor(page)`; `none` where it throws -/
def frameBytesFor (page : DiscoverInstancesPage N) : Option Nat :=
  (encodeFrame (some (resultFrame (.num (JsonNumber.ofNat 0) : Json N)
    (textContent (stringify page.json))))).map EncodedFrame.bytes

/-- `effectiveBudget` -/
def effectiveBudget (budget : FrameBudget) : Nat :=
  max 1024 (budget.maxBytes - pageFrameReserve)

/-- Whether the frame of the page of `n` entries fits. -/
def pageFits (pager : Pager σ) (sel : Selection N) (n : Nat) : Except String Bool :=
  match frameBytesFor (buildPage pager sel n) with
  | some bytes => .ok (decide (bytes ≤ effectiveBudget pager.budget))
  | none => .error "Invalid string length"

/-- `id.length > 256 ? id.slice(0, 256) + "…" : id` -/
def clipId (id : JsString) : JsString :=
  if 256 < id.units.length then ⟨id.units.take 256 ++ [0x2026]⟩ else id

/-- The reference of an entry that was kept. -/
def recoveredEntry (persist : Option (Persist σ)) (bytes : List UInt8) (s : σ) :
    Option PayloadRecoveryRef × σ :=
  match persist with
  | none => (none, s)
  | some persist =>
      match persist bytes s with
      | (.ok recovery, s) => (some recovery, s)
      | (.error _, s) => (none, s)

/-- `resumeCursor` -/
def resumeCursor (pager : Pager σ) (sel : Selection N) : Option JsString :=
  let resumeOffset := sel.position.offset + 1
  if resumeOffset < sel.total then some (cursorAt pager sel resumeOffset) else none

/-- The answer in place of an entry that fits no frame. -/
def entryTooLarge (pager : Pager σ) (sel : Selection N) (entry : Registration N)
    (recovery : Option PayloadRecoveryRef) : DiscoveryError N :=
  let bytes := Utf8.encode (stringify entry.json)
  { code := .entryTooLarge
    message := js "one registry entry exceeds the MCP frame budget"
    data :=
      [(js "budgetBytes", .num (JsonNumber.ofNat pager.budget.maxBytes)),
        (js "entryBytes", .num (JsonNumber.ofNat bytes.length)),
        (js "id", .str (clipId (regKey entry))),
        (js "entrySha256", .str (js "sha256:" ++ hexText (pager.host.sha256 bytes))),
        (js "generation", .str sel.generation),
        (js "total", .num (JsonNumber.ofNat sel.total)),
        (js "offset", .num (JsonNumber.ofNat sel.position.offset)),
        (js "resumeCursor", textOrNull (resumeCursor pager sel))] ++ recoveryMembers recovery }

/-- `maxAvailable` -/
def maxAvailable (sel : Selection N) : Int :=
  min sel.position.limit ((sel.total : Int) - sel.position.offset)

/-- The step 8 of `discover(args)`. -/
def answer (pager : Pager σ) (sel : Selection N) (s : σ) :
    Except String (DiscoverOutcome N) × σ :=
  if sel.total = 0 ∨ maxAvailable sel = 0 then (.ok (.page (buildPage pager sel 0)), s)
  else
    let hi := (maxAvailable sel).toNat
    match bisect (pageFits pager sel) hi 0 hi with
    | .error message => (.error message, s)
    | .ok 0 =>
        match sel.sorted[sel.position.offset]? with
        | none => (.error "Cannot read properties of undefined", s)
        | some entry =>
            let (recovery, s) :=
              recoveredEntry pager.persist (Utf8.encode (stringify entry.json)) s
            (.ok (.error (entryTooLarge pager sel entry recovery)), s)
    | .ok (n + 1) => (.ok (.page (buildPage pager sel (n + 1))), s)

/-- `discover(args)`, by what the attempts to capture the sources meet -/
def discover (pager : Pager σ) (attempts : Nat → CaptureAttempt) (args : DiscoverInstancesArgs N)
    (s : σ) : Except String (DiscoverOutcome N) × σ :=
  match select pager attempts args with
  | .error (.thrown message) => (.error message, s)
  | .error (.refused error) => (.ok (.error error), s)
  | .ok sel => answer pager sel s

end Source

end H2a.Mcp.Discovery
