import Mathlib.Data.List.Sort
import H2a.Library.JsMap
import H2a.Library.JsonEq
import H2a.Mcp.FrameBudget
/-!
# The corpus of discovery

`packages/h2a/src/runtime/mcp/discovery-pagination.ts`, up to the listing that is paged: the capture
of the registry and its grants, the generation, the rows, the effective roles and scopes
(`effectiveOrgInstances` of `packages/h2a/src/org.ts`) and the canonical order.  An exception is its
message.
-/

namespace H2a.Mcp.Discovery

open H2a.Library

/-- `node:crypto`, `Buffer.from(text, "base64url")` and `Date.parse`, `none` where it is `NaN`. -/
structure DiscoveryHost where
  sha256 : List UInt8 → List UInt8
  /-- of a secret and a text -/
  hmacSha256 : List UInt8 → List UInt8 → List UInt8
  fromBase64url : JsString → List UInt8
  parseDate : JsString → Option Int

/-! ## The capture -/

/-- The bytes of a file: no buffer of the language has more. -/
abbrev FileContent := { bytes : List UInt8 // bytes.length < 2 ^ 53 }

/-- What `readFileSync` does. -/
inductive FileRead where
  | content (content : FileContent)
  /-- `ENOENT` -/
  | absent
  | fails (message : String)

/-- What `statSync` gives, as it is printed. -/
structure FileStat where
  size : Nat
  mtimeMs : JsString
  ino : Nat

structure SourceCapture where
  instances : FileContent
  grants : FileContent
  deriving DecidableEq

/-- `Buffer.alloc(0)` -/
def emptyContent : FileContent := ⟨[], Nat.two_pow_pos 53⟩

/-- `readOrEmpty(path)` -/
def readOrEmpty : FileRead → Except String FileContent
  | .content content => .ok content
  | .absent => .ok emptyContent
  | .fails message => .error message

/-- `statSig(path)`; `none` where `statSync` throws -/
def statSig : Option FileStat → JsString
  | some s => counterText s.size ++ js ":" ++ s.mtimeMs ++ js ":" ++ counterText s.ino
  | none => js "absent"
where
  counterText (n : Nat) : JsString := ⟨unitsOf (JsonInteger.digits n)⟩

/-- What the file system answers to one attempt. -/
structure CaptureAttempt where
  beforeI : Option FileStat
  beforeG : Option FileStat
  instances : FileRead
  grants : FileRead
  instances2 : FileRead
  grants2 : FileRead
  afterI : Option FileStat
  afterG : Option FileStat

/-- `CAPTURE_ATTEMPTS` -/
def captureAttempts : Nat := 3

/-- One attempt; `none` where a source changed. -/
def CaptureAttempt.capture (attempt : CaptureAttempt) : Except String (Option SourceCapture) := do
  let instances ← readOrEmpty attempt.instances
  let grants ← readOrEmpty attempt.grants
  let instances2 ← readOrEmpty attempt.instances2
  let grants2 ← readOrEmpty attempt.grants2
  if statSig attempt.beforeI = statSig attempt.afterI ∧
      statSig attempt.beforeG = statSig attempt.afterG ∧
      instances = instances2 ∧ grants = grants2 then
    return some ⟨instances, grants⟩
  else return none

def firstCapture : List CaptureAttempt → Except String (Option SourceCapture)
  | [] => .ok none
  | attempt :: rest =>
      attempt.capture.bind fun captured =>
        match captured with
        | some capture => .ok (some capture)
        | none => firstCapture rest

/-- `captureSources(instancesPath, grantsPath)`, by what each attempt meets -/
def captureSources (attempts : Nat → CaptureAttempt) : Except String (Option SourceCapture) :=
  firstCapture ((List.range captureAttempts).map attempts)

/-- `uint64BE(n)` -/
def uint64BE (n : Nat) : List UInt8 := lowBytes 8 n
where
  lowBytes : Nat → Nat → List UInt8
    | 0, _ => []
    | k + 1, n => lowBytes k (n / 256) ++ [UInt8.ofNat (n % 256)]

/-- `SORT_ORDER_VERSION` -/
def sortOrderVersion : List UInt8 := Utf8.encode "discovery-order-v1".toList

/-- What is digested of a capture. -/
def SourceCapture.framed (capture : SourceCapture) : List UInt8 :=
  uint64BE capture.instances.val.length ++ capture.instances.val ++
    uint64BE capture.grants.val.length ++ capture.grants.val ++ sortOrderVersion

/-- `computeGeneration(capture)` -/
def computeGeneration (host : DiscoveryHost) (capture : SourceCapture) : JsString :=
  js "sha256:" ++ hexText (host.sha256 capture.framed)

/-! ## The rows -/

/-- A row of the registry, with `roles` and `scopes` made arrays. -/
structure Registration (N : Type) where
  /-- `instance` -/
  instanceId : JsString
  roles : List (Json N)
  scopes : List (Json N)
  members : List (JsString × Json N)
  deriving DecidableEq

section Rows

variable {N : Type} [JsonNumber N]

def Registration.json (reg : Registration N) : Json N := .obj reg.members

/-- `toArray(value)` -/
def toArray : Option (Json N) → List (Json N)
  | none | some .null => []
  | some (.arr es) => es
  | some v => [v]

/-- `regKey(reg)` -/
def regKey (reg : Registration N) : JsString :=
  match lookupMember (js "id") reg.members with
  | some (.str id) => if id.units.isEmpty then reg.instanceId else id
  | _ => reg.instanceId

/-- The members of a value that is spread into an object. -/
def membersOf : Json N → List (JsString × Json N)
  | .obj members => members
  | _ => []

/-- A line that is not empty; `none` where the corpus is invalid. -/
def parseRow (line : List Char) : Except String (Option (Registration N)) :=
  match (Json.parse line : Option (Json N)) with
  | none => .ok none
  | some row =>
      (row.member (js "instance")).map fun
        | some (.str instanceId) =>
            if instanceId.units.isEmpty then none
            else
              let roles := toArray (row.get (js "roles"))
              let scopes := toArray (row.get (js "scopes"))
              some
                { instanceId := instanceId
                  roles := roles
                  scopes := scopes
                  members := insertMember (js "scopes") (.arr scopes)
                    (insertMember (js "roles") (.arr roles) (membersOf row)) }
        | _ => none

def parseRows (seen : List JsString) :
    List (List Char) → Except String (Option (List (Registration N)))
  | [] => .ok (some [])
  | line :: lines =>
      if line.isEmpty then parseRows seen lines
      else
        (parseRow line).bind fun
          | none => .ok none
          | some reg =>
              if regKey reg ∈ seen then .ok none
              else (parseRows (regKey reg :: seen) lines).map fun rows => rows.map (reg :: ·)

def parseGrants : List (List Char) → Option (List (Json N))
  | [] => some []
  | line :: lines =>
      if line.isEmpty then parseGrants lines
      else (Json.parse line).bind fun grant => (parseGrants lines).map (grant :: ·)

structure ParsedCorpus (N : Type) where
  registrations : List (Registration N)
  grants : List (Json N)
  deriving DecidableEq

/-- `text.split("\n")` -/
def linesOf (content : FileContent) : List (List Char) := (Utf8.decode content.val).splitOn '\n'

variable (N) in
/-- `parseCorpus(capture)`; `none` is `{ duplicateOrInvalid: true }` -/
def parseCorpus (capture : SourceCapture) : Except String (Option (ParsedCorpus N)) :=
  (parseRows [] (linesOf capture.instances)).map fun rows =>
    rows.bind fun registrations =>
      (parseGrants (linesOf capture.grants)).map fun grants => ⟨registrations, grants⟩

/-! ## The effective view -/

/-- The roles and scopes of an instance, as sets; a grant may have neither. -/
structure Effective (N : Type) where
  roles : List (Option (Json N))
  scopes : List (Option (Json N))

/-- `set.add(value)` -/
def setAdd (set : List (Option (Json N))) (value : Option (Json N)) : List (Option (Json N)) :=
  if set.any (Json.strictEq value) then set else set ++ [value]

/-- What a row adds. -/
def addRow (acc : JsMap JsString (Effective N)) (r : Registration N) :
    JsMap JsString (Effective N) :=
  let entry := (acc.get r.instanceId).getD ⟨[], []⟩
  acc.set r.instanceId
    ⟨(r.roles.map some).foldl setAdd entry.roles, (r.scopes.map some).foldl setAdd entry.scopes⟩

/-- What a grant adds: nothing to an instance that is not registered. -/
def addGrant (acc : JsMap JsString (Effective N)) (g : Json N) :
    Except String (JsMap JsString (Effective N)) :=
  (g.member (js "instance")).map fun
    | some (.str instanceId) =>
        match acc.get instanceId with
        | some entry =>
            acc.set instanceId
              ⟨setAdd entry.roles (g.get (js "role")), setAdd entry.scopes (g.get (js "scope"))⟩
        | none => acc
    | _ => acc

/-- `effectiveOrgInstances(registrations, grants)`, by instance -/
def effectiveOrgInstances (registrations : List (Registration N)) (grants : List (Json N)) :
    Except String (JsMap JsString (Effective N)) :=
  grants.foldlM addGrant (registrations.foldl addRow JsMap.empty)

/-- `values.includes(text)`, where the filter is given -/
def includes (filter : Option JsString) (values : List (Option (Json N))) : Bool :=
  filter.all fun text => values.any (Json.isText text)

/-- What passes the filters. -/
def matching (effective : JsMap JsString (Effective N)) (role scope : Option JsString)
    (registrations : List (Registration N)) : List (Registration N) :=
  (registrations.filter fun reg =>
    role.isNone || (effective.get reg.instanceId).any fun e => includes role e.roles).filter
    fun reg =>
      scope.isNone || (effective.get reg.instanceId).any fun e => includes scope e.scopes

/-! ## The canonical order -/

/-- The code points of a string; a surrogate that is not paired is its own. -/
def codePoints : List UInt16 → List Nat
  | [] => []
  | [u] => [u.toNat]
  | u :: v :: rest =>
      if isHighSurrogate u && isLowSurrogate v then
        (0x10000 + (u.toNat - 0xD800) * 0x400 + (v.toNat - 0xDC00)) :: codePoints rest
      else u.toNat :: codePoints (v :: rest)

/-- `codePointCompare(a, b)` -/
def codePointCompare (a b : JsString) : Int := go (codePoints a.units) (codePoints b.units)
where
  go : List Nat → List Nat → Int
    | [], [] => 0
    | [], _ :: _ => -1
    | _ :: _, [] => 1
    | x :: xs, y :: ys => if x ≠ y then (x : Int) - y else go xs ys

structure Decorated (N : Type) where
  reg : Registration N
  /-- `none` where there is no valid date -/
  ts : Option Int

/-- `Date.parse(reg.createdAt)`, where it is finite -/
def decorate (host : DiscoveryHost) (reg : Registration N) : Decorated N :=
  ⟨reg, host.parseDate (dateText (lookupMember (js "createdAt") reg.members))⟩

/-- The comparison of the sort. -/
def compareDecorated (x y : Decorated N) : Int :=
  match x.ts, y.ts with
  | some tx, some ty => if tx ≠ ty then ty - tx else codePointCompare (regKey x.reg) (regKey y.reg)
  | some _, none => -1
  | none, some _ => 1
  | none, none => codePointCompare (regKey x.reg) (regKey y.reg)

/-- `sorted` -/
def sorted (host : DiscoveryHost) (filtered : List (Registration N)) : List (Registration N) :=
  ((filtered.map (decorate host)).insertionSort fun x y => compareDecorated x y ≤ 0).map
    Decorated.reg

/-- What a query lists of a corpus. -/
def listing (host : DiscoveryHost) (corpus : ParsedCorpus N) (role scope : Option JsString) :
    Except String (List (Registration N)) :=
  (effectiveOrgInstances corpus.registrations corpus.grants).map fun effective =>
    sorted host (matching effective role scope corpus.registrations)

end Rows

end H2a.Mcp.Discovery
