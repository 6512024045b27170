import Mathlib.Algebra.GroupWithZero.Nat
import Mathlib.Algebra.Order.Ring.Rat
import H2a.Library.Base64
import H2a.Library.JsMap
import H2a.Library.JsObject
import H2a.Library.Utf8
/-!
# The payload store

`packages/h2a/src/runtime/mcp/payload-store.ts`: the answers that were too large for a frame, kept
for a day in `<root>/mcp-payloads/`.  A record is two files, named after its capability.
-/

namespace H2a.Mcp

open H2a.Library

/-! ## Constants and surroundings -/

/-- `PAYLOAD_TTL_MS` -/
def payloadTtlMs : Int := 24 * 60 * 60 * 1000

/-- `PAYLOAD_ROOT_QUOTA_BYTES` -/
def payloadRootQuotaBytes : Nat := 128 * 1024 * 1024

/-- `PAYLOAD_MAX_READ_BYTES` -/
def payloadMaxReadBytes : Nat := 65536

/-- `AUTO_SWEEP_INTERVAL_MS` -/
def autoSweepIntervalMs : ℚ := 30000

/-- `REF_RE` -/
def isRef (s : JsString) : Bool := s.length == 64 && s.units.all isHexUnit
where
  isHexUnit (u : UInt16) : Bool := isDigitUnit u || (0x61 ≤ u.toNat && u.toNat ≤ 0x66)

/-- `toString("hex")` -/
def hexText (bytes : List UInt8) : JsString :=
  ⟨bytes.flatMap fun b => [hexUnit (b.toNat / 16), hexUnit (b.toNat % 16)]⟩
where
  hexUnit (n : Nat) : UInt16 := UInt16.ofNat (hexDigit n).toNat

/-- The digest and the dates; a time is in milliseconds. -/
structure PayloadHost where
  /-- the SHA-256 digest, in hexadecimal -/
  sha256 : List UInt8 → JsString
  /-- `Date.parse`; `none` is `NaN` -/
  parseDate : JsString → Option Int
  /-- `toISOString` of a valid time -/
  toISOString : Int → JsString

/-- `8.64e15`, the last valid time -/
def maxTime : Int := 8640000000000000

/-! ## The directory -/

structure PayloadRecoveryRef where
  ref : JsString
  sha256 : JsString
  totalBytes : Nat
  expiresAt : JsString

/-- `PayloadMeta`, as it is written -/
structure PayloadMeta where
  sha256 : JsString
  totalBytes : Nat
  createdAt : JsString
  expiresAt : JsString
  scope : JsString

inductive DirEntry where
  /-- a file, with the numbers of its inode that a change changes -/
  | file (content : List UInt8) (stamp : JsString)
  /-- anything else, with the size `statSync` gives it, if any -/
  | other (size : Option Nat)

abbrev DirEntries := JsMap JsString DirEntry

/-- What a store holds in memory. -/
structure StoreCache where
  /-- the stamp of a record that was not expired, and when it is -/
  liveExpiries : JsMap JsString (JsString × Int)
  /-- `none` is `Number.NEGATIVE_INFINITY` -/
  lastSweepAt : Option ℚ

inductive PayloadStoreError where
  | recoveryUnavailable (cause message : JsString)
  /-- the gate of the writers is closed -/
  | refused (message : JsString)
  /-- `toISOString` of an invalid date -/
  | range

/-- The name of `binPath(dir, ref)`. -/
def binPath (ref : JsString) : JsString := ref ++ js ".bin"

/-- The name of `metaPath(dir, ref)`. -/
def metaPath (ref : JsString) : JsString := ref ++ js ".json"

/-- What a staged record is named after. -/
def stagedRef (ref : JsString) : JsString := js "." ++ ref ++ js ".tmp"

def DirEntry.size : DirEntry → Nat
  | .file content _ => content.length
  | .other size => size.getD 0

/-- `dirBytes(dir)` -/
def dirBytes (entries : DirEntries) : Nat := (entries.values.map DirEntry.size).sum

section Source

variable {N : Type} [JsonNumber N] (host : PayloadHost)

/-! ## The sweep -/

/-- What `Date.parse` reads a member as. -/
def dateText : Option (Json N) → JsString
  | some (.str s) => s
  | value => js (Json.displayMember value)

/-- `Date.parse(meta.expiresAt)`, which throws where `meta` is `null` -/
def expiryOf (record : Json N) : Except String (Option Int) :=
  (record.member (js "expiresAt")).map fun expiresAt => host.parseDate (dateText expiresAt)

inductive Inspection where
  | skipped
  | live (stamp : JsString) (expiresAt : Int)
  | expired

variable (N) in
/-- What a sweep makes of the record `ref`. -/
def inspect (cache : StoreCache) (now : Int) (entries : DirEntries) (ref : JsString) :
    Inspection :=
  match entries.get (metaPath ref) with
  | some (.file content stamp) =>
      match (cache.liveExpiries.get ref).filter fun c => decide (c.1 = stamp ∧ now < c.2) with
      | some cached => .live cached.1 cached.2
      | none =>
          match (Json.parse (Utf8.decode content) : Option (Json N)).map (expiryOf host) with
          | some (.ok (some expiresAt)) =>
              if expiresAt ≤ now then .expired else .live stamp expiresAt
          | _ => .skipped
  | _ => .skipped

/-- The files, the expiries found and the number of records removed. -/
structure Sweep where
  entries : DirEntries
  nextExpiries : JsMap JsString (JsString × Int)
  removed : Nat

/-- The record whose metadata an entry of the directory holds. -/
def refOfEntry (name : JsString) : Option JsString :=
  if name.endsWith (js ".json") then
    let ref : JsString := ⟨name.units.take (name.length - 5)⟩
    if isRef ref then some ref else none
  else none

variable (N) in
def sweepEntry (cache : StoreCache) (now : Int) (sweep : Sweep) (name : JsString) : Sweep :=
  match refOfEntry name with
  | none => sweep
  | some ref =>
      match inspect N host cache now sweep.entries ref with
      | .skipped => sweep
      | .live stamp expiresAt =>
          { sweep with nextExpiries := sweep.nextExpiries.set ref (stamp, expiresAt) }
      | .expired =>
          { sweep with
            entries := (sweep.entries.delete (metaPath ref)).delete (binPath ref)
            removed := sweep.removed + 1 }

variable (N) in
/-- `sweepExpired(now)`; `sweptAt` is `performance.now()` at its end -/
def sweepExpired (now : Int) (sweptAt : ℚ) (entries : DirEntries) (cache : StoreCache) :
    Nat × DirEntries × StoreCache :=
  let sweep := entries.keys.foldl (sweepEntry N host cache now) ⟨entries, .empty, 0⟩
  (sweep.removed, sweep.entries, ⟨sweep.nextExpiries, some sweptAt⟩)

/-! ## Writing -/

/-- What a call of `persistOutput` meets.  An error of the file system has a code and a message. -/
structure PersistInputs where
  /-- `withWriterMutation` refuses -/
  gateError : Option JsString
  mkdirError : Option (JsString × JsString)
  /-- `readdirSync` throws -/
  listFails : Bool
  performanceNow : ℚ
  /-- `Date.now()` in a sweep, and `performance.now()` at its end -/
  sweepNow : Int
  sweptAt : ℚ
  /-- `randomBytes(32)` -/
  random : { bytes : List UInt8 // bytes.length = 32 }
  /-- `Date.now()` -/
  now : Int
  /-- of the metadata that is written -/
  stamp : JsString
  writeError : Option (JsString × JsString)

/-- The capability a call draws. -/
def PersistInputs.ref (inputs : PersistInputs) : JsString := hexText inputs.random.1

variable (N) in
/-- The bytes in use, after the sweeps that are due. -/
def usedBytes (inputs : PersistInputs) (size : Nat) (entries : DirEntries) (cache : StoreCache) :
    Nat × DirEntries × StoreCache :=
  if inputs.listFails then (0, entries, cache)
  else
    let swept := cache.lastSweepAt.all fun t =>
      decide (autoSweepIntervalMs ≤ inputs.performanceNow - t)
    if swept then
      let (_, entries, cache) :=
        sweepExpired N host inputs.sweepNow inputs.sweptAt entries cache
      (dirBytes entries, entries, cache)
    else if payloadRootQuotaBytes < dirBytes entries + size then
      let (_, entries, cache) :=
        sweepExpired N host inputs.sweepNow inputs.sweptAt entries cache
      (dirBytes entries, entries, cache)
    else (dirBytes entries, entries, cache)

/-- `PayloadMeta` in JSON -/
def PayloadMeta.json (record : PayloadMeta) : Json N :=
  .obj [(js "sha256", .str record.sha256),
    (js "totalBytes", .num (JsonNumber.ofNat record.totalBytes)),
    (js "createdAt", .str record.createdAt), (js "expiresAt", .str record.expiresAt),
    (js "scope", .str record.scope)]

variable (N) in
def PayloadMeta.content (record : PayloadMeta) : List UInt8 :=
  Utf8.encode ((record.json : Json N).render ++ ['\n'])

variable (N) in
/-- Both files are staged and renamed; where that fails, none of the four names is left. -/
def writeRecord (inputs : PersistInputs) (record : PayloadMeta) (bytes : List UInt8)
    (entries : DirEntries) : Option (JsString × JsString) × DirEntries :=
  let ref := inputs.ref
  let staged := stagedRef ref
  let error :=
    if entries.has (binPath staged) || entries.has (metaPath staged) then
      some (js "EEXIST", js "file already exists")
    else inputs.writeError
  match error with
  | some error =>
      (some error, (((entries.delete (binPath staged)).delete (metaPath staged)).delete
        (binPath ref)).delete (metaPath ref))
  | none =>
      (none, (entries.set (binPath ref) (.file bytes inputs.stamp)).set (metaPath ref)
        (.file (record.content N) inputs.stamp))

variable (N) in
/-- `persistOutput(bytes)` of a store on `dir`, under the gate of the writers -/
def persistOutput (dir scope : JsString) (inputs : PersistInputs) (bytes : List UInt8)
    (entries : DirEntries) (cache : StoreCache) :
    Except PayloadStoreError PayloadRecoveryRef × DirEntries × StoreCache :=
  match inputs.gateError with
  | some message => (.error (.refused message), entries, cache)
  | none =>
  match inputs.mkdirError with
  | some (code, message) =>
      (.error (.recoveryUnavailable code
        (js "cannot create payload store directory: " ++ message)), entries, cache)
  | none =>
  let (used, entries, cache) := usedBytes N host inputs bytes.length entries cache
  if payloadRootQuotaBytes < used + bytes.length then
    (.error (.recoveryUnavailable (js "quota_exceeded")
      (js "payload store quota exceeded for " ++ dir)), entries, cache)
  else if maxTime < |inputs.now| ∨ maxTime < |inputs.now + payloadTtlMs| then
    (.error .range, entries, cache)
  else
    let record : PayloadMeta :=
      { sha256 := js "sha256:" ++ host.sha256 bytes
        totalBytes := bytes.length
        createdAt := host.toISOString inputs.now
        expiresAt := host.toISOString (inputs.now + payloadTtlMs)
        scope := scope }
    match writeRecord N inputs record bytes entries with
    | (some (code, message), entries) =>
        (.error (.recoveryUnavailable code (js "cannot persist payload: " ++ message)), entries,
          cache)
    | (none, entries) =>
        (.ok ⟨inputs.ref, record.sha256, record.totalBytes, record.expiresAt⟩, entries, cache)

/-! ## Reading -/

inductive PayloadReadError where
  | payloadNotFound
  | payloadExpired
  | invalidOffset
  | payloadCorrupt

/-- A chunk; what comes from the metadata is as it stands there. -/
structure PayloadReadChunk (N : Type) where
  ref : JsString
  /-- in base 64 -/
  data : List Char
  offset : N
  nextOffset : Option N
  totalBytes : Option (Json N)
  sha256 : Option (Json N)
  expiresAt : Option (Json N)

/-- `readMeta(ref)` -/
def readMeta (entries : DirEntries) (ref : JsString) : Option (Json N) :=
  match entries.get (metaPath ref) with
  | some (.file content _) => Json.parse (Utf8.decode content)
  | _ => none

/-- The metadata of `ref`, for a store of this scope. -/
def recordOf (scope : JsString) (entries : DirEntries) (ref : JsString) : Option (Json N) :=
  if isRef ref then
    (readMeta entries ref).filter fun record =>
      record.truthy && Json.isText scope (record.get (js "scope"))
  else none

/-- `Date.parse(meta.expiresAt) <= now` -/
def hasExpired (now : Int) (record : Json N) : Bool :=
  (host.parseDate (dateText (record.get (js "expiresAt")))).any fun expiry => decide (expiry ≤ now)

/-- The offset, where it is an integer between zero and `totalBytes`.  Where `totalBytes` is no
integer the file is not of that size, and the read fails either way. -/
def validOffset (totalBytes : Option (Json N)) (offset : N) : Option Nat :=
  match JsonNumber.toInt? offset with
  | some (.ofNat o) =>
      if (Json.counter? totalBytes).any fun total => decide (total < o) then none else some o
  | _ => none

/-- `cap` -/
def readCap (maxBytes : N) : Nat :=
  let asked :=
    match JsonNumber.toInt? maxBytes with
    | some (.ofNat (k + 1)) => k + 1
    | _ => payloadMaxReadBytes
  max 1 (min asked payloadMaxReadBytes)

/-- `readPayload(ref, offset, maxBytes)` at the time `now` -/
def readPayload (scope : JsString) (entries : DirEntries) (now : Int) (ref : JsString)
    (offset maxBytes : N) : Except PayloadReadError (PayloadReadChunk N) :=
  match recordOf scope entries ref with
  | none => .error .payloadNotFound
  | some record =>
  if hasExpired host now record then .error .payloadExpired
  else
  let totalBytes := record.get (js "totalBytes")
  match validOffset totalBytes offset with
  | none => .error .invalidOffset
  | some o =>
  match entries.get (binPath ref) with
  | none => .error .payloadNotFound
  | some (.other _) => .error .payloadCorrupt
  | some (.file content _) =>
      if Json.counter? totalBytes = some content.length then
        let chunk := (content.drop o).take (readCap maxBytes)
        let nextOffset := o + chunk.length
        .ok
          { ref := ref
            data := Base64.encode chunk
            offset := offset
            nextOffset :=
              if content.length ≤ nextOffset then none else some (JsonNumber.ofNat nextOffset)
            totalBytes := totalBytes
            sha256 := record.get (js "sha256")
            expiresAt := record.get (js "expiresAt") }
      else .error .payloadCorrupt

end Source

end H2a.Mcp
