import Mathlib.Algebra.Order.Ring.Rat
import H2a.Library.JsString
import H2a.Library.Result
/-!
# The lease store

`packages/track/src/lease/store.ts`: who is at work on a demand or an item.  Every operation reads
the whole file and writes it back under the lock of the file, so that they follow one another.
-/

namespace H2a.Track.LeaseStore

open H2a.Library

/-! ## Dates -/

/-- A number.  A time is in milliseconds, and times less than 2^53 apart are subtracted exactly. -/
inductive Number where
  | finite (value : ℚ)
  /-- `NaN` or an infinity -/
  | nonFinite

/-- The functions of `Date`. -/
structure Dates where
  /-- `Date.parse`; `none` is `NaN` -/
  parse : JsString → Option Int
  /-- `toISOString` of a valid time -/
  toISOString : Int → JsString

inductive LeaseError where
  | domain (message : JsString)
  /-- `toISOString` of an invalid date -/
  | range

/-- `8.64e15` -/
def maxTime : ℚ := 8640000000000000

/-- `ToIntegerOrInfinity`, of a finite number -/
def truncate (value : ℚ) : Int := value.num.tdiv value.den

/-- `new Date(Date.parse(now) + ttlMs).toISOString()` -/
def Dates.expiry (dates : Dates) (now : JsString) (ttlMs : ℚ) : Except LeaseError JsString :=
  match dates.parse now with
  | none => .error .range
  | some time =>
      if |time + ttlMs| ≤ maxTime then .ok (dates.toISOString (truncate (time + ttlMs)))
      else .error .range

/-! ## Leases -/

/-- `DEFAULT_LEASE_TTL_MS` -/
def defaultLeaseTtlMs : ℚ := 30 * 60000

inductive LeasePhase where
  | qualifying
  | specifying
  | executing

inductive SubjectKind where
  | demand
  | item
  deriving DecidableEq

def SubjectKind.text : SubjectKind → JsString
  | .demand => js "demand"
  | .item => js "item"

structure LeaseSubject where
  kind : SubjectKind
  id : JsString
  deriving DecidableEq

/-- A recorded lease.  Its `expiresAt` is a date, so its `ttlMs` is finite. -/
structure Lease where
  leaseId : JsString
  workspace : JsString
  subject : LeaseSubject
  phase : LeasePhase
  holder : JsString
  acquiredAt : JsString
  heartbeatAt : JsString
  expiresAt : JsString
  ttlMs : ℚ
  token : JsString
  eventHeadAtAcquire : Option JsString

def subjectKey (subject : LeaseSubject) : JsString :=
  subject.kind.text ++ js ":" ++ subject.id

/-- `isLeaseAbandoned`; a comparison with `NaN` is false. -/
def isLeaseAbandoned (dates : Dates) (lease : Lease) (now : JsString) : Bool :=
  match dates.parse now, dates.parse lease.heartbeatAt with
  | some time, some heartbeat => decide (lease.ttlMs < time - heartbeat)
  | _, _ => false

/-! ## The operations -/

structure AcquireInput where
  workspace : JsString
  subject : LeaseSubject
  phase : LeasePhase
  holder : JsString
  ttlMs : Option Number
  eventHeadAtAcquire : Option JsString

/-- A lease that is not abandoned covers its subject. -/
def assertFree (dates : Dates) (all : List Lease) (subject : LeaseSubject) (now : JsString) :
    Except LeaseError Unit :=
  match all.find? fun l => subjectKey l.subject = subjectKey subject with
  | none => .ok ()
  | some existing =>
      if isLeaseAbandoned dates existing now then .ok ()
      else .error (.domain (js "lease: subject " ++ subjectKey subject ++
        js " is already held by " ++ existing.holder ++ js " (one active lease per subject)"))

/-- `input.ttlMs ?? DEFAULT_LEASE_TTL_MS`, and what `expiresAt` makes of a number that is not
finite. -/
def AcquireInput.ttl (input : AcquireInput) : Except LeaseError ℚ :=
  match input.ttlMs.getD (.finite defaultLeaseTtlMs) with
  | .finite ttlMs => .ok ttlMs
  | .nonFinite => .error .range

/-- `acquire`, with what the clock and the two calls of `newId` return: the leases written, and the
one returned. -/
def acquire (dates : Dates) (all : List Lease) (input : AcquireInput)
    (now leaseId token : JsString) : Except LeaseError (List Lease × Lease) := do
  assertFree dates all input.subject now
  let ttlMs ← input.ttl
  let expiresAt ← dates.expiry now ttlMs
  let lease : Lease :=
    { leaseId
      workspace := input.workspace
      subject := input.subject
      phase := input.phase
      holder := input.holder
      acquiredAt := now
      heartbeatAt := now
      expiresAt
      ttlMs
      token
      eventHeadAtAcquire := input.eventHeadAtAcquire }
  return (all.filter (fun l => subjectKey l.subject ≠ subjectKey input.subject) ++ [lease], lease)

/-- The index of the lease on a subject whose token is presented. -/
def findHeld (all : List Lease) (subject : LeaseSubject) (token : JsString)
    (absent mismatch : JsString) : Except LeaseError (Nat × Lease) :=
  match all.findIdx? fun l => subjectKey l.subject = subjectKey subject with
  | none => .error (.domain absent)
  | some idx =>
      match all[idx]? with
      | none => .error (.domain absent)
      | some lease => if lease.token ≠ token then .error (.domain mismatch) else .ok (idx, lease)

/-- `heartbeat` -/
def heartbeat (dates : Dates) (all : List Lease) (subject : LeaseSubject)
    (token now : JsString) : Except LeaseError (List Lease × Lease) := do
  let (idx, lease) ← findHeld all subject token
    (js "lease: no lease to heartbeat for subject " ++ subjectKey subject)
    (js "lease: heartbeat token mismatch for subject " ++ subjectKey subject ++
      js " — only the holder may renew")
  let expiresAt ← dates.expiry now lease.ttlMs
  let renewed : Lease := { lease with heartbeatAt := now, expiresAt }
  return (all.set idx renewed, renewed)

/-- `release` -/
def release (all : List Lease) (subject : LeaseSubject) (token : JsString) :
    Except LeaseError (List Lease) := do
  let (idx, _) ← findHeld all subject token
    (js "lease: no lease to release for subject " ++ subjectKey subject)
    (js "lease: release token mismatch for subject " ++ subjectKey subject ++
      js " — only the holder may release")
  return all.eraseIdx idx

/-! ## Runs -/

/-- The leases file.  A list of leases is read back as it was written. -/
inductive LeasesFile where
  /-- missing, blank, torn, or no array -/
  | unreadable
  | leases (all : List Lease)

def readLeasesFile : LeasesFile → List Lease
  | .unreadable => []
  | .leases all => all

inductive LeaseCall where
  | acquire (input : AcquireInput) (now leaseId token : JsString)
  | heartbeat (subject : LeaseSubject) (token now : JsString)
  | release (subject : LeaseSubject) (token : JsString)

/-- A call that has succeeded: what was presented and returned, and the time of the clock. -/
inductive LeaseEvent where
  | acquired (lease : Lease) (now : JsString)
  | renewed (subject : LeaseSubject) (token : JsString) (lease : Lease) (now : JsString)
  | released (subject : LeaseSubject) (token : JsString)

/-- The file, and the calls that have succeeded so far. -/
structure LeaseWorld where
  file : LeasesFile
  history : List LeaseEvent

def LeaseWorld.write (w : LeaseWorld) (next : List Lease) (event : LeaseEvent) : LeaseWorld :=
  ⟨.leases next, w.history ++ [event]⟩

/-- One call under the lock; one that throws has written nothing. -/
def step (dates : Dates) (w : LeaseWorld) : LeaseCall → LeaseWorld
  | .acquire input now leaseId token =>
      match acquire dates (readLeasesFile w.file) input now leaseId token with
      | .ok (next, lease) => w.write next (.acquired lease now)
      | .error _ => w
  | .heartbeat subject token now =>
      match heartbeat dates (readLeasesFile w.file) subject token now with
      | .ok (next, lease) => w.write next (.renewed subject token lease now)
      | .error _ => w
  | .release subject token =>
      match release (readLeasesFile w.file) subject token with
      | .ok next => w.write next (.released subject token)
      | .error _ => w

/-- No lease has been recorded. -/
def start : LeaseWorld := ⟨.unreadable, []⟩

end H2a.Track.LeaseStore
