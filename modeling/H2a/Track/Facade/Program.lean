import H2a.Library.Sequential
import H2a.Track.State.Fold
/-!
# Commands as programs

A command of the `Track` facade reads the log without the lock, mints ids, looks
at the clock and the leases, and appends through `EventStore.appendCommand`.
`perform` is that append: the locked section on the log as it is by then.
-/

namespace H2a.Track

open H2a.Library H2a.Track.Model
open H2a.Track.Events (Store StoreError AppendOpts Sha256 headOf)

/-- What a command throws. -/
inductive TrackError where
  /-- a `DomainError` -/
  | domain (message : String)
  /-- an `IngestError` -/
  | ingest (message : String)
  | store (error : StoreError JsString)
  deriving DecidableEq

structure EventPart where
  aggregate : Aggregate
  aggregateId : Ulid
  body : EventBody

/-- The under-lock idempotency hook: it finds the original events of a retried
command in the log, or nothing. -/
structure DedupeHook where
  run : List EventInput → List Event → Option (List Event)
  found : ∀ {inputs existing originals}, run inputs existing = some originals →
    originals ≠ [] ∧ ∀ e ∈ originals, e ∈ existing

/-- The under-lock domain-legality recheck; it throws a `DomainError`. -/
abbrev RecheckHook := List EventInput → List Event → Except String Unit

/-- What `emitBatch` hands to the store, but for what is stamped on it then. -/
structure Emission where
  parts : List EventPart
  by_ : ActorId
  prov : Option Provenance
  clientToken : Option JsString
  dedupe : Option DedupeHook
  recheck : Option RecheckHook

/-- What is stamped on a batch: the clock, the event ids and the `cmdId`. -/
structure Stamp where
  at_ : JsString
  ids : Nat → Ulid
  cmdId : Ulid

inductive LeaseSubjectKind where
  | demand
  | item

structure LeaseSubject where
  kind : LeaseSubjectKind
  id : JsString

/-- A recorded lease, as the facade sees it: who holds it, and whether it is
abandoned at the time of asking. -/
structure LeaseView where
  holder : ActorId
  abandoned : Bool

inductive Query where
  /-- the clock -/
  | now
  /-- `leases.forSubject` and `isLeaseAbandoned` at a time -/
  | lease (subject : LeaseSubject) (now : JsString)

abbrev Query.Answer : Query → Type
  | .now => JsString
  | .lease _ _ => Option LeaseView

/-- A program of the facade. -/
abbrev Prog := Program Event Emission JsString Query Query.Answer TrackError

namespace Prog

/-- `this.store.readAll()`. -/
def readAll : Prog (List Event) := .read .pure

/-- `this.state()`. -/
def state : Prog State := do
  let events ← readAll
  return fold events

/-- `this.newId()`. -/
def newId : Prog JsString := .mint .pure

/-- `this.newId()` once for each element. -/
def newIds : Nat → Prog (List JsString)
  | 0 => return []
  | n + 1 => do
      let id ← newId
      let rest ← newIds n
      return id :: rest

/-- `this.clock()`. -/
def now : Prog JsString := .ask .now .pure

def lease (subject : LeaseSubject) (now : JsString) : Prog (Option LeaseView) :=
  .ask (.lease subject now) .pure

def throwDomain {α : Type} (message : String) : Prog α := .throw (.domain message)

/-- Run a check that throws a `DomainError`. -/
def check {α : Type} (x : Except String α) : Prog α := .ofExcept (x.mapError .domain)

/-- `if (x === undefined) throw new DomainError(message)`. -/
def require {α : Type} (x : Option α) (message : String) : Prog α :=
  match x with
  | some a => return a
  | none => throwDomain message

/-- `if (!condition) throw new DomainError(message)`. -/
def ensure (condition : Prop) [Decidable condition] (message : String) : Prog Unit :=
  if condition then return () else throwDomain message

def append (e : Emission) : Prog (List Event) := Program.append e .pure

end Prog

/-! ## Reasoning about them -/

section Rules

variable {α : Type} {R : List Event → List Event → Prop}
variable {D : List Event → Emission → List Event → List Event → Prop}
variable {request : List Event → List JsString → Emission → Prop}
variable {view : List Event} {minted : List JsString}

open Program Prog

theorem sat_readAll {post : List Event → List JsString → List Event → Prop} :
    Sat R D request post view minted readAll ↔ ∀ log, R view log → post log minted log :=
  Iff.rfl

theorem sat_state {post : List Event → List JsString → State → Prop} :
    Sat R D request post view minted state ↔ ∀ log, R view log → post log minted (fold log) :=
  Iff.rfl

theorem sat_newId {post : List Event → List JsString → JsString → Prop} :
    Sat R D request post view minted newId ↔
      ∀ id, id ∉ minted → post view (id :: minted) id :=
  Iff.rfl

theorem sat_newIds {n : Nat} {post : List Event → List JsString → List JsString → Prop} :
    Sat R D request post view minted (newIds n) ↔
      ∀ ids : List JsString, ids.length = n → ids.Nodup → (∀ x ∈ ids, x ∉ minted) →
        post view (ids.reverse ++ minted) ids := by
  induction n generalizing minted post with
  | zero =>
      refine ⟨fun h ids hlen _ _ => ?_, fun h => h [] rfl List.nodup_nil (by simp)⟩
      obtain rfl := List.eq_nil_of_length_eq_zero hlen
      exact h
  | succ n ih =>
      simp only [newIds, sat_bind, sat_newId, ih, sat_pure]
      constructor
      · intro h ids hlen hnodup hnew
        cases ids with
        | nil => simp at hlen
        | cons id rest =>
            rw [List.nodup_cons] at hnodup
            have hrest : ∀ x ∈ rest, x ∉ id :: minted := by
              intro x hx hmem
              rcases List.mem_cons.mp hmem with rfl | hmem
              · exact hnodup.1 hx
              · exact hnew x (List.mem_cons_of_mem _ hx) hmem
            simpa using h id (hnew id List.mem_cons_self) rest (by simpa using hlen) hnodup.2 hrest
      · intro h id hid rest hlen hnodup hrest
        have hnew : ∀ x ∈ id :: rest, x ∉ minted := by
          intro x hx
          rcases List.mem_cons.mp hx with rfl | hx
          · exact hid
          · exact fun hmem => hrest x hx (List.mem_cons_of_mem _ hmem)
        have hcons : (id :: rest).Nodup :=
          List.nodup_cons.mpr ⟨fun hmem => hrest id hmem List.mem_cons_self, hnodup⟩
        simpa using h (id :: rest) (by simp [hlen]) hcons hnew

theorem sat_now {post : List Event → List JsString → JsString → Prop} :
    Sat R D request post view minted now ↔ ∀ t, post view minted t :=
  Iff.rfl

theorem sat_lease {subject : LeaseSubject} {t : JsString}
    {post : List Event → List JsString → Option LeaseView → Prop} :
    Sat R D request post view minted (lease subject t) ↔ ∀ l, post view minted l :=
  Iff.rfl

theorem sat_throwDomain {message : String} {post : List Event → List JsString → α → Prop} :
    Sat R D request post view minted (throwDomain message : Prog α) :=
  trivial

theorem sat_check {x : Except String α} {post : List Event → List JsString → α → Prop} :
    Sat R D request post view minted (check x) ↔ ∀ a, x = .ok a → post view minted a := by
  cases x with
  | ok a => simp [check, Program.ofExcept, Except.mapError, Sat]
  | error e => simp [check, Program.ofExcept, Except.mapError, Sat]

theorem sat_require {x : Option α} {message : String}
    {post : List Event → List JsString → α → Prop} :
    Sat R D request post view minted (require x message) ↔
      ∀ a, x = some a → post view minted a := by
  cases x with
  | none => simp [require, sat_throwDomain]
  | some a => simp [require, sat_pure]

theorem sat_ensure {condition : Prop} [Decidable condition] {message : String}
    {post : List Event → List JsString → Unit → Prop} :
    Sat R D request post view minted (ensure condition message) ↔
      (condition → post view minted ()) := by
  by_cases h : condition
  · simp [ensure, h, sat_pure]
  · simp [ensure, h, sat_throwDomain]

theorem sat_append {e : Emission} {post : List Event → List JsString → List Event → Prop} :
    Sat R D request post view minted (append e) ↔
      request view minted e ∧
        ∀ log events log', R view log → D log e events log' → post log' [] events :=
  Iff.rfl

end Rules

/-! ## The append -/

def Emission.inputs (e : Emission) (stamp : Stamp) : List EventInput :=
  e.parts.zipIdx.map fun part =>
    { id := stamp.ids part.2
      body := part.1.body
      aggregate := part.1.aggregate
      aggregateId := part.1.aggregateId
      at_ := stamp.at_
      by_ := e.by_
      prov := e.prov
      clientToken := e.clientToken }

/-- A multi-event command is one `cmdId` batch. -/
def Emission.opts (e : Emission) (stamp : Stamp) : AppendOpts EventInput EventData where
  cmdId := if 1 < e.parts.length then some stamp.cmdId else none
  dedupe := e.dedupe.map fun hook inputs existing => .ok (hook.run inputs existing)
  recheck := e.recheck

/-- A log and the anchor the store keeps with it. -/
def storeOf (log : List Event) : Store EventData :=
  ⟨log, if log.length = 0 then none else some (headOf log)⟩

/-- The append of a batch to the log: what it returns and the log it leaves. -/
def perform (contentHashOf : EventData → Sha256) (log : List Event) (e : Emission)
    (stamp : Stamp) : Except TrackError (List Event) × List Event :=
  let result := (storeOf log).appendCommand contentHashOf (e.inputs stamp) (e.opts stamp)
  (result.1.mapError .store, result.2.log)

/-- `ev` is what is persisted of `part`. -/
structure PersistedAs (e : Emission) (part : EventPart) (ev : Event) : Prop where
  body : part.body.materialize = .ok ev.core.body
  aggregate : ev.core.aggregate = part.aggregate
  aggregateId : ev.core.aggregateId = part.aggregateId
  by_ : ev.core.by_ = e.by_
  prov : ev.core.prov = e.prov
  clientToken : ev.core.clientToken = e.clientToken

/-- The two ways an append returns: the hook has found the original events, or the
batch has been written. -/
inductive Done (log : List Event) (e : Emission) : List Event → List Event → Prop where
  | deduped {stamp originals} (h : e.dedupe.bind (·.run (e.inputs stamp) log) = some originals) :
      Done log e originals log
  | retried {stamp originals} (hnone : e.dedupe = none)
      (h : Events.dedupByClientToken (e.inputs stamp) log = .ok (some originals)) :
      Done log e originals log
  | written {stamp events} (hevents : List.Forall₂ (PersistedAs e) e.parts events)
      (hdedupe : ∀ hook, e.dedupe = some hook → hook.run (e.inputs stamp) log = none)
      (hrecheck : ∀ hook, e.recheck = some hook → hook (e.inputs stamp) log = .ok ()) :
      Done log e events (log ++ events)

section Perform

variable {contentHashOf : EventData → Sha256} {log : List Event} {e : Emission} {stamp : Stamp}

theorem mapError_eq_ok_iff {ε ε' α : Type} {f : ε → ε'} {x : Except ε α} {a : α} :
    x.mapError f = .ok a ↔ x = .ok a := by
  cases x <;> simp [Except.mapError]

theorem persistedAs_of_materialize {events : List Event}
    (h : List.Forall₂ (fun (input : EventInput) (ev : Event) =>
      ∃ tag, input.materialize tag = .ok ev.core) (e.inputs stamp) events) :
    List.Forall₂ (PersistedAs e) e.parts events := by
  unfold Emission.inputs at h
  rw [List.forall₂_map_left_iff] at h
  have hparts : ∀ (parts : List EventPart) (n : Nat) (events : List Event),
      List.Forall₂ (fun (part : EventPart × Nat) (ev : Event) => ∃ tag,
        EventInput.materialize
          ⟨stamp.ids part.2, part.1.body, part.1.aggregate, part.1.aggregateId, stamp.at_, e.by_,
            e.prov, e.clientToken⟩ tag = .ok ev.core) (parts.zipIdx n) events →
      List.Forall₂ (PersistedAs e) parts events := by
    intro parts
    induction parts with
    | nil =>
        intro n events h
        rw [List.zipIdx_nil, List.forall₂_nil_left_iff] at h
        exact h ▸ .nil
    | cons part rest ih =>
        intro n events h
        rw [List.zipIdx_cons] at h
        obtain ⟨ev, tail, ⟨tag, hmat⟩, htail, rfl⟩ := List.forall₂_cons_left_iff.mp h
        obtain ⟨body, hbody, hcore⟩ := EventInput.materialize_ok hmat
        exact .cons ⟨by rw [hcore]; exact hbody, by rw [hcore], by rw [hcore], by rw [hcore],
          by rw [hcore], by rw [hcore]⟩ (ih _ _ htail)
  exact hparts e.parts 0 events h

/-- What `perform` can do. -/
theorem perform_done {events log' : List Event}
    (h : perform contentHashOf log e stamp = (.ok events, log')) : Done log e events log' := by
  have hopts : ∀ originals,
      Events.runDedupe (e.opts stamp) (e.inputs stamp) log = .ok (some originals) →
        Done log e originals log := by
    intro originals hdedupe
    cases hhook : e.dedupe with
    | none =>
        simp only [Events.runDedupe, Emission.opts, hhook, Option.map_none] at hdedupe
        exact .retried hhook hdedupe
    | some hook =>
        simp only [Events.runDedupe, Emission.opts, hhook, Option.map_some] at hdedupe
        have horiginals : e.dedupe.bind (·.run (e.inputs stamp) log) = some originals := by
          simpa [hhook, Except.mapError] using hdedupe
        exact .deduped horiginals
  simp only [perform, Store.appendCommand, Prod.mk.injEq] at h
  obtain ⟨hresult, rfl⟩ := h
  rw [mapError_eq_ok_iff] at hresult
  revert hresult
  split
  · simp
  · rename_i hcheck
    split
    · simp
    · rename_i originals hplan
      intro hresult
      obtain rfl : originals = events := by simpa using hresult
      exact hopts _ (Events.planAppend_deduped hplan)
    · rename_i written hplan
      obtain ⟨hsound, hframes⟩ := Events.planAppend_append hcheck hplan
      obtain ⟨hdedupe, hrecheck⟩ := Events.planAppend_hooks hplan
      split
      · simp
      · intro hresult
        obtain rfl : written = events := by simpa using hresult
        refine @Done.written _ _ stamp _ (persistedAs_of_materialize hframes.inOrder) ?_ ?_
        · intro hook hhook
          simpa [Events.runDedupe, Emission.opts, hhook, Except.mapError, storeOf] using hdedupe
        · intro hook hhook
          have := hrecheck
          simp only [Events.runRecheck, Emission.opts, hhook] at this
          exact mapError_eq_ok_iff.mp this

/-- What an append returns is in the log by then, and there is something. -/
theorem Done.returned {events log' : List Event} (h : Done log e events log')
    (hparts : e.parts ≠ []) : events ≠ [] ∧ ∀ ev ∈ events, ev ∈ log' := by
  cases h with
  | deduped h =>
      obtain ⟨hook, -, hrun⟩ := Option.bind_eq_some_iff.mp h
      exact hook.found hrun
  | retried hnone h => exact Events.dedupByClientToken_found h
  | written hevents hdedupe hrecheck =>
      refine ⟨?_, fun ev hev => List.mem_append_right _ hev⟩
      rintro rfl
      exact hparts (List.forall₂_nil_right_iff.mp hevents)

/-- An append leaves the log it finds as the beginning of the one it leaves. -/
theorem Done.extends {events log' : List Event} (h : Done log e events log') : log <+: log' := by
  cases h with
  | deduped h => exact List.prefix_refl _
  | retried hnone h => exact List.prefix_refl _
  | written hevents hdedupe hrecheck => exact List.prefix_append _ _

/-- An append that throws has not written anything. -/
theorem perform_error {error : TrackError} {log' : List Event}
    (h : perform contentHashOf log e stamp = (.error error, log')) : log' = log := by
  simp only [perform, Store.appendCommand, Prod.mk.injEq] at h
  obtain ⟨hresult, rfl⟩ := h
  revert hresult
  split
  · intro; rfl
  · rename_i hcheck
    split
    · intro; rfl
    · intro; rfl
    · rename_i written hplan
      obtain ⟨hsound, hframes⟩ := Events.planAppend_append hcheck hplan
      -- the check of what was written passes, since nothing else writes under the lock
      have hverify := Events.verifyAppend_ok hsound hframes.nonempty
      simp only [storeOf] at hverify ⊢
      rw [hverify]
      simp [Except.mapError]

end Perform

end H2a.Track
