import H2a.Library.Result
import H2a.Track.Events.Reseal
/-!
# `EventStore`

The locked section of `EventStore.appendCommand`, `packages/track/src/events/store.ts`.
`planAppend` is everything it computes from the log and the head it has read;
`verifyAppend` is the check of what it wrote.  `Store.appendCommand` runs the
section alone; `Lock` interleaves its file-system steps with those of other
processes and `LogFile` runs it on the bytes of the log file.
-/

namespace H2a.Track.Events

open H2a.Library

/-- What the store adds to an event of a multi-event command. -/
structure BatchFrame where
  cmdId : JsString
  i : Nat
  n : Nat

def BatchFrame.cmd (b : BatchFrame) : CmdPosition := .of b.i b.n

/-- A command's contribution before the store adds the batch frame.
Materializing throws on a value that would hash differently from what is
persisted; `cmdKey` is a `cmdId` as it reads back. -/
class CommandEvent (I : Type) (C K : outParam Type) [EventCore C K] where
  aggregateId : I → K
  clientToken : I → Option K
  cmdKey : JsString → K
  materialize : I → Option BatchFrame → Except String C
  cmdId_materialize : ∀ {i tag c}, materialize i tag = .ok c →
    EventCore.cmdId c = tag.map fun b => cmdKey b.cmdId
  cmd_materialize : ∀ {i tag c}, materialize i tag = .ok c →
    EventCore.cmd c = tag.map BatchFrame.cmd

/-- The input that becomes a `BareCore`. -/
structure BareInput where
  id : JsString
  aggregateId : JsString

instance : CommandEvent BareInput BareCore JsString where
  aggregateId := BareInput.aggregateId
  clientToken _ := none
  cmdKey := id
  materialize input tag :=
    .ok ⟨input.id, input.aggregateId, tag.map fun b => (b.cmdId, b.cmd)⟩
  cmdId_materialize := by
    rintro input (_ | tag) _ ⟨⟩ <;> rfl
  cmd_materialize := by
    rintro input (_ | tag) _ ⟨⟩ <;> rfl

/-- Why the check of a write failed. -/
inductive VerifyFailure (K : Type) where
  | length (after before written : Nat)
  | suffix (index : Nat) (persisted expected : Option (K × Sha256))
  | head (persisted : Option Head) (expected : Head)
  | invalid (findings : List (IntegrityFinding K))
  deriving DecidableEq

/-- Why a command does not get as far as the lock. -/
inductive CommandError where
  | emptyCommand
  | missingCmdId
  deriving DecidableEq

/-- What `appendCommand` throws. -/
inductive StoreError (K : Type) where
  | command (error : CommandError)
  | invalidLog (findings : List (IntegrityFinding K))
  | tokenReused (token : K)
  | hook (message : String)
  | materialize (message : String)
  | invalidCandidate (findings : List (IntegrityFinding K))
  | verification (failure : VerifyFailure K)
  deriving DecidableEq

/-- The finding kinds, as the messages list them. -/
def findingSummary {K : Type} (findings : List (IntegrityFinding K)) : String :=
  s!"({findings.length} finding(s): " ++ ", ".intercalate (findings.map (·.kind)) ++ ")"

/-- `JSON.stringify(head)`. -/
def headText (head : Head) : String :=
  let last := head.lastContentHash.elim "null" fun hash => s!"\"{hash}\""
  "\x7b\"streamLength\":" ++ toString head.streamLength ++ ",\"lastContentHash\":" ++ last ++
    "\x7d"

def VerifyFailure.message {K : Type} [ToString K] : VerifyFailure K → String
  | .length after before written =>
      s!"length {after} != before {before} + {written} (write did not persist)"
  | .suffix index persisted expected =>
      let shown := fun (e : Option (K × Sha256)) =>
        "(id=" ++ e.elim "<none>" (fun x => toString x.1) ++ ", hash=" ++
          e.elim "<none>" (fun x => toString x.2) ++ ")"
      s!"persisted suffix[{index}] " ++ shown persisted ++ " != generated " ++ shown expected
  | .head persisted expected =>
      "head mismatch (persisted " ++ persisted.elim "null" headText ++ " != expected " ++
        headText expected ++ ")"
  | .invalid findings => "persisted stream is invalid " ++ findingSummary findings

def CommandError.message : CommandError → String
  | .emptyCommand => "EventStore.appendCommand: empty command (no events)"
  | .missingCmdId => "EventStore.appendCommand: a multi-event command requires a cmdId"

def StoreError.message {K : Type} [ToString K] (filePath : String) : StoreError K → String
  | .command error => error.message
  | .invalidLog findings =>
      "EventStore.appendCommand: refusing to extend an invalid log " ++ findingSummary findings
  | .tokenReused token =>
      s!"EventStore.appendCommand: delivery clientToken {token} reused across a different aggregate set (partial overlap) — refusing to append (would double-write)"
  | .hook message => message
  | .materialize message => message
  | .invalidCandidate findings =>
      "EventStore.appendCommand: command would produce an invalid log " ++ findingSummary findings
  | .verification failure => s!"append verification failed for {filePath}: {failure.message}"

/-- The `opts` of `appendCommand`. -/
structure AppendOpts (I C : Type) where
  cmdId : Option JsString
  dedupe : Option (List I → List (TrackEvent C) → Except String (Option (List (TrackEvent C))))
  recheck : Option (List I → List (TrackEvent C) → Except String Unit)

/-- What the locked section decides to do. -/
inductive AppendPlan (C : Type) where
  | deduped (originals : List (TrackEvent C))
  | append (events : List (TrackEvent C))

section Plan

variable {I C K : Type} [EventCore C K] [CommandEvent I C K] [DecidableEq K]

/-- The refusals that come before the lock. -/
def checkCommand (inputs : List I) (opts : AppendOpts I C) : Except CommandError Unit :=
  if inputs.length = 0 then .error .emptyCommand
  else if 1 < inputs.length ∧ opts.cmdId = none then .error .missingCmdId
  else .ok ()

/-- The default idempotency hook, scoped by `(clientToken, aggregateId)`. -/
def dedupByClientToken (inputs : List I) (existing : List (TrackEvent C)) :
    Except (StoreError K) (Option (List (TrackEvent C))) :=
  match (inputs.map CommandEvent.clientToken).dedup with
  | [some token] =>
      let inputAggregates := (inputs.map CommandEvent.aggregateId).dedup
      let present := inputAggregates.filter fun aggregateId =>
        existing.any fun e => e.clientToken = some token ∧ e.aggregateId = aggregateId
      if present.length = 0 then .ok none
      else if present.length ≠ inputAggregates.length then .error (.tokenReused token)
      else .ok (some (existing.filter fun e =>
        e.clientToken = some token ∧ e.aggregateId ∈ inputAggregates))
  | _ => .ok none

/-- The hook the command brings, or the default one. -/
def runDedupe (opts : AppendOpts I C) (inputs : List I) (existing : List (TrackEvent C)) :
    Except (StoreError K) (Option (List (TrackEvent C))) :=
  match opts.dedupe with
  | some hook => (hook inputs existing).mapError .hook
  | none => dedupByClientToken inputs existing

def runRecheck (opts : AppendOpts I C) (inputs : List I) (existing : List (TrackEvent C)) :
    Except (StoreError K) Unit :=
  match opts.recheck with
  | some hook => (hook inputs existing).mapError .hook
  | none => .ok ()

/-- The last `seq` of every aggregate. -/
def lastSeqByAggregate (existing : List (TrackEvent C)) : JsMap K Nat :=
  existing.foldl (fun seqs e => seqs.set e.aggregateId e.seq) .empty

/-- The loop that frames a command's events; `batch` is `cmdId` and `n` of a
multi-event command. -/
def frameInputs (contentHashOf : C → Sha256) (batch : Option (JsString × Nat)) :
    Nat → Option Sha256 → JsMap K Nat → List I → Except (StoreError K) (List (TrackEvent C))
  | _, _, _, [] => .ok []
  | i, prevHash, seqs, input :: rest => do
      let seq := (seqs.get (CommandEvent.aggregateId input)).getD 0 + 1
      let tag := batch.map fun b => (⟨b.1, i, b.2⟩ : BatchFrame)
      let core ← (CommandEvent.materialize input tag).mapError .materialize
      let contentHash := contentHashOf core
      let events ← frameInputs contentHashOf batch (i + 1) (some contentHash)
        (seqs.set (CommandEvent.aggregateId input) seq) rest
      return ⟨core, seq, prevHash, contentHash⟩ :: events

/-- The batch frame of a command: none for a single event. -/
def batchOf (inputs : List I) (opts : AppendOpts I C) : Option (JsString × Nat) :=
  if 1 < inputs.length then opts.cmdId.map fun cmdId => (cmdId, inputs.length) else none

/-- The locked section up to the write. -/
def planAppend (contentHashOf : C → Sha256) (existing : List (TrackEvent C)) (head : Option Head)
    (inputs : List I) (opts : AppendOpts I C) : Except (StoreError K) (AppendPlan C) := do
  let integrity := validate contentHashOf existing head
  if integrity.ok = false then throw (.invalidLog integrity.findings)
  match ← runDedupe opts inputs existing with
  | some originals => return .deduped originals
  | none =>
      runRecheck opts inputs existing
      let events ← frameInputs contentHashOf (batchOf inputs opts) 0 (lastHash existing)
        (lastSeqByAggregate existing) inputs
      let candidate := validate contentHashOf (existing ++ events) none
      if candidate.ok = false then throw (.invalidCandidate candidate.findings)
      return .append events

/-- The head `appendCommand` writes. -/
def expectedHead (existing events : List (TrackEvent C)) : Head :=
  ⟨existing.length + events.length, lastHash events⟩

/-- The check of the write, against what is read back. -/
def verifyAppend (contentHashOf : C → Sha256) (before : Nat) (events : List (TrackEvent C))
    (expected : Head) (after : List (TrackEvent C)) (head : Option Head) :
    Except (VerifyFailure K) Unit :=
  if after.length ≠ before + events.length then
    .error (.length after.length before events.length)
  else
    let persisted := (after.drop before).map fun e => (e.id, e.contentHash)
    let generated := events.map fun e => (e.id, e.contentHash)
    match (List.range events.length).find? fun i => decide (persisted[i]? ≠ generated[i]?) with
    | some index => .error (.suffix index persisted[index]? generated[index]?)
    | none =>
        if head ≠ some expected then .error (.head head expected)
        else
          let integrity := validate contentHashOf after head
          if integrity.ok then .ok () else .error (.invalid integrity.findings)

end Plan

/-! ## What the section guarantees -/

section Spec

variable {I C K : Type} [EventCore C K] [CommandEvent I C K] [DecidableEq K]
variable {contentHashOf : C → Sha256} {inputs : List I} {opts : AppendOpts I C}

/-- The events are the inputs, framed, in input order; several of them form one batch. -/
structure Frames (inputs : List I) (events : List (TrackEvent C)) : Prop where
  inOrder : List.Forall₂ (fun input e => ∃ tag, CommandEvent.materialize input tag = .ok e.core)
    inputs events
  command : IsCommand (K := K) (events.map (·.core))

omit [DecidableEq K] in
theorem Frames.nonempty {inputs : List I} {events : List (TrackEvent C)}
    (h : Frames inputs events) : events ≠ [] := by
  rintro rfl
  exact h.command.nonempty rfl

omit [EventCore C K] [CommandEvent I C K] [DecidableEq K] in
theorem checkCommand_eq_ok_iff :
    checkCommand inputs opts = .ok () ↔
      inputs ≠ [] ∧ (1 < inputs.length → opts.cmdId ≠ none) := by
  unfold checkCommand
  by_cases hlen : inputs.length = 0
  · simp [List.eq_nil_of_length_eq_zero hlen]
  · have hne : inputs ≠ [] := fun h => hlen (by simp [h])
    by_cases hbatch : 1 < inputs.length ∧ opts.cmdId = none
    · simp [hlen, hbatch]
    · simp only [hlen, if_false, hbatch, hne, true_iff, ne_eq, not_false_eq_true, true_and]
      exact fun h hnone => hbatch ⟨h, hnone⟩

theorem frameInputs_ok {batch : Option (JsString × Nat)} {i : Nat} {prevHash : Option Sha256}
    {seqs : JsMap K Nat} {events : List (TrackEvent C)}
    (h : frameInputs contentHashOf batch i prevHash seqs inputs = .ok events) :
    List.Forall₂ (fun input e => ∃ tag, CommandEvent.materialize input tag = .ok e.core)
        inputs events ∧
      ∀ e ∈ events, e.cmdId = batch.map (fun b => CommandEvent.cmdKey I b.1) ∧
        ∃ j, e.cmd = batch.map fun b => CmdPosition.of j b.2 := by
  induction inputs generalizing i prevHash seqs events with
  | nil =>
      obtain rfl : [] = events := by simpa [frameInputs] using h
      simp
  | cons input rest ih =>
      simp only [frameInputs, bind_eq_ok_iff] at h
      obtain ⟨core, hcore, tail, htail, hret⟩ := h
      simp only [pure_eq_ok, Except.ok.injEq] at hret
      subst hret
      have hmat : CommandEvent.materialize input
          (batch.map fun b => ⟨b.1, i, b.2⟩) = .ok core := by
        revert hcore
        cases CommandEvent.materialize input (batch.map fun b => (⟨b.1, i, b.2⟩ : BatchFrame)) with
        | ok c => simp [Except.mapError]
        | error m => simp [Except.mapError]
      obtain ⟨horder, hframe⟩ := ih htail
      refine ⟨.cons ⟨_, hmat⟩ horder, fun e he => ?_⟩
      rcases List.mem_cons.mp he with rfl | he
      · have hid := CommandEvent.cmdId_materialize hmat
        have hcmd := CommandEvent.cmd_materialize hmat
        rw [Option.map_map] at hid hcmd
        exact ⟨hid, i, hcmd⟩
      · exact hframe e he

/-- What the locked section has established when it decides to write. -/
theorem planAppend_append {existing events : List (TrackEvent C)} {head : Option Head}
    (hcheck : checkCommand inputs opts = .ok ())
    (h : planAppend contentHashOf existing head inputs opts = .ok (.append events)) :
    Sound contentHashOf (existing ++ events) ∧ Frames inputs events := by
  obtain ⟨hne, hcmdId⟩ := checkCommand_eq_ok_iff.mp hcheck
  simp only [planAppend] at h
  split at h
  · simp at h
  · simp only [bind_eq_ok_iff] at h
    obtain ⟨decision, -, h⟩ := h
    cases decision with
    | some originals => simp at h
    | none =>
        simp only [bind_eq_ok_iff] at h
        obtain ⟨-, -, events', hframe, h⟩ := h
        split at h
        · simp at h
        · rename_i hok
          obtain rfl : events' = events := by simpa using h
          obtain ⟨horder, hbatch⟩ := frameInputs_ok hframe
          have hlen := horder.length_eq
          have hsound := ((validate_ok_iff _ _).mp (Bool.of_not_eq_false hok)).1
          refine ⟨hsound, horder, ⟨?_, ?_⟩⟩
          · intro hnil
            exact hne (List.eq_nil_of_length_eq_zero
              (hlen.trans (by simpa using congrArg List.length hnil)))
          · by_cases hmany : 1 < inputs.length
            · obtain ⟨k, hk⟩ := Option.ne_none_iff_exists'.mp (hcmdId hmany)
              refine Or.inr ⟨CommandEvent.cmdKey I k, fun c hc => ?_⟩
              obtain ⟨e, he, rfl⟩ := List.mem_map.mp hc
              obtain ⟨hid, j, hcmd⟩ := hbatch e he
              have hof : batchOf inputs opts = some (k, inputs.length) := by
                simp [batchOf, hmany, hk]
              rw [hof] at hid hcmd
              refine ⟨hid, ?_⟩
              change e.cmd.bind (·.n) = _
              simp [hcmd, CmdPosition.of, hlen]
            · have hpos := List.length_pos_iff.mpr hne
              exact Or.inl (by rw [List.length_map]; omega)

/-- A batch without a token is nobody's retry. -/
theorem dedupByClientToken_untokened {inputs : List I} {existing : List (TrackEvent C)}
    (h : ∀ input ∈ inputs, CommandEvent.clientToken input = none) :
    dedupByClientToken inputs existing = (.ok none : Except (StoreError K) _) := by
  unfold dedupByClientToken
  split
  · rename_i token heq
    have hmem : some token ∈ (inputs.map CommandEvent.clientToken).dedup :=
      heq ▸ List.mem_singleton_self _
    rw [List.mem_dedup, List.mem_map] at hmem
    obtain ⟨input, hinput, htoken⟩ := hmem
    rw [h input hinput] at htoken
    exact absurd htoken (by simp)
  · rfl

/-- A recognised retry returns events of the log, and not none of them. -/
theorem dedupByClientToken_found {inputs : List I} {existing originals : List (TrackEvent C)}
    (h : dedupByClientToken inputs existing = .ok (some originals)) :
    originals ≠ [] ∧ ∀ e ∈ originals, e ∈ existing := by
  simp only [dedupByClientToken] at h
  split at h
  · rename_i token htoken
    split at h
    · simp at h
    · rename_i hpresent
      split at h
      · simp at h
      · obtain rfl := Option.some.inj (Except.ok.inj h)
        refine ⟨?_, fun e he => (List.mem_filter.mp he).1⟩
        obtain ⟨aggregateId, hmem⟩ := List.exists_mem_of_length_pos (Nat.pos_of_ne_zero hpresent)
        obtain ⟨hinput, hany⟩ := List.mem_filter.mp hmem
        obtain ⟨e, he, hmatch⟩ := List.any_eq_true.mp hany
        simp only [decide_eq_true_eq] at hmatch
        refine List.ne_nil_of_mem (a := e) (List.mem_filter.mpr ⟨he, ?_⟩)
        simpa [hmatch.1, hmatch.2] using hinput
  · simp at h

/-- A write has passed both hooks. -/
theorem planAppend_hooks {existing events : List (TrackEvent C)} {head : Option Head}
    (h : planAppend contentHashOf existing head inputs opts = .ok (.append events)) :
    runDedupe opts inputs existing = .ok none ∧
      runRecheck opts inputs existing = (.ok () : Except (StoreError K) Unit) := by
  simp only [planAppend] at h
  split at h
  · simp at h
  · simp only [bind_eq_ok_iff] at h
    obtain ⟨decision, hdedupe, h⟩ := h
    cases decision with
    | some originals => simp at h
    | none =>
        simp only [bind_eq_ok_iff] at h
        obtain ⟨u, hrecheck, -⟩ := h
        exact ⟨hdedupe, hrecheck⟩

/-- Every outcome of the locked section presupposes that the log it has read is
sound and anchored. -/
theorem planAppend_ok {existing : List (TrackEvent C)} {head : Option Head} {plan : AppendPlan C}
    (h : planAppend contentHashOf existing head inputs opts = .ok plan) :
    Sound contentHashOf existing ∧ Anchored existing head := by
  simp only [planAppend] at h
  split at h
  · simp at h
  · rename_i hok
    exact (validate_ok_iff _ _).mp (Bool.of_not_eq_false hok)

/-- What is returned without a write is what the hook found. -/
theorem planAppend_deduped {existing originals : List (TrackEvent C)} {head : Option Head}
    (h : planAppend contentHashOf existing head inputs opts = .ok (.deduped originals)) :
    runDedupe opts inputs existing = .ok (some originals) := by
  simp only [planAppend] at h
  split at h
  · simp at h
  · simp only [bind_eq_ok_iff] at h
    obtain ⟨decision, hdedupe, h⟩ := h
    cases decision with
    | some originals' =>
        obtain rfl : originals' = originals := by simpa using h
        exact hdedupe
    | none =>
        simp only [bind_eq_ok_iff] at h
        obtain ⟨-, -, events, -, h⟩ := h
        split at h <;> simp at h

omit [EventCore C K] [CommandEvent I C K] [DecidableEq K] in
/-- The head that is written is the head of the extended log. -/
theorem headOf_append {existing events : List (TrackEvent C)} (hne : events ≠ []) :
    headOf (existing ++ events) = expectedHead existing events := by
  simp [headOf, expectedHead, lastHash, List.getLast?_append_of_ne_nil _ hne]

/-- The check passes when what is read back is what was written. -/
theorem verifyAppend_ok {existing events : List (TrackEvent C)}
    (hsound : Sound contentHashOf (existing ++ events)) (hne : events ≠ []) :
    verifyAppend contentHashOf existing.length events (expectedHead existing events)
      (existing ++ events) (some (expectedHead existing events)) = .ok () := by
  have hok : (validate contentHashOf (existing ++ events)
      (some (expectedHead existing events))).ok = true := by
    rw [validate_ok_iff, ← headOf_append hne]
    exact ⟨hsound, anchored_headOf _⟩
  have hmatch : (List.range events.length).find? (fun _ => false) = none :=
    List.find?_eq_none.mpr (by simp)
  simp [verifyAppend, hok, hmatch]

end Spec

/-! ## The section, run alone -/

/-- The log and its anchor. -/
structure Store (C : Type) where
  log : List (TrackEvent C)
  head : Option Head

def Store.empty {C : Type} : Store C := ⟨[], none⟩

section Run

variable {I C K : Type} [EventCore C K] [CommandEvent I C K] [DecidableEq K]

/-- `appendCommand` with no other process about: the result and the store after it. -/
def Store.appendCommand (contentHashOf : C → Sha256) (s : Store C) (inputs : List I)
    (opts : AppendOpts I C) : Except (StoreError K) (List (TrackEvent C)) × Store C :=
  match checkCommand inputs opts with
  | .error error => (.error (.command error), s)
  | .ok () =>
      match planAppend contentHashOf s.log s.head inputs opts with
      | .error error => (.error error, s)
      | .ok (.deduped originals) => (.ok originals, s)
      | .ok (.append events) =>
          let s' : Store C := ⟨s.log ++ events, some (expectedHead s.log events)⟩
          match verifyAppend contentHashOf s.log.length events (expectedHead s.log events)
              s'.log s'.head with
          | .error failure => (.error (.verification failure), s')
          | .ok () => (.ok events, s')

/-- `reseal` with no other process about. -/
def Store.reseal (contentHashOf : C → Sha256) (s : Store C) :
    Except (IntegrityError K) ResealResult × Store C :=
  match resealEvents contentHashOf s.log with
  | .error error => (.error error, s)
  | .ok (out, result) => (.ok result, ⟨out, some (headOf out)⟩)

end Run

end H2a.Track.Events
