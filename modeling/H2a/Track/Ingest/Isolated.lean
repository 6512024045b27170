import H2a.Track.Ingest.Containment
/-!
# Tenants are isolated

The system of all writers of a log: channels, each running `ingest` over a stream, and
commands of other `Track` instances.  Whatever the order of their steps, what a channel
appends leaves every other workspace as it is, is stamped with the principal of the
channel, and settles nothing when that principal is not authenticated.
-/

namespace H2a.Track.Ingest.Channel

open H2a.Library H2a.Library.Program H2a.Library.Concurrent H2a.Track.Model
open H2a.Track.Events (Sha256)

/-! ## Events that prepare -/

/-- An event that settles nothing. -/
def prepares (body : EventBody) : Bool :=
  match body with
  | .itemCreated _ | .specTransition _ | .decisionCreated _ | .blockerOpened _
  | .dossierRevised _ | .decisionDisposition _ _ _ _ | .criterionAdded _ _
  | .evidenceLinked _ _ _ _ | .priorityAssessed _ | .demandRaised _ _ => true
  | .realizationTransition dest _ => dest ≠ .done ∧ dest ≠ .cancelled
  | _ => false

/-- A move to a parent under a restructure plan. -/
def restructures (body : EventBody) : Bool :=
  match body with
  | .itemReparented _ planHash _ => planHash.isSome
  | _ => false

section Emitted

variable {ctx : IngestContext} {payload : WorkPayload} {s : State} {part : EventPart}

theorem WorkPayload.Emits.prepares (h : payload.Emits ctx s part)
    (hbinding : payload.isBinding = false) : prepares part.body = true := by
  cases payload with
  | itemRealize x dest =>
      obtain ⟨aggregate, rfl⟩ := h
      simpa [isBinding, Channel.prepares] using hbinding
  | decisionCreate input =>
      obtain ⟨decisionId, rfl | ⟨x, target, htarget, rfl⟩⟩ := h <;> rfl
  | itemCreate input =>
      obtain ⟨x, created, -, rfl⟩ := h
      rfl
  | blockerRaise x kind ref reason resolutionRule owner scope engagementRef =>
      obtain ⟨blockerId, opened, -, rfl⟩ := h
      rfl
  | acceptanceLink criterionId kind locator evidenceId =>
      obtain ⟨itemId, x, rfl⟩ := h
      rfl
  | demandRaise input =>
      obtain ⟨x, raised, rfl⟩ := h
      rfl
  | acceptanceCriterion x _ | priorityAssess x _ =>
      obtain ⟨_, rfl⟩ := h
      rfl
  | itemSpec x _ | decisionDossier x _ | decisionDisposition x _ _ _ =>
      obtain rfl := h
      rfl
  | _ => cases hbinding

theorem outcomeParts_plain {decision : DecisionState} {dest : Outcome}
    (h : part ∈ Facade.outcomeParts s decision dest) : restructures part.body = false := by
  rcases mem_outcomeParts h with rfl | ⟨-, target, -, blocker, -, rfl⟩ |
    ⟨-, target, -, item, -, -, rfl⟩ <;> rfl

theorem WorkPayload.Emits.restructures (h : payload.Emits ctx s part)
    (hmove : restructures part.body = true) : payload.kind = .itemRestructure := by
  have hplain (hpart : Channel.restructures part.body = false) :
      payload.kind = .itemRestructure := by
    rw [hmove] at hpart
    cases hpart
  cases payload with
  | itemRestructure x parentId planHash restructureRef => rfl
  | itemCreate input =>
      obtain ⟨x, created, -, rfl⟩ := h
      exact hplain rfl
  | decisionCreate input =>
      obtain ⟨decisionId, rfl | ⟨x, target, htarget, rfl⟩⟩ := h <;> exact hplain rfl
  | decisionSelect x optionId outcome =>
      obtain rfl | ⟨decision, dest, -, hpart⟩ := h
      · exact hplain rfl
      · exact hplain (outcomeParts_plain hpart)
  | decisionOutcome x dest =>
      obtain ⟨decision, dest, -, hpart⟩ := h
      exact hplain (outcomeParts_plain hpart)
  | acceptanceLink criterionId kind locator evidenceId =>
      obtain ⟨itemId, x, rfl⟩ := h
      exact hplain rfl
  | acceptanceWaive criterionId reason =>
      obtain ⟨itemId, by_, rfl⟩ := h
      exact hplain rfl
  | blockerRaise x kind ref reason resolutionRule owner scope engagementRef =>
      obtain ⟨blockerId, opened, -, rfl⟩ := h
      exact hplain rfl
  | blockerResolveExternal engagementRef =>
      obtain ⟨b, -, rfl⟩ := h
      exact hplain rfl
  | scopeVerification input =>
      unfold WorkPayload.Emits at h
      dsimp only at h
      split at h <;> obtain rfl := h <;> exact hplain rfl
  | itemConsolidate items mergeCommit =>
      obtain ⟨x, -, hpart⟩ := h
      rcases consolidateItem_part hpart with rfl | ⟨c, -, ev, -, run, -, -, rfl⟩ <;>
        exact hplain rfl
  | itemSpecAmend x amend =>
      obtain ⟨amended, -, rfl⟩ := h
      exact hplain rfl
  | demandRaise input =>
      obtain ⟨x, raised, rfl⟩ := h
      exact hplain rfl
  | demandAgree x handler items qualification leaseId =>
      obtain ⟨demand, -, ⟨handler, itemIds, rfl⟩ | ⟨itemId, item, rfl⟩⟩ := h <;>
        exact hplain rfl
  | demandDisposition x outcome handler reason duplicateOf parkedUntil leaseId =>
      obtain ⟨outcome, handler, rfl⟩ := h
      exact hplain rfl
  | itemReparent x _ | itemSpec x _ | decisionDisposition x _ _ _ | itemAssignCode x _
  | itemSetRole x _ | itemAnchor x _ _ | decisionDossier x _ =>
      obtain rfl := h
      exact hplain rfl
  | itemSetRaci x _ | itemAddLink x _ | itemReopen x _ | acceptanceCriterion x _
  | priorityAssess x _ | scopeDeclare x _ | specClaim x _ _ _ | specAbandon x _ _ _
  | itemRealize x _ | decisionAddArtifact x _ | acceptanceRun x _ | blockerResolve x
  | demandClaim x _ _ =>
      obtain ⟨_, rfl⟩ := h
      exact hplain rfl

end Emitted

/-! ## The writers -/

/-- A process that writes to the log. -/
inductive Writer where
  | channel (ctx : IngestContext) (events : List WorkEvent)
  /-- a command of another instance -/
  | command (call : Call)

/-- The ids an event names: those it is looked up by and those its command writes. -/
def WorkEvent.names (ctx : IngestContext) (ev : WorkEvent) : List JsString :=
  ev.payload.lookups ++ (ev.payload.command ctx).names

namespace Writer

def prog : Writer → Prog Unit
  | .channel ctx events => do let _ ← ingest events ctx
  | .command call => call.prog

def names : Writer → List JsString
  | .channel ctx events => events.flatMap (·.names ctx)
  | .command call => call.names

/-- The workspace a writer is pinned to. -/
def pinned : Writer → Option JsString
  | .channel ctx _ => some ctx.workspace
  | .command _ => none

theorem exists_of_pinned {w : Writer} {workspace : JsString} (h : w.pinned = some workspace) :
    ∃ ctx events, w = .channel ctx events ∧ ctx.workspace = workspace := by
  cases w with
  | channel ctx events => exact ⟨ctx, events, rfl, Option.some.inj h⟩
  | command call => cases h

/-- The append of an event that was authorized on a log that others have led on from. -/
structure Sanctioned (ctx : IngestContext) (names : List JsString) (ev : WorkEvent)
    (view : List Event) (e : Emission) : Prop where
  stamped : e.by_ = ctx.by_ ∧ e.prov = some ctx.prov
  named : ∀ x ∈ ev.payload.lookups, x ∈ names
  parts : ∃ base log, Authorized ctx (fold base) ev.payload ∧ Unguessed names base log ∧
    Unguessed names log view ∧ ∀ part ∈ e.parts, ev.payload.Emits ctx (fold log) part

/-- What an append of a writer meets. -/
structure Promises (w : Writer) (view : List Event) (minted : List JsString) (e : Emission) :
    Prop where
  requests : ∃ facade, Requests facade w.names view minted e
  sanctioned : ∀ ctx events, w = .channel ctx events →
    ∃ ev, Sanctioned ctx w.names ev view e

end Writer

section Channel

variable {ctx : IngestContext} {ev : WorkEvent} {names : List JsString}
variable {view : List Event} {minted : List JsString}

theorem stamp_command (ctx : IngestContext) (payload : WorkPayload) (track : Facade) :
    (payload.command ctx).stamp track = track := by
  cases payload <;> rfl

/-- What a program returns does not matter to what it appends. -/
theorem Keeps.returning {α β : Type} {facade : Facade} {p : Prog α} (g : α → β)
    (h : Keeps facade names (fun _ _ _ => True) view minted (p >>= fun _ => Pure.pure ())) :
    Keeps facade names (fun _ _ _ => True) view minted (p >>= fun a => Pure.pure (g a)) := by
  unfold Keeps at h ⊢
  rw [sat_bind] at h ⊢
  exact h

theorem applyCommand_keeps (track : Facade) (payload : WorkPayload)
    (hnames : ∀ x ∈ (payload.command ctx).names, x ∈ names) :
    Keeps track names (fun _ _ _ => True) view minted (applyCommand track ctx payload) := by
  have hcommand : Keeps ((payload.command ctx).stamp track) names (fun _ _ _ => True) view minted
      ((payload.command ctx).prog track) := (payload.command ctx).keeps hnames
  rw [stamp_command] at hcommand
  have hreturn (result : Option JsString) : Keeps track names (fun _ _ _ => True) view minted
      ((payload.command ctx).prog track >>= fun _ => Pure.pure result) := by
    unfold Keeps at hcommand ⊢
    rw [sat_bind]
    exact hcommand
  cases payload with
  | itemCreate _ | decisionCreate _ | acceptanceCriterion _ _ | acceptanceLink _ _ _ _
  | blockerRaise _ _ _ _ _ _ _ _ | demandRaise _ => exact Keeps.returning some hcommand
  | _ => exact hreturn _

/-- What `applyCommand` appends, once the event is authorized. -/
theorem applyCommand_promises {events : List WorkEvent} (hev : ev ∈ events)
    (hauth : Authorized ctx (fold view) ev.payload) :
    Sat (Unguessed (Writer.channel ctx events).names) Done
      (Writer.Promises (.channel ctx events)) (fun _ _ _ => True) view minted
      (applyCommand (trackFor ctx ev) ctx ev.payload) := by
  have hnames : ∀ x ∈ ev.names ctx, x ∈ (Writer.channel ctx events).names :=
    fun x hx => List.mem_flatMap.mpr ⟨ev, hev, hx⟩
  have hkeeps : Keeps (trackFor ctx ev) (Writer.channel ctx events).names (fun _ _ _ => True) view
      minted (applyCommand (trackFor ctx ev) ctx ev.payload) :=
    applyCommand_keeps _ _ fun x hx => hnames x (List.mem_append_right _ hx)
  have hsteady := steady_unguessed (Writer.channel ctx events).names
  have hemits : Emitting (Unguessed (Writer.channel ctx events).names) (ev.payload.Emits ctx) view
      view minted (applyCommand (trackFor ctx ev) ctx ev.payload) :=
    applyCommand_emitting hsteady (hsteady.refl view) ctx ev.payload
  refine ((Sat.narrow (fun _ _ h => h.later) hkeeps).and hemits).mono ?_ fun _ _ _ _ => trivial
  intro v m e hrequest
  obtain ⟨hrequests, log, hbase, hlater, hparts⟩ := hrequest
  refine ⟨⟨_, hrequests⟩, fun ctx' events' heq => ?_⟩
  obtain ⟨rfl, rfl⟩ := Writer.channel.inj heq
  exact ⟨ev, ⟨hrequests.stamped.by_, hrequests.stamped.prov⟩,
    fun x hx => hnames x (List.mem_append_left _ hx), view, log, hauth, hbase, hlater, hparts⟩

theorem ingestFrom_promises {events rest : List WorkEvent} (hrest : ∀ ev ∈ rest, ev ∈ events)
    (seen : JsMap JsString (Option JsString)) :
    Sat (Unguessed (Writer.channel ctx events).names) Done
      (Writer.Promises (.channel ctx events)) (fun _ _ _ => True) view minted
      (ingestFrom ctx seen rest) := by
  induction rest generalizing seen view minted with
  | nil => trivial
  | cons ev rest ih =>
      have hlast (result : Option JsString) (seen : JsMap JsString (Option JsString))
          (v : List Event) (m : List JsString) :
          Sat (Unguessed (Writer.channel ctx events).names) Done
            (Writer.Promises (.channel ctx events)) (fun _ _ _ => True) v m
            (ingestFrom ctx seen rest >>= fun ids => Pure.pure (result :: ids)) := by
        rw [sat_bind]
        exact ih (fun ev' hev' => hrest ev' (List.mem_cons_of_mem _ hev')) seen
      unfold ingestFrom
      refine sat_bind.mpr (sat_ofExcept.mpr fun _ _ => ?_)
      split
      · exact hlast _ _ _ _
      · refine sat_bind.mpr (sat_state.mpr fun log _ => ?_)
        refine sat_bind.mpr (sat_ofExcept.mpr fun _ hok => ?_)
        have hauth := authorize_ok (mapError_eq_ok_iff.mp hok)
        refine sat_bind.mpr ?_
        refine (applyCommand_promises (hrest ev List.mem_cons_self) hauth).mono
          (fun _ _ _ hrequest => hrequest) fun v m id _ => ?_
        exact hlast _ _ _ _

theorem Writer.promises (w : Writer) (log : List Event) :
    Sat (Unguessed w.names) Done w.Promises (fun _ _ _ => True) log [] w.prog := by
  cases w with
  | channel ctx events =>
      refine sat_bind.mpr ?_
      unfold ingest
      refine sat_bind.mpr (sat_readAll.mpr fun log _ => ?_)
      refine sat_bind.mpr (sat_state.mpr fun log' _ => ?_)
      exact ingestFrom_promises (fun _ hev => hev) _
  | command call =>
      have hkeeps : Keeps (call.command.stamp call.facade) call.names (fun _ _ _ => True) log []
          call.prog := call.command.keeps fun _ hx => hx
      refine (Sat.narrow (fun _ _ h => h.later) hkeeps).mono ?_ fun _ _ _ _ => trivial
      intro v m e hrequest
      exact ⟨⟨_, hrequest⟩, fun ctx events heq => by cases heq⟩

end Channel

/-! ## What lands -/

section Landing

variable {names : List JsString} {view log : List Event} {minted : List JsString} {e : Emission}
variable {events : List Event} {workspace other : JsString}

theorem requests_fresh {facade : Facade} (h : Requests facade names view minted e)
    (hevents : List.Forall₂ (PersistedAs e) e.parts events) (hfresh : Fresh log)
    (hminted : ∀ x ∈ minted, x ∉ published log) : Fresh (log ++ events) := by
  obtain ⟨hnodup, hnew⟩ := h.issued.creates
  unfold Fresh
  rw [createdIn_append, List.nodup_append, persisted_creates hevents]
  refine ⟨hfresh, hnodup, ?_⟩
  rintro x hx y hy rfl
  exact hminted x (hnew x hy) (createdIn_sub log x hx)

theorem within_persisted {part : EventPart} {ev : Event} {s : State} (h : PersistedAs e part ev)
    (hpart : Within workspace s part.aggregateId part.body) :
    Within workspace s ev.core.aggregateId ev.core.body := by
  rw [h.aggregateId]
  rcases h.body_eq with heq | ⟨p, p', hbody, hbody', -⟩
  · rwa [heq]
  · rw [hbody] at hpart
    rwa [hbody']

/-- A batch all of whose parts are within a workspace leaves every other one as it is. -/
theorem written_tenant (hfresh : Fresh (log ++ events))
    (hevents : List.Forall₂ (PersistedAs e) e.parts events)
    (hwithin : ∀ part ∈ e.parts, Within workspace (rawFold log) part.aggregateId part.body)
    (hne : other ≠ workspace) :
    tenant other (rawFold (log ++ events)) = tenant other (rawFold log) := by
  have hkept : tenant other (rawFold (log ++ events)) = tenant other (rawFold log) ∧
      ∀ part ∈ e.parts,
        Within workspace (rawFold (log ++ events)) part.aggregateId part.body := by
    refine keeps_along (P := fun l => tenant other (rawFold l) = tenant other (rawFold log) ∧
      ∀ part ∈ e.parts, Within workspace (rawFold l) part.aggregateId part.body)
      ⟨rfl, hwithin⟩ fun pre ev post hsplit hpre => ?_
    obtain ⟨htenant, hparts⟩ := hpre
    obtain ⟨part, hpart, hpersisted⟩ :=
      persisted_mem hevents (hsplit ▸ List.mem_append_right pre List.mem_cons_self)
    have hev := within_persisted hpersisted (hparts part hpart)
    have hnew : ∀ x ∈ ev.core.creates, Unborn (rawFold (log ++ pre)) x := by
      intro x hx
      refine unborn_of_not_mem fun hcreated => ?_
      have hsplit' : log ++ events = (log ++ pre) ++ (ev :: post) := by
        rw [hsplit, List.append_assoc]
      rw [hsplit'] at hfresh
      exact hfresh.not_creates hcreated ev.core (List.mem_map_of_mem List.mem_cons_self) hx
    rw [rawFold_concat]
    exact ⟨(hev.tenant hnew hne).trans htenant, fun part' hpart' => hev.keeps (hparts part' hpart')⟩
  exact hkept.1

end Landing

/-- What a channel may have added to a log. -/
structure Contained (ctx : IngestContext) (log added : List Event) : Prop where
  tenants : ∀ workspace ≠ ctx.workspace,
    tenant workspace (fold (log ++ added)) = tenant workspace (fold log)
  stamped : ∀ ev ∈ added, ev.core.by_ = ctx.by_ ∧ ev.core.prov = some ctx.prov
  prepared : isBindingAuth ctx.prov.auth = false → ∀ ev ∈ added, prepares ev.core.body = true
  granted : ∀ ev ∈ added, restructures ev.core.body = true →
    (ctx.allowedKinds.getD []).contains .itemRestructure = true

/-- A log is what its history has added to it, the channels within their workspaces. -/
inductive Recorded : List Event → List (Writer × List Event) → Prop where
  | nil : Recorded [] []
  | concat {log : List Event} {history : List (Writer × List Event)} {w : Writer}
      {added : List Event} (h : Recorded log history)
      (hadded : ∀ ctx events, w = .channel ctx events → Contained ctx log added) :
      Recorded (log ++ added) (history ++ [(w, added)])

theorem contained_nil (ctx : IngestContext) (log : List Event) : Contained ctx log [] where
  tenants workspace _ := by rw [List.append_nil]
  stamped := by simp
  prepared := by simp
  granted := by simp

section Landing

variable {w : Writer} {view log : List Event} {minted : List JsString} {e : Emission}
variable {events : List Event}

/-- What a channel promises of an append holds of the log it lands on. -/
theorem Writer.Sanctioned.contained {ctx : IngestContext} {names : List JsString} {ev : WorkEvent}
    (h : Writer.Sanctioned ctx names ev view e) (hview : Unguessed names view log)
    (hfresh : Fresh log) (hfresh' : Fresh (log ++ events))
    (hevents : List.Forall₂ (PersistedAs e) e.parts events) : Contained ctx log events := by
  obtain ⟨base, seen, hauth, hbase, hseen, hparts⟩ := h.parts
  have hlater := (steady_unguessed names).trans hseen hview
  refine ⟨fun workspace hne => ?_, fun event hevent => ?_, fun hauthless event hevent => ?_,
    fun event hevent hmove => ?_⟩
  · rw [tenant_fold, tenant_fold]
    refine written_tenant hfresh' hevents (fun part hpart => ?_) hne
    exact hauth.within h.named hbase hlater hfresh (hparts part hpart)
  · obtain ⟨part, hpart, hpersisted⟩ := persisted_mem hevents hevent
    exact ⟨hpersisted.by_.trans h.stamped.1, hpersisted.prov.trans h.stamped.2⟩
  · obtain ⟨part, hpart, hpersisted⟩ := persisted_mem hevents hevent
    have hbinding : ev.payload.isBinding = false := by
      by_contra hsettles
      rw [hauth.binding (by simpa using hsettles)] at hauthless
      cases hauthless
    have hprepares := (hparts part hpart).prepares hbinding
    rcases hpersisted.body_eq with heq | ⟨p, p', -, hbody, -⟩
    · rw [heq]
      exact hprepares
    · rw [hbody]
      rfl
  · obtain ⟨part, hpart, hpersisted⟩ := persisted_mem hevents hevent
    rcases hpersisted.body_eq with heq | ⟨p, p', -, hbody, -⟩
    · rw [heq] at hmove
      exact hauth.granted ((hparts part hpart).restructures hmove)
    · rw [hbody] at hmove
      cases hmove

/-- The writers keep to their discipline. -/
theorem writer_discipline (P : Type) (contentHashOf : EventData → Sha256) :
    Discipline Writer.prog Writer.names published (perform contentHashOf) P
      (fun w => Unguessed w.names) Done Writer.Promises (fun _ _ _ => True)
      (fun log history => Fresh log ∧ Recorded log history) where
  refl w log := (steady_unguessed w.names).refl log
  sat w log := w.promises log
  done h := perform_done h
  good_nil := ⟨List.nodup_nil, .nil⟩
  publish _ hview hpromises hx := by
    obtain ⟨facade, hrequests⟩ := hpromises.requests
    exact perform_publishes hview.later hrequests hx
  keep {log history w view minted e stamp} hgood hview hpromises _ _ hnew := by
    obtain ⟨hfresh, hrecorded⟩ := hgood
    have hunwritten : Fresh log ∧ Recorded log (history ++ [(w, log.drop log.length)]) := by
      rw [List.drop_length]
      have hlast : Recorded (log ++ []) (history ++ [(w, [])]) :=
        hrecorded.concat fun ctx _ _ => contained_nil ctx log
      rw [List.append_nil] at hlast
      exact ⟨hfresh, hlast⟩
    rcases hperform : perform contentHashOf log e stamp with ⟨result, log'⟩
    cases result with
    | error error => exact perform_error hperform ▸ hunwritten
    | ok events =>
        cases perform_done hperform with
        | deduped => exact hunwritten
        | retried => exact hunwritten
        | written hevents =>
            obtain ⟨facade, hrequests⟩ := hpromises.requests
            have hfresh' := requests_fresh hrequests hevents hfresh fun x hx => (hnew x hx).1
            rw [List.drop_left]
            refine ⟨hfresh', hrecorded.concat fun ctx stream heq => ?_⟩
            obtain ⟨ev, hsanctioned⟩ := hpromises.sanctioned ctx stream heq
            exact hsanctioned.contained hview hfresh hfresh' hevents
  guarantee {log history w view minted e stamp w' view'} _ _ hview hpromises _ _ hnew hview' := by
    refine ⟨hview'.later.trans (perform_extends log e stamp), fun x hx => ?_⟩
    obtain ⟨facade, hrequests⟩ := hpromises.requests
    have hlanded : x ∈ createdIn log ∨ x ∈ minted := by
      rcases hperform : perform contentHashOf log e stamp with ⟨result, log'⟩
      rw [hperform] at hx
      cases result with
      | error error => exact .inl (perform_error hperform ▸ hx)
      | ok events =>
          cases perform_done hperform with
          | deduped => exact .inl hx
          | retried => exact .inl hx
          | written hevents =>
              rw [createdIn_append, List.mem_append, persisted_creates hevents] at hx
              exact hx.imp_right (hrequests.issued.creates.2 x)
    rcases hlanded with hlog | hminted
    · exact hview'.created x hlog
    · obtain ⟨hunpublished, hunnamed⟩ := hnew x hminted
      exact .inr ⟨hunnamed, fun hseen => hunpublished (published_mono hview'.later hseen)⟩

end Landing

/-! ## Every run -/

/-- The processes `P`, each running one writer after another. -/
abbrev WriterSys (P : Type) :=
  Sys P Writer Event Emission JsString Query Query.Answer TrackError Unit

section Runs

variable {P : Type} [DecidableEq P] {contentHashOf : EventData → Sha256} {s : WriterSys P}

def WriterStep (contentHashOf : EventData → Sha256) (s t : WriterSys P) : Prop :=
  Step Writer.prog Writer.names published (perform contentHashOf) (fun _ _ _ => True) s t

/-- The log that a part of the history has written. -/
def written (history : List (Writer × List Event)) : List Event := history.flatMap (·.2)

theorem recorded_written {log : List Event} {history : List (Writer × List Event)}
    (h : Recorded log history) : written history = log := by
  induction h with
  | nil => rfl
  | concat h _ ih =>
      simp only [written, List.flatMap_append, List.flatMap_cons, List.flatMap_nil,
        List.append_nil] at ih ⊢
      rw [ih]

theorem Recorded.tenant {log : List Event} {history before rest : List (Writer × List Event)}
    {workspace : JsString} (h : Recorded log history) (hhistory : history = before ++ rest)
    (hothers : ∀ entry ∈ rest, ∃ other ≠ workspace, entry.1.pinned = some other) :
    tenant workspace (fold log) = tenant workspace (fold (written before)) := by
  induction h generalizing rest with
  | nil =>
      obtain ⟨rfl, rfl⟩ := List.append_eq_nil_iff.mp hhistory.symm
      rfl
  | @concat log history w added h hadded ih =>
      rcases List.eq_nil_or_concat rest with rfl | ⟨rest', last, rfl⟩
      · rw [List.append_nil] at hhistory
        rw [← hhistory, recorded_written (h.concat hadded)]
      · rw [List.concat_eq_append, ← List.append_assoc] at hhistory
        obtain ⟨hbefore, hlast⟩ := List.append_inj' hhistory rfl
        obtain rfl := List.singleton_inj.mp hlast
        have hmem : (w, added) ∈ rest'.concat (w, added) := by simp
        obtain ⟨other, hne, hpinned⟩ := hothers _ hmem
        obtain ⟨ctx, events, hw, rfl⟩ := Writer.exists_of_pinned hpinned
        rw [(hadded ctx events hw).tenants workspace hne.symm]
        exact ih hbefore fun entry hentry => hothers entry (by simp [hentry])

/-- However the steps of all writers interleave, what channels of other workspaces have
appended since leaves all that a workspace holds as it was. -/
theorem tenants_isolated {before rest : List (Writer × List Event)} {workspace : JsString}
    (hrun : Reaches (WriterStep contentHashOf) Sys.initial s) (hhistory : s.history = before ++ rest)
    (hothers : ∀ entry ∈ rest, ∃ other ≠ workspace, entry.1.pinned = some other) :
    tenant workspace (fold s.log) = tenant workspace (fold (written before)) :=
  ((writer_discipline P contentHashOf).invariant hrun).2.tenant hhistory hothers

/-- A channel that creates a root item of its workspace. -/
def sampleChannel (workspace : JsString) (auth : ProvenanceAuth) : Writer :=
  .channel ⟨js "human:sam", workspace, ⟨.cli, false, auth, none, none⟩, none⟩
    [⟨.itemCreate (samplePayload workspace none none), none⟩]

/-- Two channels whose streams are read and authorized before either has written. -/
def sampleActions : List (Action Bool Writer JsString Query Query.Answer Stamp) :=
  [.call true (sampleChannel (js "v") .localUser), .read true, .read true,
    .call false (sampleChannel (js "w") .unauthenticated), .read false, .read false,
    .read true, .read false, .mint false (js "b"), .mint true (js "a"),
    .append true (.nth 0), .append false (.nth 1)]

/-- Who writes, and how much, along the actions. -/
def writers (actions : List (Action Bool Writer JsString Query Query.Answer Stamp)) :
    Option (List (Option JsString × Nat)) :=
  (runs Writer.prog Writer.names published (perform fun e => e.id) (fun _ _ _ => True) actions
    Sys.initial).map fun s => s.history.map fun entry => (entry.1.pinned, entry.2.length)

theorem writers_sampleActions :
    writers sampleActions = some [(some (js "v"), 1), (some (js "w"), 1)] := by
  decide +kernel

theorem tenants_isolated_sample : ∃ s : WriterSys Bool,
    s.history.map (fun entry => (entry.1.pinned, entry.2.length)) =
      [(some (js "v"), 1), (some (js "w"), 1)] ∧
    tenant (js "v") (fold s.log) = tenant (js "v") (fold (written (s.history.take 1))) := by
  obtain ⟨s, hs, hwriters⟩ := Option.map_eq_some_iff.mp writers_sampleActions
  refine ⟨s, hwriters, tenants_isolated (reaches_of_runs hs)
    (List.take_append_drop 1 s.history).symm fun entry hentry => ⟨js "w", by decide, ?_⟩⟩
  have hdrop := congrArg (List.drop 1) hwriters
  rw [← List.map_drop] at hdrop
  have hpair := List.mem_map_of_mem (f := fun entry : Writer × List Event =>
    (entry.1.pinned, entry.2.length)) hentry
  rw [hdrop] at hpair
  exact congrArg Prod.fst (List.mem_singleton.mp hpair)

theorem Recorded.contained {log : List Event} {history : List (Writer × List Event)}
    (h : Recorded log history) {entry : Writer × List Event} (hentry : entry ∈ history) :
    ∀ ctx events, entry.1 = .channel ctx events → ∃ base, Contained ctx base entry.2 := by
  induction h with
  | nil => cases hentry
  | concat h hadded ih =>
      rcases List.mem_append.mp hentry with hold | hlast
      · exact ih hold
      · obtain rfl := List.mem_singleton.mp hlast
        exact fun ctx events heq => ⟨_, hadded ctx events heq⟩

/-- Every event a channel has appended is stamped with its principal; it settles nothing
unless the principal is authenticated, and moves nothing across workspaces unless the
channel was granted that expressly. -/
theorem channel_events {entry : Writer × List Event} {ctx : IngestContext}
    {events : List WorkEvent} {ev : Event}
    (hrun : Reaches (WriterStep contentHashOf) Sys.initial s) (hentry : entry ∈ s.history)
    (hchannel : entry.1 = .channel ctx events) (hev : ev ∈ entry.2) :
    ev ∈ s.log ∧ ev.core.by_ = ctx.by_ ∧ ev.core.prov = some ctx.prov ∧
      (isBindingAuth ctx.prov.auth = false → prepares ev.core.body = true) ∧
      (restructures ev.core.body = true →
        (ctx.allowedKinds.getD []).contains .itemRestructure = true) := by
  have hrecorded := ((writer_discipline P contentHashOf).invariant hrun).2
  obtain ⟨base, hcontained⟩ := hrecorded.contained hentry ctx events hchannel
  refine ⟨?_, (hcontained.stamped ev hev).1, (hcontained.stamped ev hev).2,
    fun hauth => hcontained.prepared hauth ev hev, hcontained.granted ev hev⟩
  rw [← recorded_written hrecorded]
  exact List.mem_flatMap.mpr ⟨entry, hentry, hev⟩

theorem channel_events_sample : ∃ (s : WriterSys Bool) (ctx : IngestContext) (ev : Event),
    ctx.workspace = js "w" ∧ ev ∈ s.log ∧ ev.core.by_ = ctx.by_ ∧ ev.core.prov = some ctx.prov ∧
      (isBindingAuth ctx.prov.auth = false → prepares ev.core.body = true) ∧
      (restructures ev.core.body = true →
        (ctx.allowedKinds.getD []).contains .itemRestructure = true) := by
  obtain ⟨s, hs, hwriters⟩ := Option.map_eq_some_iff.mp writers_sampleActions
  obtain ⟨first, rest, hhistory, -, hrest⟩ := List.map_eq_cons_iff.mp hwriters
  obtain ⟨entry, last, hrest', hpair, -⟩ := List.map_eq_cons_iff.mp hrest
  obtain ⟨hpinned, hlength⟩ := Prod.mk.inj hpair
  obtain ⟨ctx, events, hchannel, hworkspace⟩ := Writer.exists_of_pinned hpinned
  obtain ⟨ev, hev⟩ := List.exists_mem_of_length_pos (show 0 < entry.2.length by omega)
  have hentry : entry ∈ s.history := by
    rw [hhistory, hrest']
    exact List.mem_cons_of_mem _ List.mem_cons_self
  exact ⟨s, ctx, ev, hworkspace, channel_events (reaches_of_runs hs) hentry hchannel hev⟩

end Runs

end H2a.Track.Ingest.Channel
