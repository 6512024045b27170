import H2a.Track.Facade.Reachable
import H2a.Track.Ingest.Footprint
/-!
# Channels keep to their workspace

Any number of channels and of other `Track` instances write to one log, their steps in
any order.  What a channel appends is authorized on a state that others may have moved
on from by the time the append lands.  That it stays in the workspace all the same rests
on two things: what an entity was created with it keeps, and an id that is minted after
a command was given cannot be one the command names.
-/

namespace H2a.Track.Ingest.Channel

open H2a.Library H2a.Library.Program H2a.Library.Concurrent H2a.Track.Model
open H2a.Track.Events (Sha256)

/-! ## What is authorized -/

/-- What a command is resolved to is of the workspace, or is not there. -/
def Resolved.Within (workspace : JsString) : Resolved → Prop
  | .create w => w = workspace
  | .existing found => Contains workspace found

structure Authorized (ctx : IngestContext) (s : State) (payload : WorkPayload) : Prop where
  resolved : (resolveWorkspace s payload).Within ctx.workspace
  affected : ∀ found ∈ affectedTargetWorkspaces s payload, Contains ctx.workspace found
  binding : payload.isBinding = true → isBindingAuth ctx.prov.auth = true
  granted : payload.kind = .itemRestructure →
    (ctx.allowedKinds.getD []).contains .itemRestructure = true

section Authorize

variable {ctx : IngestContext} {s : State} {payload : WorkPayload}

theorem assertAffected_ok {kind : WorkEventKind} {affected : List (Option JsString)}
    (h : assertAffected kind ctx affected = .ok ()) :
    ∀ found ∈ affected, Contains ctx.workspace found := by
  induction affected with
  | nil => simp
  | cons found rest ih =>
      have hfirst : Contains ctx.workspace found ∧ assertAffected kind ctx rest = .ok () := by
        rw [assertAffected.eq_def] at h
        dsimp only at h
        cases found with
        | none => exact ⟨contains_none, h⟩
        | some workspace =>
            dsimp only at h
            split at h
            · cases h
            · rename_i heq
              exact ⟨fun w hw => by rw [← Option.some.inj hw]; exact not_not.mp heq, h⟩
      intro found' hfound'
      rcases List.mem_cons.mp hfound' with rfl | hmem
      · exact hfirst.1
      · exact ih hfirst.2 found' hmem

theorem assertResolved_ok {kind : WorkEventKind} {resolved : Resolved}
    (h : assertResolved kind ctx resolved = .ok ()) : resolved.Within ctx.workspace := by
  unfold assertResolved at h
  unfold Resolved.Within
  split at h
  · by_contra hne
    simp [hne] at h
  · rename_i workspace
    intro w hw
    rw [Option.some.injEq] at hw
    by_contra hne
    simp [hw, hne] at h
  · exact contains_none

theorem authorize_ok (h : authorize ctx s payload = .ok ()) : Authorized ctx s payload := by
  unfold authorize at h
  dsimp only at h
  split at h
  · cases h
  rename_i hgranted
  split at h
  · cases h
  obtain ⟨_, hresolved, h⟩ := bind_eq_ok_iff.mp h
  obtain ⟨_, haffected, h⟩ := bind_eq_ok_iff.mp h
  split at h
  · cases h
  rename_i hbinding
  refine ⟨assertResolved_ok hresolved, assertAffected_ok haffected, fun hsettles => ?_,
    fun hkind => ?_⟩
  · by_contra hauth
    exact hbinding ⟨hsettles, hauth⟩
  · by_contra hdenied
    exact hgranted ⟨by rw [hkind]; rfl, by rw [hkind]; simpa using hdenied⟩

end Authorize

/-! ## What others may do meanwhile -/

/-- From `view` to `log` nothing was created that one of `names` or an id seen before could
have meant. -/
structure Unguessed (names : List JsString) (view log : List Event) : Prop where
  later : view <+: log
  created : ∀ x ∈ createdIn log, x ∈ createdIn view ∨ x ∉ names ∧ x ∉ published view

theorem steady_unguessed (names : List JsString) : Steady (Unguessed names) where
  refl log := ⟨List.prefix_refl log, fun _ hx => .inl hx⟩
  trans {a b c} hab hbc := by
    refine ⟨hab.later.trans hbc.later, fun x hx => ?_⟩
    rcases hbc.created x hx with hx | ⟨hname, hseen⟩
    · exact hab.created x hx
    · exact .inr ⟨hname, fun hx => hseen (published_mono hab.later hx)⟩

section Settled

variable {names : List JsString} {base log : List Event} {x : JsString} {workspace : JsString}

theorem Unguessed.settled (h : Unguessed names base log) (hfresh : Fresh log) {β : Type}
    (birth : Birth β) (hx : x ∈ names ∨ x ∈ published base) :
    birth.of (rawFold log) x = birth.of (rawFold base) x := by
  refine birth.settled hfresh h.later fun hcreated => ?_
  rcases h.created x hcreated with hbase | ⟨hname, hseen⟩
  · exact hbase
  · exact (hx.elim hname hseen).elim

variable (h : Unguessed names base log) (hfresh : Fresh log)

include h hfresh

theorem item_settled (hx : x ∈ names ∨ x ∈ published base) :
    itemWorkspace (rawFold log) x = itemWorkspace (rawFold base) x := by
  have hmap : ∀ s : State, itemWorkspace s x = (Birth.items.of s x).map (·.2.1) := by
    intro s
    cases hget : s.items.get x <;> simp [itemWorkspace, Birth.items, Birth.ofMap, itemBirth, hget]
  rw [hmap, hmap, h.settled hfresh Birth.items hx]

theorem decision_settled (hx : x ∈ names) :
    decisionWorkspace (rawFold log) x = decisionWorkspace (rawFold base) x := by
  have hmap : ∀ s : State, decisionWorkspace s x = (Birth.decisions.of s x).map (·.2.1) := by
    intro s
    cases hget : s.decisions.get x <;>
      simp [decisionWorkspace, Birth.decisions, Birth.ofMap, decisionBirth, hget]
  rw [hmap, hmap, h.settled hfresh Birth.decisions (.inl hx)]

theorem demand_settled (hx : x ∈ names) :
    demandWorkspace (rawFold log) x = demandWorkspace (rawFold base) x := by
  have hmap : ∀ s : State, demandWorkspace s x = (Birth.demands.of s x).map (·.2) := by
    intro s
    cases hget : s.demands.get x <;>
      simp [demandWorkspace, Birth.demands, Birth.ofMap, demandBirth, hget]
  rw [hmap, hmap, h.settled hfresh Birth.demands (.inl hx)]

theorem criterion_settled (hx : x ∈ names)
    (hbase : Contains workspace (criterionWorkspace (rawFold base) x)) :
    Contains workspace (criterionWorkspace (rawFold log) x) := by
  intro w hw
  obtain ⟨criterion, hcriterion, hw⟩ := Option.bind_eq_some_iff.mp hw
  have hbirth := h.settled hfresh Birth.criteria (.inl hx)
  simp only [Birth.criteria, Birth.ofMap, hcriterion, Option.map_some] at hbirth
  obtain ⟨before, hbefore, hsame⟩ := Option.map_eq_some_iff.mp hbirth.symm
  simp only [criterionBirth, Prod.mk.injEq] at hsame
  have hitem := ((known_rawFold base).criteria x before hbefore).2.2
  apply hbase w
  rw [criterionWorkspace, hbefore, Option.bind_some, ← item_settled h hfresh (.inr hitem),
    hsame.2, hw]

/-- A blocker that is named keeps to its target. -/
theorem blocker_settled (hx : x ∈ names)
    (hbase : ∀ blocker, (rawFold base).blockers.get x = some blocker →
      Contains workspace (itemWorkspace (rawFold base) blocker.targetId)) :
    ∀ blocker, (rawFold log).blockers.get x = some blocker →
      Contains workspace (itemWorkspace (rawFold log) blocker.targetId) := by
  intro blocker hblocker
  have hbirth := h.settled hfresh Birth.blockers (.inl hx)
  simp only [Birth.blockers, Birth.ofMap, hblocker, Option.map_some] at hbirth
  obtain ⟨before, hbefore, hsame⟩ := Option.map_eq_some_iff.mp hbirth.symm
  simp only [blockerBirth, Prod.mk.injEq] at hsame
  have htarget := blocker_target base x before hbefore
  rw [← hsame.2.1, item_settled h hfresh (.inr htarget)]
  exact hbase before hbefore

/-- A decision that is named keeps to its workspace, and so do its targets. -/
theorem outcome_settled (hx : x ∈ names)
    (hbase : Contains workspace (decisionWorkspace (rawFold base) x))
    (htargets : ∀ decision, (rawFold base).decisions.get x = some decision →
      ∀ target ∈ decision.targets, Contains workspace (itemWorkspace (rawFold base) target)) :
    ∀ decision, (rawFold log).decisions.get x = some decision → decision.workspace = workspace ∧
      ∀ target ∈ decision.targets, Contains workspace (itemWorkspace (rawFold log) target) := by
  intro decision hdecision
  have hbirth := h.settled hfresh Birth.decisions (.inl hx)
  simp only [Birth.decisions, Birth.ofMap, hdecision, Option.map_some] at hbirth
  obtain ⟨before, hbefore, hsame⟩ := Option.map_eq_some_iff.mp hbirth.symm
  simp only [decisionBirth, Prod.mk.injEq] at hsame
  refine ⟨hsame.2.1 ▸ hbase.map hbefore, fun target htarget => ?_⟩
  rw [← hsame.2.2.2] at htarget
  have hseen := ((known_rawFold base).decisions x before hbefore).2.2 target htarget
  rw [item_settled h hfresh (.inr hseen)]
  exact htargets before hbefore target htarget

end Settled

/-! ## What is emitted is within the workspace -/

section Emitted

variable {view log : List Event} {workspace : JsString}

/-- A blocker that was seen is on the same target still. -/
theorem blocker_seen (hfresh : Fresh log) (hview : view <+: log) {blocker blocker' : BlockerState}
    (h : blocker ∈ (fold view).blockers.values)
    (hlater : (rawFold log).blockers.get blocker.id = some blocker') :
    blocker'.targetId = blocker.targetId := by
  have hget := (JsMap.mem_values_iff_get _ (keyed_fold view).blockers).mp h
  rw [fold_blockers] at hget
  obtain ⟨raw, hraw, rfl⟩ := Option.map_eq_some_iff.mp hget
  obtain ⟨kept, hkept, hbirth⟩ := blocker_persists hfresh hview hraw
  simp only [blockerBirth, Prod.mk.injEq] at hbirth
  obtain rfl : kept = blocker' := Option.some.inj (hkept.symm.trans hlater)
  exact hbirth.2.1

theorem item_seen (hfresh : Fresh log) (hview : view <+: log) {x : ItemId}
    (h : itemWorkspace (fold view) x = some workspace) :
    itemWorkspace (rawFold log) x = some workspace := by
  obtain ⟨item, hitem, rfl⟩ := Option.map_eq_some_iff.mp h
  obtain ⟨kept, hkept, hbirth⟩ := item_persists hfresh hview hitem
  simp only [itemBirth, Prod.mk.injEq] at hbirth
  rw [fold_items] at hkept
  rw [itemWorkspace, hkept, Option.map_some, hbirth.2.1]

/-- The events of an outcome stay within the workspace of the decision and its targets. -/
theorem outcomeParts_within (hfresh : Fresh log) (hview : view <+: log) {x : ItemId}
    {decision : DecisionState} {dest : Outcome} {part : EventPart}
    (hdecision : (fold view).decisions.get x = some decision)
    (hlog : ∀ decision, (rawFold log).decisions.get x = some decision →
      decision.workspace = workspace ∧
        ∀ target ∈ decision.targets, Contains workspace (itemWorkspace (rawFold log) target))
    (hpart : part ∈ Facade.outcomeParts (fold view) decision dest) :
    Within workspace (rawFold log) part.aggregateId part.body := by
  obtain ⟨hid, -, -⟩ := (known_fold view).decisions x decision hdecision
  obtain ⟨kept, hkept, hbirth⟩ := decision_persists hfresh hview hdecision
  simp only [decisionBirth, Prod.mk.injEq] at hbirth
  rw [fold_decisions] at hkept
  have htargets := (hlog kept hkept).2
  rw [hbirth.2.2.2] at htargets
  rcases mem_outcomeParts hpart with rfl | ⟨-, target, htarget, blocker, hblocker, rfl⟩ |
    ⟨-, target, htarget, item, hitem, -, rfl⟩
  · rw [hid]
    exact hlog
  · obtain ⟨hmem, -, -, htargetId, -⟩ := openDecisionBlocker_some hblocker
    intro blocker' hblocker'
    rw [blocker_seen hfresh hview hmem hblocker', htargetId]
    exact htargets target htarget
  · have hthere : itemWorkspace (rawFold log) target = some item.workspace :=
      item_seen hfresh hview (by rw [itemWorkspace, hitem, Option.map_some])
    intro w hw
    apply htargets target htarget
    rw [hthere, Option.some_or] at hw
    rw [hthere, hw]

variable {ctx : IngestContext} {payload : WorkPayload} {names : List JsString}
variable {base : List Event} {part : EventPart}

/-- The openness of the blockers does not matter. -/
theorem resolveWorkspace_fold (log : List Event) (payload : WorkPayload) :
    resolveWorkspace (fold log) payload = resolveWorkspace (rawFold log) payload := by
  cases payload with
  | blockerResolve x =>
      simp only [resolveWorkspace, fold_blockers, Option.bind_map]
      rfl
  | _ => rfl

/-- A decision that may be settled through the channel. -/
theorem outcome_within (hfresh : Fresh log) (hbefore : Unguessed names base view)
    (hafter : Unguessed names view log) {x : ItemId} (hx : x ∈ names)
    (hresolved : Contains ctx.workspace (decisionWorkspace (rawFold base) x))
    (haffected : ∀ found ∈ (match (rawFold base).decisions.get x with
      | some decision => decision.targets.map (itemWorkspace (rawFold base))
      | none => []), Contains ctx.workspace found)
    (hemits : ∃ decision dest, (fold view).decisions.get x = some decision ∧
      part ∈ Facade.outcomeParts (fold view) decision dest) :
    Within ctx.workspace (rawFold log) part.aggregateId part.body := by
  obtain ⟨decision, dest, hdecision, hpart⟩ := hemits
  refine outcomeParts_within hfresh hafter.later hdecision ?_ hpart
  refine outcome_settled ((steady_unguessed names).trans hbefore hafter) hfresh hx hresolved ?_
  intro before hbase target htarget
  rw [hbase] at haffected
  exact haffected _ (List.mem_map_of_mem htarget)

/-- What the command of an authorized event appends is within the workspace of the channel
on every log that others may have led to. -/
theorem Authorized.within (hauth : Authorized ctx (fold base) payload)
    (hnames : ∀ x ∈ payload.lookups, x ∈ names) (hbefore : Unguessed names base view)
    (hafter : Unguessed names view log) (hfresh : Fresh log)
    (hemits : payload.Emits ctx (fold view) part) :
    Within ctx.workspace (rawFold log) part.aggregateId part.body := by
  have hlater := (steady_unguessed names).trans hbefore hafter
  have hresolved : (resolveWorkspace (rawFold base) payload).Within ctx.workspace :=
    resolveWorkspace_fold base payload ▸ hauth.resolved
  have haffected : ∀ found ∈ affectedTargetWorkspaces (rawFold base) payload,
      Contains ctx.workspace found := hauth.affected
  have hitem : ∀ x ∈ payload.lookups, Contains ctx.workspace (itemWorkspace (rawFold base) x) →
      Contains ctx.workspace (itemWorkspace (rawFold log) x) :=
    fun x hx hbase => by rwa [item_settled hlater hfresh (.inl (hnames x hx))]
  have hdecision : ∀ x ∈ payload.lookups,
      Contains ctx.workspace (decisionWorkspace (rawFold base) x) →
        Contains ctx.workspace (decisionWorkspace (rawFold log) x) :=
    fun x hx hbase => by rwa [decision_settled hlater hfresh (hnames x hx)]
  have hdemand : ∀ x ∈ payload.lookups,
      Contains ctx.workspace (demandWorkspace (rawFold base) x) →
        Contains ctx.workspace (demandWorkspace (rawFold log) x) :=
    fun x hx hbase => by rwa [demand_settled hlater hfresh (hnames x hx)]
  cases payload with
  | itemCreate input =>
      obtain ⟨x, created, hworkspace, rfl⟩ := hemits
      exact hworkspace.trans hresolved
  | decisionCreate input =>
      have htargets : ∀ target ∈ input.targets,
          Contains ctx.workspace (itemWorkspace (rawFold log) target) :=
        fun target htarget => hitem target htarget (haffected _ (List.mem_map_of_mem htarget))
      obtain ⟨decisionId, rfl | ⟨x, target, htarget, rfl⟩⟩ := hemits
      · exact ⟨hresolved, htargets⟩
      · exact htargets target htarget
  | demandRaise input =>
      obtain ⟨x, raised, rfl⟩ := hemits
      exact hresolved
  | itemRealize x dest =>
      obtain ⟨aggregate, rfl⟩ := hemits
      have hx := hnames x List.mem_cons_self
      show Contains ctx.workspace
        ((itemWorkspace (rawFold log) x).or (decisionWorkspace (rawFold log) x))
      rw [item_settled hlater hfresh (.inl hx), decision_settled hlater hfresh hx]
      exact hresolved
  | decisionOutcome x dest =>
      exact outcome_within hfresh hbefore hafter (hnames x List.mem_cons_self) hresolved haffected
        hemits
  | decisionSelect x optionId outcome =>
      rcases hemits with rfl | hemits
      · exact hdecision x List.mem_cons_self hresolved
      · exact outcome_within hfresh hbefore hafter (hnames x List.mem_cons_self) hresolved
          haffected hemits
  | decisionDossier x dossier =>
      obtain rfl := hemits
      exact hdecision x List.mem_cons_self hresolved
  | decisionAddArtifact x artifact =>
      obtain ⟨validated, rfl⟩ := hemits
      exact hdecision x List.mem_cons_self hresolved
  | acceptanceWaive criterionId reason =>
      obtain ⟨itemId, by_, rfl⟩ := hemits
      exact criterion_settled hlater hfresh (hnames criterionId List.mem_cons_self) hresolved
  | acceptanceLink criterionId kind locator evidenceId =>
      obtain ⟨itemId, x, rfl⟩ := hemits
      trivial
  | acceptanceRun evidenceId run =>
      obtain ⟨itemId, rfl⟩ := hemits
      trivial
  | blockerRaise x kind ref reason resolutionRule owner scope engagementRef =>
      obtain ⟨blockerId, opened, rfl, rfl⟩ := hemits
      exact hitem _ List.mem_cons_self hresolved
  | blockerResolve x =>
      obtain ⟨engagementRef, rfl⟩ := hemits
      exact blocker_settled hlater hfresh (hnames x List.mem_cons_self) fun blocker hblocker =>
        contains_of_bind hresolved blocker hblocker
  | blockerResolveExternal engagementRef =>
      obtain ⟨b, hb, rfl⟩ := hemits
      intro blocker hblocker
      obtain ⟨hmem, hmatch⟩ := List.mem_filter.mp hb
      simp only [Bool.and_eq_true, decide_eq_true_eq] at hmatch
      rw [blocker_seen hfresh hafter.later hmem hblocker]
      have hthere : itemWorkspace (rawFold log) b.targetId = some ctx.workspace :=
        item_seen hfresh hafter.later hmatch.2
      intro w hw
      exact (Option.some.inj (hthere.symm.trans hw)).symm
  | scopeVerification input =>
      unfold WorkPayload.Emits at hemits
      dsimp only at hemits
      split at hemits <;> obtain rfl := hemits <;> trivial
  | itemConsolidate items mergeCommit =>
      obtain ⟨x, hx, hpart⟩ := hemits
      rcases consolidateItem_part hpart with rfl | ⟨c, -, ev, -, run, -, -, rfl⟩
      · exact hitem x hx (haffected _ (List.mem_map_of_mem hx))
      · trivial
  | demandClaim x handler leaseId =>
      obtain ⟨handler, rfl⟩ := hemits
      exact hdemand x List.mem_cons_self hresolved
  | demandAgree x handler items qualification leaseId =>
      obtain ⟨demand, hget, ⟨handler, itemIds, rfl⟩ | ⟨itemId, item, rfl⟩⟩ := hemits
      · exact hdemand x List.mem_cons_self hresolved
      · have hdemands := demand_settled hbefore (hfresh.of_prefix hafter.later)
          (hnames x List.mem_cons_self)
        have hcontained : Contains ctx.workspace (demandWorkspace (rawFold view) x) := by
          rw [hdemands]
          exact hresolved
        exact hcontained.map hget
  | demandDisposition x outcome handler reason duplicateOf parkedUntil leaseId =>
      obtain ⟨outcome, handler, rfl⟩ := hemits
      exact hdemand x List.mem_cons_self hresolved
  | itemSpecAmend x amend =>
      obtain ⟨amended, hx, rfl⟩ := hemits
      exact hx ▸ hitem x List.mem_cons_self hresolved
  | itemReparent x _ | itemSpec x _ | decisionDisposition x _ _ _ | itemAssignCode x _
  | itemSetRole x _ | itemAnchor x _ _ | itemRestructure x _ _ _ =>
      obtain rfl := hemits
      exact hitem x List.mem_cons_self hresolved
  | itemSetRaci x _ | itemAddLink x _ | itemReopen x _ | acceptanceCriterion x _
  | priorityAssess x _ | scopeDeclare x _ | specClaim x _ _ _ | specAbandon x _ _ _ =>
      obtain ⟨_, rfl⟩ := hemits
      exact hitem x List.mem_cons_self hresolved

end Emitted

end H2a.Track.Ingest.Channel
