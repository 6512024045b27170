import H2a.LocalFiles.Offboard
/-!
# An offboarding is complete

Every key that was listed is revoked before the tombstone is written, and every subagent
that was listed; what came later is not looked at again.  So a run is safe exactly when
what came late is revoked by others in time, and no subagent is revoked while an envelope
is on its way to it (`offboard_complete_iff`).
-/

namespace H2a.LocalFiles

open H2a.Library

/-! ## What one more row changes -/

namespace Registry

variable {r : Registry} {instanceId pem : JsString} {event : H2AKeyEvent}

/-- One more row adds at most the key it adds. -/
theorem mem_listInstanceKeys_append
    (h : pem ∈ ({ r with keys := r.keys ++ [event] } : Registry).listInstanceKeys instanceId) :
    pem ∈ r.listInstanceKeys instanceId ∨
      event.type = .added ∧ event.instance_ = instanceId ∧ pem = event.publicKey := by
  obtain ⟨hsource, hactive⟩ := mem_listInstanceKeys.mp h
  have hkept : pem ∉ r.eventKeys instanceId .revoked := by
    intro hrevoked
    obtain ⟨e, he, hevent⟩ := mem_eventKeys.mp hrevoked
    exact hactive (mem_eventKeys.mpr ⟨e, List.mem_append_left _ he, hevent⟩)
  rcases hsource with hregistered | hadded
  · exact Or.inl (mem_listInstanceKeys.mpr ⟨Or.inl hregistered, hkept⟩)
  · obtain ⟨e, he, hinstance, htype, hpem⟩ := mem_eventKeys.mp hadded
    rcases List.mem_append.mp he with he | he
    · exact Or.inl (mem_listInstanceKeys.mpr
        ⟨Or.inr (mem_eventKeys.mpr ⟨e, he, hinstance, htype, hpem⟩), hkept⟩)
    · obtain rfl := List.mem_singleton.mp he
      exact Or.inr ⟨htype, hinstance, hpem.symm⟩

/-- A key that is revoked is not active. -/
theorem not_mem_listInstanceKeys_revoked {at_ : JsString} :
    pem ∉ ({ r with keys := r.keys ++ [⟨instanceId, pem, .revoked, at_⟩] } :
      Registry).listInstanceKeys instanceId := by
  intro h
  apply (mem_listInstanceKeys.mp h).2
  exact mem_eventKeys.mpr ⟨_, List.mem_append_right _ (List.mem_singleton_self _), rfl, rfl, rfl⟩

theorem mem_eventKeys_append {type : H2AKeyEventType} (h : pem ∈ r.eventKeys instanceId type) :
    pem ∈ ({ r with keys := r.keys ++ [event] } : Registry).eventKeys instanceId type := by
  obtain ⟨e, he, hevent⟩ := mem_eventKeys.mp h
  exact mem_eventKeys.mpr ⟨e, List.mem_append_left _ he, hevent⟩

end Registry

theorem RoutedInOrder.append {n : Nat} {audit : List H2ASubagentAuditEvent}
    (h : RoutedInOrder n audit) {event : H2ASubagentAuditEvent}
    (hevent : event.type = .routed → ∀ e ∈ audit, e.type = .revoked → e.subagent ≠ event.subagent) :
    RoutedInOrder n (audit ++ [event]) := by
  intro before event' after heq hn hrouted
  rcases List.append_eq_append_iff.mp heq with ⟨middle, hbefore, hafter⟩ | ⟨middle, haudit, hafter⟩
  · cases middle with
    | nil =>
        obtain rfl : event = event' := (List.cons.inj hafter).1
        rw [List.append_nil] at hbefore
        exact hbefore ▸ hevent hrouted
    | cons e middle => simp at hafter
  · cases middle with
    | nil =>
        obtain rfl : event' = event := (List.cons.inj hafter).1
        rw [List.append_nil] at haudit
        exact haudit ▸ hevent hrouted
    | cons e middle =>
        obtain ⟨rfl, -⟩ := List.cons.inj hafter
        exact h before event' middle haudit hn hrouted

namespace OffboardSystem

variable {P : Type} {instanceId : JsString} {reason : Option JsString} {n : Nat}
  {s : OffboardSystem P}

/-! ## The invariant -/

/-- The subagents revoked by the call, and what is left of those it found active. -/
def Mine : OffboardPc → Prop
  | .revokingSubagents _ activeSubs revoked pending =>
      activeSubs.map (·.id) = revoked ++ pending.map (·.id)
  | .recording tombstone revoked => tombstone.revokedSubagents = revoked
  | _ => True

structure Inv (instanceId : JsString) (n : Nat) (s : OffboardSystem P) : Prop where
  keys : ∀ pending, s.pc.pendingKeys = some pending →
    ∀ pem ∈ s.files.registry.listInstanceKeys instanceId, pem ∈ pending ∨ pem ∈ s.lateKeys
  lateKeys : ∀ pem ∈ s.lateKeys, pem ∈ s.files.registry.eventKeys instanceId .added
  subagents : ∀ pending, s.pc.pendingSubagents = some pending →
    ∀ b ∈ s.files.listSubagentsOf instanceId,
      b.id ∈ pending ∨ b.id ∈ s.lateSubagents ∨ s.files.subagentStatus b.id = .revoked
  lateSubagents : ∀ id ∈ s.lateSubagents, ∃ b ∈ s.files.listSubagentsOf instanceId, b.id = id
  mine : Mine s.pc
  grown : n ≤ s.files.audit.length
  safe : Safe instanceId n s

theorem inv_start (files : OrgFiles) :
    Inv instanceId files.audit.length (start files : OffboardSystem P) := by
  constructor
  · rintro pending ⟨⟩
  · simp [start]
  · rintro pending ⟨⟩
  · simp [start]
  · trivial
  · exact Nat.le_refl _
  · refine ⟨by rintro tombstone revoked written ⟨⟩, ?_⟩
    intro before event after heq hn
    have hlength := congrArg List.length heq
    simp only [start, List.length_append, List.length_cons] at hlength
    omega

/-- One more row in `keys.jsonl`, by another process. -/
theorem Inv.appendKey (h : Inv instanceId n s) {event : H2AKeyEvent} {lateKeys : List JsString}
    (hlate : s.lateKeys ⊆ lateKeys)
    (hnew : ∀ pem ∈ lateKeys, pem ∉ s.lateKeys →
      event.type = .added ∧ event.instance_ = instanceId ∧ pem = event.publicKey)
    (hadded : s.pc.pendingKeys.isSome → event.type = .added → event.instance_ = instanceId →
      event.publicKey ∈ lateKeys) :
    Inv instanceId n { s with
      files := { s.files with
        registry := { s.files.registry with keys := s.files.registry.keys ++ [event] } }
      lateKeys } := by
  refine { h with keys := ?_, lateKeys := ?_, safe := h.safe }
  · intro pending hpending pem hpem
    rcases Registry.mem_listInstanceKeys_append hpem with hpem | ⟨htype, hinstance, rfl⟩
    · exact (h.keys pending hpending pem hpem).imp_right fun hmem => hlate hmem
    · exact Or.inr (hadded (hpending ▸ rfl) htype hinstance)
  · intro pem hpem
    by_cases hold : pem ∈ s.lateKeys
    · exact Registry.mem_eventKeys_append (h.lateKeys pem hold)
    · obtain ⟨htype, hinstance, rfl⟩ := hnew pem hpem hold
      exact Registry.mem_eventKeys.mpr
        ⟨event, List.mem_append_right _ (List.mem_singleton_self _), hinstance, htype, rfl⟩

/-- One more event in the audit log, by another process. -/
theorem Inv.appendAudit (h : Inv instanceId n s) {event : H2ASubagentAuditEvent}
    (hevent : event.type = .routed → s.files.subagentStatus event.subagent ≠ .revoked)
    (route : P → RoutePc) :
    Inv instanceId n { s with files := s.files.appendSubagentAudit event, route } := by
  refine { h with subagents := ?_, grown := ?_, safe := ⟨h.safe.1, ?_⟩ }
  · intro pending hpending b hb
    rcases h.subagents pending hpending b hb with hmem | hmem | hrevoked
    · exact Or.inl hmem
    · exact Or.inr (Or.inl hmem)
    · exact Or.inr (Or.inr (OrgFiles.revoked_of_append hrevoked rfl))
  · have hgrown := h.grown
    simp only [OrgFiles.appendSubagentAudit, List.length_append]
    omega
  · apply h.safe.2.append
    intro hrouted e he htype hsubagent
    exact hevent hrouted (OrgFiles.subagentStatus_eq_revoked.mpr ⟨e, he, htype, hsubagent⟩)

/-- One more binding, by another process. -/
theorem Inv.appendBinding (h : Inv instanceId n s) {binding : H2ASubagentBinding}
    {lateSubagents : List JsString} (hlate : s.lateSubagents ⊆ lateSubagents)
    (hnew : ∀ id ∈ lateSubagents, id ∉ s.lateSubagents →
      binding.parentInstance = instanceId ∧ binding.id = id)
    (hadded : s.pc.pendingSubagents.isSome → binding.parentInstance = instanceId →
      binding.id ∈ lateSubagents) :
    Inv instanceId n { s with
      files := { s.files with subagents := s.files.subagents ++ [binding] }, lateSubagents } := by
  refine { h with subagents := ?_, lateSubagents := ?_, safe := h.safe }
  · intro pending hpending b hb
    obtain ⟨hb, hparent⟩ := OrgFiles.mem_listSubagentsOf.mp hb
    rcases List.mem_append.mp hb with hb | hb
    · rcases h.subagents pending hpending b (OrgFiles.mem_listSubagentsOf.mpr ⟨hb, hparent⟩) with
        hmem | hmem | hrevoked
      · exact Or.inl hmem
      · exact Or.inr (Or.inl (hlate hmem))
      · exact Or.inr (Or.inr hrevoked)
    · obtain rfl := List.mem_singleton.mp hb
      exact Or.inr (Or.inl (hadded (hpending ▸ rfl) hparent))
  · intro id hid
    by_cases hold : id ∈ s.lateSubagents
    · obtain ⟨b, hb, hbid⟩ := h.lateSubagents id hold
      obtain ⟨hb, hparent⟩ := OrgFiles.mem_listSubagentsOf.mp hb
      exact ⟨b, OrgFiles.mem_listSubagentsOf.mpr ⟨List.mem_append_left _ hb, hparent⟩, hbid⟩
    · obtain ⟨hparent, hbid⟩ := hnew id hid hold
      exact ⟨binding, OrgFiles.mem_listSubagentsOf.mpr
        ⟨List.mem_append_right _ (List.mem_singleton_self _), hparent⟩, hbid⟩

/-! ## The steps of the others -/

theorem Inv.addInstanceKey [DecidableEq P] (h : Inv instanceId n s) (id pem now : JsString) :
    Inv instanceId n (s.act instanceId reason (.addInstanceKey id pem now)) := by
  rw [act]
  cases hadd : s.files.registry.addInstanceKey id pem now with
  | error error => exact h
  | ok registry =>
      rw [Registry.addInstanceKey_eq_ok hadd]
      apply h.appendKey
      · split_ifs
        · exact List.subset_append_left _ _
        · exact fun _ hmem => hmem
      · intro pem' hpem' hnew
        split_ifs at hpem' with hlate
        · rcases List.mem_append.mp hpem' with hpem' | hpem'
          · exact absurd hpem' hnew
          · exact ⟨rfl, hlate.2, List.mem_singleton.mp hpem'⟩
        · exact absurd hpem' hnew
      · intro hlisted _ hid
        rw [if_pos ⟨hlisted, hid⟩]
        exact List.mem_append_right _ (List.mem_singleton_self _)

theorem Inv.revokeInstanceKey [DecidableEq P] (h : Inv instanceId n s) (id pem now : JsString) :
    Inv instanceId n (s.act instanceId reason (.revokeInstanceKey id pem now)) := by
  rw [act]
  cases hrevoke : s.files.registry.revokeInstanceKey id pem now with
  | error error => exact h
  | ok registry =>
      rw [Registry.revokeInstanceKey_eq_ok hrevoke]
      apply h.appendKey (fun _ hmem => hmem)
      · exact fun _ hmem hnew => absurd hmem hnew
      · rintro - ⟨⟩

theorem Inv.registerSubagent [DecidableEq P] (h : Inv instanceId n s)
    (binding : H2ASubagentBinding) (now : JsString) :
    Inv instanceId n (s.act instanceId reason (.registerSubagent binding now)) := by
  rw [act]
  cases hregister : s.files.registerSubagent binding now with
  | error error => exact h
  | ok files =>
      rw [OrgFiles.registerSubagent_eq_ok hregister]
      let lateSubagents :=
        if s.pc.pendingSubagents.isSome ∧ binding.parentInstance = instanceId then
          s.lateSubagents ++ [binding.id]
        else s.lateSubagents
      have hbinding : Inv instanceId n { s with
          files := { s.files with subagents := s.files.subagents ++ [binding] }
          lateSubagents } := by
        apply h.appendBinding
        · dsimp only [lateSubagents]
          split_ifs
          · exact List.subset_append_left _ _
          · exact fun _ hmem => hmem
        · intro id hid hnew
          dsimp only [lateSubagents] at hid
          split_ifs at hid with hlate
          · rcases List.mem_append.mp hid with hid | hid
            · exact absurd hid hnew
            · exact ⟨hlate.2, (List.mem_singleton.mp hid).symm⟩
          · exact absurd hid hnew
        · intro hlisted hparent
          dsimp only [lateSubagents]
          rw [if_pos ⟨hlisted, hparent⟩]
          exact List.mem_append_right _ (List.mem_singleton_self _)
      exact hbinding.appendAudit (by rintro ⟨⟩) s.route

theorem Inv.revokeSubagent [DecidableEq P] (h : Inv instanceId n s) (id : JsString)
    (reason' : Option JsString) (now : JsString) :
    Inv instanceId n (s.act instanceId reason (.revokeSubagent id reason' now)) := by
  rw [act]
  cases hrevoke : s.files.revokeSubagent id reason' now with
  | error error => exact h
  | ok files =>
      rw [OrgFiles.revokeSubagent_eq_ok hrevoke]
      apply h.appendAudit
      rintro ⟨⟩

theorem Inv.advance [DecidableEq P] (h : Inv instanceId n s) {p : P} {now : JsString}
    {delivered : Bool} (hallowed : Allowed instanceId s (.advance p now delivered)) :
    Inv instanceId n (s.act instanceId reason (.advance p now delivered)) := by
  rw [act]
  cases hpc : s.route p with
  | recording route =>
      apply h.appendAudit
      intro _ hrevoked
      rw [hallowed route hpc] at hrevoked
      simp at hrevoked
  | _ => exact { h with safe := h.safe }

/-! ## The steps of the offboarding -/

/-- A step that writes nothing. -/
theorem Inv.goto (h : Inv instanceId n s) {pc : OffboardPc}
    (hkeys : ∀ pending, pc.pendingKeys = some pending →
      ∀ pem ∈ s.files.registry.listInstanceKeys instanceId, pem ∈ pending ∨ pem ∈ s.lateKeys)
    (hsubagents : ∀ pending, pc.pendingSubagents = some pending →
      ∀ b ∈ s.files.listSubagentsOf instanceId,
        b.id ∈ pending ∨ b.id ∈ s.lateSubagents ∨ s.files.subagentStatus b.id = .revoked)
    (hmine : Mine pc) (hpc : ∀ tombstone revoked written, pc ≠ .returned tombstone revoked written) :
    Inv instanceId n { s with pc } :=
  { h with
    keys := hkeys
    subagents := hsubagents
    mine := hmine
    safe := ⟨fun _ _ _ heq => absurd heq (hpc _ _ _), h.safe.2⟩ }

theorem Inv.throws (h : Inv instanceId n s) (error : String) :
    Inv instanceId n { s with pc := .threw error } :=
  h.goto (by rintro _ ⟨⟩) (by rintro _ ⟨⟩) trivial (by rintro _ _ _ ⟨⟩)

/-- A listed key is revoked by the call. -/
theorem Inv.revokesKey (h : Inv instanceId n s) {activeKeys : Nat} {pem now : JsString}
    {pending : List JsString} (hpc : s.pc = .revokingKeys activeKeys (pem :: pending)) :
    Inv instanceId n { s with
      files := { s.files with registry := { s.files.registry with
        keys := s.files.registry.keys ++ [⟨instanceId, pem, .revoked, now⟩] } }
      pc := .revokingKeys activeKeys pending } := by
  have hother := @Inv.appendKey _ _ _ _ h ⟨instanceId, pem, .revoked, now⟩ s.lateKeys
    (fun _ hmem => hmem) (fun _ hmem hnew => absurd hmem hnew) (by rintro - ⟨⟩)
  refine hother.goto ?_ (by rintro _ ⟨⟩) trivial (by rintro _ _ _ ⟨⟩)
  rintro _ ⟨⟩ pem' hpem'
  rcases hother.keys (pem :: pending) (congrArg OffboardPc.pendingKeys hpc) pem' hpem' with
    hmem | hlate
  · rcases List.mem_cons.mp hmem with rfl | hmem
    · exact absurd hpem' Registry.not_mem_listInstanceKeys_revoked
    · exact Or.inl hmem
  · exact Or.inr hlate

/-- A listed subagent is revoked by the call. -/
theorem Inv.revokesSubagent (h : Inv instanceId n s) {activeKeys : Nat}
    {activeSubs pending : List H2ASubagentBinding} {revoked : List JsString}
    {b : H2ASubagentBinding} {now : JsString} {reason' : Option JsString}
    (hpc : s.pc = .revokingSubagents activeKeys activeSubs revoked (b :: pending)) :
    Inv instanceId n { s with
      files := s.files.appendSubagentAudit ⟨b.id, .revoked, now, none, none, reason'⟩
      pc := .revokingSubagents activeKeys activeSubs (revoked ++ [b.id]) pending } := by
  have hother := @Inv.appendAudit _ _ _ _ h ⟨b.id, .revoked, now, none, none, reason'⟩
    (by rintro ⟨⟩) s.route
  have hkeys := h.keys
  have hmine := h.mine
  rw [hpc] at hkeys hmine
  refine hother.goto hkeys ?_ ?_ (by rintro _ _ _ ⟨⟩)
  · rintro _ ⟨⟩ b' hb'
    rcases hother.subagents ((b :: pending).map H2ASubagentBinding.id)
      (congrArg OffboardPc.pendingSubagents hpc) b' hb' with hmem | hmem
    · rcases List.mem_cons.mp hmem with heq | hmem
      · exact Or.inr (Or.inr (OrgFiles.subagentStatus_eq_revoked.mpr
          ⟨_, List.mem_append_right _ (List.mem_singleton_self _), rfl, heq.symm⟩))
      · exact Or.inl hmem
    · exact Or.inr hmem
  · rw [Mine, List.append_assoc]
    exact hmine

/-- The tombstone is written once nothing that came late is active. -/
theorem Inv.records (h : Inv instanceId n s) {tombstone : H2AOffboardTombstone}
    {revoked : List JsString} (hpc : s.pc = .recording tombstone revoked)
    (hlateKeys : ∀ pem ∈ s.lateKeys, pem ∈ s.files.registry.eventKeys instanceId .revoked)
    (hlateSubagents : ∀ id ∈ s.lateSubagents, s.files.subagentStatus id = .revoked) :
    Complete instanceId tombstone revoked
      { s.files with offboards := s.files.offboards ++ [tombstone] } := by
  have hkeys := h.keys [] (congrArg OffboardPc.pendingKeys hpc)
  have hsubagents := h.subagents [] (congrArg OffboardPc.pendingSubagents hpc)
  have hmine := h.mine
  rw [hpc] at hmine
  constructor
  · rw [List.eq_nil_iff_forall_not_mem]
    intro pem hpem
    rcases hkeys pem hpem with hmem | hlate
    · exact List.not_mem_nil hmem
    · exact (Registry.mem_listInstanceKeys.mp hpem).2 (hlateKeys pem hlate)
  · intro b hb
    rcases hsubagents b hb with hmem | hlate | hrevoked
    · exact absurd hmem List.not_mem_nil
    · exact hlateSubagents b.id hlate
    · exact hrevoked
  · exact hmine

theorem Inv.offboard [DecidableEq P] (h : Inv instanceId n s) {now : JsString}
    (hallowed : Allowed instanceId s (.offboard now)) :
    Inv instanceId n (s.act instanceId reason (.offboard now)) := by
  rw [act]
  have hkeys := h.keys
  have hsubagents := h.subagents
  have hmine := h.mine
  cases hpc : s.pc with
  | called =>
      rw [OffboardPc.advance]
      split_ifs
      · exact h.throws _
      · exact h.goto (by rintro _ ⟨⟩) (by rintro _ ⟨⟩) trivial (by rintro _ _ _ ⟨⟩)
  | listingKeys =>
      refine h.goto ?_ (by rintro _ ⟨⟩) trivial (by rintro _ _ _ ⟨⟩)
      rintro _ ⟨⟩ pem hpem
      exact Or.inl hpem
  | revokingKeys activeKeys pending =>
      rw [hpc] at hkeys
      cases pending with
      | nil => exact h.goto hkeys (by rintro _ ⟨⟩) trivial (by rintro _ _ _ ⟨⟩)
      | cons pem pending =>
          rw [OffboardPc.advance]
          cases hrevoke : s.files.registry.revokeInstanceKey instanceId pem now with
          | error error => exact h.throws error
          | ok registry =>
              rw [Registry.revokeInstanceKey_eq_ok hrevoke]
              exact h.revokesKey hpc
  | listingSubagents activeKeys =>
      rw [hpc] at hkeys
      refine h.goto hkeys ?_ trivial (by rintro _ _ _ ⟨⟩)
      rintro _ ⟨⟩ b hb
      exact Or.inl (List.mem_map_of_mem hb)
  | checkingStatus activeKeys active remaining =>
      rw [hpc] at hkeys hsubagents
      cases remaining with
      | nil =>
          refine h.goto hkeys ?_ rfl (by rintro _ _ _ ⟨⟩)
          rintro _ ⟨⟩ b hb
          rw [OffboardPc.pendingSubagents, List.append_nil] at hsubagents
          exact hsubagents _ rfl b hb
      | cons b remaining =>
          have hmoved : ∀ b' ∈ s.files.listSubagentsOf instanceId,
              b'.id ∈ ((active ++ b :: remaining).map (·.id)) ∨ b'.id ∈ s.lateSubagents ∨
                s.files.subagentStatus b'.id = .revoked := hsubagents _ rfl
          rw [OffboardPc.advance]
          split_ifs with hstatus
          · refine h.goto hkeys ?_ trivial (by rintro _ _ _ ⟨⟩)
            rintro _ ⟨⟩ b' hb'
            rw [List.append_assoc]
            exact hmoved b' hb'
          · refine h.goto hkeys ?_ trivial (by rintro _ _ _ ⟨⟩)
            rintro _ ⟨⟩ b' hb'
            rcases hmoved b' hb' with hmem | hmem
            · rw [List.map_append, List.map_cons, List.mem_append, List.mem_cons] at hmem
              rcases hmem with hmem | heq | hmem
              · exact Or.inl (List.map_append ▸ List.mem_append_left _ hmem)
              · refine Or.inr (Or.inr ?_)
                rw [heq]
                cases hcases : s.files.subagentStatus b.id with
                | active => exact absurd hcases hstatus
                | revoked => rfl
              · exact Or.inl (List.map_append ▸ List.mem_append_right _ hmem)
            · exact Or.inr hmem
  | revokingSubagents activeKeys activeSubs revoked pending =>
      rw [hpc] at hkeys hsubagents hmine
      cases pending with
      | nil =>
          refine h.goto hkeys hsubagents ?_ (by rintro _ _ _ ⟨⟩)
          rw [Mine, List.map_nil, List.append_nil] at hmine
          exact hmine
      | cons b pending =>
          rw [OffboardPc.advance]
          cases hrevoke : s.files.revokeSubagent b.id (some (reason.getD (js "offboard"))) now with
          | error error => exact h.throws error
          | ok files =>
              rw [OrgFiles.revokeSubagent_eq_ok hrevoke]
              exact h.revokesSubagent hpc
  | recording tombstone revoked =>
      obtain ⟨hlateKeys, hlateSubagents⟩ := hallowed tombstone revoked hpc
      have hcomplete := h.records hpc hlateKeys hlateSubagents
      refine { h with keys := ?_, subagents := ?_, mine := trivial, safe := ⟨?_, h.safe.2⟩ }
      · rintro _ ⟨⟩
      · rintro _ ⟨⟩
      · rintro _ _ _ ⟨⟩
        exact hcomplete
  | returned tombstone revoked written =>
      refine { h with keys := ?_, subagents := ?_, mine := trivial, safe := ⟨?_, h.safe.2⟩ }
      · rintro _ ⟨⟩
      · rintro _ ⟨⟩
      · exact fun _ _ _ heq => h.safe.1 _ _ _ (hpc.trans heq)
  | threw error => exact h.throws error

/-! ## Runs -/

theorem Inv.act [DecidableEq P] (h : Inv instanceId n s) {a : OffboardAction P}
    (hallowed : Allowed instanceId s a) : Inv instanceId n (s.act instanceId reason a) := by
  cases a with
  | offboard now => exact h.offboard hallowed
  | addInstanceKey id pem now => exact h.addInstanceKey id pem now
  | revokeInstanceKey id pem now => exact h.revokeInstanceKey id pem now
  | registerSubagent binding now => exact h.registerSubagent binding now
  | revokeSubagent id reason' now => exact h.revokeSubagent id reason' now
  | route p route =>
      rw [OffboardSystem.act]
      cases s.route p with
      | idle => exact { h with safe := h.safe }
      | _ => exact h
  | advance p now delivered => exact h.advance hallowed

/-- What came late and was not revoked again shows in the tombstone's moment. -/
theorem not_safe_of_late [DecidableEq P] (h : Inv instanceId n s) {now : JsString}
    (hallowed : ¬Allowed instanceId s (.offboard now)) :
    ¬Safe instanceId n (s.act instanceId reason (.offboard now)) := by
  simp only [Allowed, Classical.not_forall] at hallowed
  obtain ⟨tombstone, revoked, hpc, hlate⟩ := hallowed
  rintro ⟨hcomplete, -⟩
  have hreturned : (s.act instanceId reason (.offboard now)).pc = .returned tombstone revoked
      { s.files with offboards := s.files.offboards ++ [tombstone] } := by
    rw [OffboardSystem.act, hpc, OffboardPc.advance]
  obtain ⟨hkeys, hsubagents, -⟩ := hcomplete _ _ _ hreturned
  apply hlate
  constructor
  · intro pem hpem
    by_contra hactive
    have hmem : pem ∈ s.files.registry.listInstanceKeys instanceId :=
      Registry.mem_listInstanceKeys.mpr ⟨Or.inr (h.lateKeys pem hpem), hactive⟩
    exact List.not_mem_nil (hkeys ▸ hmem)
  · intro id hid
    obtain ⟨b, hb, rfl⟩ := h.lateSubagents id hid
    exact hsubagents b hb

/-- An envelope is recorded after the event that revoked its subagent. -/
theorem not_safe_of_revoked [DecidableEq P] (h : Inv instanceId n s) {p : P} {now : JsString}
    {delivered : Bool} (hallowed : ¬Allowed instanceId s (.advance p now delivered)) :
    ¬Safe instanceId n (s.act instanceId reason (.advance p now delivered)) := by
  simp only [Allowed, Classical.not_forall] at hallowed
  obtain ⟨route, hpc, hactive⟩ := hallowed
  have hrevoked : s.files.subagentStatus route.subagentId = .revoked := by
    cases hstatus : s.files.subagentStatus route.subagentId with
    | active => exact absurd hstatus hactive
    | revoked => rfl
  obtain ⟨e, he, htype, hsubagent⟩ := OrgFiles.subagentStatus_eq_revoked.mp hrevoked
  rintro ⟨-, horder⟩
  rw [OffboardSystem.act, hpc] at horder
  exact horder s.files.audit _ [] rfl h.grown rfl e he htype hsubagent

/-- Throughout a run the offboarding is complete once it has written its tombstone, and
nothing is recorded as routed to a revoked subagent, exactly when each key and subagent that
came late is revoked again before the tombstone, and no subagent is revoked between the
check of its status and the record of an envelope routed to it. -/
theorem offboard_complete_iff [DecidableEq P] (instanceId : JsString) (reason : Option JsString)
    (files : OrgFiles) (actions : List (OffboardAction P)) :
    Throughout (OffboardSystem.act instanceId reason) (Safe instanceId files.audit.length)
        (start files) actions ↔
      EachMeets (OffboardSystem.act instanceId reason) (Allowed instanceId) (start files)
        actions := by
  refine throughout_iff_eachMeets (I := Inv instanceId files.audit.length) (fun _ h => h.safe)
    (fun _ _ h hallowed => h.act hallowed) ?_ (inv_start files) actions
  intro s a h hallowed
  cases a with
  | offboard now => exact not_safe_of_late h hallowed
  | advance p now delivered => exact not_safe_of_revoked h hallowed
  | _ => exact absurd trivial hallowed

end OffboardSystem

/-! ## A key that is added too late -/

/-- One instance with one key. -/
def plainOrg : OrgFiles :=
  ⟨⟨[⟨js "claude:a", js "claude:a", [.agents], [], [js "K"]⟩], []⟩, [], [], []⟩

/-- The keys are listed, another one is added, and the offboarding goes on to its end. -/
def lateKeyRun : List (OffboardAction Unit) :=
  [.offboard (js "t"), .offboard (js "t"), .addInstanceKey (js "claude:a") (js "L") (js "t"),
    .offboard (js "t"), .offboard (js "t"), .offboard (js "t"), .offboard (js "t"),
    .offboard (js "t"), .offboard (js "t")]

theorem late_key_stays_active :
    ¬∀ (instanceId : JsString) (reason : Option JsString) (files : OrgFiles)
      (actions : List (OffboardAction Unit)),
      Throughout (OffboardSystem.act instanceId reason)
        (OffboardSystem.Safe instanceId files.audit.length) (OffboardSystem.start files)
        actions := by
  intro h
  have hsafe := (h (js "claude:a") none plainOrg lateKeyRun).last
  obtain ⟨tombstone, written, hpc, hkeys⟩ : ∃ tombstone written,
      (lateKeyRun.foldl (OffboardSystem.act (js "claude:a") none)
        (OffboardSystem.start plainOrg)).pc = .returned tombstone [] written ∧
        written.registry.listInstanceKeys (js "claude:a") = [js "L"] :=
    ⟨_, _, rfl, by decide⟩
  have hnone := (hsafe.1 _ _ _ hpc).keys
  rw [hkeys] at hnone
  simp at hnone

end H2a.LocalFiles
