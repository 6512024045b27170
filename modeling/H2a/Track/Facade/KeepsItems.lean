import H2a.Track.Facade.Issued
/-!
# The item commands keep to the description

One lemma for each command of the facade, by its steps.
-/

namespace H2a.Track

open H2a.Library H2a.Library.Program H2a.Track.Model

variable {facade : Facade} {names : List JsString} {view : List Event} {minted : List JsString}

/-! ## The append of one event -/

theorem Keeps.mono {α : Type} {p : Prog α} {post post' : List Event → List JsString → α → Prop}
    (hpost : ∀ v m a, post v m a → post' v m a) (h : Keeps facade names post view minted p) :
    Keeps facade names post' view minted p :=
  Sat.mono (fun _ _ _ hr => hr) hpost h

theorem item_published {x : ItemId} (h : (fold view).items.has x = true) : x ∈ published view := by
  obtain ⟨item, hitem⟩ := (JsMap.has_iff _ _).mp h
  exact createdIn_sub view x ((known_fold view).items x item hitem).2

theorem decision_published {x : ItemId} (h : (fold view).decisions.has x = true) :
    x ∈ published view := by
  obtain ⟨decision, hdecision⟩ := (JsMap.has_iff _ _).mp h
  exact createdIn_sub view x ((known_fold view).decisions x decision hdecision).2.1

theorem has_of_get {V : Type} {m : JsMap JsString V} {x : JsString} {v : V}
    (h : m.get x = some v) : m.has x = true :=
  (JsMap.has_iff m x).mpr ⟨v, h⟩

/-- The last step of a command that emits one event. -/
theorem emit_child_keeps {aggregate : Aggregate} {x : Ulid} {body : EventBody}
    {post : List Event → List JsString → List Event → Prop}
    (hpart : Single (fold view) minted facade.activeClientToken ⟨aggregate, x, body⟩)
    (hids : ∀ y ∈ x :: body.ids, y ∈ published view ∨ y ∈ minted ∨ y ∈ names)
    (hparents : ∀ p ∈ body.parents, p ∈ published view ∨ p ∈ names)
    (hpost : ∀ log events log', view <+: log →
      Done log (facade.emission [⟨aggregate, x, body⟩]) events log' → post log' [] events) :
    Keeps facade names post view minted (facade.emit aggregate x body) := by
  refine ⟨⟨.single rfl hpart hparents, ⟨rfl, rfl, rfl, rfl⟩, fun part hmem => ?_⟩, hpost⟩
  obtain rfl := List.mem_singleton.mp hmem
  exact hids

theorem emit_keeps {aggregate : Aggregate} {x : Ulid} {body : EventBody}
    {post : List Event → List JsString → List Event → Prop}
    (hpart : Single (fold view) minted facade.activeClientToken ⟨aggregate, x, body⟩)
    (hids : ∀ y ∈ x :: body.ids, y ∈ published view ∨ y ∈ minted ∨ y ∈ names)
    (hparents : body.parents = [])
    (hpost : ∀ log events log', view <+: log →
      Done log (facade.emission [⟨aggregate, x, body⟩]) events log' → post log' [] events) :
    Keeps facade names post view minted (facade.emit aggregate x body) := by
  refine emit_child_keeps hpart hids (fun p hp => ?_) hpost
  simp [hparents] at hp

/-- The same, where what the append returns is not looked at. -/
theorem emit_unit_keeps {aggregate : Aggregate} {x : Ulid} {body : EventBody}
    (hpart : Single (fold view) minted facade.activeClientToken ⟨aggregate, x, body⟩)
    (hids : ∀ y ∈ x :: body.ids, y ∈ published view ∨ y ∈ minted ∨ y ∈ names)
    (hparents : body.parents = []) :
    Keeps facade names (fun _ _ _ => True) view minted
      (do let _ ← facade.emit aggregate x body) :=
  sat_bind.mpr (emit_keeps hpart hids hparents fun _ _ _ _ _ => trivial)

/-- An event on an item that is there, of a kind that asks for no more. -/
theorem emit_item_keeps {x : Ulid} {body : EventBody}
    (hitem : (fold view).items.has x = true)
    (hpart : Single (fold view) minted facade.activeClientToken ⟨.item, x, body⟩)
    (hids : ∀ y ∈ body.ids, y = x ∨ y ∈ published view ∨ y ∈ minted ∨ y ∈ names)
    (hparents : body.parents = []) :
    Keeps facade names (fun _ _ _ => True) view minted
      (do let _ ← facade.emit .item x body) := by
  refine emit_unit_keeps hpart (fun y hy => ?_) hparents
  have hx : x ∈ published view := item_published hitem
  rcases List.mem_cons.mp hy with rfl | hy
  · exact .inl hx
  · rcases hids y hy with rfl | hy
    · exact .inl hx
    · exact hy

/-! ## Items -/

theorem guardCycle_keeps {s : State} {itemId parentId : ItemId} :
    Keeps facade names
      (fun v m _ => v = view ∧ m = minted ∧ Facade.ancestryWalk s itemId parentId = .clear)
      view minted (Facade.guardCycle s itemId parentId) := by
  unfold Keeps Facade.guardCycle
  split
  · rename_i hwalk
    exact ⟨rfl, rfl, hwalk⟩
  · exact sat_throwDomain
  · trivial

/-- What `createItem` returns is published by then. -/
theorem createItem_keeps {input : ItemCreatedPayload}
    (hnames : ∀ x ∈ input.parentId.toList ++ input.demandId.toList,
      x ∈ published view ∨ x ∈ names) :
    Keeps facade names (fun v _ itemId => itemId ∈ published v) view minted
      (facade.createItem input) := by
  -- the part after the guard, from a log the guard has been checked on
  have hemit : ∀ log, view <+: log →
      (∀ role parentId, input.role = some role → input.parentId = some parentId →
        Facade.assertCreateNesting (fold log) role parentId = .ok ()) →
      Keeps facade names (fun v _ itemId => itemId ∈ published v) log minted (do
        let itemId ← Prog.newId
        let persisted ← facade.emit .item itemId (.itemCreated { input with
          accountable := input.accountable.map (·.trim)
          responsible := input.responsible.map (·.map (·.trim)) })
        return Facade.resultId persisted itemId) := by
    intro log hlog hguard
    unfold Keeps
    simp only [sat_bind, sat_newId, sat_pure]
    intro itemId hfresh
    refine emit_child_keeps ⟨rfl, List.mem_cons_self, hguard⟩ ?_ ?_ ?_
    · intro y hy
      rcases List.mem_cons.mp hy with rfl | hy
      · exact .inr (.inl List.mem_cons_self)
      · rcases hnames y hy with hview | hnamed
        · exact .inl (published_mono hlog hview)
        · exact .inr (.inr hnamed)
    · intro p hp
      rcases hnames p (List.mem_append_left _ hp) with hview | hnamed
      · exact .inl (published_mono hlog hview)
      · exact .inr hnamed
    · intro log' events log'' hlog' hdone
      obtain ⟨hne, hreturned⟩ := hdone.returned (List.cons_ne_nil _ _)
      obtain ⟨ev, rest, rfl⟩ := List.exists_cons_of_ne_nil hne
      refine List.mem_flatMap.mpr ⟨ev, hreturned ev List.mem_cons_self, ?_⟩
      exact List.mem_cons_self
  unfold Keeps Facade.createItem
  simp only [sat_bind, sat_ensure]
  intro hkind
  split
  · rename_i role parentId hrole hparent
    simp only [sat_bind, sat_state, sat_check]
    intro log hlog _ hguard
    refine hemit log hlog ?_
    intro role' parentId' hrole' hparent'
    obtain rfl := Option.some.inj (hrole.symm.trans hrole')
    obtain rfl := Option.some.inj (hparent.symm.trans hparent')
    exact hguard
  · rename_i hnone
    refine hemit view (List.prefix_refl _) ?_
    intro role parentId hrole hparent
    exact (hnone role parentId hrole hparent).elim

theorem reparentItem_keeps {itemId : ItemId} {parentId : Option ItemId} :
    Keeps facade names (fun _ _ _ => True) view minted (facade.reparentItem itemId parentId) := by
  unfold Keeps Facade.reparentItem
  simp only [sat_bind, sat_state, sat_require]
  intro log hlog item hitem
  split
  · refine emit_item_keeps (has_of_get hitem) ⟨rfl, item, hitem, ?_⟩ (by simp [EventBody.ids]) rfl
    intro p hp
    simp at hp
  · rename_i parentId
    simp only [sat_bind, sat_ensure, sat_require, sat_check]
    intro hne parent hparent hworkspace _ hnesting
    refine guardCycle_keeps.mono ?_
    rintro v m _ ⟨rfl, rfl, hwalk⟩
    refine emit_item_keeps (has_of_get hitem) ⟨rfl, item, hitem, ?_⟩ ?_ rfl
    · rintro p hp
      obtain rfl := Option.some.inj hp
      exact ⟨hne, ⟨parent, hparent, fun _ => hworkspace, hnesting⟩, hwalk⟩
    · simp only [EventBody.ids, Option.toList_some, List.mem_singleton]
      rintro y rfl
      exact .inr (.inl (item_published (has_of_get hparent)))

theorem restructureReparent_keeps {itemId parentId : ItemId} {planHash : JsString}
    {restructureRef : Option JsString} :
    Keeps facade names (fun _ _ _ => True) view minted
      (facade.restructureReparent itemId parentId planHash restructureRef) := by
  unfold Keeps Facade.restructureReparent
  simp only [sat_bind, sat_state, sat_require, sat_ensure, sat_check]
  intro log hlog item hitem hne parent hparent _ hnesting
  refine guardCycle_keeps.mono ?_
  rintro v m _ ⟨rfl, rfl, hwalk⟩
  refine emit_item_keeps (has_of_get hitem) ⟨rfl, item, hitem, ?_⟩ ?_ rfl
  · rintro p hp
    obtain rfl := Option.some.inj hp
    exact ⟨hne, ⟨parent, hparent, fun h => by simp at h, hnesting⟩, hwalk⟩
  · simp only [EventBody.ids, Option.toList_some, List.mem_singleton]
    rintro y rfl
    exact .inr (.inl (item_published (has_of_get hparent)))

theorem setRole_keeps {itemId : ItemId} {dest : ItemRole} {clientToken : Option JsString} :
    Keeps (facade.stamped clientToken) names (fun _ _ _ => True) view minted
      (facade.setRole itemId dest clientToken) := by
  unfold Keeps Facade.setRole
  simp only [sat_bind, sat_state, sat_require, sat_ensure, sat_check]
  intro log hlog item hitem hdest hrole _ hown _ hchildren
  exact emit_item_keeps (has_of_get hitem) ⟨rfl, hdest, item, hitem, hrole, hown, hchildren⟩
    (by simp [EventBody.ids]) rfl

theorem stampedBy_recheck (facade : Facade) (recheck : RecheckHook)
    (clientToken : Option JsString) (parts : List EventPart) :
    StampedBy (facade.stamped clientToken)
      (((facade.withDemandRecheck recheck).stamped clientToken).emission parts) := by
  cases clientToken <;> exact ⟨rfl, rfl, rfl, rfl⟩

theorem assignCode_keeps {itemId : ItemId} {code : JsString} {clientToken : Option JsString} :
    Keeps (facade.stamped clientToken) names (fun _ _ _ => True) view minted
      (facade.assignCode itemId code clientToken) := by
  unfold Keeps Facade.assignCode
  simp only [sat_bind, sat_state, sat_require, sat_ensure, sat_check]
  intro log hlog item hitem hrole hcode _ hunique
  refine ⟨⟨?_, stampedBy_recheck facade _ clientToken _, ?_⟩, fun _ _ _ _ _ => trivial⟩
  · refine .codeAssigned rfl hitem hrole ?_
    cases clientToken <;> rfl
  · intro part hpart x hx
    obtain rfl := List.mem_singleton.mp hpart
    simp only [EventPart.ids, EventBody.ids, List.mem_singleton] at hx
    exact .inl (hx ▸ item_published (has_of_get hitem))

theorem declareScope_keeps {itemId : ItemId} {scope : ScopeDecl} {clientToken : Option JsString} :
    Keeps (facade.stamped clientToken) names (fun _ _ _ => True) view minted
      (facade.declareScope itemId scope clientToken) := by
  unfold Keeps Facade.declareScope
  simp only [sat_bind, sat_state, sat_require, sat_ensure, sat_check]
  intro log hlog item hitem _ validated _
  exact emit_item_keeps (has_of_get hitem) ⟨rfl, has_of_get hitem⟩ (by simp [EventBody.ids]) rfl

theorem knownItem_keeps {itemId : ItemId} :
    Keeps facade names
      (fun v m _ => view <+: v ∧ m = minted ∧ (fold v).items.has itemId = true) view minted
      (Facade.knownItem itemId) := by
  unfold Keeps Facade.knownItem
  simp only [sat_bind, sat_state, sat_ensure]
  intro log hlog hitem
  exact ⟨hlog, trivial, hitem⟩

/-- A command that goes on from the knowledge that an item is there. -/
theorem knownItem_bind_keeps {α : Type} {itemId : ItemId} {f : Unit → Prog α}
    {post : List Event → List JsString → α → Prop}
    (h : ∀ log, view <+: log → (fold log).items.has itemId = true →
      Keeps facade names post log minted (f ())) :
    Keeps facade names post view minted (Facade.knownItem itemId >>= f) := by
  refine sat_bind.mpr (knownItem_keeps.mono ?_)
  rintro v m _ ⟨hv, rfl, hitem⟩
  exact h v hv hitem

theorem setRaci_keeps {itemId : ItemId} {update : ItemRaciUpdate}
    {clientToken : Option JsString} :
    Keeps (facade.stamped clientToken) names (fun _ _ _ => True) view minted
      (facade.setRaci itemId update clientToken) := by
  refine knownItem_bind_keeps fun log hlog hitem => ?_
  unfold Keeps
  simp only [sat_bind, sat_check, sat_ensure]
  intro accountable _ responsible _ _
  exact emit_item_keeps hitem ⟨rfl, hitem⟩ (by simp [EventBody.ids]) rfl

theorem setReportStatus_keeps {itemId : ItemId} {report : ItemReportStatus} :
    Keeps facade names (fun _ _ _ => True) view minted
      (facade.setReportStatus itemId report) := by
  refine knownItem_bind_keeps fun log hlog hitem => ?_
  unfold Keeps
  simp only [sat_bind, sat_check]
  intro _ _
  exact emit_item_keeps hitem ⟨rfl, hitem⟩ (by simp [EventBody.ids]) rfl

theorem addItemLink_keeps {itemId : ItemId} {link : Link} {clientToken : Option JsString} :
    Keeps (facade.stamped clientToken) names (fun _ _ _ => True) view minted
      (facade.addItemLink itemId link clientToken) := by
  refine knownItem_bind_keeps fun log hlog hitem => ?_
  unfold Keeps
  simp only [sat_bind, sat_check]
  intro validated _
  exact emit_item_keeps hitem ⟨rfl, hitem⟩ (by simp [EventBody.ids]) rfl

theorem assertSpecAmend_eq {amend validated : SpecAmendPayload}
    (h : assertSpecAmend amend = .ok validated) : validated = amend := by
  unfold assertSpecAmend at h
  by_cases hitem : emptyString amend.itemId = true
  · simp [hitem] at h
  by_cases hbase : emptyString amend.baseHash = true
  · simp [hitem, hbase] at h
  by_cases hresult : emptyString amend.resultHash = true
  · simp [hitem, hbase, hresult] at h
  rw [if_neg hitem, if_neg hbase, if_neg hresult] at h
  obtain ⟨_, _, hpure⟩ := bind_eq_ok_iff.mp h
  exact (Except.ok.inj hpure).symm

theorem amendSpec_keeps {itemId : ItemId} {amend : SpecAmendPayload}
    {clientToken : Option JsString}
    (hnames : ∀ x ∈ amend.decisionId.toList, x ∈ published view ∨ x ∈ names) :
    Keeps (facade.stamped clientToken) names (fun _ _ _ => True) view minted
      (facade.amendSpec itemId amend clientToken) := by
  refine knownItem_bind_keeps fun log hlog hitem => ?_
  unfold Keeps
  simp only [sat_bind, sat_check]
  intro validated hvalidated
  obtain rfl := assertSpecAmend_eq hvalidated
  refine emit_item_keeps hitem ⟨rfl, rfl, hitem⟩ ?_ rfl
  simp only [EventBody.ids, List.mem_cons]
  rintro y (rfl | hy)
  · exact .inl rfl
  · rcases hnames y hy with hview | hnamed
    · exact .inr (.inl (published_mono hlog hview))
    · exact .inr (.inr (.inr hnamed))

theorem requireItem_keeps {itemId : ItemId} :
    Keeps facade names
      (fun v m item => view <+: v ∧ m = minted ∧ (fold v).items.get itemId = some item)
      view minted (Facade.requireItem itemId) := by
  unfold Keeps Facade.requireItem
  simp only [sat_bind, sat_state, sat_require]
  intro log hlog item hitem
  exact ⟨hlog, trivial, hitem⟩

theorem setSpec_keeps {itemId : ItemId} {dest : SpecStatus} :
    Keeps facade names (fun _ _ _ => True) view minted (facade.setSpec itemId dest) := by
  unfold Keeps Facade.setSpec
  refine sat_bind.mpr (requireItem_keeps.mono ?_)
  rintro v m item ⟨hv, rfl, hitem⟩
  simp only [sat_bind, sat_check]
  intro _ _
  exact emit_item_keeps (has_of_get hitem) ⟨rfl, has_of_get hitem⟩ (by simp [EventBody.ids]) rfl

theorem resolveHandler_keeps {handler : Option ActorId} {subject : Option LeaseSubject} :
    Keeps facade names (fun v m _ => v = view ∧ m = minted) view minted
      (facade.resolveHandler handler subject) := by
  unfold Keeps Facade.resolveHandler Facade.liveLeaseHolder
  split
  · split <;> simp [sat_bind, sat_now, sat_lease, sat_pure]
  · simp [sat_bind, sat_pure]

/-- A command that goes on from a handler, whoever that is. -/
theorem resolveHandler_bind_keeps {α : Type} {handler : Option ActorId}
    {subject : Option LeaseSubject} {f : ActorId → Prog α}
    {post : List Event → List JsString → α → Prop}
    (h : ∀ handler, Keeps facade names post view minted (f handler)) :
    Keeps facade names post view minted (facade.resolveHandler handler subject >>= f) := by
  refine sat_bind.mpr (resolveHandler_keeps.mono ?_)
  rintro v m handler ⟨rfl, rfl⟩
  exact h handler

theorem startSpec_keeps {itemId : ItemId} {handler leaseId attemptId : Option JsString} :
    Keeps facade names (fun _ _ _ => True) view minted
      (facade.startSpec itemId handler leaseId attemptId) := by
  refine knownItem_bind_keeps fun log hlog hitem => ?_
  refine resolveHandler_bind_keeps fun handler => ?_
  exact emit_item_keeps hitem ⟨rfl, hitem⟩ (by simp [EventBody.ids]) rfl

theorem abandonSpec_keeps {itemId : ItemId} {handler : Option ActorId} {reason : JsString}
    {leaseId : Option JsString} :
    Keeps facade names (fun _ _ _ => True) view minted
      (facade.abandonSpec itemId handler reason leaseId) := by
  refine knownItem_bind_keeps fun log hlog hitem => ?_
  refine resolveHandler_bind_keeps fun handler => ?_
  exact emit_item_keeps hitem ⟨rfl, hitem⟩ (by simp [EventBody.ids]) rfl

theorem setRealization_keeps {itemId : ItemId} {dest : Realization} :
    Keeps facade names (fun _ _ _ => True) view minted (facade.setRealization itemId dest) := by
  unfold Keeps Facade.setRealization
  simp only [sat_bind, sat_state]
  intro log hlog
  split
  · rename_i item hitem
    simp only [sat_bind, sat_check]
    intro _ hmove
    exact emit_item_keeps (has_of_get hitem) ⟨rfl, .inl ⟨rfl, item, hitem, hmove⟩⟩
      (by simp [EventBody.ids]) rfl
  · rename_i hnone
    split
    · rename_i decision hdecision
      simp only [sat_bind, sat_check]
      intro _ hmove
      refine emit_unit_keeps ⟨rfl, .inr ⟨rfl, hnone, decision, hdecision, hmove⟩⟩ ?_ rfl
      simp only [EventBody.ids, Option.toList_none, List.mem_singleton]
      rintro y rfl
      exact .inl (decision_published (has_of_get hdecision))
    · exact sat_throwDomain

theorem assertReopenPayload_eq {reopening validated : Reopening}
    (h : assertReopenPayload reopening = .ok validated) : validated = reopening := by
  unfold assertReopenPayload at h
  split at h
  · simp at h
  · exact (Except.ok.inj h).symm

theorem reopenItem_keeps {itemId : ItemId} {reopening : Reopening}
    {clientToken : Option JsString} :
    Keeps (facade.stamped clientToken) names (fun _ _ _ => True) view minted
      (facade.reopenItem itemId reopening clientToken) := by
  unfold Keeps Facade.reopenItem
  simp only [sat_bind, sat_state]
  intro log hlog
  split
  · split <;> exact sat_throwDomain
  · rename_i item hitem
    simp only [sat_bind, sat_check]
    intro validated hvalidated closure hclosure
    obtain rfl := assertReopenPayload_eq hvalidated
    refine emit_item_keeps (has_of_get hitem) ⟨rfl, rfl, hvalidated, item, hitem, closure, hclosure⟩
      ?_ rfl
    simp [EventBody.ids]

theorem anchorRealization_keeps {itemId : ItemId} {commit : JsString}
    {reason : Option AnchorReason} {clientToken : Option JsString} :
    Keeps (facade.stamped clientToken) names (fun _ _ _ => True) view minted
      (facade.anchorRealization itemId commit reason clientToken) := by
  refine knownItem_bind_keeps fun log hlog hitem => ?_
  exact emit_item_keeps hitem ⟨rfl, hitem⟩ (by simp [EventBody.ids]) rfl

theorem assessPriority_keeps {itemId : ItemId} {inputs : WsjfInputs} :
    Keeps facade names (fun _ _ _ => True) view minted (facade.assessPriority itemId inputs) := by
  refine knownItem_bind_keeps fun log hlog hitem => ?_
  unfold Keeps
  simp only [sat_bind, sat_check, sat_now, sat_pure]
  intro score _ now
  refine emit_keeps ⟨rfl, hitem⟩ ?_ rfl fun _ _ _ _ _ => trivial
  simp only [EventBody.ids, List.mem_cons, List.mem_nil_iff, or_false, or_self]
  rintro y rfl
  exact .inl (item_published hitem)

end H2a.Track
