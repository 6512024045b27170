import H2a.Track.Facade.Reachable
import H2a.Track.State.Aspects
/-!
# Durable codes

No two containers carry the same code, whatever races with what: the scan of the
forest is repeated under the lock, and no other command makes a container of an
item or gives it a code.
-/

namespace H2a.Track

open H2a.Library H2a.Library.Program H2a.Library.Concurrent H2a.Track.Model
open H2a.Track.Events (Sha256)

/-- Role and code of an item. -/
def labelOf (item : ItemState) : Option ItemRole × Option JsString := (item.role, item.code)

/-- No two distinct containers carry the same code. -/
def CodesUnique (s : State) : Prop :=
  ∀ x y a b, s.items.get x = some a → s.items.get y = some b →
    isRoleContainer a.role = true → isRoleContainer b.role = true →
      a.code ≠ none → a.code = b.code → x = y

theorem label_itemEdit (e : EventData) (item : ItemState) :
    labelOf (itemEdit e item) =
      match e.body with
      | .itemRoleChanged dest => (some dest, item.code)
      | .itemCodeAssigned code => (item.role, some code)
      | _ => labelOf item := by
  unfold labelOf
  rw [role_itemEdit, code_itemEdit]
  cases e.body <;> rfl

theorem assertCodeUnique_ok {s : State} {itemId : ItemId} {code : JsString}
    (h : Facade.assertCodeUnique itemId code s = .ok ()) {x : ItemId} {item : ItemState}
    (hitem : s.items.get x = some item) (hid : item.id ≠ itemId)
    (hrole : isRoleContainer item.role = true) : item.code ≠ some code := by
  intro hcode
  unfold Facade.assertCodeUnique at h
  split at h
  · simp at h
  · rename_i hnone
    have hmem : item ∈ s.items.values := (JsMap.mem_values_iff _ _).mpr ⟨x, hitem⟩
    have := List.find?_eq_none.mp hnone item hmem
    simp [hid, hcode, hrole] at this

theorem codesUnique_iff {s : State} : CodesUnique s ↔
    ∀ x y r r' code, (s.items.get x).map labelOf = some (r, some code) →
      (s.items.get y).map labelOf = some (r', some code) →
        isRoleContainer r = true → isRoleContainer r' = true → x = y := by
  constructor
  · intro h x y r r' code hx hy hr hr'
    obtain ⟨a, ha, hlabel⟩ := Option.map_eq_some_iff.mp hx
    obtain ⟨b, hb, hlabel'⟩ := Option.map_eq_some_iff.mp hy
    simp only [labelOf, Prod.mk.injEq] at hlabel hlabel'
    refine h x y a b ha hb (hlabel.1 ▸ hr) (hlabel'.1 ▸ hr') ?_ (hlabel.2.trans hlabel'.2.symm)
    rw [hlabel.2]
    exact Option.some_ne_none code
  · intro h x y a b ha hb hra hrb hcode heq
    obtain ⟨code, hsome⟩ := Option.ne_none_iff_exists'.mp hcode
    refine h x y a.role b.role code ?_ ?_ hra hrb
    · rw [ha, Option.map_some, labelOf, hsome]
    · rw [hb, Option.map_some, labelOf, ← heq, hsome]

/-- One event keeps the codes apart: a code has been looked for, and only the role of
a container changes. -/
theorem CodesUnique.step {s : State} {e : EventData} (h : CodesUnique s)
    (hids : ∀ x item, s.items.get x = some item → item.id = x)
    (hcode : ∀ code, e.body = .itemCodeAssigned code →
      Facade.assertCodeUnique e.aggregateId code s = .ok ())
    (hrole : ∀ dest, e.body = .itemRoleChanged dest →
      ∀ item, s.items.get e.aggregateId = some item → isRoleContainer item.role = true) :
    CodesUnique (applyEvent s e) := by
  have hdispose : ∀ item gate d, labelOf (dispose item gate d) = labelOf item := fun _ _ _ => rfl
  have hedit := label_itemEdit e
  rw [codesUnique_iff] at h ⊢
  intro x y r r' code hx hy hr hr'
  rw [aspect_applyEvent hdispose] at hx hy
  cases hbody : e.body with
  | itemCreated payload =>
      simp only [hbody] at hx hy
      by_cases hxe : x = e.aggregateId
      · simp [hxe, labelOf, itemOfCreated] at hx
      by_cases hye : y = e.aggregateId
      · simp [hye, labelOf, itemOfCreated] at hy
      · rw [if_neg hxe] at hx
        rw [if_neg hye] at hy
        exact h x y r r' code hx hy hr hr'
  | itemCodeAssigned assigned =>
      simp only [hbody] at hx hy
      have hunique := hcode assigned hbody
      -- no other container carries the code that is assigned
      have hother : ∀ z role, z ≠ e.aggregateId →
          (s.items.get z).map labelOf = some (role, some assigned) →
            isRoleContainer role = true → False := by
        intro z role hz hlabel hcontainer
        obtain ⟨item, hitem, heq⟩ := Option.map_eq_some_iff.mp hlabel
        simp only [labelOf, Prod.mk.injEq] at heq
        have hid : item.id ≠ e.aggregateId := by rwa [hids z item hitem]
        exact assertCodeUnique_ok hunique hitem hid (heq.1 ▸ hcontainer) heq.2
      have hself : ∀ z role, z = e.aggregateId →
          (s.items.get z).map (labelOf ∘ itemEdit e) = some (role, some code) →
            code = assigned := by
        intro z role _ hlabel
        obtain ⟨item, -, heq⟩ := Option.map_eq_some_iff.mp hlabel
        simp only [Function.comp_apply, hedit, hbody, Prod.mk.injEq, Option.some.injEq] at heq
        exact heq.2.symm
      by_cases hxe : x = e.aggregateId
      · by_cases hye : y = e.aggregateId
        · exact hxe.trans hye.symm
        · rw [if_pos hxe] at hx
          rw [if_neg hye] at hy
          obtain rfl := hself x r hxe hx
          exact (hother y r' hye hy hr').elim
      · by_cases hye : y = e.aggregateId
        · rw [if_neg hxe] at hx
          rw [if_pos hye] at hy
          obtain rfl := hself y r' hye hy
          exact (hother x r hxe hx hr).elim
        · rw [if_neg hxe] at hx
          rw [if_neg hye] at hy
          exact h x y r r' code hx hy hr hr'
  | itemRoleChanged dest =>
      simp only [hbody] at hx hy
      -- the item whose role changes was a container with that code before
      have hbefore : ∀ z role, (if z = e.aggregateId then
          (s.items.get z).map (labelOf ∘ itemEdit e) else (s.items.get z).map labelOf) =
            some (role, some code) → isRoleContainer role = true →
          ∃ role', (s.items.get z).map labelOf = some (role', some code) ∧
            isRoleContainer role' = true := by
        intro z role hz hcontainer
        by_cases hze : z = e.aggregateId
        · rw [if_pos hze] at hz
          obtain ⟨item, hitem, heq⟩ := Option.map_eq_some_iff.mp hz
          simp only [Function.comp_apply, hedit, hbody, Prod.mk.injEq] at heq
          refine ⟨item.role, ?_, hrole dest hbody item (hze ▸ hitem)⟩
          rw [hitem, Option.map_some, labelOf, heq.2]
        · rw [if_neg hze] at hz
          exact ⟨role, hz, hcontainer⟩
      obtain ⟨_, hx', hrx⟩ := hbefore x r hx hr
      obtain ⟨_, hy', hry⟩ := hbefore y r' hy hr'
      exact h x y _ _ code hx' hy' hrx hry
  | _ =>
      have hcomp : labelOf ∘ itemEdit e = labelOf := by
        funext item
        rw [Function.comp_apply, hedit, hbody]
      simp only [hbody, hcomp, ite_self] at hx hy
      exact h x y r r' code hx hy hr hr'

/-- An item that is a container stays one. -/
theorem container_persists {view log : List Event} (hfresh : Fresh log) (hview : view <+: log)
    {x : ItemId} {item : ItemState} (hitem : (fold view).items.get x = some item)
    (hrole : isRoleContainer item.role = true) {item' : ItemState}
    (hitem' : (fold log).items.get x = some item') : isRoleContainer item'.role = true := by
  have hstep : ∀ s e, x ∉ e.creates →
      (∃ found, s.items.get x = some found ∧ isRoleContainer found.role = true) →
        ∃ found, (applyEvent s e).items.get x = some found ∧
          isRoleContainer found.role = true := by
    rintro s e hx ⟨found, hfound, hcontainer⟩
    obtain ⟨found', hfound', -⟩ := item_keeps hfound hx
    refine ⟨found', hfound', ?_⟩
    have hkept := aspect_applyEvent (f := ItemState.role) (fun _ _ _ => rfl) s e x
    have hedit := role_itemEdit e found
    rw [hfound', hfound] at hkept
    cases hbody : e.body with
    | itemCreated payload =>
        simp only [hbody] at hkept
        have hne : x ≠ e.aggregateId := by simpa [EventData.creates, EventBody.creates, hbody] using hx
        rw [if_neg hne, Option.map_some, Option.map_some, Option.some.injEq] at hkept
        exact hkept ▸ hcontainer
    | itemRoleChanged dest =>
        simp only [hbody, Option.map_some, Function.comp_apply] at hkept hedit
        split at hkept
        · rw [Option.some.inj hkept, hedit]
          cases dest <;> rfl
        · exact Option.some.inj hkept ▸ hcontainer
    | _ =>
        simp only [hbody, Option.map_some, Function.comp_apply] at hkept hedit
        simp only [hedit, ite_self, Option.some.injEq] at hkept
        exact hkept ▸ hcontainer
  obtain ⟨found, hfound, hcontainer⟩ := hfresh.persists hview
    ((known_fold view).items x item hitem).2 hstep ⟨item, hitem, hrole⟩
  obtain rfl := Option.some.inj (hfound.symm.trans hitem')
  exact hcontainer

theorem CodesUnique.lands {ok : List Event → Call → Emission → Prop} {log view : List Event}
    {c : Call} {minted : List JsString} {e : Emission} {events : List Event} (hfresh : Fresh log)
    (h : CodesUnique (rawFold log)) (hlands : Lands ok log c view minted e events) :
    CodesUnique (rawFold (log ++ events)) := by
  rw [rawFold_append]
  have hids : ∀ x item, (rawFold log).items.get x = some item → item.id = x :=
    fun x item hitem => ((known_rawFold log).items x item hitem).1
  have hpersisted := hlands.events
  rcases hlands.requests.issued.parts with ⟨part, hparts, hsingle, -⟩ | ⟨itemId, code, hparts, hrecheck⟩ |
    hjoint
  · rw [hparts] at hpersisted
    obtain ⟨ev, rfl, hev⟩ := persisted_singleton hpersisted
    refine h.step hids (fun code hbody => ?_) (fun dest hbody item hitem => ?_)
    · have hpart := hev.part_body hbody (by simp)
      simp [Single, hpart] at hsingle
    · have hpart := hev.part_body hbody (by simp)
      simp only [Single, hpart] at hsingle
      obtain ⟨-, -, found, hfound, hrole, -, -⟩ := hsingle
      rw [hev.aggregateId] at hitem
      refine container_persists hfresh hlands.sees hfound ?_ hitem
      rcases hrole with hrole | hrole <;> rw [hrole] <;> rfl
  · rw [hparts] at hpersisted
    obtain ⟨ev, rfl, hev⟩ := persisted_singleton hpersisted
    obtain ⟨inputs, hunique⟩ := hlands.recheck _ hrecheck
    refine h.step hids (fun code' hbody => ?_) (fun dest hbody item hitem => ?_)
    · have hpart := hev.part_body hbody (by simp)
      rw [EventBody.itemCodeAssigned.injEq] at hpart
      subst hpart
      rw [hev.aggregateId]
      exact hunique
    · have hpart := hev.part_body hbody (by simp)
      simp at hpart
  · refine (replay_keeps (P := fun s => CodesUnique s ∧
      ∀ x item, s.items.get x = some item → item.id = x) ?_ ⟨h, hids⟩).1
    rintro s core hcore ⟨hs, hs'⟩
    obtain ⟨ev, hmem, rfl⟩ := List.mem_map.mp hcore
    obtain ⟨part, hpart, hev⟩ := persisted_mem hpersisted hmem
    have hkind := hjoint part hpart
    refine ⟨hs.step hs' (fun code hbody => ?_) (fun dest hbody => ?_), fun x item hitem => ?_⟩
    · simp [Joint, hev.part_body hbody (by simp)] at hkind
    · simp [Joint, hev.part_body hbody (by simp)] at hkind
    · rcases item_step hitem with ⟨payload, -, rfl, rfl⟩ | ⟨item', hitem', hbirth⟩
      · rfl
      · simp only [itemBirth, Prod.mk.injEq] at hbirth
        rw [hbirth.1]
        exact hs' x item' hitem'

/-- Whatever races with what, in every log reached the codes are unique. -/
theorem codesUnique_reachable {P : Type} [DecidableEq P] {contentHashOf : EventData → Sha256}
    {s : FacadeSys P}
    (hrun : Reaches (FacadeStep contentHashOf fun _ _ _ => True) Sys.initial s) :
    CodesUnique (fold s.log) := by
  refine (reachable_invariant (G := fun log => CodesUnique (rawFold log)) ?_ ?_ hrun).2
  · intro x y a b ha
    simp [rawFold, cores, emptyState] at ha
  · exact fun hfresh h hlands => h.lands hfresh hlands

/-- Two processes give two containers the same code at once: both scans pass, and the
second append is refused. -/
def codeRace : Schedule Bool :=
  createOf false 0 (js "x") (some .workpackage) ++ createOf false 1 (js "y") (some .stream) ++
    [callOf false (.assignCode (js "x") (js "WP1") none),
      callOf true (.assignCode (js "y") (js "WP1") none), .read false, .read true,
      .append false (.nth 2), .append true (.nth 3)]

theorem codesUnique_reachable_codeRace :
    ∃ s : FacadeSys Bool, (fold s.log).items.values.map (·.code) = [some (js "WP1"), none] ∧
      CodesUnique (fold s.log) := by
  have hrun : outcome (fun _ _ _ => True) codeRace
      (fun log => (fold log).items.values.map (·.code)) = some [some (js "WP1"), none] := by
    decide +kernel
  obtain ⟨s, hreached, hcodes⟩ := reached_of_outcome hrun
  exact ⟨s, hcodes, codesUnique_reachable hreached⟩

end H2a.Track
