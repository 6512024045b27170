import H2a.Library.Decimal
import H2a.Track.Facade.Codes
import H2a.Track.Report.Nodes
/-!
# Where a container stands and what its label spells

The places of the forest are read off the items, without the labels: a place is a
list of ordinals, counted from 0, the innermost first.  A label spells a place: it
starts with the code of a container, or with the number of a root that has none, and
goes on with ordinals.
-/

namespace H2a.Track

open H2a.Library H2a.Track.Model

/-! ## Places -/

section Places

variable (compareIds : ItemId → ItemId → Ordering) (s : State)

/-- The containers right below an item, through items that are none. -/
def containersBelow : (fuel : Nat) → (parentId : ItemId) → Option (List ItemState)
  | 0, _ => none
  | fuel + 1, parentId => do
      let out ← (childrenOf compareIds s (some parentId)).mapM fun child =>
        if isWp child then some [child] else containersBelow fuel child.id
      return out.flatten

/-- The containers of the forest and their places. -/
inductive Stands : ItemState → List Nat → Prop
  | root {i wp} (hroot : (roots compareIds s)[i]? = some wp) : Stands wp [i]
  | under {i place parent fuel wps wp} (hparent : Stands parent place)
      (hbelow : containersBelow compareIds s fuel parent.id = some wps) (hwp : wps[i]? = some wp) :
      Stands wp (i :: place)

/-- What the number of a root without a code stands after. -/
def classOf (root : ItemState) : JsString :=
  if root.role = some .stream then js "S" else js "WP"

/-- How many numbers from `first` to `last` no code of the class claims. -/
def freeBetween (class_ : JsString) (first last : Nat) : Nat :=
  (List.range' first (last + 1 - first)).countP fun n => n ∉ claimed s class_

/-- How many roots of a class have no code. -/
def uncoded (class_ : JsString) (roots : List ItemState) : Nat :=
  roots.countP fun root => root.code.isNone && classOf root = class_

/-- No code claims `n`, and as many free numbers lead up to it as there are roots of
the class without a code up to the `i`-th one. -/
structure RootNumber (i : Nat) (root : ItemState) (n : Nat) : Prop where
  free : n ∉ claimed s (classOf root)
  rank : freeBetween s (classOf root) 1 n = uncoded (classOf root) ((roots compareIds s).take (i + 1))

/-- A label with one more ordinal. -/
def dotted (label : JsString) (i : Nat) : JsString := label ++ js "." ++ js (toString (i + 1))

/-- A text spells a place: a code that of its container, a number that of its root, and
an ordinal goes on to a container without a code. -/
inductive Spells : JsString → List Nat → Prop
  | code {wp place code} (hwp : Stands compareIds s wp place) (hcode : wp.code = some code) :
      Spells code place
  | number {i root n} (hroot : (roots compareIds s)[i]? = some root) (hcode : root.code = none)
      (hnumber : RootNumber compareIds s i root n) : Spells (classOf root ++ js (toString n)) [i]
  | ordinal {text place i wp} (htext : Spells text place)
      (hwp : Stands compareIds s wp (i :: place)) (hcode : wp.code = none) :
      Spells (dotted text i) (i :: place)

/-- A container with a code stands at one place, and no code spells the place of a
container without one. -/
structure CodesApart : Prop where
  once : ∀ wp place place', Stands compareIds s wp place → Stands compareIds s wp place' →
    wp.code ≠ none → place = place'
  undotted : ∀ text place i wp, Spells compareIds s text place →
    Stands compareIds s wp (i :: place) → wp.code = none →
      ∀ wp' place', Stands compareIds s wp' place' → wp'.code ≠ some (dotted text i)

end Places

section Determined

variable {compareIds : ItemId → ItemId → Ordering} {s : State}

theorem containersBelow_mono {fuel fuel' : Nat} {x : ItemId} {wps : List ItemState}
    (h : containersBelow compareIds s fuel x = some wps) (hle : fuel ≤ fuel') :
    containersBelow compareIds s fuel' x = some wps := by
  induction fuel generalizing fuel' x wps with
  | zero => simp [containersBelow] at h
  | succ fuel ih =>
      obtain ⟨m, rfl⟩ : ∃ m, fuel' = m + 1 := ⟨fuel' - 1, by omega⟩
      rw [containersBelow] at h ⊢
      obtain ⟨out, hout, h⟩ := Option.bind_eq_some_iff.mp h
      rw [mapM_mono (fun child _ b hb => ?_) hout]
      · exact h
      · split at hb
        · rw [if_pos ‹_›]
          exact hb
        · rw [if_neg ‹_›]
          exact ih hb (by omega)

theorem containersBelow_unique {fuel fuel' : Nat} {x : ItemId} {wps wps' : List ItemState}
    (h : containersBelow compareIds s fuel x = some wps)
    (h' : containersBelow compareIds s fuel' x = some wps') : wps = wps' := by
  have hle := containersBelow_mono h (Nat.le_max_left fuel fuel')
  rw [containersBelow_mono h' (Nat.le_max_right fuel fuel')] at hle
  exact (Option.some.inj hle).symm

/-- At a place stands one container. -/
theorem Stands.unique {wp wp' : ItemState} {place : List Nat} (h : Stands compareIds s wp place)
    (h' : Stands compareIds s wp' place) : wp = wp' := by
  induction h generalizing wp' with
  | root hroot =>
      cases h' with
      | root hroot' => exact Option.some.inj (hroot.symm.trans hroot')
      | under hparent => nomatch hparent
  | under hparent hbelow hwp ih =>
      cases h' with
      | root => nomatch hparent
      | under hparent' hbelow' hwp' =>
          obtain rfl := ih hparent'
          obtain rfl := containersBelow_unique hbelow hbelow'
          exact Option.some.inj (hwp.symm.trans hwp')

theorem Stands.place_ne_nil {wp : ItemState} {place : List Nat}
    (h : Stands compareIds s wp place) : place ≠ [] := by
  cases h <;> simp

end Determined

end H2a.Track
