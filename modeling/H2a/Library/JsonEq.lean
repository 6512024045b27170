import H2a.Library.JsObject
/-!
# Equality of JSON values

Values are compared member by member.
-/

namespace H2a.Library

namespace Json

variable {N : Type} [DecidableEq N]

/-- Whether two values are equal. -/
def same : Json N → Json N → Bool
  | .null, .null => true
  | .bool a, .bool b => a == b
  | .num m, .num n => decide (m = n)
  | .str s, .str t => decide (s = t)
  | .arr es, .arr fs => sameElements es fs
  | .obj ms, .obj ns => sameMembers ms ns
  | _, _ => false
where
  sameElements : List (Json N) → List (Json N) → Bool
    | [], [] => true
    | e :: es, f :: fs => same e f && sameElements es fs
    | _, _ => false
  sameMembers : List (JsString × Json N) → List (JsString × Json N) → Bool
    | [], [] => true
    | (k, v) :: ms, (l, w) :: ns => decide (k = l) && same v w && sameMembers ms ns
    | _, _ => false

theorem sameElements_iff (es fs : List (Json N))
    (h : ∀ e ∈ es, ∀ f, same e f = true ↔ e = f) : same.sameElements es fs = true ↔ es = fs := by
  induction es generalizing fs with
  | nil => cases fs <;> simp [same.sameElements]
  | cons e es ih =>
      cases fs with
      | nil => simp [same.sameElements]
      | cons f fs =>
          rw [same.sameElements, Bool.and_eq_true, h e List.mem_cons_self,
            ih fs fun e he => h e (List.mem_cons_of_mem _ he), List.cons.injEq]

theorem sameMembers_iff (ms ns : List (JsString × Json N))
    (h : ∀ m ∈ ms, ∀ w, same m.2 w = true ↔ m.2 = w) :
    same.sameMembers ms ns = true ↔ ms = ns := by
  induction ms generalizing ns with
  | nil => cases ns <;> simp [same.sameMembers]
  | cons m ms ih =>
      obtain ⟨k, v⟩ := m
      cases ns with
      | nil => simp [same.sameMembers]
      | cons n ns =>
          obtain ⟨l, w⟩ := n
          rw [same.sameMembers, Bool.and_eq_true, Bool.and_eq_true, decide_eq_true_eq,
            h (k, v) List.mem_cons_self, ih ns fun m hm => h m (List.mem_cons_of_mem _ hm),
            List.cons.injEq, Prod.mk.injEq]

theorem same_iff (a b : Json N) : same a b = true ↔ a = b := by
  induction a using memberwise generalizing b with
  | null => cases b <;> simp [same]
  | bool x => cases b <;> simp [same]
  | num m => cases b <;> simp [same]
  | str s => cases b <;> simp [same]
  | arr es ih =>
      cases b with
      | arr fs => rw [same, sameElements_iff es fs ih, Json.arr.injEq]
      | _ => simp [same]
  | obj ms ih =>
      cases b with
      | obj ns => rw [same, sameMembers_iff ms ns ih, Json.obj.injEq]
      | _ => simp [same]

instance : DecidableEq (Json N) := fun a b => decidable_of_iff (same a b = true) (same_iff a b)

end Json

end H2a.Library
