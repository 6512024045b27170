import Mathlib.Tactic.Common
/-!
# Computations that write one step after the other

A computation on a durable state may be cut short after any of its writes, by an error or because
its process dies.  `Durable.Safe` says what holds of every state that it may leave, and of what it
returns; a rule for each way to build a computation takes it apart.
-/

namespace H2a.Library

/-- The states after each write but the last, the state in the end, and what is returned. -/
structure Trail (σ α : Type) where
  passed : List σ
  ended : σ
  result : Except String α

/-- The state that is left when the computation is cut after some of its writes, if it is. -/
def Trail.left {σ α : Type} (trail : Trail σ α) (start : σ) (cut : Option Nat) : σ :=
  match cut with
  | none => trail.ended
  | some writes => ((start :: trail.passed)[writes]?).getD trail.ended

def Durable (σ α : Type) : Type := σ → Trail σ α

namespace Durable

variable {σ α β : Type}

protected def pure (a : α) : Durable σ α := fun s => ⟨[], s, .ok a⟩

protected def bind (x : Durable σ α) (f : α → Durable σ β) : Durable σ β := fun s =>
  let trail := x s
  match trail.result with
  | .error error => ⟨trail.passed, trail.ended, .error error⟩
  | .ok a =>
      let next := f a trail.ended
      ⟨trail.passed ++ trail.ended :: next.passed, next.ended, next.result⟩

instance : Monad (Durable σ) where
  pure := Durable.pure
  bind := Durable.bind

def fail (error : String) : Durable σ α := fun s => ⟨[], s, .error error⟩

/-- What is computed from the state, or thrown. -/
def reads (f : σ → Except String α) : Durable σ α := fun s => ⟨[], s, f s⟩

/-- One write, that throws when it is refused. -/
def write (f : σ → Except String σ) : Durable σ Unit := fun s =>
  match f s with
  | .ok t => ⟨[], t, .ok ()⟩
  | .error error => ⟨[], s, .error error⟩

/-- What a sequence returns comes from what its first part returns. -/
theorem result_of_bind {x : Durable σ α} {f : α → Durable σ β} {s : σ} {b : β}
    (h : ((x >>= f) s).result = .ok b) :
    ∃ a, (x s).result = .ok a ∧ (f a (x s).ended).result = .ok b := by
  change (Durable.bind x f s).result = .ok b at h
  simp only [Durable.bind] at h
  split at h
  · cases h
  · next a ha => exact ⟨a, ha, h⟩

/-! ## What holds of every state left -/

section Safe

variable (I : σ → Prop) (Q : α → σ → Prop)

/-- `I` holds of every state that the computation may leave, and `Q` of what it returns. -/
structure Safe (x : Durable σ α) (s : σ) : Prop where
  passed : ∀ t ∈ (x s).passed, I t
  ended : I (x s).ended
  result : ∀ a, (x s).result = .ok a → Q a (x s).ended

end Safe

variable {I : σ → Prop} {Q Q' : α → σ → Prop} {R : β → σ → Prop} {s : σ}

theorem safe_pure {a : α} (hs : I s) (hQ : Q a s) : Safe I Q (pure a : Durable σ α) s where
  passed := by
    intro t ht
    cases ht
  ended := hs
  result := by
    intro b hb
    cases hb
    exact hQ

theorem safe_fail {error : String} (hs : I s) : Safe I Q (fail error : Durable σ α) s where
  passed := by
    intro t ht
    cases ht
  ended := hs
  result := by
    intro b hb
    cases hb

theorem safe_reads {f : σ → Except String α} (hs : I s) (hQ : ∀ a, f s = .ok a → Q a s) :
    Safe I Q (reads f) s where
  passed := by
    intro t ht
    cases ht
  ended := hs
  result := hQ

theorem safe_write {f : σ → Except String σ} {Q : Unit → σ → Prop} (hs : I s)
    (hf : ∀ t, f s = .ok t → I t ∧ Q () t) : Safe I Q (write f) s := by
  unfold write
  cases h : f s with
  | ok t =>
      have ht := hf t h
      constructor <;> simp_all
  | error error => constructor <;> simp_all

theorem safe_bind {x : Durable σ α} {f : α → Durable σ β} (hx : Safe I Q x s)
    (hf : ∀ a t, I t → Q a t → Safe I R (f a) t) : Safe I R (x >>= f) s := by
  change Safe I R (Durable.bind x f) s
  cases hresult : (x s).result with
  | error error =>
      have hbind : Durable.bind x f s = ⟨(x s).passed, (x s).ended, .error error⟩ := by
        simp only [Durable.bind, hresult]
      constructor
      · rw [hbind]
        exact hx.passed
      · rw [hbind]
        exact hx.ended
      · rw [hbind]
        intro b hb
        cases hb
  | ok a =>
      have hbind : Durable.bind x f s =
          ⟨(x s).passed ++ (x s).ended :: (f a (x s).ended).passed, (f a (x s).ended).ended,
            (f a (x s).ended).result⟩ := by
        simp only [Durable.bind, hresult]
      have hnext := hf a _ hx.ended (hx.result a hresult)
      constructor
      · rw [hbind]
        intro t ht
        rcases List.mem_append.mp ht with ht | ht
        · exact hx.passed t ht
        · rcases List.mem_cons.mp ht with rfl | ht
          · exact hx.ended
          · exact hnext.passed t ht
      · rw [hbind]
        exact hnext.ended
      · rw [hbind]
        exact hnext.result

/-- The consequence rule. -/
theorem Safe.mono {x : Durable σ α} (h : Safe I Q x s) (hQ : ∀ a t, I t → Q a t → Q' a t) :
    Safe I Q' x s :=
  ⟨h.passed, h.ended, fun a ha => hQ a _ h.ended (h.result a ha)⟩

/-- Wherever a safe computation is cut, the state left meets `I`. -/
theorem Safe.left {x : Durable σ α} (h : Safe I Q x s) (hs : I s) (cut : Option Nat) :
    I ((x s).left s cut) := by
  cases cut with
  | none => exact h.ended
  | some writes =>
      rw [Trail.left]
      cases hget : (s :: (x s).passed)[writes]? with
      | none => exact h.ended
      | some t =>
          rcases List.mem_cons.mp (List.mem_of_getElem? hget) with rfl | ht
          · exact hs
          · exact h.passed t ht

end Durable

end H2a.Library
