import H2a.Library.Result
/-!
# Planned writes

A computation that writes as it goes and may throw, as the list of its writes with its result.  A
plan is performed one write after the other, until a write is refused or the process dies.  `Wp`
says of each write what is due when its turn comes; a bind rule takes a plan apart.
-/

namespace H2a.Library

universe u

/-- `W` are the writes. -/
structure WritePlan (W : Type) (α : Type) where
  writes : List W
  result : Except String α

namespace WritePlan

variable {W α β σ : Type}

instance : Monad (WritePlan W) where
  pure a := ⟨[], .ok a⟩
  bind x f :=
    match x.result with
    | .ok a => ⟨x.writes ++ (f a).writes, (f a).result⟩
    | .error error => ⟨x.writes, .error error⟩

/-- Throw. -/
def fail (error : String) : WritePlan W α := ⟨[], .error error⟩

/-- Throw, unless a condition holds. -/
def require (c : Prop) [Decidable c] (error : String) : WritePlan W Unit :=
  if c then pure () else fail error

/-- What another computation gives or throws. -/
def ofExcept (x : Except String α) : WritePlan W α := ⟨[], x⟩

def write (w : W) : WritePlan W Unit := ⟨[w], .ok ()⟩

/-! ## Results -/

theorem result_bind (x : WritePlan W α) (f : α → WritePlan W β) :
    (x >>= f).result = x.result >>= fun a => (f a).result := by
  change (match x.result with
    | .ok a => ⟨x.writes ++ (f a).writes, (f a).result⟩
    | .error error => ⟨x.writes, .error error⟩ : WritePlan W β).result = _
  cases x.result <;> rfl

theorem writes_bind_of_ok {x : WritePlan W α} {a : α} (h : x.result = .ok a) (f : α → WritePlan W β) :
    (x >>= f).writes = x.writes ++ (f a).writes := by
  change (match x.result with
    | .ok a => ⟨x.writes ++ (f a).writes, (f a).result⟩
    | .error error => ⟨x.writes, .error error⟩ : WritePlan W β).writes = _
  rw [h]

theorem writes_bind_of_error {x : WritePlan W α} {error : String} (h : x.result = .error error)
    (f : α → WritePlan W β) : (x >>= f).writes = x.writes := by
  change (match x.result with
    | .ok a => ⟨x.writes ++ (f a).writes, (f a).result⟩
    | .error error => ⟨x.writes, .error error⟩ : WritePlan W β).writes = _
  rw [h]

/-- A plan goes on from what its first part gives. -/
theorem bind_of_ok {a : α} (f : α → WritePlan W β) : (ofExcept (.ok a) >>= f) = f a := by
  change (⟨[] ++ (f a).writes, (f a).result⟩ : WritePlan W β) = f a
  rw [List.nil_append]

theorem pure_bind (a : α) (f : α → WritePlan W β) : (pure a >>= f) = f a := bind_of_ok f

theorem require_bind_of {c : Prop} [Decidable c] (h : c) (error : String) (f : Unit → WritePlan W β) :
    (require c error >>= f) = f () := by
  rw [require, if_pos h]
  exact bind_of_ok f

theorem require_bind_of_not {c : Prop} [Decidable c] (h : ¬c) (error : String)
    (f : Unit → WritePlan W β) : (require c error >>= f) = fail error := by
  rw [require, if_neg h]
  rfl

/-! ## Plans that do not write -/

/-- A plan does not write, and what it gives is so. -/
def Quiet (post : α → Prop) (x : WritePlan W α) : Prop :=
  x.writes = [] ∧ ∀ a, x.result = .ok a → post a

/-- What becomes of a write: it does nothing and throws, it is done and throws, or the process dies
before it. -/
inductive Fault where
  | refused
  | indeterminate
  | crash

inductive Ended where
  | completed
  | threw
  | indeterminate
  | crashed
  deriving DecidableEq

/-- Perform the writes; `fault` is the number of the write that is struck. -/
def perform (apply : σ → W → Option σ) : Option (Nat × Fault) → σ → List W → σ × Ended
  | _, s, [] => (s, .completed)
  | some (0, .refused), s, _ :: _ => (s, .threw)
  | some (0, .crash), s, _ :: _ => (s, .crashed)
  | some (0, .indeterminate), s, w :: _ =>
      match apply s w with
      | none => (s, .threw)
      | some s => (s, .indeterminate)
  | fault, s, w :: ws =>
      match apply s w with
      | none => (s, .threw)
      | some s => perform apply (fault.map fun (n, kind) => (n - 1, kind)) s ws

/-! ## Along the writes -/

section Along

variable (apply : σ → W → Option σ) (due : σ → W → Prop)

/-- `due` holds of every write when its turn comes, and `R` of what all of them leave. -/
def Along (R : σ → Prop) : List W → σ → Prop
  | [], s => R s
  | w :: ws, s => due s w ∧ ∀ s', apply s w = some s' → Along R ws s'

/-- The weakest precondition of a plan: every write is due, and `post` holds at its end. -/
def Wp (post : α → σ → Prop) (s : σ) (x : WritePlan W α) : Prop :=
  Along apply due (fun s => ∀ a, x.result = .ok a → post a s) x.writes s

variable {apply due} {R R' : σ → Prop} {post post' : α → σ → Prop} {s : σ}

theorem Along.mono (h : ∀ s, R s → R' s) {ws : List W} (hws : Along apply due R ws s) :
    Along apply due R' ws s := by
  induction ws generalizing s with
  | nil => exact h s hws
  | cons w ws ih => exact ⟨hws.1, fun s' hs' => ih (hws.2 s' hs')⟩

theorem Along.append {ws vs : List W} (h : Along apply due (Along apply due R vs) ws s) :
    Along apply due R (ws ++ vs) s := by
  induction ws generalizing s with
  | nil => exact h
  | cons w ws ih => exact ⟨h.1, fun s' hs' => ih (h.2 s' hs')⟩

theorem Wp.mono (h : ∀ a s, post a s → post' a s) {x : WritePlan W α}
    (hx : Wp apply due post s x) : Wp apply due post' s x :=
  Along.mono (fun s hs a ha => h a s (hs a ha)) hx

theorem wp_pure {a : α} (h : post a s) : Wp apply due post s (pure a) := by
  intro b hb
  obtain rfl := Except.ok.inj hb
  exact h

theorem wp_fail (error : String) : Wp apply due post s (fail error) := by
  intro a ha
  cases ha

theorem wp_ofExcept {x : Except String α} (h : ∀ a, x = .ok a → post a s) :
    Wp apply due post s (ofExcept x) := h

theorem wp_write {w : W} {post : Unit → σ → Prop} (hw : due s w)
    (h : ∀ s', apply s w = some s' → post () s') : Wp apply due post s (write w) :=
  ⟨hw, fun s' hs' _ _ => h s' hs'⟩

theorem wp_bind {post : β → σ → Prop} {x : WritePlan W α} {f : α → WritePlan W β}
    (h : Wp apply due (fun a s => Wp apply due post s (f a)) s x) :
    Wp apply due post s (x >>= f) := by
  rw [Wp, result_bind]
  cases hx : x.result with
  | error error =>
      rw [writes_bind_of_error hx]
      refine Along.mono (fun s _ b hb => ?_) h
      cases hb
  | ok a =>
      rw [writes_bind_of_ok hx]
      exact Along.append (Along.mono (fun s hs => hs a hx) h)

theorem wp_map {γ : Type} {post : γ → σ → Prop} {x : WritePlan W α} {g : α → γ}
    (h : Wp apply due (fun a s => post (g a) s) s x) : Wp apply due post s (g <$> x) := by
  change Wp apply due post s (x >>= fun a => pure (g a))
  refine wp_bind (h.mono ?_)
  intro a s hpost
  exact wp_pure hpost

theorem wp_require {c : Prop} [Decidable c] {error : String} {post : Unit → σ → Prop}
    (h : c → post () s) : Wp apply due post s (require c error) := by
  rw [require]
  split_ifs with hc
  · exact wp_pure (h hc)
  · exact wp_fail error

theorem wp_require_bind {c : Prop} [Decidable c] {error : String} {post : β → σ → Prop}
    {f : Unit → WritePlan W β} (h : c → Wp apply due post s (f ())) :
    Wp apply due post s (require c error >>= f) := wp_bind (wp_require h)

/-- A first part that does not write. -/
theorem wp_quiet_bind {x : WritePlan W α} {post : β → σ → Prop} {f : α → WritePlan W β}
    (hx : x.writes = []) (h : ∀ a, x.result = .ok a → Wp apply due post s (f a)) :
    Wp apply due post s (x >>= f) := by
  refine wp_bind ?_
  rw [Wp, hx]
  exact h

theorem wp_ofExcept_bind {x : Except String α} {post : β → σ → Prop} {f : α → WritePlan W β}
    (h : ∀ a, x = .ok a → Wp apply due post s (f a)) :
    Wp apply due post s (ofExcept x >>= f) := wp_quiet_bind rfl h

/-- What every write that is due keeps, the performance keeps. -/
theorem perform_along {I : σ → Prop}
    (happly : ∀ s w s', I s → due s w → apply s w = some s' → I s') {ws : List W}
    (fault : Option (Nat × Fault)) (hs : I s) (hws : Along apply due R ws s) :
    I (perform apply fault s ws).1 := by
  induction ws generalizing fault s with
  | nil => cases fault <;> exact hs
  | cons w ws ih =>
      have hkeep (s' : σ) (h : apply s w = some s') : I s' := happly s w s' hs hws.1 h
      rw [perform.eq_def]
      split
      · exact hs
      · exact hs
      · exact hs
      case h_4 heq =>
        obtain ⟨rfl, rfl⟩ := List.cons.inj heq
        split
        · exact hs
        case h_2 s' hs' => exact hkeep s' hs'
      case h_5 heq =>
        obtain ⟨rfl, rfl⟩ := List.cons.inj heq
        split
        · exact hs
        case h_2 s' hs' => exact ih _ (hkeep s' hs') (hws.2 s' hs')

end Along

end WritePlan

end H2a.Library
