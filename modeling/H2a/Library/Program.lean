import Mathlib.Data.List.Nodup
import Mathlib.Tactic.Common
/-!
# Programs over an append-only log

A program reads a shared log without holding a lock, mints ids, asks its
environment and appends.  `Program.Sat` is the weakest precondition of a
program that others may interfere with: it says what holds of every append the
program comes to and of every value it returns.
-/

namespace H2a.Library

universe u

/-- `V` are the entries of the log, `O` the requests to append, `I` the ids,
`Q` the questions asked of the environment and `E` the errors. -/
inductive Program (V O I Q : Type) (A : Q → Type) (E : Type) (α : Type) where
  | pure (a : α)
  | throw (error : E)
  /-- a loop that never ends -/
  | diverge
  | read (k : List V → Program V O I Q A E α)
  | mint (k : I → Program V O I Q A E α)
  | ask (q : Q) (k : A q → Program V O I Q A E α)
  /-- the continuation receives the entries the append returned -/
  | append (request : O) (k : List V → Program V O I Q A E α)

namespace Program

variable {V O I Q E α β : Type} {A : Q → Type}

protected def bind (p : Program V O I Q A E α) (f : α → Program V O I Q A E β) :
    Program V O I Q A E β :=
  match p with
  | .pure a => f a
  | .throw error => .throw error
  | .diverge => .diverge
  | .read k => .read fun log => (k log).bind f
  | .mint k => .mint fun id => (k id).bind f
  | .ask q k => .ask q fun a => (k a).bind f
  | .append request k => .append request fun entries => (k entries).bind f

instance : Monad (Program V O I Q A E) where
  pure := .pure
  bind := .bind

/-- Run a pure computation that may throw. -/
def ofExcept (x : Except E α) : Program V O I Q A E α :=
  match x with
  | .ok a => .pure a
  | .error error => .throw error

/-! ## What holds along every execution -/

section Sat

variable (R : List V → List V → Prop) (Done : List V → O → List V → List V → Prop)
variable (request : List V → List I → O → Prop)

/-- `view` is a log the program knows to lie behind the current one, `minted` the
ids it has minted since its last append.  `R` is what others may do to the log
between two steps, `Done log o entries log'` that performing `o` on `log` returns
`entries` and leaves `log'`. -/
def Sat (post : List V → List I → α → Prop) : List V → List I → Program V O I Q A E α → Prop
  | view, minted, .pure a => post view minted a
  | _, _, .throw _ => True
  | _, _, .diverge => True
  | view, minted, .read k => ∀ log, R view log → Sat post log minted (k log)
  | view, minted, .mint k => ∀ id, id ∉ minted → Sat post view (id :: minted) (k id)
  | view, minted, .ask _ k => ∀ a, Sat post view minted (k a)
  | view, minted, .append o k =>
      request view minted o ∧
        ∀ log entries log', R view log → Done log o entries log' → Sat post log' [] (k entries)

variable {R Done request}
variable {view : List V} {minted : List I}

theorem Sat.mono {post post' : List V → List I → α → Prop}
    {request' : List V → List I → O → Prop} {p : Program V O I Q A E α}
    (hreq : ∀ v m o, request v m o → request' v m o)
    (hpost : ∀ v m a, post v m a → post' v m a) (h : Sat R Done request post view minted p) :
    Sat R Done request' post' view minted p := by
  induction p generalizing view minted with
  | pure a => exact hpost _ _ _ h
  | throw error => trivial
  | diverge => trivial
  | read k ih => exact fun log hlog => ih log (h log hlog)
  | mint k ih => exact fun id hid => ih id (h id hid)
  | ask q k ih => exact fun a => ih a (h a)
  | append o k ih =>
      refine ⟨hreq _ _ _ h.1, fun log entries log' hlog hdone => ?_⟩
      exact ih entries (h.2 log entries log' hlog hdone)

/-- Two promises of a program hold together. -/
theorem Sat.and {post post' : List V → List I → α → Prop}
    {request' : List V → List I → O → Prop} {p : Program V O I Q A E α}
    (h : Sat R Done request post view minted p) (h' : Sat R Done request' post' view minted p) :
    Sat R Done (fun v m o => request v m o ∧ request' v m o)
      (fun v m a => post v m a ∧ post' v m a) view minted p := by
  induction p generalizing view minted with
  | pure a => exact ⟨h, h'⟩
  | throw error => trivial
  | diverge => trivial
  | read k ih => exact fun log hlog => ih log (h log hlog) (h' log hlog)
  | mint k ih => exact fun id hid => ih id (h id hid) (h' id hid)
  | ask q k ih => exact fun a => ih a (h a) (h' a)
  | append o k ih =>
      refine ⟨⟨h.1, h'.1⟩, fun log entries log' hlog hdone => ?_⟩
      exact ih entries (h.2 log entries log' hlog hdone) (h'.2 log entries log' hlog hdone)

/-- A program that stands more interference stands less. -/
theorem Sat.narrow {R' : List V → List V → Prop} {post : List V → List I → α → Prop}
    {p : Program V O I Q A E α} (hR : ∀ a b, R' a b → R a b)
    (h : Sat R Done request post view minted p) : Sat R' Done request post view minted p := by
  induction p generalizing view minted with
  | pure a => exact h
  | throw error => trivial
  | diverge => trivial
  | read k ih => exact fun log hlog => ih log (h log (hR _ _ hlog))
  | mint k ih => exact fun id hid => ih id (h id hid)
  | ask q k ih => exact fun a => ih a (h a)
  | append o k ih =>
      refine ⟨h.1, fun log entries log' hlog hdone => ?_⟩
      exact ih entries (h.2 log entries log' (hR _ _ hlog) hdone)

/-- Where others and appends only move the log forward, what a program ends on
lies after what it began on. -/
theorem Sat.later (hrefl : ∀ log, R log log) (htrans : ∀ a b c, R a b → R b c → R a c)
    (hdone : ∀ log o entries log', Done log o entries log' → R log log')
    {post : List V → List I → α → Prop} {p : Program V O I Q A E α}
    (h : Sat R Done request post view minted p) :
    Sat R Done request (fun v m a => R view v ∧ post v m a) view minted p := by
  induction p generalizing view minted with
  | pure a => exact ⟨hrefl view, h⟩
  | throw error => trivial
  | diverge => trivial
  | read k ih =>
      exact fun log hlog => (ih log (h log hlog)).mono (fun _ _ _ hr => hr)
        fun v _ _ hpost => ⟨htrans _ _ _ hlog hpost.1, hpost.2⟩
  | mint k ih => exact fun id hid => ih id (h id hid)
  | ask q k ih => exact fun a => ih a (h a)
  | append o k ih =>
      refine ⟨h.1, fun log entries log' hlog hd => ?_⟩
      refine (ih entries (h.2 log entries log' hlog hd)).mono (fun _ _ _ hr => hr) ?_
      exact fun v _ _ hpost =>
        ⟨htrans _ _ _ hlog (htrans _ _ _ (hdone _ _ _ _ hd) hpost.1), hpost.2⟩

/-- Sequencing: what follows starts from where the first part ended. -/
theorem sat_bind {post : List V → List I → β → Prop} {p : Program V O I Q A E α}
    {f : α → Program V O I Q A E β} :
    Sat R Done request post view minted (p >>= f) ↔
      Sat R Done request (fun v m a => Sat R Done request post v m (f a)) view minted p := by
  show Sat R Done request post view minted (p.bind f) ↔ _
  induction p generalizing view minted with
  | pure a => rfl
  | throw error => rfl
  | diverge => rfl
  | read k ih => exact forall_congr' fun log => imp_congr_right fun _ => ih log
  | mint k ih => exact forall_congr' fun id => imp_congr_right fun _ => ih id
  | ask q k ih => exact forall_congr' fun a => ih a
  | append o k ih =>
      refine and_congr_right fun _ => ?_
      exact forall_congr' fun log => forall_congr' fun entries => forall_congr' fun log' =>
        imp_congr_right fun _ => imp_congr_right fun _ => ih entries

theorem sat_pure {post : List V → List I → α → Prop} {a : α} :
    Sat R Done request post view minted (Pure.pure a : Program V O I Q A E α) ↔
      post view minted a :=
  Iff.rfl

theorem sat_throw {post : List V → List I → α → Prop} {error : E} :
    Sat R Done request post view minted (.throw error : Program V O I Q A E α) :=
  trivial

theorem sat_ofExcept {post : List V → List I → α → Prop} {x : Except E α} :
    Sat R Done request post view minted (ofExcept x : Program V O I Q A E α) ↔
      ∀ a, x = .ok a → post view minted a := by
  cases x with
  | ok a => simp [ofExcept, Sat]
  | error e => simp [ofExcept, Sat]

theorem sat_read {post : List V → List I → List V → Prop} :
    Sat R Done request post view minted (.read .pure : Program V O I Q A E (List V)) ↔
      ∀ log, R view log → post log minted log :=
  Iff.rfl

theorem sat_mint {post : List V → List I → I → Prop} :
    Sat R Done request post view minted (.mint .pure : Program V O I Q A E I) ↔
      ∀ id, id ∉ minted → post view (id :: minted) id :=
  Iff.rfl

theorem sat_ask {q : Q} {post : List V → List I → A q → Prop} :
    Sat R Done request post view minted (.ask q .pure : Program V O I Q A E (A q)) ↔
      ∀ a, post view minted a :=
  Iff.rfl

theorem sat_append {o : O} {post : List V → List I → List V → Prop} :
    Sat R Done request post view minted (.append o .pure : Program V O I Q A E (List V)) ↔
      request view minted o ∧
        ∀ log entries log', R view log → Done log o entries log' → post log' [] entries :=
  Iff.rfl

end Sat

end Program

end H2a.Library
