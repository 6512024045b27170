import H2a.Library.Program
/-!
# Running a program alone

With no other writer about, a program is run by a function.  What the
environment decides (the ids, the answers, the choices an append takes) is a
stream of values the run consumes.
-/

namespace H2a.Library

namespace Program

variable {V O I Q E α β Ch : Type} {A : Q → Type}

/-- The log, and all that the environment is going to say. -/
structure World (V I Q : Type) (A : Q → Type) (Ch : Type) where
  log : List V
  ids : Nat → I
  answers : Nat → (q : Q) → A q
  choices : Nat → Ch

namespace World

/-- An id has been minted. -/
def nextId (w : World V I Q A Ch) : World V I Q A Ch := { w with ids := fun n => w.ids (n + 1) }

/-- A question has been answered. -/
def nextAnswer (w : World V I Q A Ch) : World V I Q A Ch :=
  { w with answers := fun n => w.answers (n + 1) }

/-- An append has been performed and has left `log`. -/
def write (w : World V I Q A Ch) (log : List V) : World V I Q A Ch :=
  { w with log := log, choices := fun n => w.choices (n + 1) }

@[simp] theorem nextId_log (w : World V I Q A Ch) : w.nextId.log = w.log := rfl
@[simp] theorem nextAnswer_log (w : World V I Q A Ch) : w.nextAnswer.log = w.log := rfl
@[simp] theorem write_log (w : World V I Q A Ch) (log : List V) : (w.write log).log = log := rfl
@[simp] theorem nextId_ids (w : World V I Q A Ch) (n : Nat) : w.nextId.ids n = w.ids (n + 1) := rfl
@[simp] theorem nextAnswer_ids (w : World V I Q A Ch) : w.nextAnswer.ids = w.ids := rfl
@[simp] theorem write_ids (w : World V I Q A Ch) (log : List V) : (w.write log).ids = w.ids := rfl

end World

inductive Outcome (E α : Type) where
  | returned (a : α)
  | thrown (error : E)
  | diverges
  deriving DecidableEq

section Run

variable (perform : List V → O → Ch → Except E (List V) × List V)

/-- The run: `perform log o choice` is what appending gives and the log it leaves. -/
def run : Program V O I Q A E α → World V I Q A Ch → Outcome E α × World V I Q A Ch
  | .pure a, w => (.returned a, w)
  | .throw error, w => (.thrown error, w)
  | .diverge, w => (.diverges, w)
  | .read k, w => (k w.log).run w
  | .mint k, w => (k (w.ids 0)).run w.nextId
  | .ask q k, w => (k (w.answers 0 q)).run w.nextAnswer
  | .append o k, w =>
      match perform w.log o (w.choices 0) with
      | (.ok entries, log) => (k entries).run (w.write log)
      | (.error error, log) => (.thrown error, w.write log)

/-- Run `f` on what `p` returned; a throw or an endless loop stays what it is. -/
def Outcome.andThen (x : Outcome E α × World V I Q A Ch)
    (f : α → World V I Q A Ch → Outcome E β × World V I Q A Ch) :
    Outcome E β × World V I Q A Ch :=
  match x with
  | (.returned a, w) => f a w
  | (.thrown error, w) => (.thrown error, w)
  | (.diverges, w) => (.diverges, w)

@[simp] theorem Outcome.andThen_returned (a : α) (w : World V I Q A Ch)
    (f : α → World V I Q A Ch → Outcome E β × World V I Q A Ch) :
    Outcome.andThen (.returned a, w) f = f a w := rfl

@[simp] theorem Outcome.andThen_thrown (error : E) (w : World V I Q A Ch)
    (f : α → World V I Q A Ch → Outcome E β × World V I Q A Ch) :
    Outcome.andThen (.thrown error, w) f = (.thrown error, w) := rfl

/-- What follows a run leaves the world where it is. -/
theorem Outcome.andThen_snd {x : Outcome E α × World V I Q A Ch}
    {f : α → World V I Q A Ch → Outcome E β × World V I Q A Ch} (h : ∀ a w, (f a w).2 = w) :
    (Outcome.andThen x f).2 = x.2 := by
  match x with
  | (.returned a, w) => exact h a w
  | (.thrown error, w) => rfl
  | (.diverges, w) => rfl

theorem run_bind (p : Program V O I Q A E α) (f : α → Program V O I Q A E β)
    (w : World V I Q A Ch) :
    (p >>= f).run perform w = Outcome.andThen (p.run perform w) fun a => (f a).run perform := by
  show (p.bind f).run perform w = _
  induction p generalizing w with
  | pure a => rfl
  | throw error => rfl
  | diverge => rfl
  | read k ih => exact ih w.log w
  | mint k ih => exact ih _ _
  | ask q k ih => exact ih _ _
  | append o k ih =>
      simp only [Program.bind, run]
      split
      · exact ih _ _
      · rfl

variable {perform}
variable {Done : List V → O → List V → List V → Prop} {request : List V → List I → O → Prop}
variable {post : List V → List I → α → Prop}

/-- What `Sat` promises of a run without interference: an invariant that minting,
asking and the promised appends keep holds at the end, and what is returned
meets the postcondition. -/
theorem Sat.run {Inv : World V I Q A Ch → List I → Prop}
    (hmint : ∀ w m, Inv w m → w.ids 0 ∉ m ∧ Inv w.nextId (w.ids 0 :: m))
    (hask : ∀ w m, Inv w m → Inv w.nextAnswer m)
    (hok : ∀ w m o entries log, Inv w m → request w.log m o →
      perform w.log o (w.choices 0) = (.ok entries, log) →
        Done w.log o entries log ∧ Inv (w.write log) [])
    (herror : ∀ w m o error log, Inv w m → request w.log m o →
      perform w.log o (w.choices 0) = (.error error, log) → Inv (w.write log) [])
    {p : Program V O I Q A E α} {w : World V I Q A Ch} {minted : List I}
    (hsat : Sat Eq Done request post w.log minted p) (hinv : Inv w minted) :
    ∃ m, Inv (p.run perform w).2 m ∧
      ∀ a, (p.run perform w).1 = .returned a → post (p.run perform w).2.log m a := by
  induction p generalizing w minted with
  | pure a =>
      refine ⟨minted, hinv, fun b hb => ?_⟩
      obtain rfl : a = b := by simpa [Program.run] using hb
      exact hsat
  | throw error => exact ⟨minted, hinv, fun b hb => by simp [Program.run] at hb⟩
  | diverge => exact ⟨minted, hinv, fun b hb => by simp [Program.run] at hb⟩
  | read k ih => exact ih w.log (hsat w.log rfl) hinv
  | mint k ih =>
      obtain ⟨hnew, hinv'⟩ := hmint w minted hinv
      exact ih (w.ids 0) (w := w.nextId) (hsat (w.ids 0) hnew) hinv'
  | ask q k ih => exact ih (w.answers 0 q) (w := w.nextAnswer) (hsat _) (hask w minted hinv)
  | append o k ih =>
      simp only [Program.run]
      split
      · rename_i entries log hperform
        obtain ⟨hdone, hinv'⟩ := hok w minted o entries log hinv hsat.1 hperform
        exact ih entries (w := w.write log) (hsat.2 w.log entries log rfl hdone) hinv'
      · rename_i error log hperform
        refine ⟨[], herror w minted o error log hinv hsat.1 hperform, fun a ha => ?_⟩
        simp at ha

end Run

end Program

end H2a.Library
