import Mathlib.Logic.Function.Basic
import Mathlib.Tactic.Common
import H2a.Library.Transition
/-!
# Programs on shared state, with crashes

Any number of processes act on one shared world.  An action is atomic, actions of
different processes come in any order, and a process may crash between any two of
its own.  `Script.Sat` is the weakest precondition of a script under the
interference of the others; `RelyGuarantee` collects what makes it a property of
every run.
-/

namespace H2a.Library

/-- `O` are the actions, `A o` the answers to `o` and `E` the errors. -/
inductive Script (O : Type) (A : O → Type) (E α : Type) where
  | pure (a : α)
  | throw (error : E)
  | act (o : O) (k : A o → Script O A E α)

namespace Script

variable {O E α β W : Type} {A : O → Type}

protected def bind (p : Script O A E α) (f : α → Script O A E β) : Script O A E β :=
  match p with
  | .pure a => f a
  | .throw error => .throw error
  | .act o k => .act o fun a => (k a).bind f

instance : Monad (Script O A E) where
  pure := .pure
  bind := .bind

/-- Take one action. -/
def ask (o : O) : Script O A E (A o) := .act o .pure

/-- Catch what is thrown. -/
def attempt : Script O A E α → Script O A E (Except E α)
  | .pure a => .pure (.ok a)
  | .throw error => .pure (.error error)
  | .act o k => .act o fun a => (k a).attempt

def ofExcept : Except E α → Script O A E α
  | .ok a => .pure a
  | .error error => .throw error

/-! ## What holds along every execution -/

section Sat

variable (rely : W → W → Prop) (due : W → O → Prop) (guar : W → W → Prop)
variable (effect : W → (o : O) → A o → W → Prop)

/-- `rely` is what others do to the world between two actions, `due` what is claimed
whenever an action is about to be taken, `guar` what its taking does to the world. -/
def Sat (post : W → α → Prop) (fail : W → E → Prop) : W → Script O A E α → Prop
  | w, .pure a => ∀ w', rely w w' → post w' a
  | w, .throw error => ∀ w', rely w w' → fail w' error
  | w, .act o k => ∀ w', rely w w' →
      due w' o ∧ ∀ a w'', effect w' o a w'' → guar w' w'' ∧ Sat post fail w'' (k a)

variable {rely due guar effect}
variable {post : W → α → Prop} {fail : W → E → Prop} {w : W}

theorem Sat.mono {post' : W → α → Prop} {fail' : W → E → Prop} {p : Script O A E α}
    (hpost : ∀ w a, post w a → post' w a) (hfail : ∀ w e, fail w e → fail' w e)
    (h : Sat rely due guar effect post fail w p) : Sat rely due guar effect post' fail' w p := by
  induction p generalizing w with
  | pure a => exact fun w' hw => hpost _ _ (h w' hw)
  | throw error => exact fun w' hw => hfail _ _ (h w' hw)
  | act o k ih =>
      refine fun w' hw => ⟨(h w' hw).1, fun a w'' heffect => ?_⟩
      obtain ⟨hguar, hrest⟩ := (h w' hw).2 a w'' heffect
      exact ⟨hguar, ih a hrest⟩

/-- What holds under interference holds after interference. -/
theorem Sat.stable (htrans : ∀ a b c, rely a b → rely b c → rely a c) {w' : W}
    {p : Script O A E α} (h : Sat rely due guar effect post fail w p) (hw : rely w w') :
    Sat rely due guar effect post fail w' p := by
  cases p with
  | pure a => exact fun w'' hw' => h w'' (htrans _ _ _ hw hw')
  | throw error => exact fun w'' hw' => h w'' (htrans _ _ _ hw hw')
  | act o k => exact fun w'' hw' => h w'' (htrans _ _ _ hw hw')

theorem Sat.bind (hrefl : ∀ w, rely w w) {post : W → β → Prop} {p : Script O A E α}
    {f : α → Script O A E β}
    (h : Sat rely due guar effect (fun w a => Sat rely due guar effect post fail w (f a)) fail w p) :
    Sat rely due guar effect post fail w (p >>= f) := by
  show Sat rely due guar effect post fail w (p.bind f)
  induction p generalizing w with
  | pure a => exact h w (hrefl w)
  | throw error => exact h
  | act o k ih =>
      refine fun w' hw => ⟨(h w' hw).1, fun a w'' heffect => ?_⟩
      obtain ⟨hguar, hrest⟩ := (h w' hw).2 a w'' heffect
      exact ⟨hguar, ih a hrest⟩

theorem Sat.pure {a : α} (h : ∀ w', rely w w' → post w' a) :
    Sat rely due guar effect post fail w (Pure.pure a : Script O A E α) :=
  h

theorem Sat.attempt {post : W → Except E α → Prop} {fail : W → E → Prop} {p : Script O A E α}
    (h : Sat rely due guar effect (fun w a => post w (.ok a)) (fun w e => post w (.error e)) w p) :
    Sat rely due guar effect post fail w p.attempt := by
  induction p generalizing w with
  | pure a => exact h
  | throw error => exact h
  | act o k ih =>
      refine fun w' hw => ⟨(h w' hw).1, fun a w'' heffect => ?_⟩
      obtain ⟨hguar, hrest⟩ := (h w' hw).2 a w'' heffect
      exact ⟨hguar, ih a hrest⟩

end Sat

end Script

/-! ## Processes -/

namespace Interleave

variable {P C W O E α Ch : Type} {A : O → Type}

structure System (P W O : Type) (A : O → Type) (E α : Type) where
  world : W
  running : P → Option (Script O A E α)

inductive Action (P C Ch : Type) where
  | call (p : P) (c : C)
  | act (p : P) (choice : Ch)
  | crash (p : P)

/-- The process that moves, or is struck. -/
def Action.process : Action P C Ch → P
  | .call p _ => p
  | .act p _ => p
  | .crash p => p

section Steps

variable [DecidableEq P]
variable (script : P → C → Script O A E α) (alive : W → P → Bool) (crash : P → W → W)
variable (perform : P → W → (o : O) → Ch → Option (A o × W))

/-- The process may start another call. -/
def System.idle (s : System P W O A E α) (p : P) : Bool :=
  match s.running p with
  | some (.act _ _) => false
  | _ => true

/-- The step, if it can be taken: a crashed process takes no more. -/
def step (s : System P W O A E α) : Action P C Ch → Option (System P W O A E α)
  | .call p c =>
      if alive s.world p ∧ s.idle p then
        some { s with running := Function.update s.running p (some (script p c)) }
      else none
  | .act p choice =>
      match s.running p with
      | some (.act o k) =>
          if alive s.world p then
            (perform p s.world o choice).map fun done =>
              ⟨done.2, Function.update s.running p (some (k done.1))⟩
          else none
      | _ => none
  | .crash p => some { s with world := crash p s.world }

def Step : System P W O A E α → System P W O A E α → Prop :=
  Fires (A := Action P C Ch) (step script alive crash perform)

/-- What an action answers and does, by some choice of the environment. -/
def Effect (p : P) (w : W) (o : O) (a : A o) (w' : W) : Prop :=
  ∃ choice, perform p w o choice = some (a, w')

/-! ## The rely-guarantee rule -/

/-- `rely p` is what `p` counts on others for, `guar p` what an action of `p` does and
`due p` what is claimed when `p` is about to act. -/
structure RelyGuarantee (rely guar : P → W → W → Prop) (due : P → W → O → Prop) : Prop where
  refl : ∀ p w, rely p w w
  trans : ∀ p a b c, rely p a b → rely p b c → rely p a c
  sat : ∀ p c w, alive w p →
    Script.Sat (rely p) (due p) (guar p) (Effect perform p) (fun _ _ => True) (fun _ _ => True) w
      (script p c)
  others : ∀ {p q w w'}, p ≠ q → alive w p → alive w q → guar p w w' → rely q w w'
  crashes : ∀ {p q w}, alive w q → rely q w (crash p w)
  alive_guar : ∀ {p q w w'}, guar p w w' → alive w' q → alive w q
  alive_crash : ∀ {p q w}, alive (crash p w) q → alive w q

variable {script alive crash perform}
variable {rely guar : P → W → W → Prop} {due : P → W → O → Prop}

/-- Every live process is where its script is right. -/
def Ready (alive : W → P → Bool) (perform : P → W → (o : O) → Ch → Option (A o × W))
    (rely guar : P → W → W → Prop) (due : P → W → O → Prop) (s : System P W O A E α) : Prop :=
  ∀ p q, alive s.world p → s.running p = some q →
    Script.Sat (rely p) (due p) (guar p) (Effect perform p) (fun _ _ => True) (fun _ _ => True)
      s.world q

variable {s t : System P W O A E α}

theorem Ready.act (hrules : RelyGuarantee script alive crash perform rely guar due)
    (h : Ready alive perform rely guar due s) {p : P} {o : O} {k : A o → Script O A E α} {a : A o}
    {w : W} (hrunning : s.running p = some (.act o k)) (halive : alive s.world p)
    (heffect : Effect perform p s.world o a w) :
    guar p s.world w ∧
      Ready alive perform rely guar due ⟨w, Function.update s.running p (some (k a))⟩ := by
  obtain ⟨-, hnext⟩ := h p _ halive hrunning s.world (hrules.refl p s.world)
  obtain ⟨hguar, hrest⟩ := hnext a w heffect
  refine ⟨hguar, fun q script hq hscript => ?_⟩
  have hq := hrules.alive_guar hguar hq
  by_cases hpq : q = p
  · subst hpq
    simp only [Function.update_self, Option.some.injEq] at hscript
    exact hscript ▸ hrest
  · simp only [Function.update_of_ne hpq] at hscript
    have hsat := h q script hq hscript
    exact hsat.stable (hrules.trans q) (hrules.others (Ne.symm hpq) halive hq hguar)

theorem Ready.step (hrules : RelyGuarantee script alive crash perform rely guar due)
    (h : Ready alive perform rely guar due s) (hstep : Step script alive crash perform s t) :
    Ready alive perform rely guar due t := by
  obtain ⟨a, ha⟩ := hstep
  cases a with
  | call p c =>
      simp only [Interleave.step] at ha
      split at ha
      · rename_i hcall
        obtain rfl := Option.some.inj ha
        intro q script hq hscript
        by_cases hpq : q = p
        · subst hpq
          simp only [Function.update_self, Option.some.injEq] at hscript
          exact hscript ▸ hrules.sat q c s.world hcall.1
        · simp only [Function.update_of_ne hpq] at hscript
          exact h q script hq hscript
      · simp at ha
  | act p choice =>
      simp only [Interleave.step] at ha
      split at ha
      · rename_i o k hrunning
        split at ha
        · rename_i halive
          obtain ⟨⟨a, w⟩, hdone, rfl⟩ := Option.map_eq_some_iff.mp ha
          exact (h.act hrules hrunning halive ⟨choice, hdone⟩).2
        · simp at ha
      · simp at ha
  | crash p =>
      obtain rfl := Option.some.inj ha
      intro q script hq hscript
      have hq := hrules.alive_crash hq
      exact (h q script hq hscript).stable (hrules.trans q) (hrules.crashes hq)

/-- In every state reached, what is claimed of the action a live process is about to
take holds, and taking it does what is guaranteed. -/
theorem RelyGuarantee.invariant (hrules : RelyGuarantee script alive crash perform rely guar due)
    {s₀ : System P W O A E α} (hstart : ∀ p, s₀.running p = none)
    (hrun : Reaches (Step script alive crash perform) s₀ s) {p : P} {o : O}
    {k : A o → Script O A E α} (halive : alive s.world p)
    (hrunning : s.running p = some (.act o k)) :
    due p s.world o ∧ ∀ a w, Effect perform p s.world o a w → guar p s.world w := by
  have hready : Ready alive perform rely guar due s := by
    refine hrun.invariant (I := Ready alive perform rely guar due) ?_ fun _ _ hs hst =>
      hs.step hrules hst
    intro p q _ hq
    simp [hstart p] at hq
  refine ⟨(hready p _ halive hrunning s.world (hrules.refl p s.world)).1, fun a w heffect => ?_⟩
  exact (hready.act hrules hrunning halive heffect).1

end Steps

end Interleave

end H2a.Library
