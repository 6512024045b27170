import Mathlib.Logic.Function.Basic
import H2a.Library.Program
import H2a.Library.Transition
/-!
# Programs running side by side

Any number of processes call programs against one log.  A step is one effect of
one process; an append is atomic.  Ids are fresh and cannot be guessed: a minted
id was never seen before, and a call names a minted id only once it is published
in the log.  `Discipline.invariant` is the rely-guarantee rule: what every append
establishes of the log, and every program keeps to, holds in every state reached.
-/

namespace H2a.Library

open Program

namespace Concurrent

variable {P C V O I Q E α Ch : Type} {A : Q → Type}

/-- A program that will do nothing more. -/
def ended : Program V O I Q A E α → Bool
  | .pure _ => true
  | .throw _ => true
  | _ => false

/-- The state of the processes `P` making calls `C`. -/
structure Sys (P C V O I Q : Type) (A : Q → Type) (E α : Type) where
  log : List V
  /-- every id minted so far -/
  minted : List I
  /-- every id a call has named -/
  named : List I
  /-- the ids a process has minted since its last append -/
  fresh : P → List I
  running : P → Option (C × Program V O I Q A E α)
  /-- the appends performed, each with the call it was made by and what it added -/
  history : List (C × List V)

/-- One step of one process, with what the environment decides. -/
inductive Action (P C I Q : Type) (A : Q → Type) (Ch : Type) where
  | call (p : P) (c : C)
  | read (p : P)
  | mint (p : P) (id : I)
  | answer (p : P) (a : (q : Q) → A q)
  | append (p : P) (choice : Ch)

section System

variable [DecidableEq P] [DecidableEq I]
variable (prog : C → Program V O I Q A E α) (names : C → List I) (published : List V → List I)
variable (perform : List V → O → Ch → Except E (List V) × List V)

/-- Nothing runs, everything is still to be written. -/
def Sys.initial : Sys P C V O I Q A E α :=
  ⟨[], [], [], fun _ => [], fun _ => none, []⟩

/-- The process may start another call. -/
def Sys.idle (s : Sys P C V O I Q A E α) (p : P) : Bool :=
  match s.running p with
  | none => true
  | some (_, q) => ended q

/-- The append a process has come to, with its call. -/
def Sys.pending (s : Sys P C V O I Q A E α) (p : P) : Option (C × O) :=
  match s.running p with
  | some (c, .append o _) => some (c, o)
  | _ => none

/-- What process `p` goes on with. -/
def Sys.become (s : Sys P C V O I Q A E α) (p : P) (c : C) (q : Program V O I Q A E α) :
    Sys P C V O I Q A E α :=
  { s with running := Function.update s.running p (some (c, q)) }

/-- The step, if it can be taken. -/
def step (s : Sys P C V O I Q A E α) : Action P C I Q A Ch → Option (Sys P C V O I Q A E α)
  | .call p c =>
      if s.idle p ∧ ∀ x ∈ names c, x ∈ s.minted → x ∈ published s.log then
        some { s.become p c (prog c) with
          named := names c ++ s.named
          fresh := Function.update s.fresh p [] }
      else none
  | .read p =>
      match s.running p with
      | some (c, .read k) => some (s.become p c (k s.log))
      | _ => none
  | .mint p x =>
      match s.running p with
      | some (c, .mint k) =>
          if x ∉ s.minted ∧ x ∉ s.named ∧ x ∉ published s.log then
            some { s.become p c (k x) with
              minted := x :: s.minted
              fresh := Function.update s.fresh p (x :: s.fresh p) }
          else none
      | _ => none
  | .answer p a =>
      match s.running p with
      | some (c, .ask q k) => some (s.become p c (k (a q)))
      | _ => none
  | .append p choice =>
      match s.running p with
      | some (c, .append o k) =>
          let result := perform s.log o choice
          let next := match result.1 with
            | .ok entries => k entries
            | .error error => .throw error
          some { s.become p c next with
            log := result.2
            fresh := Function.update s.fresh p []
            history := s.history ++ [(c, result.2.drop s.log.length)] }
      | _ => none

/-- A step whose append, if it is one that writes, meets `ok` on the log it is taken
in. -/
def Step (ok : List V → C → O → Prop) (s t : Sys P C V O I Q A E α) : Prop :=
  ∃ a : Action P C I Q A Ch, step prog names published perform s a = some t ∧
    ∀ p choice c o, a = .append p choice → s.pending p = some (c, o) → t.log ≠ s.log →
      ok s.log c o

/-- The append that is due in a step, if it is one, meets `ok`. -/
def meets (ok : List V → C → O → Prop) [∀ log c o, Decidable (ok log c o)]
    (s : Sys P C V O I Q A E α) (a : Action P C I Q A Ch) : Bool :=
  match a with
  | .append p _ => (s.pending p).all fun due => decide (ok s.log due.1 due.2)
  | _ => true

/-- Take the listed steps, as long as their appends meet `ok`. -/
def runs (ok : List V → C → O → Prop) [∀ log c o, Decidable (ok log c o)] :
    List (Action P C I Q A Ch) → Sys P C V O I Q A E α → Option (Sys P C V O I Q A E α)
  | [], s => some s
  | a :: rest, s =>
      if meets ok s a then (step prog names published perform s a).bind (runs ok rest) else none

variable {prog names published perform}
variable {ok : List V → C → O → Prop} [∀ log c o, Decidable (ok log c o)]

theorem reaches_of_runs {actions : List (Action P C I Q A Ch)} {s t : Sys P C V O I Q A E α}
    (h : runs prog names published perform ok actions s = some t) :
    Reaches (Step (P := P) prog names published perform ok) s t := by
  induction actions generalizing s with
  | nil =>
      obtain rfl : s = t := by simpa [runs] using h
      exact .refl
  | cons a rest ih =>
      unfold runs at h
      split at h
      · rename_i hmeets
        obtain ⟨s', hs', ht⟩ := Option.bind_eq_some_iff.mp h
        refine (Relation.ReflTransGen.single ⟨a, hs', ?_⟩).trans (ih ht)
        rintro p choice c o rfl hpending -
        simpa [meets, hpending] using hmeets
      · simp at h

omit [∀ log c o, Decidable (ok log c o)] in
/-- A step that meets a condition meets every weaker one. -/
theorem Step.mono {ok' : List V → C → O → Prop} (hok : ∀ log c o, ok log c o → ok' log c o)
    {s t : Sys P C V O I Q A E α} (h : Step prog names published perform ok s t) :
    Step prog names published perform ok' s t := by
  obtain ⟨a, ha, hmeets⟩ := h
  refine ⟨a, ha, fun p choice c o haction hpending hnew => ?_⟩
  exact hok _ _ _ (hmeets p choice c o haction hpending hnew)

omit [∀ log c o, Decidable (ok log c o)] in
/-- A step leaves the log as it is, or performs an append on it. -/
theorem Step.log_eq {s t : Sys P C V O I Q A E α} (h : Step prog names published perform ok s t) :
    t.log = s.log ∨ ∃ o choice, t.log = (perform s.log o choice).2 := by
  obtain ⟨a, ha, -⟩ := h
  cases a with
  | append p choice =>
      simp only [step] at ha
      split at ha
      · rename_i c o k hrunning
        obtain rfl := Option.some.inj ha
        exact .inr ⟨o, choice, rfl⟩
      · simp at ha
  | mint p id =>
      simp only [step] at ha
      split at ha
      · split at ha
        · obtain rfl := Option.some.inj ha
          exact .inl rfl
        · simp at ha
      · simp at ha
  | call p c | read p | answer p a =>
      simp only [step] at ha
      split at ha
      · obtain rfl := Option.some.inj ha
        exact .inl rfl
      · simp at ha

omit [∀ log c o, Decidable (ok log c o)] in
/-- What every append keeps holds of every log reached. -/
theorem reached_log {G : List V → Prop} (hnil : G [])
    (hperform : ∀ log o choice, G log → G (perform log o choice).2)
    {s : Sys P C V O I Q A E α}
    (hrun : Reaches (Step (P := P) prog names published perform ok) .initial s) : G s.log := by
  refine hrun.invariant (I := fun s => G s.log) hnil fun s t hs hst => ?_
  rcases hst.log_eq with heq | ⟨o, choice, heq⟩
  · exact heq ▸ hs
  · exact heq ▸ hperform s.log o choice hs

end System

/-! ## The rely-guarantee rule -/

section Discipline

variable (prog : C → Program V O I Q A E α) (names : C → List I) (published : List V → List I)
variable (perform : List V → O → Ch → Except E (List V) × List V)

/-- `rely c` is what a call counts on others to do to the log, `request c` what it
promises of its appends, `good` what is claimed of the log and its history. -/
structure Discipline (P : Type) (rely : C → List V → List V → Prop)
    (Done : List V → O → List V → List V → Prop) (request : C → List V → List I → O → Prop)
    (ok : List V → C → O → Prop) (good : List V → List (C × List V) → Prop) : Prop where
  refl : ∀ c log, rely c log log
  sat : ∀ c log, Sat (rely c) Done (request c) (fun _ _ _ => True) log [] (prog c)
  done : ∀ {log o choice entries log'}, perform log o choice = (.ok entries, log') →
    Done log o entries log'
  good_nil : good [] []
  /-- An append publishes nothing but ids its call had named or minted. -/
  publish : ∀ {log history c view minted o choice x}, good log history → rely c view log →
    request c view minted o → x ∈ published (perform log o choice).2 →
      x ∈ published log ∨ x ∈ minted ∨ x ∈ names c
  keep : ∀ {log history c view minted o choice}, good log history → rely c view log →
    request c view minted o → ((perform log o choice).2 ≠ log → ok log c o) → minted.Nodup →
    (∀ x ∈ minted, x ∉ published log ∧ x ∉ names c) →
      good (perform log o choice).2
        (history ++ [(c, (perform log o choice).2.drop log.length)])
  /-- What one process appends the others may count on; none of the calls under way
  has named an id this append has minted. -/
  guarantee : ∀ {log history c view minted o choice c' view'}, ¬Subsingleton P →
    good log history → rely c view log → request c view minted o →
    ((perform log o choice).2 ≠ log → ok log c o) → minted.Nodup →
    (∀ x ∈ minted, x ∉ published log ∧ x ∉ names c') → rely c' view' log →
      rely c' view' (perform log o choice).2

variable {prog names published perform}
variable {rely : C → List V → List V → Prop}
variable {Done : List V → O → List V → List V → Prop}
variable {request : C → List V → List I → O → Prop}
variable {ok : List V → C → O → Prop} {good : List V → List (C × List V) → Prop}

/-- What holds between steps. -/
structure Ready (names : C → List I) (published : List V → List I)
    (rely : C → List V → List V → Prop) (Done : List V → O → List V → List V → Prop)
    (request : C → List V → List I → O → Prop) (good : List V → List (C × List V) → Prop)
    (s : Sys P C V O I Q A E α) : Prop where
  good : good s.log s.history
  running : ∀ p c q, s.running p = some (c, q) → ∃ view,
    Sat (rely c) Done (request c) (fun _ _ _ => True) view (s.fresh p) q ∧ rely c view s.log ∧
      ∀ x ∈ names c, x ∈ s.named
  nodup : ∀ p, (s.fresh p).Nodup
  fresh : ∀ p, ∀ x ∈ s.fresh p, x ∈ s.minted ∧ x ∉ s.named ∧ x ∉ published s.log
  apart : ∀ p p', p ≠ p' → ∀ x ∈ s.fresh p, x ∉ s.fresh p'

variable [DecidableEq P]
variable {s t : Sys P C V O I Q A E α}

/-- A step that touches neither the log nor the ids. -/
theorem Ready.become (h : Ready names published rely Done request good s) {p : P} {c : C}
    {q : Program V O I Q A E α} {view : List V}
    (hsat : Sat (rely c) Done (request c) (fun _ _ _ => True) view (s.fresh p) q)
    (hview : rely c view s.log) (hnames : ∀ x ∈ names c, x ∈ s.named) :
    Ready names published rely Done request good (s.become p c q) where
  good := h.good
  nodup := h.nodup
  fresh := h.fresh
  apart := h.apart
  running p' c' q' hrunning := by
    by_cases hp : p' = p
    · subst hp
      simp only [Sys.become, Function.update_self, Option.some.injEq, Prod.mk.injEq] at hrunning
      obtain ⟨rfl, rfl⟩ := hrunning
      exact ⟨view, hsat, hview, hnames⟩
    · refine h.running p' c' q' ?_
      simpa only [Sys.become, Function.update_of_ne hp] using hrunning

theorem Ready.call (hdisc : Discipline prog names published perform P rely Done request ok good)
    (h : Ready names published rely Done request good s) {p : P} {c : C}
    (hnames : ∀ x ∈ names c, x ∈ s.minted → x ∈ published s.log) :
    Ready names published rely Done request good { s.become p c (prog c) with
      named := names c ++ s.named
      fresh := Function.update s.fresh p [] } where
  good := h.good
  nodup p' := by
    by_cases hp : p' = p
    · subst hp
      simp
    · simpa only [Function.update_of_ne hp] using h.nodup p'
  fresh p' x hx := by
    by_cases hp : p' = p
    · subst hp
      simp at hx
    · simp only [Function.update_of_ne hp] at hx
      obtain ⟨hminted, hnamed, hpublished⟩ := h.fresh p' x hx
      refine ⟨hminted, ?_, hpublished⟩
      simp only [List.mem_append, not_or]
      exact ⟨fun hc => hpublished (hnames x hc hminted), hnamed⟩
  apart p₁ p₂ hne x hx := by
    by_cases hp₁ : p₁ = p
    · subst hp₁
      simp at hx
    · simp only [Function.update_of_ne hp₁] at hx
      by_cases hp₂ : p₂ = p
      · subst hp₂
        simp
      · simpa only [Function.update_of_ne hp₂] using h.apart p₁ p₂ hne x hx
  running p' c' q' hrunning := by
    by_cases hp : p' = p
    · subst hp
      simp only [Sys.become, Function.update_self, Option.some.injEq, Prod.mk.injEq] at hrunning
      obtain ⟨rfl, rfl⟩ := hrunning
      refine ⟨s.log, ?_, hdisc.refl c s.log, fun x hx => List.mem_append_left _ hx⟩
      simpa only [Function.update_self] using hdisc.sat c s.log
    · simp only [Sys.become, Function.update_of_ne hp] at hrunning
      obtain ⟨view, hsat, hview, hnamed⟩ := h.running p' c' q' hrunning
      refine ⟨view, ?_, hview, fun x hx => List.mem_append_right _ (hnamed x hx)⟩
      simpa only [Function.update_of_ne hp] using hsat

theorem Ready.mint (h : Ready names published rely Done request good s) {p : P} {c : C}
    {k : I → Program V O I Q A E α} {x : I} (hrunning : s.running p = some (c, .mint k))
    (hnew : x ∉ s.minted ∧ x ∉ s.named ∧ x ∉ published s.log) :
    Ready names published rely Done request good { s.become p c (k x) with
      minted := x :: s.minted
      fresh := Function.update s.fresh p (x :: s.fresh p) } where
  good := h.good
  nodup p' := by
    by_cases hp : p' = p
    · subst hp
      simp only [Function.update_self, List.nodup_cons]
      exact ⟨fun hx => hnew.1 (h.fresh p' x hx).1, h.nodup p'⟩
    · simpa only [Function.update_of_ne hp] using h.nodup p'
  fresh p' y hy := by
    by_cases hp : p' = p
    · subst hp
      simp only [Function.update_self, List.mem_cons] at hy
      rcases hy with rfl | hy
      · exact ⟨List.mem_cons_self, hnew.2.1, hnew.2.2⟩
      · obtain ⟨hminted, hrest⟩ := h.fresh p' y hy
        exact ⟨List.mem_cons_of_mem _ hminted, hrest⟩
    · simp only [Function.update_of_ne hp] at hy
      obtain ⟨hminted, hrest⟩ := h.fresh p' y hy
      exact ⟨List.mem_cons_of_mem _ hminted, hrest⟩
  apart p₁ p₂ hne y hy := by
    -- `x` is in no process's list, since those are all minted already
    have hx : ∀ p', x ∉ s.fresh p' := fun p' hmem => hnew.1 (h.fresh p' x hmem).1
    by_cases hp₁ : p₁ = p
    · subst hp₁
      simp only [Function.update_of_ne hne.symm]
      simp only [Function.update_self, List.mem_cons] at hy
      rcases hy with rfl | hy
      · exact hx p₂
      · exact h.apart p₁ p₂ hne y hy
    · simp only [Function.update_of_ne hp₁] at hy
      by_cases hp₂ : p₂ = p
      · subst hp₂
        simp only [Function.update_self, List.mem_cons, not_or]
        refine ⟨?_, h.apart p₁ p₂ hne y hy⟩
        rintro rfl
        exact hx p₁ hy
      · simpa only [Function.update_of_ne hp₂] using h.apart p₁ p₂ hne y hy
  running p' c' q' hrunning' := by
    by_cases hp : p' = p
    · subst hp
      simp only [Sys.become, Function.update_self, Option.some.injEq, Prod.mk.injEq] at hrunning'
      obtain ⟨rfl, rfl⟩ := hrunning'
      obtain ⟨view, hsat, hview, hnamed⟩ := h.running p' c _ hrunning
      refine ⟨view, ?_, hview, hnamed⟩
      simp only [Function.update_self]
      exact hsat x fun hx => hnew.1 (h.fresh p' x hx).1
    · simp only [Sys.become, Function.update_of_ne hp] at hrunning'
      obtain ⟨view, hsat, hview, hnamed⟩ := h.running p' c' q' hrunning'
      refine ⟨view, ?_, hview, hnamed⟩
      simpa only [Function.update_of_ne hp] using hsat

theorem Ready.append (hdisc : Discipline prog names published perform P rely Done request ok good)
    (h : Ready names published rely Done request good s) {p : P} {c : C} {o : O} {choice : Ch}
    {k : List V → Program V O I Q A E α} {next : Program V O I Q A E α}
    (hrunning : s.running p = some (c, .append o k))
    (hok : (perform s.log o choice).2 ≠ s.log → ok s.log c o)
    (hnext : next = match (perform s.log o choice).1 with
      | .ok entries => k entries
      | .error error => .throw error) :
    Ready names published rely Done request good { s.become p c next with
      log := (perform s.log o choice).2
      fresh := Function.update s.fresh p []
      history := s.history ++ [(c, (perform s.log o choice).2.drop s.log.length)] } := by
  obtain ⟨view, hsat, hview, hnamed⟩ := h.running p c _ hrunning
  have hnodup := h.nodup p
  have hpublish : ∀ x, x ∈ published (perform s.log o choice).2 →
      x ∈ published s.log ∨ x ∈ s.fresh p ∨ x ∈ names c :=
    fun x hx => hdisc.publish h.good hview hsat.1 hx
  refine ⟨?_, ?_, fun p' => ?_, fun p' x hx => ?_, fun p₁ p₂ hne x hx => ?_⟩
  · refine hdisc.keep h.good hview hsat.1 hok hnodup fun x hx => ?_
    obtain ⟨-, hnew, hunpublished⟩ := h.fresh p x hx
    exact ⟨hunpublished, fun hc => hnew (hnamed x hc)⟩
  · intro p' c' q' hrunning'
    by_cases hp : p' = p
    · subst hp
      simp only [Sys.become, Function.update_self, Option.some.injEq, Prod.mk.injEq] at hrunning'
      obtain ⟨rfl, rfl⟩ := hrunning'
      refine ⟨(perform s.log o choice).2, ?_, hdisc.refl c _, hnamed⟩
      simp only [Function.update_self, hnext]
      split
      · rename_i entries hentries
        exact hsat.2 s.log entries _ hview (hdisc.done (Prod.ext hentries rfl))
      · trivial
    · simp only [Sys.become, Function.update_of_ne hp] at hrunning'
      obtain ⟨view', hsat', hview', hnamed'⟩ := h.running p' c' q' hrunning'
      refine ⟨view', by simpa only [Function.update_of_ne hp] using hsat', ?_, hnamed'⟩
      have hother : ¬Subsingleton P := fun hsub => hp (Subsingleton.elim p' p)
      refine hdisc.guarantee hother h.good hview hsat.1 hok hnodup (fun x hx => ?_) hview'
      obtain ⟨-, hnew, hunpublished⟩ := h.fresh p x hx
      exact ⟨hunpublished, fun hc => hnew (hnamed' x hc)⟩
  · by_cases hp : p' = p
    · subst hp
      simp
    · simpa only [Function.update_of_ne hp] using h.nodup p'
  · by_cases hp : p' = p
    · subst hp
      simp at hx
    · simp only [Function.update_of_ne hp] at hx
      obtain ⟨hminted, hnew, hunpublished⟩ := h.fresh p' x hx
      refine ⟨hminted, hnew, fun hlog => ?_⟩
      rcases hpublish x hlog with hlog | hfresh | hc
      · exact hunpublished hlog
      · exact h.apart p' p hp x hx hfresh
      · exact hnew (hnamed x hc)
  · by_cases hp₁ : p₁ = p
    · subst hp₁
      simp at hx
    · simp only [Function.update_of_ne hp₁] at hx
      by_cases hp₂ : p₂ = p
      · subst hp₂
        simp
      · simpa only [Function.update_of_ne hp₂] using h.apart p₁ p₂ hne x hx

variable [DecidableEq I]

theorem Ready.step (hdisc : Discipline prog names published perform P rely Done request ok good)
    (h : Ready names published rely Done request good s)
    (hstep : Step prog names published perform ok s t) :
    Ready names published rely Done request good t := by
  obtain ⟨a, ha, hok⟩ := hstep
  cases a with
  | call p c =>
      simp only [Concurrent.step] at ha
      split at ha
      · rename_i hcall
        obtain rfl := Option.some.inj ha
        exact h.call hdisc hcall.2
      · simp at ha
  | read p =>
      simp only [Concurrent.step] at ha
      split at ha
      · rename_i c k hrunning
        obtain rfl := Option.some.inj ha
        obtain ⟨view, hsat, hview, hnamed⟩ := h.running p c _ hrunning
        exact h.become (hsat s.log hview) (hdisc.refl c _) hnamed
      · simp at ha
  | mint p x =>
      simp only [Concurrent.step] at ha
      split at ha
      · rename_i c k hrunning
        split at ha
        · rename_i hnew
          obtain rfl := Option.some.inj ha
          exact h.mint hrunning hnew
        · simp at ha
      · simp at ha
  | answer p a =>
      simp only [Concurrent.step] at ha
      split at ha
      · rename_i c q k hrunning
        obtain rfl := Option.some.inj ha
        obtain ⟨view, hsat, hview, hnamed⟩ := h.running p c _ hrunning
        exact h.become (hsat (a q)) hview hnamed
      · simp at ha
  | append p choice =>
      simp only [Concurrent.step] at ha
      split at ha
      · rename_i c o k hrunning
        obtain rfl := Option.some.inj ha
        refine h.append hdisc hrunning (fun hnew => ?_) rfl
        exact hok p choice c o rfl (by simp [Sys.pending, hrunning]) hnew
      · simp at ha

/-- What the discipline claims of the log holds in every state reached. -/
theorem Discipline.invariant
    (hdisc : Discipline prog names published perform P rely Done request ok good)
    (hrun : Reaches (Step (P := P) prog names published perform ok) .initial s) :
    good s.log s.history := by
  have hinitial : Ready names published rely Done request good
      (Sys.initial : Sys P C V O I Q A E α) := by
    refine ⟨hdisc.good_nil, ?_, fun p => List.nodup_nil, ?_, ?_⟩ <;> simp [Sys.initial]
  exact (hrun.invariant hinitial fun s t hs hst => hs.step hdisc hst).good

end Discipline

end Concurrent

end H2a.Library
