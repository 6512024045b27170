import H2a.Runtime.Registry
/-!
# The host of a managed session

`resolveManagedHost` of `packages/h2a-runtime/src/registry.ts` decides which session a
destructive act reaches.  It refuses a target that rows of both hosts, or a row it cannot read,
may name; among several rows of one host it takes the first, whichever session that one names.
-/

namespace H2a.Runtime

open H2a.Library

/-! ## The source -/

/-- The two hosts of managed sessions. -/
inductive ManagedKind where
  | localNative
  | localTmux
  deriving DecidableEq

def ManagedKind.kind : ManagedKind → RegistryKind
  | localNative => .localNative
  | localTmux => .localTmux

/-- `ManagedHostProbeResult` -/
inductive ManagedHostProbeResult where
  | live
  | dead
  | unknown

/-- `ManagedHostResolution` -/
inductive ManagedHostResolution where
  | recorded (kind : ManagedKind) (name : JsString)
  | discovered (kind : ManagedKind) (name : JsString)
  | ambiguous (candidates : List ManagedKind)
  | missing
  | unknown (reason : JsString)
  deriving DecidableEq

/-- `rawRowMatchesTarget` -/
def rawRowMatchesTarget (target : JsString) (raw : RawRow) : Bool :=
  match parseManagedSessionName target with
  | some requested =>
      raw.tmuxSession == some target ||
        (raw.tmuxSession == none && raw.id == some requested.slug)
  | none =>
      raw.id == some target || raw.label == some target ||
        raw.tmuxSession.any ((managedSessionCandidates target).contains ·)

/-- `unreadableRowsForTarget` -/
def unreadableRowsForTarget (target : JsString) (unreadable : List RawRow) : List RawRow :=
  unreadable.filter (rawRowMatchesTarget target)

/-- Whether a row goes by the target: by its session alone for a full managed name, which is
"an exact selector, never a slug/label alias"; else by id, label or session. -/
def addressedBy (target : JsString) (e : RegistryEntry) : Bool :=
  match parseManagedSessionName target with
  | some requested =>
      e.tmuxSession == some target || (e.tmuxSession == none && e.id == requested.slug)
  | none =>
      e.id == target || e.label == some target ||
        e.tmuxSession.any ((managedSessionCandidates target).contains ·)

/-- `registryEntriesForManagedKind` -/
def registryEntriesForManagedKind (kind : ManagedKind) (target : JsString)
    (entries : List RegistryEntry) : List RegistryEntry :=
  entries.filter fun e => e.kind == kind.kind && e.endedAt == none && addressedBy target e

/-- The session a row stands for, where the target is what it is looked up by. -/
def sessionOf (target : JsString) (e : RegistryEntry) : JsString :=
  e.tmuxSession.getD
    (if (parseManagedSessionName target).isSome then target else localSessionName e.id)

/-- `exactName` -/
def exactName (target : JsString) (rows : List RegistryEntry) : JsString :=
  match rows.head? with
  | some row => sessionOf target row
  | none => if (parseManagedSessionName target).isSome then target else localSessionName target

/-- The name that is probed where no row is recorded. -/
def probedName (target : JsString) : JsString :=
  if (parseManagedSessionName target).isSome then target else localSessionName target

/-- `texts.join(separator)` -/
def joinWith (separator : JsString) : List JsString → JsString
  | [] => js ""
  | [text] => text
  | text :: texts => text ++ separator ++ joinWith separator texts

/-- `resolveManagedHost` -/
def resolveManagedHost (target : JsString) (read : RegistryReadResult)
    (native tmux : JsString → ManagedHostProbeResult) : ManagedHostResolution :=
  match read with
  | .unknown reason => .unknown (js "registry read failed: " ++ reason)
  | .ok rows unreadable =>
      let poison := unreadableRowsForTarget target unreadable
      if poison ≠ [] then
        .unknown (js "unreadable registry row(s) for this identity (row id: " ++
          joinWith (js ", ") (poison.map fun row => row.id.getD (js "<no id>")) ++ js ")")
      else
        let nativeRows := registryEntriesForManagedKind .localNative target rows
        let tmuxRows := registryEntriesForManagedKind .localTmux target rows
        if nativeRows ≠ [] ∧ tmuxRows ≠ [] then .ambiguous [.localNative, .localTmux]
        else if nativeRows ≠ [] then .recorded .localNative (exactName target nativeRows)
        else if tmuxRows ≠ [] then .recorded .localTmux (exactName target tmuxRows)
        else
          match native (probedName target), tmux (probedName target) with
          | .unknown, .unknown =>
              .unknown (js "native+tmux host probe failed for " ++ probedName target)
          | .unknown, _ => .unknown (js "native host probe failed for " ++ probedName target)
          | _, .unknown => .unknown (js "tmux host probe failed for " ++ probedName target)
          | .live, .live => .ambiguous [.localNative, .localTmux]
          | .live, .dead => .discovered .localNative (probedName target)
          | .dead, .live => .discovered .localTmux (probedName target)
          | .dead, .dead => .missing

/-! ## What an act may rely on -/

/-- The rows that pin a host for the target: managed, not ended, and addressed by it. -/
def Pins (target : JsString) (e : RegistryEntry) : Prop :=
  (∃ kind : ManagedKind, e.kind = kind.kind) ∧ e.endedAt = none ∧ addressedBy target e = true

/-- No unreadable row could be what the target names. -/
def NoUnreadable (target : JsString) (unreadable : List RawRow) : Prop :=
  ∀ raw ∈ unreadable, rawRowMatchesTarget target raw = false

/-- A host recorded is the host of every row of the target, under the name of each of them; none
is discovered or missing where there is such a row or a probe failed. -/
def AvoidsHomonyms (target : JsString) (read : RegistryReadResult)
    (native tmux : JsString → ManagedHostProbeResult) : ManagedHostResolution → Prop
  | .recorded kind name =>
      ∃ rows unreadable, read = .ok rows unreadable ∧ NoUnreadable target unreadable ∧
        ∀ e ∈ rows, Pins target e → e.kind = kind.kind ∧ sessionOf target e = name
  | .discovered _ _ | .missing =>
      (∃ rows unreadable, read = .ok rows unreadable ∧ NoUnreadable target unreadable ∧
        ∀ e ∈ rows, ¬Pins target e) ∧
        native (probedName target) ≠ .unknown ∧ tmux (probedName target) ≠ .unknown
  | .ambiguous _ | .unknown _ => True

/-- The target is refused, because of an unreadable row or of rows on both hosts, or all the rows
it addresses stand for one session. -/
def OneSession (target : JsString) : RegistryReadResult → Prop
  | .unknown _ => True
  | .ok rows unreadable =>
      (∃ raw ∈ unreadable, rawRowMatchesTarget target raw = true) ∨
        (∃ a ∈ rows, ∃ b ∈ rows, Pins target a ∧ Pins target b ∧ a.kind ≠ b.kind) ∨
        ∀ a ∈ rows, ∀ b ∈ rows, Pins target a → Pins target b →
          sessionOf target a = sessionOf target b

/-! ## Proof -/

variable {target : JsString} {rows : List RegistryEntry} {unreadable : List RawRow}

theorem mem_registryEntriesForManagedKind {kind : ManagedKind} {e : RegistryEntry} :
    e ∈ registryEntriesForManagedKind kind target rows ↔
      e ∈ rows ∧ e.kind = kind.kind ∧ Pins target e := by
  simp only [registryEntriesForManagedKind, List.mem_filter, Pins, Bool.and_eq_true, beq_iff_eq]
  constructor
  · rintro ⟨he, ⟨hkind, hended⟩, haddressed⟩
    exact ⟨he, hkind, ⟨kind, hkind⟩, hended, haddressed⟩
  · rintro ⟨he, hkind, -, hended, haddressed⟩
    exact ⟨he, ⟨hkind, hended⟩, haddressed⟩

theorem unreadableRowsForTarget_eq_nil :
    unreadableRowsForTarget target unreadable = [] ↔ NoUnreadable target unreadable := by
  simp [unreadableRowsForTarget, NoUnreadable, List.filter_eq_nil_iff]

theorem eq_localNative_or_eq_localTmux (kind : ManagedKind) :
    kind = .localNative ∨ kind = .localTmux := by
  cases kind with
  | localNative => exact .inl rfl
  | localTmux => exact .inr rfl

/-- A full managed name addresses the rows of that session alone. -/
theorem sessionOf_of_managedName {e : RegistryEntry}
    (htarget : (parseManagedSessionName target).isSome = true)
    (he : addressedBy target e = true) : sessionOf target e = target := by
  obtain ⟨requested, hrequested⟩ := Option.isSome_iff_exists.mp htarget
  simp only [addressedBy, hrequested, Bool.or_eq_true, Bool.and_eq_true, beq_iff_eq] at he
  rcases he with he | ⟨he, -⟩
  · simp [sessionOf, he]
  · simp [sessionOf, he, hrequested]

/-- So a full managed name is always safe. -/
theorem oneSession_of_managedName (read : RegistryReadResult)
    (htarget : (parseManagedSessionName target).isSome = true) : OneSession target read := by
  cases read with
  | unknown reason => trivial
  | ok rows unreadable =>
      refine .inr (.inr fun a _ b _ ha hb => ?_)
      rw [sessionOf_of_managedName htarget ha.2.2, sessionOf_of_managedName htarget hb.2.2]

/-- The rows recorded under one host, where there are none under the other. -/
theorem recorded_iff {kind other : ManagedKind} (hkinds : ∀ k : ManagedKind, k = kind ∨ k = other)
    (hunreadable : NoUnreadable target unreadable)
    (hrows : registryEntriesForManagedKind kind target rows ≠ [])
    (hother : registryEntriesForManagedKind other target rows = [])
    (native tmux : JsString → ManagedHostProbeResult) :
    AvoidsHomonyms target (.ok rows unreadable) native tmux
        (.recorded kind (exactName target (registryEntriesForManagedKind kind target rows))) ↔
      OneSession target (.ok rows unreadable) := by
  have hkind (e : RegistryEntry) (he : e ∈ rows) (hpins : Pins target e) :
      e.kind = kind.kind := by
    obtain ⟨k, hk⟩ := hpins.1
    rcases hkinds k with rfl | rfl
    · exact hk
    · have hmem := mem_registryEntriesForManagedKind.mpr ⟨he, hk, hpins⟩
      rw [hother] at hmem
      simp at hmem
  obtain ⟨first, rest, hlist⟩ := List.exists_cons_of_ne_nil hrows
  have hfirst : first ∈ rows ∧ first.kind = kind.kind ∧ Pins target first :=
    mem_registryEntriesForManagedKind.mp (hlist ▸ List.mem_cons_self)
  have hname : exactName target (registryEntriesForManagedKind kind target rows) =
      sessionOf target first := by simp [exactName, hlist]
  rw [hname]
  constructor
  · rintro ⟨rows', unreadable', hread, -, hall⟩
    obtain ⟨rfl, rfl⟩ : rows = rows' ∧ unreadable = unreadable' := by simpa using hread
    refine .inr (.inr fun a ha b hb hpinsA hpinsB => ?_)
    rw [(hall a ha hpinsA).2, (hall b hb hpinsB).2]
  · rintro (⟨raw, hraw, hmatch⟩ | ⟨a, ha, b, hb, hpinsA, hpinsB, hne⟩ | hall)
    · simp [hunreadable raw hraw] at hmatch
    · exact absurd ((hkind a ha hpinsA).trans (hkind b hb hpinsB).symm) hne
    · exact ⟨rows, unreadable, rfl, hunreadable, fun e he hpins =>
        ⟨hkind e he hpins, hall e he first hfirst.1 hpins hfirst.2.2⟩⟩

theorem not_pins_of_none (hnative : registryEntriesForManagedKind .localNative target rows = [])
    (htmux : registryEntriesForManagedKind .localTmux target rows = []) :
    ∀ e ∈ rows, ¬Pins target e := by
  intro e he hpins
  obtain ⟨kind, hkind⟩ := hpins.1
  have hmem := mem_registryEntriesForManagedKind.mpr ⟨he, hkind, hpins⟩
  cases kind with
  | localNative => simp [hnative] at hmem
  | localTmux => simp [htmux] at hmem

/-- Whatever the rows, the target and the probes: an act never hits a homonym exactly when the
rows that the target addresses, where it is not refused, stand for one session. -/
theorem resolveManagedHost_avoids_homonyms (target : JsString) (read : RegistryReadResult)
    (native tmux : JsString → ManagedHostProbeResult) :
    AvoidsHomonyms target read native tmux (resolveManagedHost target read native tmux) ↔
      OneSession target read := by
  cases read with
  | unknown reason => exact ⟨fun _ => trivial, fun _ => trivial⟩
  | ok rows unreadable =>
      simp only [resolveManagedHost]
      split
      · case isTrue hpoison =>
          have hraw : ∃ raw ∈ unreadable, rawRowMatchesTarget target raw = true := by
            by_contra hnone
            refine hpoison (unreadableRowsForTarget_eq_nil.mpr fun raw hraw => ?_)
            simpa using fun hmatch => hnone ⟨raw, hraw, hmatch⟩
          exact ⟨fun _ => .inl hraw, fun _ => trivial⟩
      · case isFalse hpoison =>
          have hunreadable := unreadableRowsForTarget_eq_nil.mp (not_not.mp hpoison)
          by_cases hnative : registryEntriesForManagedKind .localNative target rows = []
          · by_cases htmux : registryEntriesForManagedKind .localTmux target rows = []
            · -- nothing is recorded: the probes decide
              have hnone := not_pins_of_none hnative htmux
              have hone : OneSession target (.ok rows unreadable) :=
                .inr (.inr fun a ha _ _ hpins => absurd hpins (hnone a ha))
              have hsafe : ∃ rows' unreadable',
                  RegistryReadResult.ok rows unreadable = .ok rows' unreadable' ∧
                    NoUnreadable target unreadable' ∧ ∀ e ∈ rows', ¬Pins target e :=
                ⟨rows, unreadable, rfl, hunreadable, hnone⟩
              refine ⟨fun _ => hone, fun _ => ?_⟩
              simp only [hnative, htmux, ne_eq, not_true, false_and, if_false]
              cases hprobeN : native (probedName target) <;>
                cases hprobeT : tmux (probedName target) <;>
                first
                | trivial
                | exact And.intro hsafe ⟨by simp [hprobeN], by simp [hprobeT]⟩
            · simp only [hnative, ne_eq, not_true, false_and, if_false, htmux, not_false_eq_true,
                if_true]
              exact recorded_iff (fun k => (eq_localNative_or_eq_localTmux k).symm) hunreadable
                htmux hnative native tmux
          · by_cases htmux : registryEntriesForManagedKind .localTmux target rows = []
            · simp only [htmux, ne_eq, not_true, and_false, if_false, hnative, not_false_eq_true,
                if_true]
              exact recorded_iff eq_localNative_or_eq_localTmux hunreadable hnative htmux
                native tmux
            · -- rows on both hosts are refused
              simp only [hnative, htmux, ne_eq, not_false_eq_true, and_self, if_true]
              obtain ⟨a, ha⟩ := List.exists_mem_of_ne_nil _ hnative
              obtain ⟨b, hb⟩ := List.exists_mem_of_ne_nil _ htmux
              obtain ⟨harows, hakind, hapins⟩ := mem_registryEntriesForManagedKind.mp ha
              obtain ⟨hbrows, hbkind, hbpins⟩ := mem_registryEntriesForManagedKind.mp hb
              have hne : a.kind ≠ b.kind := by
                rw [hakind, hbkind]
                decide
              exact ⟨fun _ => .inr (.inl ⟨a, harows, b, hbrows, hapins, hbpins, hne⟩),
                fun _ => trivial⟩

/-- Two sessions of the native host: the label of the first is the id of the second. -/
def relabelled : List RegistryEntry :=
  [{ id := js "alpha", tool := .claude, kind := .localNative, cwd := js "/a", source := .run,
     enrolledAt := js "t1", lastSeenAt := js "t1", label := some (js "beta"),
     tmuxSession := some (js "h2a-alpha"), sessionClass := some .human },
    { id := js "beta", tool := .codex, kind := .localNative, cwd := js "/b", source := .run,
      enrolledAt := js "t2", lastSeenAt := js "t2", label := some (js "beta"),
      tmuxSession := some (js "h2a-beta"), sessionClass := some .human }]

/-- The name `beta` resolves to the session of `alpha`. -/
theorem label_hits_homonym :
    resolveManagedHost (js "beta") (.ok relabelled []) (fun _ => .live) (fun _ => .dead) =
        .recorded .localNative (js "h2a-alpha") ∧
      ¬AvoidsHomonyms (js "beta") (.ok relabelled []) (fun _ => .live) (fun _ => .dead)
        (resolveManagedHost (js "beta") (.ok relabelled []) (fun _ => .live) fun _ => .dead) := by
  have hresolved : resolveManagedHost (js "beta") (.ok relabelled []) (fun _ => .live)
      (fun _ => .dead) = .recorded .localNative (js "h2a-alpha") := by decide +kernel
  refine ⟨hresolved, fun h => ?_⟩
  rw [hresolved] at h
  obtain ⟨rows, unreadable, hread, -, hall⟩ := h
  obtain ⟨rfl, rfl⟩ : relabelled = rows ∧ [] = unreadable := by simpa using hread
  have hbeta := hall relabelled[1] (List.getElem_mem _)
    ⟨⟨.localNative, by decide⟩, by decide, by decide +kernel⟩
  exact absurd hbeta.2 (by decide +kernel)

end H2a.Runtime
