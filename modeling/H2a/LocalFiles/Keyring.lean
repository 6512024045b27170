import H2a.LocalFiles.Registry
import Mathlib.Data.List.Induction
import Mathlib.Data.List.Nodup
/-!
# The keyring over all its calls

`registerInstance`, `addInstanceKey` and `revokeInstanceKey` of
`packages/h2a/src/runtime/local-files/store.ts`, called in any order on a new store.  "The active
public keys for an instance = the keys baked into its registration PLUS keys added to the keyring,
MINUS any revoked": a revocation outlasts what is added after it.
-/

namespace H2a.LocalFiles

open H2a.Library

inductive KeyringCall where
  | registerInstance (reg : H2AActorRegistration)
  | addInstanceKey (instanceId publicKeyPem at_ : JsString)
  | revokeInstanceKey (instanceId publicKeyPem at_ : JsString)

/-- What a call that succeeds does to the keys of an instance; a registration whose id is taken
does nothing. -/
inductive KeyringEffect where
  | registered (reg : H2AActorRegistration)
  | changed (instanceId publicKeyPem : JsString) (type : H2AKeyEventType)

/-- The effect, as one on a key of an instance. -/
def KeyringEffect.on (instanceId publicKeyPem : JsString) :
    KeyringEffect → Option H2AKeyEventType
  | .registered reg =>
      if reg.id = instanceId ∧ publicKeyPem ∈ reg.publicKeys then some .added else none
  | .changed id pem type => if id = instanceId ∧ pem = publicKeyPem then some type else none

/-- The registry and the effects of the calls that succeeded, in order. -/
structure KeyringRun where
  registry : Registry
  effects : List KeyringEffect

namespace KeyringRun

/-- A new store. -/
def start : KeyringRun := ⟨⟨[], []⟩, []⟩

variable (run : KeyringRun)

/-- The run after a critical section that ends with `result`. -/
def after (effect : KeyringEffect) : Except String Registry → KeyringRun
  | .error _ => run
  | .ok registry => ⟨registry, run.effects ++ [effect]⟩

/-- One more call; one that throws changes nothing. -/
def step : KeyringCall → KeyringRun
  | .registerInstance reg =>
      if (run.registry.findInstance reg.id).isSome then
        { run with registry := run.registry.registerInstance reg }
      else ⟨run.registry.registerInstance reg, run.effects ++ [KeyringEffect.registered reg]⟩
  | .addInstanceKey instanceId pem at_ =>
      run.after (.changed instanceId pem .added)
        (run.registry.addInstanceKey instanceId pem at_)
  | .revokeInstanceKey instanceId pem at_ =>
      run.after (.changed instanceId pem .revoked)
        (run.registry.revokeInstanceKey instanceId pem at_)

def runAll (calls : List KeyringCall) : KeyringRun :=
  calls.foldl step start

/-- What the calls that succeeded for an instance and a key did to it, in order. -/
def changes (instanceId publicKeyPem : JsString) : List H2AKeyEventType :=
  run.effects.filterMap (KeyringEffect.on instanceId publicKeyPem)

/-! ## Rows and effects -/

/-- The rows are those of the effects, and an id is registered once. -/
structure Agrees : Prop where
  registered : ∀ reg, reg ∈ run.registry.instances ↔ .registered reg ∈ run.effects
  changed : ∀ instanceId pem type,
    pem ∈ run.registry.eventKeys instanceId type ↔ .changed instanceId pem type ∈ run.effects
  once : (run.registry.instances.map (·.id)).Nodup

variable {run}

theorem agrees_start : start.Agrees where
  registered := by simp [start]
  changed := by simp [start, Registry.eventKeys]
  once := List.nodup_nil

/-- A new registration. -/
theorem Agrees.register (h : run.Agrees) {reg : H2AActorRegistration}
    (hnew : run.registry.findInstance reg.id = none) :
    Agrees ⟨{ run.registry with instances := run.registry.instances ++ [reg] },
      run.effects ++ [KeyringEffect.registered reg]⟩ where
  registered := by
    intro reg'
    simp [h.registered reg']
  changed := by
    intro instanceId pem type
    have hold := h.changed instanceId pem type
    simpa [Registry.eventKeys] using hold
  once := by
    rw [List.map_append, List.map_singleton, ← List.concat_eq_append, List.nodup_concat]
    refine ⟨?_, h.once⟩
    intro hmem
    obtain ⟨old, hold, hid⟩ := List.mem_map.mp hmem
    have hfree := List.find?_eq_none.mp hnew old hold
    exact hfree (decide_eq_true hid)

/-- One more row of `keys.jsonl`. -/
theorem Agrees.append (h : run.Agrees) (e : H2AKeyEvent) :
    Agrees ⟨{ run.registry with keys := run.registry.keys ++ [e] },
      run.effects ++ [KeyringEffect.changed e.instance_ e.publicKey e.type]⟩ where
  registered := by
    intro reg
    simp [h.registered reg]
  changed := by
    intro instanceId pem type
    have hold := h.changed instanceId pem type
    rw [Registry.mem_eventKeys] at hold ⊢
    rw [List.mem_append, ← hold, List.mem_singleton, KeyringEffect.changed.injEq]
    constructor
    · rintro ⟨row, hrow, rfl, rfl, rfl⟩
      rcases List.mem_append.mp hrow with hrow | hrow
      · exact .inl ⟨row, hrow, rfl, rfl, rfl⟩
      · rw [List.mem_singleton.mp hrow]
        exact .inr ⟨rfl, rfl, rfl⟩
    · rintro (⟨row, hrow, hsame⟩ | ⟨hid, hpem, htype⟩)
      · exact ⟨row, List.mem_append_left _ hrow, hsame⟩
      · exact ⟨e, by simp, hid.symm, htype.symm, hpem.symm⟩
  once := h.once

/-- Every call keeps the rows and the effects together. -/
theorem Agrees.step (h : run.Agrees) (call : KeyringCall) : (run.step call).Agrees := by
  cases call with
  | registerInstance reg =>
      cases hfind : run.registry.findInstance reg.id with
      | none =>
          simp only [KeyringRun.step, Registry.registerInstance, hfind, Option.isSome_none,
            Bool.false_eq_true, if_false]
          exact h.register hfind
      | some old =>
          simp only [KeyringRun.step, Registry.registerInstance, hfind, Option.isSome_some,
            if_true]
          exact h
  | addInstanceKey instanceId pem at_ =>
      simp only [KeyringRun.step, Registry.addInstanceKey]
      split_ifs
      · exact h
      · exact h
      · exact h.append ⟨instanceId, pem, .added, at_⟩
  | revokeInstanceKey instanceId pem at_ =>
      simp only [KeyringRun.step, Registry.revokeInstanceKey]
      split_ifs
      · exact h
      · exact h.append ⟨instanceId, pem, .revoked, at_⟩

theorem agrees_runAll (calls : List KeyringCall) : (runAll calls).Agrees := by
  induction calls using List.reverseRecOn with
  | nil => exact agrees_start
  | append_singleton calls call ih =>
      rw [runAll, List.foldl_append]
      exact ih.step call

/-! ## Active keys -/

theorem mem_changes {instanceId pem : JsString} {type : H2AKeyEventType} :
    type ∈ run.changes instanceId pem ↔
      (∃ reg, .registered reg ∈ run.effects ∧ reg.id = instanceId ∧ pem ∈ reg.publicKeys ∧
        type = .added) ∨ .changed instanceId pem type ∈ run.effects := by
  rw [changes, List.mem_filterMap]
  constructor
  · rintro ⟨effect, hmem, hon⟩
    cases effect with
    | registered reg =>
        simp only [KeyringEffect.on, Option.ite_none_right_eq_some] at hon
        exact .inl ⟨reg, hmem, hon.1.1, hon.1.2, (Option.some.inj hon.2).symm⟩
    | changed id pem' type' =>
        simp only [KeyringEffect.on, Option.ite_none_right_eq_some] at hon
        obtain ⟨⟨rfl, rfl⟩, htype⟩ := hon
        rw [Option.some.inj htype] at hmem
        exact .inr hmem
  · rintro (⟨reg, hmem, hid, hpem, rfl⟩ | hmem)
    · exact ⟨_, hmem, if_pos ⟨hid, hpem⟩⟩
    · exact ⟨_, hmem, if_pos ⟨rfl, rfl⟩⟩

/-- The keys of the first row of an id are those of every row of the id. -/
theorem Agrees.mem_registered (h : run.Agrees) {instanceId pem : JsString} :
    pem ∈ ((run.registry.findInstance instanceId).map (·.publicKeys)).getD [] ↔
      ∃ reg, .registered reg ∈ run.effects ∧ reg.id = instanceId ∧ pem ∈ reg.publicKeys := by
  constructor
  · intro hmem
    cases hfind : run.registry.findInstance instanceId with
    | none => simp [hfind] at hmem
    | some reg =>
        rw [hfind] at hmem
        have hid := List.find?_some hfind
        exact ⟨reg, (h.registered reg).mp (List.mem_of_find?_eq_some hfind),
          of_decide_eq_true hid, hmem⟩
  · rintro ⟨reg, hreg, hid, hpem⟩
    have hrow := (h.registered reg).mpr hreg
    cases hfind : run.registry.findInstance instanceId with
    | none =>
        have hfree := List.find?_eq_none.mp hfind reg hrow
        exact absurd (decide_eq_true hid) hfree
    | some first =>
        have hid' := List.find?_some hfind
        have hfirst : first.id = instanceId := of_decide_eq_true hid'
        have hsame : first = reg :=
          List.inj_on_of_nodup_map h.once (List.mem_of_find?_eq_some hfind) hrow
            (hfirst.trans hid.symm)
        rw [hsame]
        exact hpem

/-- A key is active when it was registered or added, and never revoked. -/
theorem Agrees.mem_listInstanceKeys (h : run.Agrees) {instanceId pem : JsString} :
    pem ∈ run.registry.listInstanceKeys instanceId ↔
      .added ∈ run.changes instanceId pem ∧ .revoked ∉ run.changes instanceId pem := by
  rw [Registry.mem_listInstanceKeys, h.mem_registered, h.changed, h.changed, mem_changes,
    mem_changes]
  simp

theorem added_last_iff {types : List H2AKeyEventType} (h : .revoked ∉ types) :
    types.getLast? = some .added ↔ .added ∈ types := by
  constructor
  · exact List.mem_of_getLast?
  · intro hadded
    cases hlast : types.getLast? with
    | none =>
        rw [List.getLast?_eq_none_iff.mp hlast] at hadded
        cases hadded
    | some type =>
        cases type with
        | added => rfl
        | revoked => exact absurd (List.mem_of_getLast? hlast) h

end KeyringRun

/-! ## What the keyring means -/

/-- After any calls on a new store, a key is active exactly when the last of the calls that
succeeded for the instance and the key registered or added it, and none of them revoked it; and a
key that is added without having been revoked is active. -/
theorem active_iff_added_and_never_revoked (calls : List KeyringCall)
    (instanceId pem : JsString) :
    (pem ∈ (KeyringRun.runAll calls).registry.listInstanceKeys instanceId ↔
      ((KeyringRun.runAll calls).changes instanceId pem).getLast? = some .added ∧
        .revoked ∉ (KeyringRun.runAll calls).changes instanceId pem) ∧
    ∀ at_ registry,
      (KeyringRun.runAll calls).registry.addInstanceKey instanceId pem at_ = .ok registry →
      .revoked ∉ (KeyringRun.runAll calls).changes instanceId pem →
      pem ∈ registry.listInstanceKeys instanceId := by
  have hagrees := KeyringRun.agrees_runAll calls
  constructor
  · rw [hagrees.mem_listInstanceKeys]
    constructor
    · rintro ⟨hadded, hkept⟩
      exact ⟨(KeyringRun.added_last_iff hkept).mpr hadded, hkept⟩
    · rintro ⟨hlast, hkept⟩
      exact ⟨(KeyringRun.added_last_iff hkept).mp hlast, hkept⟩
  · intro at_ registry hadd hkept
    have hstep := hagrees.step (.addInstanceKey instanceId pem at_)
    simp only [KeyringRun.step, hadd, KeyringRun.after] at hstep
    rw [hstep.mem_listInstanceKeys, KeyringRun.changes, List.filterMap_append]
    constructor
    · simp [KeyringEffect.on]
    · rw [List.mem_append, not_or]
      exact ⟨hkept, by simp [KeyringEffect.on]⟩

/-- A key that is registered, rotated out, and added again. -/
def readdedKey : List KeyringCall :=
  [.registerInstance ⟨js "codex:b", js "codex:b", [], [], [js "pem-1"]⟩,
    .revokeInstanceKey (js "codex:b") (js "pem-1") (js "t1"),
    .addInstanceKey (js "codex:b") (js "pem-1") (js "t2")]

/-- All three calls succeed, and the key is not active although the last of them added it. -/
theorem readded_key_inactive :
    (KeyringRun.runAll readdedKey).changes (js "codex:b") (js "pem-1") =
        [.added, .revoked, .added] ∧
      ¬(js "pem-1" ∈ (KeyringRun.runAll readdedKey).registry.listInstanceKeys (js "codex:b") ↔
        ((KeyringRun.runAll readdedKey).changes (js "codex:b") (js "pem-1")).getLast? =
          some .added) := by
  decide

end H2a.LocalFiles
