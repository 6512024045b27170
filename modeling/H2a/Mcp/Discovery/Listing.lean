import Mathlib.Data.List.Lex
import H2a.Mcp.Discovery.Pages
/-!
# The listing of discovery

A listing has the rows that match, each once, in the one order the comparison allows
(`listing_canonical`), and a generation stands for one capture, unless two texts of one digest have
been found (`captured_eq_or_collides`).
-/

namespace H2a.Mcp.Discovery

open H2a.Library

/-! ## The comparison -/

theorem go_neg_iff (a b : List Nat) : codePointCompare.go a b < 0 ↔ a < b := by
  induction a generalizing b with
  | nil =>
      cases b with
      | nil => simp [codePointCompare.go]
      | cons y ys => simp [codePointCompare.go]
  | cons x xs ih =>
      cases b with
      | nil => simp [codePointCompare.go]
      | cons y ys =>
          rw [codePointCompare.go, List.cons_lt_cons_iff]
          by_cases hxy : x = y
          · simp [hxy, ih]
          · simp only [ne_eq, hxy, not_false_eq_true, if_true, false_and, or_false]
            omega

theorem go_eq_zero_iff (a b : List Nat) : codePointCompare.go a b = 0 ↔ a = b := by
  induction a generalizing b with
  | nil =>
      cases b with
      | nil => simp [codePointCompare.go]
      | cons y ys => simp [codePointCompare.go]
  | cons x xs ih =>
      cases b with
      | nil => simp [codePointCompare.go]
      | cons y ys =>
          rw [codePointCompare.go, List.cons.injEq]
          by_cases hxy : x = y
          · simp [hxy, ih]
          · simp only [ne_eq, hxy, not_false_eq_true, if_true, false_and, iff_false]
            omega

/-- The comparison of keys is that of their code points. -/
theorem codePointCompare_nonpos_iff (a b : JsString) :
    codePointCompare a b ≤ 0 ↔ codePoints a.units ≤ codePoints b.units := by
  rw [codePointCompare, Int.le_iff_lt_or_eq, go_neg_iff, go_eq_zero_iff, le_iff_lt_or_eq]

/-- The code units of a code point. -/
def pointUnits (n : Nat) : List UInt16 :=
  if n < 0x10000 then [UInt16.ofNat n]
  else
    [UInt16.ofNat (0xD800 + (n - 0x10000) / 0x400), UInt16.ofNat (0xDC00 + (n - 0x10000) % 0x400)]

theorem flatMap_codePoints (us : List UInt16) : (codePoints us).flatMap pointUnits = us := by
  have hsingle : ∀ u : UInt16, pointUnits u.toNat = [u] := by
    intro u
    rw [pointUnits, if_pos u.toNat_lt, UInt16.ofNat_toNat]
  induction us using codePoints.induct with
  | case1 => rfl
  | case2 u => rw [codePoints, List.flatMap_singleton, hsingle]
  | case3 u v rest hpair ih =>
      obtain ⟨hu, hv⟩ := Bool.and_eq_true_iff.mp hpair
      simp only [isHighSurrogate, isLowSurrogate, Bool.and_eq_true, decide_eq_true_eq] at hu hv
      have hhigh : 0xD800 + (0x10000 + (u.toNat - 0xD800) * 0x400 + (v.toNat - 0xDC00) - 0x10000) /
          0x400 = u.toNat := by omega
      have hlow : 0xDC00 + (0x10000 + (u.toNat - 0xD800) * 0x400 + (v.toNat - 0xDC00) - 0x10000) %
          0x400 = v.toNat := by omega
      rw [codePoints, if_pos hpair, List.flatMap_cons, ih, pointUnits, if_neg (by omega), hhigh,
        hlow, UInt16.ofNat_toNat, UInt16.ofNat_toNat]
      rfl
  | case4 u v rest hpair ih => rw [codePoints, if_neg hpair, List.flatMap_cons, ih, hsingle]; rfl

/-- A string is its code points. -/
theorem codePoints_injective {a b : JsString} (h : codePoints a.units = codePoints b.units) :
    a = b := by
  apply JsString.ext_units
  rw [← flatMap_codePoints a.units, h, flatMap_codePoints]

section Order

variable {N : Type} [JsonNumber N]

omit [JsonNumber N] in
theorem compareDecorated_nonpos_iff (x y : Decorated N) :
    compareDecorated x y ≤ 0 ↔
      match x.ts, y.ts with
      | some tx, some ty =>
          ty < tx ∨ tx = ty ∧ codePoints (regKey x.reg).units ≤ codePoints (regKey y.reg).units
      | some _, none => True
      | none, some _ => False
      | none, none => codePoints (regKey x.reg).units ≤ codePoints (regKey y.reg).units := by
  unfold compareDecorated
  cases x.ts with
  | none =>
      cases y.ts with
      | none => exact codePointCompare_nonpos_iff _ _
      | some ty => exact iff_of_false (by decide : ¬(1 : Int) ≤ 0) id
  | some tx =>
      cases y.ts with
      | none => exact iff_of_true (by decide : (-1 : Int) ≤ 0) trivial
      | some ty =>
          dsimp only
          by_cases heq : tx = ty
          · simp [heq, codePointCompare_nonpos_iff]
          · simp only [ne_eq, heq, not_false_eq_true, if_true, false_and, or_false]
            omega

omit [JsonNumber N] in
theorem compareDecorated_total (x y : Decorated N) :
    compareDecorated x y ≤ 0 ∨ compareDecorated y x ≤ 0 := by
  have hkeys := le_total (codePoints (regKey x.reg).units) (codePoints (regKey y.reg).units)
  rw [compareDecorated_nonpos_iff, compareDecorated_nonpos_iff]
  cases x.ts with
  | none =>
      cases y.ts with
      | none => exact hkeys
      | some ty => exact Or.inr trivial
  | some tx =>
      cases y.ts with
      | none => exact Or.inl trivial
      | some ty =>
          dsimp only
          rcases lt_trichotomy tx ty with hlt | heq | hlt
          · exact Or.inr (Or.inl hlt)
          · exact hkeys.imp (fun h => Or.inr ⟨heq, h⟩) fun h => Or.inr ⟨heq.symm, h⟩
          · exact Or.inl (Or.inl hlt)

omit [JsonNumber N] in
theorem compareDecorated_trans {x y z : Decorated N} (hxy : compareDecorated x y ≤ 0)
    (hyz : compareDecorated y z ≤ 0) : compareDecorated x z ≤ 0 := by
  rw [compareDecorated_nonpos_iff] at hxy hyz ⊢
  cases hx : x.ts with
  | none =>
      rw [hx] at hxy
      cases hy : y.ts with
      | none =>
          rw [hy] at hxy hyz
          cases hz : z.ts with
          | none =>
              rw [hz] at hyz
              exact le_trans hxy hyz
          | some tz =>
              rw [hz] at hyz
              exact hyz
      | some ty =>
          rw [hy] at hxy
          exact hxy.elim
  | some tx =>
      cases hz : z.ts with
      | none => trivial
      | some tz =>
          rw [hx] at hxy
          rw [hz] at hyz
          cases hy : y.ts with
          | none =>
              rw [hy] at hyz
              exact hyz.elim
          | some ty =>
              rw [hy] at hxy hyz
              dsimp only at hxy hyz ⊢
              rcases hxy with hlt | ⟨rfl, hkey⟩
              · exact Or.inl (by omega)
              · rcases hyz with hlt | ⟨rfl, hkey'⟩
                · exact Or.inl hlt
                · exact Or.inr ⟨rfl, le_trans hkey hkey'⟩

omit [JsonNumber N] in
/-- Two rows that compare as equal have the same key. -/
theorem regKey_eq_of_compare {x y : Decorated N} (h : compareDecorated x y = 0) :
    regKey x.reg = regKey y.reg := by
  have hkeys : codePointCompare (regKey x.reg) (regKey y.reg) = 0 →
      regKey x.reg = regKey y.reg :=
    fun hzero => codePoints_injective ((go_eq_zero_iff _ _).mp hzero)
  unfold compareDecorated at h
  split at h
  · split at h
    · omega
    · exact hkeys h
  · cases h
  · cases h
  · exact hkeys h

/-- The order of a listing: before another comes what the comparison puts there. -/
def ComesBefore (host : DiscoveryHost) (x y : Registration N) : Prop :=
  compareDecorated (decorate host x) (decorate host y) < 0

theorem sorted_pairwise (host : DiscoveryHost) {filtered : List (Registration N)}
    (hnodup : (filtered.map regKey).Nodup) :
    (sorted host filtered).Pairwise (ComesBefore host) := by
  have htotal : Std.Total fun x y : Decorated N => compareDecorated x y ≤ 0 :=
    ⟨compareDecorated_total⟩
  have htrans : IsTrans (Decorated N) fun x y => compareDecorated x y ≤ 0 :=
    ⟨fun _ _ _ => compareDecorated_trans⟩
  have hsorted := List.pairwise_insertionSort (fun x y : Decorated N => compareDecorated x y ≤ 0)
    (filtered.map (decorate host))
  have hperm := List.perm_insertionSort (fun x y : Decorated N => compareDecorated x y ≤ 0)
    (filtered.map (decorate host))
  have hkeys : ((filtered.map (decorate host)).map fun x => regKey x.reg).Nodup := by
    rw [List.map_map]
    exact hnodup
  have hdistinct := List.pairwise_map.mp ((hperm.map fun x => regKey x.reg).nodup_iff.mpr hkeys)
  have hdecorated : ∀ x ∈ (filtered.map (decorate host)).insertionSort
      (fun x y => compareDecorated x y ≤ 0), x = decorate host x.reg := by
    intro x hx
    obtain ⟨reg, -, rfl⟩ := List.mem_map.mp ((List.mem_insertionSort _).mp hx)
    rfl
  rw [sorted, List.pairwise_map]
  refine List.Pairwise.imp_of_mem ?_ (hsorted.and hdistinct)
  intro x y hx hy hboth
  rw [ComesBefore, ← hdecorated x hx, ← hdecorated y hy]
  exact lt_of_le_of_ne hboth.1 fun heq => hboth.2 (regKey_eq_of_compare heq)

/-! ## The rows -/

/-- No key stands on two rows. -/
theorem regKeys_nodup {lines : List (List Char)} :
    ∀ {seen : List JsString} {rows : List (Registration N)},
      parseRows seen lines = .ok (some rows) →
        (rows.map regKey).Nodup ∧ ∀ reg ∈ rows, regKey reg ∉ seen := by
  induction lines with
  | nil =>
      intro seen rows h
      rw [← Option.some.inj (Except.ok.inj h)]
      exact ⟨List.nodup_nil, nofun⟩
  | cons line lines ih =>
      intro seen rows h
      rw [parseRows] at h
      split at h
      · exact ih h
      · obtain ⟨parsed, hparsed, h⟩ := bind_eq_ok_iff.mp h
        cases parsed with
        | none => cases h
        | some reg =>
            dsimp only at h
            split at h
            · cases h
            · rename_i hunseen
              obtain ⟨rest, hrest, h⟩ := map_eq_ok_iff.mp h
              cases rest with
              | none => cases h
              | some rest =>
                  obtain ⟨hnodup, hnew⟩ := ih hrest
                  rw [← Option.some.inj h]
                  constructor
                  · rw [List.map_cons, List.nodup_cons]
                    refine ⟨fun hmem => ?_, hnodup⟩
                    obtain ⟨other, hother, heq⟩ := List.mem_map.mp hmem
                    exact hnew other hother (heq ▸ List.mem_cons_self)
                  · intro other hother
                    rcases List.mem_cons.mp hother with rfl | hother
                    · exact hunseen
                    · exact fun hseen => hnew other hother (List.mem_cons_of_mem _ hseen)

/-- What a query lists: the rows that match, in order. -/
structure CanonicalListing (host : DiscoveryHost) (corpus : ParsedCorpus N)
    (role scope : Option JsString) (all : List (Registration N)) : Prop where
  rows : ∃ effective, effectiveOrgInstances corpus.registrations corpus.grants = .ok effective ∧
    all.Perm (matching effective role scope corpus.registrations)
  ordered : all.Pairwise (ComesBefore host)
  distinct : (all.map regKey).Nodup

theorem listing_canonical {host : DiscoveryHost} {capture : SourceCapture}
    {corpus : ParsedCorpus N} (hparsed : parseCorpus N capture = .ok (some corpus))
    {role scope : Option JsString} {all : List (Registration N)}
    (hlisted : listing host corpus role scope = .ok all) :
    CanonicalListing host corpus role scope all := by
  obtain ⟨rows, hrows, hcorpus⟩ := map_eq_ok_iff.mp hparsed
  obtain ⟨registrations, rfl, hcorpus⟩ := Option.bind_eq_some_iff.mp hcorpus
  obtain ⟨grants, -, rfl⟩ := Option.map_eq_some_iff.mp hcorpus
  obtain ⟨effective, heffective, rfl⟩ := map_eq_ok_iff.mp hlisted
  have hsublist : (matching effective role scope registrations).Sublist registrations :=
    List.filter_sublist.trans List.filter_sublist
  have hnodup : ((matching effective role scope registrations).map regKey).Nodup :=
    (regKeys_nodup hrows).1.sublist (hsublist.map regKey)
  have hperm := sorted_perm host (matching effective role scope registrations)
  exact ⟨⟨effective, heffective, hperm⟩, sorted_pairwise host hnodup,
    (hperm.map regKey).nodup_iff.mpr hnodup⟩

end Order

/-! ## Generations -/

theorem lowBytes_inj (k : Nat) {n m : Nat} (hn : n < 256 ^ k) (hm : m < 256 ^ k)
    (h : uint64BE.lowBytes k n = uint64BE.lowBytes k m) : n = m := by
  induction k generalizing n m with
  | zero =>
      rw [pow_zero] at hn hm
      omega
  | succ k ih =>
      rw [pow_succ] at hn hm
      obtain ⟨hrest, hlast⟩ := List.append_inj' h rfl
      have hbyte := congrArg UInt8.toNat (List.singleton_inj.mp hlast)
      have hquotient := ih (Nat.div_lt_of_lt_mul (by rwa [Nat.mul_comm]))
        (Nat.div_lt_of_lt_mul (by rwa [Nat.mul_comm])) hrest
      have hmod : ∀ x, (UInt8.ofNat (x % 256)).toNat = x % 256 := by
        intro x
        rw [UInt8.toNat_ofNat', Nat.mod_mod]
      rw [hmod, hmod] at hbyte
      omega

theorem length_uint64BE (n : Nat) : (uint64BE n).length = 8 := by
  have hlength : ∀ k n, (uint64BE.lowBytes k n).length = k := by
    intro k
    induction k with
    | zero => exact fun _ => rfl
    | succ k ih =>
        intro n
        rw [uint64BE.lowBytes, List.length_append, ih]
        rfl
  exact hlength 8 n

/-- The lengths tell the two sources apart: what is digested has one capture. -/
theorem framed_injective {a b : SourceCapture} (h : a.framed = b.framed) : a = b := by
  have hsmall : ∀ content : FileContent, content.val.length < 256 ^ 8 := by
    intro content
    exact Nat.lt_trans content.property (by decide)
  unfold SourceCapture.framed at h
  simp only [List.append_assoc] at h
  obtain ⟨hlength, h⟩ := List.append_inj h (by rw [length_uint64BE, length_uint64BE])
  have hlength := lowBytes_inj 8 (hsmall _) (hsmall _) hlength
  obtain ⟨hinstances, h⟩ := List.append_inj h hlength
  obtain ⟨-, h⟩ := List.append_inj h (by rw [length_uint64BE, length_uint64BE])
  have hgrants := List.append_cancel_right h
  obtain ⟨instances, grants⟩ := a
  obtain ⟨instances', grants'⟩ := b
  rw [SourceCapture.mk.injEq]
  exact ⟨Subtype.ext hinstances, Subtype.ext hgrants⟩

theorem hexText_injective {a b : List UInt8} (h : hexText a = hexText b) : a = b := by
  have hdigit : ∀ m < 16, ∀ n < 16, hexText.hexUnit m = hexText.hexUnit n → m = n := by decide
  have hunits := congrArg JsString.units h
  simp only [hexText] at hunits
  clear h
  induction a generalizing b with
  | nil =>
      cases b with
      | nil => rfl
      | cons y ys => cases hunits
  | cons x xs ih =>
      cases b with
      | nil => cases hunits
      | cons y ys =>
          have hx := x.toNat_lt
          have hy := y.toNat_lt
          simp only [List.flatMap_cons, List.cons_append, List.nil_append,
            List.cons.injEq] at hunits
          obtain ⟨hhigh, hlow, hrest⟩ := hunits
          have hhigh := hdigit _ (by omega) _ (by omega) hhigh
          have hlow := hdigit _ (by omega) _ (by omega) hlow
          have hxy : x = y := UInt8.toNat_inj.mp (by omega)
          rw [hxy, ih hrest]

/-- Two captures of one digest. -/
def Collide (host : DiscoveryHost) (a b : SourceCapture) : Prop :=
  a.framed ≠ b.framed ∧ host.sha256 a.framed = host.sha256 b.framed

/-- A generation stands for one capture, or a collision has been found. -/
theorem capture_eq_or_collide {host : DiscoveryHost} {a b : SourceCapture}
    (h : computeGeneration host a = computeGeneration host b) : a = b ∨ Collide host a b := by
  by_cases heq : a.framed = b.framed
  · exact Or.inl (framed_injective heq)
  · have hunits := congrArg JsString.units h
    rw [computeGeneration, computeGeneration, JsString.append_units,
      JsString.append_units] at hunits
    exact Or.inr ⟨heq, hexText_injective (JsString.ext_units (List.append_cancel_left hunits))⟩

end H2a.Mcp.Discovery
