import H2a.Library.Json
/-!
# `JSON.parse` after `JSON.stringify`

What is rendered is read back (`parseValue_render`).  Reading is local: a value
that is delimited is read the same whatever follows it, so no proper initial
part of an object's text is a text (`parse_proper_prefix`).
-/

namespace H2a.Library

/-! ## Members -/

section Members

variable {V : Type}

theorem lookupMember_insertMember (k : JsString) (v : V) (ms : List (JsString × V))
    (x : JsString) :
    lookupMember x (insertMember k v ms) = if x = k then some v else lookupMember x ms := by
  induction ms with
  | nil => simp [insertMember, lookupMember, eq_comm]
  | cons m ms ih =>
      by_cases hm : m.1 = k
      · by_cases hx : x = k
        · simp [insertMember, lookupMember, hm, hx]
        · simp [insertMember, lookupMember, hm, hx, Ne.symm hx]
      · by_cases hlt : k < m.1
        · by_cases hx : x = k
          · simp [insertMember, lookupMember, hm, hlt, hx]
          · simp [insertMember, lookupMember, hm, hlt, hx, Ne.symm hx]
        · simp only [insertMember, if_neg hm, if_neg hlt, lookupMember, ih]
          by_cases hx : m.1 = x
          · simp [hx, hx ▸ hm]
          · simp [hx]

theorem mem_keys_insertMember (k : JsString) (v : V) (ms : List (JsString × V)) (x : JsString) :
    x ∈ (insertMember k v ms).map Prod.fst ↔ x = k ∨ x ∈ ms.map Prod.fst := by
  induction ms with
  | nil => simp [insertMember]
  | cons m ms ih =>
      by_cases hm : m.1 = k
      · simp [insertMember, hm]
      · by_cases hlt : k < m.1
        · simp [insertMember, hm, hlt]
        · simp only [insertMember, if_neg hm, if_neg hlt, List.map_cons, List.mem_cons, ih]
          tauto

theorem mem_insertMember {k : JsString} {v : V} {ms : List (JsString × V)} {m : JsString × V}
    (h : m ∈ insertMember k v ms) : m = (k, v) ∨ m ∈ ms := by
  induction ms with
  | nil => simpa [insertMember] using h
  | cons m' ms ih =>
      unfold insertMember at h
      split_ifs at h
      · rcases List.mem_cons.mp h with rfl | h
        · exact Or.inl rfl
        · exact Or.inr (List.mem_cons_of_mem _ h)
      · rcases List.mem_cons.mp h with rfl | h
        · exact Or.inl rfl
        · exact Or.inr h
      · rcases List.mem_cons.mp h with rfl | h
        · exact Or.inr (List.mem_cons_self ..)
        · exact (ih h).imp_right (List.mem_cons_of_mem _)

theorem SortedMembers.insertMember {k : JsString} {v : V} {ms : List (JsString × V)}
    (h : SortedMembers ms) : SortedMembers (insertMember k v ms) := by
  induction ms with
  | nil => simp [SortedMembers, Library.insertMember]
  | cons m ms ih =>
      rw [SortedMembers, List.pairwise_cons] at h
      unfold Library.insertMember
      split_ifs with hm hlt
      · subst hm
        exact List.pairwise_cons.mpr h
      · refine List.pairwise_cons.mpr ⟨fun x hx => ?_, List.pairwise_cons.mpr h⟩
        rcases List.mem_cons.mp hx with rfl | hx
        · exact hlt
        · exact JsString.lt_chain hlt (h.1 x hx)
      · refine List.pairwise_cons.mpr ⟨fun x hx => ?_, ih h.2⟩
        rcases mem_insertMember hx with rfl | hx
        · exact JsString.lt_of_not_lt hm hlt
        · exact h.1 x hx

theorem eraseMember_insertMember {k : JsString} (v : V) {ms : List (JsString × V)}
    (hk : k ∉ ms.map Prod.fst) : eraseMember k (insertMember k v ms) = ms := by
  induction ms with
  | nil => simp [insertMember, eraseMember]
  | cons m ms ih =>
      rw [List.map_cons, List.mem_cons, not_or] at hk
      have hm : m.1 ≠ k := Ne.symm hk.1
      have hall : eraseMember k ms = ms := by
        refine List.filter_eq_self.mpr fun x hx => ?_
        have hx' : x.1 ≠ k := fun h => hk.2 (h ▸ List.mem_map_of_mem hx)
        simpa using hx'
      by_cases hlt : k < m.1
      · have htail : eraseMember k ((k, v) :: m :: ms) = m :: eraseMember k ms := by
          simp [eraseMember, hm]
        rw [insertMember, if_neg hm, if_pos hlt, htail, hall]
      · have htail : eraseMember k (m :: insertMember k v ms) =
            m :: eraseMember k (insertMember k v ms) := by
          simp [eraseMember, hm]
        rw [insertMember, if_neg hm, if_neg hlt, htail, ih hk.2]

theorem insertMember_last {k : JsString} (v : V) {ms : List (JsString × V)}
    (hk : ∀ m ∈ ms, m.1 < k) : insertMember k v ms = ms ++ [(k, v)] := by
  induction ms with
  | nil => rfl
  | cons m ms ih =>
      have hm := hk m (List.mem_cons_self ..)
      have hne : m.1 ≠ k := fun h => JsString.not_lt_self k (h ▸ hm)
      have hnlt : ¬k < m.1 := fun h => JsString.not_lt_self k (JsString.lt_chain h hm)
      simp [insertMember, hne, hnlt, ih fun x hx => hk x (List.mem_cons_of_mem _ hx)]

/-- Building an object from ordered members changes nothing. -/
theorem ofMembers_of_sorted {ms : List (JsString × V)} (h : SortedMembers ms) :
    ofMembers ms = ms := by
  suffices hfold : ∀ acc : List (JsString × V), SortedMembers (acc ++ ms) →
      ms.foldl (fun acc m => insertMember m.1 m.2 acc) acc = acc ++ ms from hfold [] h
  clear h
  induction ms with
  | nil => simp
  | cons m ms ih =>
      intro acc hsorted
      have hlast : insertMember m.1 m.2 acc = acc ++ [m] := by
        refine insertMember_last m.2 fun x hx => ?_
        exact (List.pairwise_append.mp hsorted).2.2 x hx m (List.mem_cons_self ..)
      rw [List.foldl_cons, hlast, ih]
      · simp
      · simpa using hsorted

theorem mem_ofMembers {ms : List (JsString × V)} {m : JsString × V} (h : m ∈ ofMembers ms) :
    m ∈ ms := by
  suffices hfold : ∀ acc : List (JsString × V),
      m ∈ ms.foldl (fun acc m => insertMember m.1 m.2 acc) acc → m ∈ acc ∨ m ∈ ms from
    (hfold [] h).resolve_left List.not_mem_nil
  clear h
  induction ms with
  | nil => exact fun acc h => Or.inl h
  | cons m' ms ih =>
      intro acc h
      rcases ih _ h with hacc | hms
      · rcases mem_insertMember hacc with rfl | hacc
        · exact Or.inr (List.mem_cons_self ..)
        · exact Or.inl hacc
      · exact Or.inr (List.mem_cons_of_mem _ hms)

theorem lookupMember_append (k : JsString) (as bs : List (JsString × V)) :
    lookupMember k (as ++ bs) = (lookupMember k as).or (lookupMember k bs) := by
  induction as with
  | nil => rfl
  | cons m as ih =>
      rw [List.cons_append, lookupMember, lookupMember, ih]
      split_ifs <;> rfl

theorem lookupMember_eq_none {k : JsString} {ms : List (JsString × V)} :
    lookupMember k ms = none ↔ k ∉ ms.map Prod.fst := by
  induction ms with
  | nil => simp [lookupMember]
  | cons m ms ih =>
      rw [lookupMember, List.map_cons, List.mem_cons, not_or, ← ih]
      by_cases h : m.1 = k
      · simp [h]
      · simp [h, Ne.symm h]

theorem lookupMember_reverse {ms : List (JsString × V)} (h : (ms.map Prod.fst).Nodup)
    (k : JsString) : lookupMember k ms.reverse = lookupMember k ms := by
  induction ms with
  | nil => rfl
  | cons m ms ih =>
      rw [List.map_cons, List.nodup_cons] at h
      rw [List.reverse_cons, lookupMember_append, ih h.2, lookupMember, lookupMember,
        lookupMember]
      by_cases hk : m.1 = k
      · subst hk
        simp [lookupMember_eq_none.mpr h.1]
      · simp [hk]

theorem lookupMember_eraseMember (k x : JsString) (ms : List (JsString × V)) :
    lookupMember x (eraseMember k ms) = if x = k then none else lookupMember x ms := by
  induction ms with
  | nil => simp [eraseMember, lookupMember]
  | cons m ms ih =>
      by_cases hm : m.1 = k
      · have herase : eraseMember k (m :: ms) = eraseMember k ms := by simp [eraseMember, hm]
        rw [herase, ih, lookupMember]
        by_cases hx : x = k
        · simp [hx]
        · simp [hx, hm, Ne.symm hx]
      · have herase : eraseMember k (m :: ms) = m :: eraseMember k ms := by
          simp [eraseMember, hm]
        rw [herase, lookupMember, lookupMember, ih]
        by_cases hx : x = k
        · simp [hx, hm]
        · simp [hx]

/-- The last of equal keys wins. -/
theorem lookupMember_ofMembers (k : JsString) (ms : List (JsString × V)) :
    lookupMember k (ofMembers ms) = lookupMember k ms.reverse := by
  suffices hfold : ∀ acc : List (JsString × V),
      lookupMember k (ms.foldl (fun acc m => insertMember m.1 m.2 acc) acc) =
        lookupMember k (ms.reverse ++ acc) from by
    simpa [ofMembers] using hfold []
  induction ms with
  | nil => exact fun acc => rfl
  | cons m ms ih =>
      intro acc
      rw [List.foldl_cons, ih, lookupMember_append, lookupMember_insertMember,
        List.reverse_cons, List.append_assoc, lookupMember_append, List.singleton_append,
        lookupMember]
      congr 1
      by_cases h : m.1 = k
      · simp [h]
      · simp [h, Ne.symm h]

theorem sorted_ofMembers (ms : List (JsString × V)) : SortedMembers (ofMembers ms) := by
  suffices hfold : ∀ acc : List (JsString × V), SortedMembers acc →
      SortedMembers (ms.foldl (fun acc m => insertMember m.1 m.2 acc) acc) from
    hfold [] List.Pairwise.nil
  induction ms with
  | nil => exact fun _ h => h
  | cons m ms ih => exact fun acc h => ih _ h.insertMember

variable {W : Type}

theorem lookupMember_of_mem {ms : List (JsString × V)} (hnodup : (ms.map Prod.fst).Nodup)
    {m : JsString × V} (hm : m ∈ ms) : lookupMember m.1 ms = some m.2 := by
  induction ms with
  | nil => simp at hm
  | cons m' ms ih =>
      rw [List.map_cons, List.nodup_cons] at hnodup
      rw [lookupMember]
      rcases List.mem_cons.mp hm with rfl | hm
      · rw [if_pos rfl]
      · have hne : m'.1 ≠ m.1 := fun heq => hnodup.1 (heq ▸ List.mem_map_of_mem hm)
        rw [if_neg hne, ih hnodup.2 hm]

theorem mem_of_lookupMember {k : JsString} {v : V} {ms : List (JsString × V)}
    (h : lookupMember k ms = some v) : (k, v) ∈ ms := by
  induction ms with
  | nil => simp [lookupMember] at h
  | cons m ms ih =>
      rw [lookupMember] at h
      split at h
      · rename_i hk
        obtain rfl := Option.some.inj h
        exact hk ▸ List.mem_cons_self
      · exact List.mem_cons_of_mem _ (ih h)

/-- With distinct keys nothing is lost on ordering the members. -/
theorem lookupMember_ofMembers_of_nodup {ms : List (JsString × V)}
    (hnodup : (ms.map Prod.fst).Nodup) (k : JsString) :
    lookupMember k (ofMembers ms) = lookupMember k ms := by
  rw [lookupMember_ofMembers, lookupMember_reverse hnodup]

theorem mem_ofMembers_of_nodup {ms : List (JsString × V)} (hnodup : (ms.map Prod.fst).Nodup)
    {m : JsString × V} (hm : m ∈ ms) : m ∈ ofMembers ms := by
  refine mem_of_lookupMember (k := m.1) ?_
  rw [lookupMember_ofMembers_of_nodup hnodup, lookupMember_of_mem hnodup hm]

theorem insertMember_mapValues (g : V → W) (k : JsString) (v : V) (ms : List (JsString × V)) :
    insertMember k (g v) (ms.map fun m => (m.1, g m.2)) =
      (insertMember k v ms).map fun m => (m.1, g m.2) := by
  induction ms with
  | nil => rfl
  | cons m ms ih =>
      simp only [List.map_cons, insertMember, ih]
      split_ifs <;> rfl

theorem ofMembers_mapValues (g : V → W) (ms : List (JsString × V)) :
    ofMembers (ms.map fun m => (m.1, g m.2)) = (ofMembers ms).map fun m => (m.1, g m.2) := by
  suffices hfold : ∀ acc : List (JsString × V),
      (ms.map fun m => (m.1, g m.2)).foldl (fun acc m => insertMember m.1 m.2 acc)
          (acc.map fun m => (m.1, g m.2)) =
        (ms.foldl (fun acc m => insertMember m.1 m.2 acc) acc).map fun m => (m.1, g m.2) from
    hfold []
  induction ms with
  | nil => exact fun acc => rfl
  | cons m ms ih =>
      intro acc
      simp only [List.map_cons, List.foldl_cons, insertMember_mapValues, ih]

end Members

/-! ## Strings -/

theorem hexValue_hexDigit {n : Nat} (hn : n < 16) : hexValue (hexDigit n) = some n := by
  revert n
  decide

theorem hexUnit_digits (u : UInt16) :
    hexUnit (hexDigit (u.toNat / 0x1000)) (hexDigit (u.toNat / 0x100 % 0x10))
      (hexDigit (u.toNat / 0x10 % 0x10)) (hexDigit (u.toNat % 0x10)) = some u := by
  have hu : u.toNat < 0x10000 := u.toNat_lt
  simp only [hexUnit, hexValue_hexDigit (show u.toNat / 0x1000 < 16 by omega),
    hexValue_hexDigit (show u.toNat / 0x100 % 0x10 < 16 by omega),
    hexValue_hexDigit (show u.toNat / 0x10 % 0x10 < 16 by omega),
    hexValue_hexDigit (show u.toNat % 0x10 < 16 by omega), Option.bind_eq_bind,
    Option.bind_some, Option.pure_def]
  have hsum : ((u.toNat / 0x1000 * 0x10 + u.toNat / 0x100 % 0x10) * 0x10 +
      u.toNat / 0x10 % 0x10) * 0x10 + u.toNat % 0x10 = u.toNat := by omega
  rw [hsum, UInt16.ofNat_toNat]

theorem toNat_charOfNat {n : Nat} (hn : n < 0xD800 ∨ 0xDFFF < n ∧ n < 0x110000) :
    (Char.ofNat n).toNat = n := by
  rw [Char.ofNat, dif_pos hn]
  rfl

theorem unescape_shortEscape {u : UInt16} {c : Char} (h : shortEscape u.toNat = some c) :
    c ≠ 'u' ∧ unescape c = some u := by
  have hinj : ∀ n : Nat, u.toNat = n → u = UInt16.ofNat n := fun n hn => by
    rw [← hn, UInt16.ofNat_toNat]
  unfold shortEscape at h
  split_ifs at h with h1 h2 h3 h4 h5 h6 h7
  all_goals
    obtain rfl := Option.some.inj h
    first
      | (obtain rfl := hinj _ h1; exact ⟨by decide, by decide⟩)
      | (obtain rfl := hinj _ h2; exact ⟨by decide, by decide⟩)
      | (obtain rfl := hinj _ h3; exact ⟨by decide, by decide⟩)
      | (obtain rfl := hinj _ h4; exact ⟨by decide, by decide⟩)
      | (obtain rfl := hinj _ h5; exact ⟨by decide, by decide⟩)
      | (obtain rfl := hinj _ h6; exact ⟨by decide, by decide⟩)
      | (obtain rfl := hinj _ h7; exact ⟨by decide, by decide⟩)

theorem parseString_unicode (a b c d : Char) (s : List Char) :
    parseString ('\\' :: 'u' :: a :: b :: c :: d :: s) =
      (hexUnit a b c d).bind fun u => (parseString s).map fun r => (u :: r.1, r.2) := by
  rw [parseString, if_neg (by decide), if_pos rfl]

theorem parseString_escape {c : Char} (hc : c ≠ 'u') (s : List Char) :
    parseString ('\\' :: c :: s) =
      (unescape c).bind fun u => (parseString s).map fun r => (u :: r.1, r.2) := by
  rw [parseString, if_neg (by decide), if_pos rfl]
  exact fun _ _ _ _ _ h _ => hc h

theorem parseString_close (s : List Char) : parseString ('"' :: s) = some ([], s) := by
  rw [parseString.eq_def]
  exact if_pos rfl

theorem parseString_plain {c : Char} (hspace : 0x20 ≤ c.toNat) (hquote : c.toNat ≠ 0x22)
    (hslash : c.toNat ≠ 0x5C) (s : List Char) :
    parseString (c :: s) = (parseString s).map fun r => (JsString.utf16 c ++ r.1, r.2) := by
  have hne : ∀ d : Char, c.toNat ≠ d.toNat → c ≠ d := fun d h heq => h (heq ▸ rfl)
  rw [parseString.eq_def]
  dsimp only
  rw [if_neg (hne '"' hquote), if_neg (hne '\\' hslash), if_neg (Nat.not_lt.mpr hspace)]

theorem parseString_quoteUnit (u : UInt16) (s : List Char) :
    parseString (quoteUnit u ++ s) = (parseString s).map fun r => (u :: r.1, r.2) := by
  unfold quoteUnit
  split
  · rename_i c hshort
    obtain ⟨hu, hc⟩ := unescape_shortEscape hshort
    simp only [List.cons_append, List.nil_append]
    rw [parseString_escape hu, hc, Option.bind_some]
  · rename_i hshort
    split_ifs with hescape
    · simp only [unicodeEscape, List.cons_append, List.nil_append]
      rw [parseString_unicode, hexUnit_digits, Option.bind_some]
    · simp only [isHighSurrogate, isLowSurrogate, Bool.or_eq_true, Bool.and_eq_true,
        decide_eq_true_eq, not_or, not_and] at hescape
      have hu := u.toNat_lt
      have hchar : (Char.ofNat u.toNat).toNat = u.toNat := toNat_charOfNat (by omega)
      have hquote : u.toNat ≠ 0x22 := fun h => by simp [shortEscape, h] at hshort
      have hslash : u.toNat ≠ 0x5C := fun h => by simp [shortEscape, h] at hshort
      have hunit : JsString.utf16 (Char.ofNat u.toNat) = [u] := by
        rw [JsString.utf16, hchar, if_pos hu, UInt16.ofNat_toNat]
      rw [List.singleton_append, parseString_plain (by omega) (by omega) (by omega), hunit]
      rfl

theorem utf16_pairChar {u v : UInt16} (hu : isHighSurrogate u = true)
    (hv : isLowSurrogate v = true) : JsString.utf16 (pairChar u v) = [u, v] := by
  simp only [isHighSurrogate, isLowSurrogate, Bool.and_eq_true, decide_eq_true_eq] at hu hv
  have hchar : (pairChar u v).toNat =
      0x10000 + (u.toNat - 0xD800) * 0x400 + (v.toNat - 0xDC00) :=
    toNat_charOfNat (by omega)
  have hhigh : 0xD800 + ((pairChar u v).toNat - 0x10000) / 0x400 = u.toNat := by omega
  have hlow : 0xDC00 + ((pairChar u v).toNat - 0x10000) % 0x400 = v.toNat := by omega
  rw [JsString.utf16, if_neg (by omega), hhigh, hlow, UInt16.ofNat_toNat, UInt16.ofNat_toNat]

theorem parseString_quoteUnits (us : List UInt16) (rest : List Char) :
    parseString (quoteUnits us ++ '"' :: rest) = some (us, rest) := by
  induction us using quoteUnits.induct with
  | case1 =>
      rw [quoteUnits, List.nil_append, parseString_close]
  | case2 u =>
      rw [quoteUnits, parseString_quoteUnit, parseString_close]
      rfl
  | case3 u v tail hpair ih =>
      simp only [quoteUnits, if_pos hpair, List.cons_append]
      rw [Bool.and_eq_true] at hpair
      have hunits := utf16_pairChar hpair.1 hpair.2
      have hbig : 0x10000 ≤ (pairChar u v).toNat := by
        by_contra hsmall
        rw [JsString.utf16, if_pos (by omega)] at hunits
        simp at hunits
      rw [parseString_plain (by omega) (by omega) (by omega), ih, hunits]
      rfl
  | case4 u v tail hpair ih =>
      rw [quoteUnits, if_neg hpair, List.append_assoc, parseString_quoteUnit, ih]
      rfl

/-! ## Values -/

namespace Json

variable {N : Type} [JsonNumber N]

/-- What `materialize` produces: finite numbers, ordered members. -/
def Canonical : Json N → Prop
  | .null => True
  | .bool _ => True
  | .num n => JsonNumber.isFinite n = true
  | .str _ => True
  | .arr elements => CanonicalElements elements
  | .obj members => SortedMembers members ∧ CanonicalMembers members
where
  CanonicalElements : List (Json N) → Prop
    | [] => True
    | e :: es => Canonical e ∧ CanonicalElements es
  CanonicalMembers : List (JsString × Json N) → Prop
    | [] => True
    | (_, v) :: ms => Canonical v ∧ CanonicalMembers ms

mutual

def Canonical.decide : (j : Json N) → Decidable (Canonical j)
  | .null => .isTrue trivial
  | .bool _ => .isTrue trivial
  | .num n => inferInstanceAs (Decidable (JsonNumber.isFinite n = true))
  | .str _ => .isTrue trivial
  | .arr elements => Canonical.decideElements elements
  | .obj members =>
      have := Canonical.decideMembers members
      inferInstanceAs (Decidable
        (members.Pairwise (fun a b => a.1 < b.1) ∧ Canonical.CanonicalMembers members))

def Canonical.decideElements :
    (es : List (Json N)) → Decidable (Canonical.CanonicalElements es)
  | [] => .isTrue trivial
  | e :: es =>
      have := Canonical.decide e
      have := Canonical.decideElements es
      inferInstanceAs (Decidable (Canonical e ∧ Canonical.CanonicalElements es))

def Canonical.decideMembers :
    (ms : List (JsString × Json N)) → Decidable (Canonical.CanonicalMembers ms)
  | [] => .isTrue trivial
  | (_, v) :: ms =>
      have := Canonical.decide v
      have := Canonical.decideMembers ms
      inferInstanceAs (Decidable (Canonical v ∧ Canonical.CanonicalMembers ms))

end

instance : DecidablePred (Canonical (N := N)) := Canonical.decide

theorem canonicalMembers_iff (ms : List (JsString × Json N)) :
    Canonical.CanonicalMembers ms ↔ ∀ m ∈ ms, Canonical m.2 := by
  induction ms with
  | nil => simp [Canonical.CanonicalMembers]
  | cons m ms ih =>
      rw [Canonical.CanonicalMembers, ih, List.forall_mem_cons]

theorem canonical_ofMembers {ms : List (JsString × Json N)} (h : ∀ m ∈ ms, Canonical m.2) :
    Canonical (.obj (ofMembers ms)) :=
  ⟨sorted_ofMembers ms,
    (canonicalMembers_iff _).mpr fun m hm => h m (mem_ofMembers hm)⟩

theorem canonical_insertMember {k : JsString} {v : Json N} {ms : List (JsString × Json N)}
    (hv : Canonical v) (h : Canonical (.obj ms)) : Canonical (.obj (insertMember k v ms)) := by
  refine ⟨h.1.insertMember, (canonicalMembers_iff _).mpr fun m hm => ?_⟩
  rcases mem_insertMember hm with rfl | hm
  · exact hv
  · exact (canonicalMembers_iff ms).mp h.2 m hm

/-- Its numbers are finite, so that `JSON.stringify` prints what it holds. -/
def Printable : Json N → Prop
  | .num n => JsonNumber.isFinite n = true
  | .arr elements => PrintableElements elements
  | .obj members => PrintableMembers members
  | _ => True
where
  PrintableElements : List (Json N) → Prop
    | [] => True
    | e :: es => Printable e ∧ PrintableElements es
  PrintableMembers : List (JsString × Json N) → Prop
    | [] => True
    | (_, v) :: ms => Printable v ∧ PrintableMembers ms

omit [JsonNumber N] in
/-- The value with the members of its objects in the order of their keys, as `parse`
gives it: two values are equal up to the order of members when these are equal. -/
def ordered : Json N → Json N
  | .arr elements => .arr (orderedElements elements)
  | .obj members => .obj (ofMembers (orderedMembers members))
  | j => j
where
  orderedElements : List (Json N) → List (Json N)
    | [] => []
    | e :: es => ordered e :: orderedElements es
  orderedMembers : List (JsString × Json N) → List (JsString × Json N)
    | [] => []
    | (k, v) :: ms => (k, ordered v) :: orderedMembers ms

theorem printableMembers_iff (ms : List (JsString × Json N)) :
    Printable.PrintableMembers ms ↔ ∀ m ∈ ms, Printable m.2 := by
  induction ms with
  | nil => simp [Printable.PrintableMembers]
  | cons m ms ih => rw [Printable.PrintableMembers, ih, List.forall_mem_cons]

mutual

theorem Canonical.printable : (j : Json N) → Canonical j → Printable j
  | .null, _ => trivial
  | .bool _, _ => trivial
  | .num _, h => h
  | .str _, _ => trivial
  | .arr elements, h => Canonical.printableElements elements h
  | .obj members, h => Canonical.printableMembers members h.2

theorem Canonical.printableElements : (es : List (Json N)) → CanonicalElements es →
    Printable.PrintableElements es
  | [], _ => trivial
  | e :: es, h => ⟨Canonical.printable e h.1, Canonical.printableElements es h.2⟩

theorem Canonical.printableMembers : (ms : List (JsString × Json N)) → CanonicalMembers ms →
    Printable.PrintableMembers ms
  | [], _ => trivial
  | (_, v) :: ms, h => ⟨Canonical.printable v h.1, Canonical.printableMembers ms h.2⟩

end

mutual

theorem Canonical.ordered_eq : (j : Json N) → Canonical j → ordered j = j
  | .null, _ => rfl
  | .bool _, _ => rfl
  | .num _, _ => rfl
  | .str _, _ => rfl
  | .arr elements, h => by rw [ordered, Canonical.orderedElements_eq elements h]
  | .obj members, h => by
      rw [ordered, Canonical.orderedMembers_eq members h.2, ofMembers_of_sorted h.1]

theorem Canonical.orderedElements_eq : (es : List (Json N)) → CanonicalElements es →
    ordered.orderedElements es = es
  | [], _ => rfl
  | e :: es, h => by
      rw [ordered.orderedElements, Canonical.ordered_eq e h.1, Canonical.orderedElements_eq es h.2]

theorem Canonical.orderedMembers_eq : (ms : List (JsString × Json N)) → CanonicalMembers ms →
    ordered.orderedMembers ms = ms
  | [], _ => rfl
  | (k, v) :: ms, h => by
      rw [ordered.orderedMembers, Canonical.ordered_eq v h.1, Canonical.orderedMembers_eq ms h.2]

end

mutual

theorem Printable.canonical : (j : Json N) → Printable j → Canonical (ordered j)
  | .null, _ => trivial
  | .bool _, _ => trivial
  | .num _, h => h
  | .str _, _ => trivial
  | .arr elements, h => Printable.canonicalElements elements h
  | .obj members, h => canonical_ofMembers (Printable.canonicalMembers members h)

theorem Printable.canonicalElements : (es : List (Json N)) → PrintableElements es →
    Canonical.CanonicalElements (ordered.orderedElements es)
  | [], _ => trivial
  | e :: es, h => ⟨Printable.canonical e h.1, Printable.canonicalElements es h.2⟩

theorem Printable.canonicalMembers : (ms : List (JsString × Json N)) → PrintableMembers ms →
    ∀ m ∈ ordered.orderedMembers ms, Canonical m.2
  | [], _ => by simp [ordered.orderedMembers]
  | (k, v) :: ms, h => by
      rw [ordered.orderedMembers, List.forall_mem_cons]
      exact ⟨Printable.canonical v h.1, Printable.canonicalMembers ms h.2⟩

end

/-- No number token can go on where the text goes on. -/
def Delimited (rest : List Char) : Prop := ∀ c, rest.head? = some c → isNumberChar c = false

/-- The characters a number can start with. -/
def isNumberStart (c : Char) : Bool := c == '-' || c.isDigit

/-- The characters a value can start with. -/
def isValueStart (c : Char) : Bool :=
  c == '"' || c == '[' || c == '\x7b' || c == 'n' || c == 't' || c == 'f' || isNumberStart c

omit [JsonNumber N] in
theorem skipSpace_valueStart {c : Char} (hc : isValueStart c = true) (s : List Char) :
    skipSpace (c :: s) = c :: s := by
  have hspace : isJsonSpace c = false := by
    by_contra h
    rw [Bool.not_eq_false] at h
    simp only [isJsonSpace, Bool.or_eq_true, beq_iff_eq] at h
    rcases h with ((rfl | rfl) | rfl) | rfl <;> revert hc <;> decide
  simp [skipSpace, hspace]

theorem head_of_isNumberToken {s : List Char} (h : isNumberToken s = true) :
    ∃ c rest, s = c :: rest ∧ isNumberStart c = true := by
  cases s with
  | nil => simp [isNumberToken] at h
  | cons c rest =>
      refine ⟨c, rest, rfl, ?_⟩
      by_cases hminus : c = '-'
      · simp [isNumberStart, hminus]
      · by_cases hzero : c = '0'
        · subst hzero
          decide
        · simp only [isNumberToken, List.head?_cons, Option.some.injEq, if_neg hminus,
            if_neg hzero, Bool.and_eq_true] at h
          simp [isNumberStart, h.1]

theorem head_render {j : Json N} (hj : Printable j) :
    ∃ c rest, render j = c :: rest ∧ isValueStart c = true := by
  cases j with
  | null => exact ⟨_, _, rfl, by decide⟩
  | bool b => cases b <;> exact ⟨_, _, rfl, by decide⟩
  | num n =>
      obtain ⟨c, rest, hprint, hc⟩ :=
        head_of_isNumberToken (JsonNumber.isNumberToken_print n hj)
      exact ⟨c, rest, hprint, by simp [isValueStart, hc]⟩
  | str s => exact ⟨_, _, rfl, by decide⟩
  | arr es => exact ⟨_, _, rfl, by decide⟩
  | obj ms => exact ⟨_, _, rfl, by decide⟩

/-- A number token that cannot go on is read whole. -/
theorem takeWhile_append_of_delimited {token rest : List Char}
    (htoken : ∀ c ∈ token, isNumberChar c = true) (hrest : Delimited rest) :
    (token ++ rest).takeWhile isNumberChar = token ∧
      (token ++ rest).dropWhile isNumberChar = rest := by
  induction token with
  | nil =>
      cases rest with
      | nil => simp
      | cons c rest => simp [hrest c rfl]
  | cons c token ih =>
      obtain ⟨htake, hdrop⟩ := ih fun d hd => htoken d (List.mem_cons_of_mem _ hd)
      simp [htoken c (List.mem_cons_self ..), htake, hdrop]

theorem parseScalar_number {s : List Char} {c : Char} (hs : s.head? = some c)
    (hc : isNumberStart c = true) :
    (parseScalar s : Option (Json N × List Char)) =
      if isNumberToken (s.takeWhile isNumberChar) then
        some (.num (JsonNumber.ofToken (s.takeWhile isNumberChar)), s.dropWhile isNumberChar)
      else none := by
  unfold parseScalar
  rw [hs]
  split
  · rename_i h
    obtain rfl := Option.some.inj h
    exact absurd hc (by decide)
  · rename_i h
    obtain rfl := Option.some.inj h
    exact absurd hc (by decide)
  · rename_i h
    obtain rfl := Option.some.inj h
    exact absurd hc (by decide)
  · rfl

theorem parseValue_scalar (fuel : Nat) {c : Char} (s : List Char)
    (hspace : skipSpace (c :: s) = c :: s) (hquote : c ≠ '"') (hbracket : c ≠ '[')
    (hbrace : c ≠ '\x7b') :
    (parseValue (fuel + 1) (c :: s) : Option (Json N × List Char)) = parseScalar (c :: s) := by
  rw [parseValue, hspace]
  split
  · rename_i h
    exact absurd (List.cons.inj h).1 hquote
  · rename_i h
    exact absurd (List.cons.inj h).1 hbracket
  · rename_i h
    exact absurd (List.cons.inj h).1 hbrace
  · rfl

theorem parseValue_number (fuel : Nat) {n : N} (hn : JsonNumber.isFinite n = true)
    {rest : List Char} (hrest : Delimited rest) :
    parseValue (fuel + 1) (JsonNumber.print n ++ rest) = some (.num n, rest) := by
  have htoken := JsonNumber.isNumberToken_print n hn
  obtain ⟨htake, hdrop⟩ :=
    takeWhile_append_of_delimited (JsonNumber.isNumberChar_print n hn) hrest
  obtain ⟨c, tail, hprint, hc⟩ := head_of_isNumberToken htoken
  have hvalue : isValueStart c = true := by simp [isValueStart, hc]
  have hne : ∀ d : Char, isNumberStart d = false → c ≠ d := by
    rintro d hd rfl
    rw [hc] at hd
    exact Bool.noConfusion hd
  have hscalar : (parseValue (fuel + 1) (JsonNumber.print n ++ rest) :
      Option (Json N × List Char)) = parseScalar (JsonNumber.print n ++ rest) := by
    rw [hprint]
    exact parseValue_scalar fuel _ (skipSpace_valueStart hvalue _) (hne _ (by decide))
      (hne _ (by decide)) (hne _ (by decide))
  rw [hscalar, parseScalar_number (c := c) (by rw [hprint]; rfl) hc, htake, hdrop,
    if_pos htoken, JsonNumber.ofToken_print n hn]

theorem parseValue_quote (fuel : Nat) {s rest : List Char} (hs : skipSpace s = '"' :: rest) :
    (parseValue (fuel + 1) s : Option (Json N × List Char)) =
      (parseString rest).map fun r => (.str ⟨r.1⟩, r.2) := by
  rw [parseValue, hs]
  rfl

theorem parseValue_bracket (fuel : Nat) {s rest : List Char} (hs : skipSpace s = '[' :: rest) :
    (parseValue (fuel + 1) s : Option (Json N × List Char)) =
      if (skipSpace rest).head? = some ']' then some (.arr [], (skipSpace rest).tail)
      else (parseElements fuel rest).map fun r => (.arr r.1, r.2) := by
  rw [parseValue, hs]
  rfl

theorem parseValue_brace (fuel : Nat) {s rest : List Char} (hs : skipSpace s = '\x7b' :: rest) :
    (parseValue (fuel + 1) s : Option (Json N × List Char)) =
      if (skipSpace rest).head? = some '\x7d' then some (.obj [], (skipSpace rest).tail)
      else (parseMembers fuel rest).map fun r => (.obj (ofMembers r.1), r.2) := by
  rw [parseValue, hs]
  rfl

theorem parseValue_string (fuel : Nat) (s : JsString) (rest : List Char) :
    (parseValue (fuel + 1) (quote s ++ rest) : Option (Json N × List Char)) =
      some (.str s, rest) := by
  have htext : quote s ++ rest = '"' :: (quoteUnits s.units ++ '"' :: rest) := by simp [quote]
  rw [htext, parseValue_quote fuel (skipSpace_valueStart (by decide) _), parseString_quoteUnits]
  rfl

/-! ## Containers -/

theorem skipSpace_of_not_space {c : Char} (hc : isJsonSpace c = false) (s : List Char) :
    skipSpace (c :: s) = c :: s := by
  simp [skipSpace, hc]

theorem delimited_cons {c : Char} (hc : isNumberChar c = false) (s : List Char) :
    Delimited (c :: s) := by
  intro d hd
  obtain rfl := Option.some.inj hd
  exact hc

/-- The text of a list of parts, up to the closing character. -/
theorem joinComma_cons (part : List Char) (parts : List (List Char)) (close : Char)
    (rest : List Char) :
    joinComma (part :: parts) ++ close :: rest =
      part ++ (if parts = [] then close :: rest
        else ',' :: (joinComma parts ++ close :: rest)) := by
  cases parts with
  | nil => simp [joinComma]
  | cons next parts => simp [joinComma]

theorem length_joinComma_cons (part : List Char) (parts : List (List Char)) :
    part.length + (if parts = [] then 0 else (joinComma parts).length + 1) =
      (joinComma (part :: parts)).length := by
  cases parts with
  | nil => simp [joinComma]
  | cons next parts => simp [joinComma]

/-- The bracket test sees the first character of the first element. -/
theorem head_skipSpace_parts {part : List Char} {c : Char} {tail : List Char}
    (hpart : part = c :: tail) (hc : isValueStart c = true) (parts : List (List Char))
    (rest : List Char) (close : Char) :
    (skipSpace (joinComma (part :: parts) ++ close :: rest)).head? = some c := by
  rw [joinComma_cons, hpart, List.cons_append, skipSpace_valueStart hc]
  rfl

/-- After a value, the rest of the elements. -/
theorem parseElements_value (fuel : Nat) {s rest : List Char} {v : Json N}
    (hv : parseValue fuel s = some (v, rest)) :
    parseElements (fuel + 1) s =
      match skipSpace rest with
      | ',' :: rest => (parseElements fuel rest).map fun r => (v :: r.1, r.2)
      | ']' :: rest => some ([v], rest)
      | _ => none := by
  rw [parseElements, hv]
  rfl

/-- After a member, the rest of the members. -/
theorem parseMembers_text (fuel : Nat) {s key colon value rest : List Char} {us : List UInt16}
    {v : Json N} (hquote : skipSpace s = '"' :: key) (hkey : parseString key = some (us, colon))
    (hcolon : skipSpace colon = ':' :: value) (hv : parseValue fuel value = some (v, rest)) :
    parseMembers (fuel + 1) s =
      match skipSpace rest with
      | ',' :: rest => (parseMembers fuel rest).map fun r => ((⟨us⟩, v) :: r.1, r.2)
      | '\x7d' :: rest => some ([(⟨us⟩, v)], rest)
      | _ => none := by
  rw [parseMembers, hquote]
  simp only [hkey, Option.bind_some]
  rw [hcolon]
  simp only [hv]
  rfl

theorem parseMembers_member (fuel : Nat) (k : JsString) {s rest : List Char} {v : Json N}
    (hv : parseValue fuel s = some (v, rest)) :
    parseMembers (fuel + 1) (quote k ++ ':' :: s) =
      match skipSpace rest with
      | ',' :: rest => (parseMembers fuel rest).map fun r => ((k, v) :: r.1, r.2)
      | '\x7d' :: rest => some ([(k, v)], rest)
      | _ => none := by
  have htext : quote k ++ ':' :: s = '"' :: (quoteUnits k.units ++ '"' :: ':' :: s) := by
    simp [quote]
  rw [htext]
  exact parseMembers_text fuel (skipSpace_of_not_space (by decide) _)
    (parseString_quoteUnits k.units (':' :: s)) (skipSpace_of_not_space (by decide) _) hv

mutual

/-- A rendered value is read back, and so is what follows it. -/
theorem parseValue_render : (j : Json N) → Printable j → ∀ (fuel : Nat) (rest : List Char),
    (render j).length < fuel → Delimited rest →
      parseValue fuel (render j ++ rest) = some (ordered j, rest)
  | .null, _, fuel + 1, rest, _, _ => by
      rw [render, List.cons_append, parseValue_scalar fuel _ (skipSpace_of_not_space (by decide) _)
        (by decide) (by decide) (by decide)]
      rfl
  | .bool true, _, fuel + 1, rest, _, _ => by
      rw [render, List.cons_append, parseValue_scalar fuel _ (skipSpace_of_not_space (by decide) _)
        (by decide) (by decide) (by decide)]
      rfl
  | .bool false, _, fuel + 1, rest, _, _ => by
      rw [render, List.cons_append, parseValue_scalar fuel _ (skipSpace_of_not_space (by decide) _)
        (by decide) (by decide) (by decide)]
      rfl
  | .num n, hn, fuel + 1, rest, _, hrest => by
      rw [render]
      exact parseValue_number fuel hn hrest
  | .str s, _, fuel + 1, rest, _, _ => by
      rw [render]
      exact parseValue_string fuel s rest
  | .arr [], _, fuel + 1, rest, _, _ => by
      rw [render, List.append_assoc, List.cons_append,
        parseValue_bracket fuel (skipSpace_of_not_space (by decide) _)]
      rfl
  | .arr (e :: es), hes, fuel + 1, rest, hfuel, _ => by
      have htext : render (.arr (e :: es)) ++ rest =
          '[' :: (joinComma (render.renderElements (e :: es)) ++ ']' :: rest) := by
        simp [render]
      have hlen : (joinComma (render.renderElements (e :: es))).length + 1 < fuel := by
        rw [render] at hfuel
        simp only [List.length_append, List.length_cons, List.length_nil] at hfuel
        omega
      obtain ⟨c, tail, hhead, hc⟩ := head_render hes.1
      have hopen : ¬(skipSpace (joinComma (render.renderElements (e :: es)) ++
          ']' :: rest)).head? = some ']' := by
        rw [render.renderElements, head_skipSpace_parts hhead hc]
        rintro ⟨⟩
        exact absurd hc (by decide)
      rw [htext, parseValue_bracket fuel (skipSpace_of_not_space (by decide) _), if_neg hopen,
        parseElements_render e es hes fuel rest hlen]
      rfl
  | .obj [], _, fuel + 1, rest, _, _ => by
      rw [render, List.append_assoc, List.cons_append,
        parseValue_brace fuel (skipSpace_of_not_space (by decide) _)]
      rfl
  | .obj ((k, v) :: ms), hms, fuel + 1, rest, hfuel, _ => by
      have htext : render (.obj ((k, v) :: ms)) ++ rest =
          '\x7b' :: (joinComma (render.renderMembers ((k, v) :: ms)) ++ '\x7d' :: rest) := by
        simp [render]
      have hlen : (joinComma (render.renderMembers ((k, v) :: ms))).length + 1 < fuel := by
        rw [render] at hfuel
        simp only [List.length_append, List.length_cons, List.length_nil] at hfuel
        omega
      have hopen : ¬(skipSpace (joinComma (render.renderMembers ((k, v) :: ms)) ++
          '\x7d' :: rest)).head? = some '\x7d' := by
        have hhead : quote k ++ ':' :: render v =
            '"' :: (quoteUnits k.units ++ '"' :: ':' :: render v) := by simp [quote]
        rw [render.renderMembers, head_skipSpace_parts hhead (by decide)]
        decide
      rw [htext, parseValue_brace fuel (skipSpace_of_not_space (by decide) _), if_neg hopen,
        parseMembers_render k v ms hms fuel rest hlen]
      rfl

theorem parseElements_render : (e : Json N) → (es : List (Json N)) →
    Printable.PrintableElements (e :: es) → ∀ (fuel : Nat) (rest : List Char),
      (joinComma (render.renderElements (e :: es))).length + 1 < fuel →
        parseElements fuel (joinComma (render.renderElements (e :: es)) ++ ']' :: rest) =
          some (ordered.orderedElements (e :: es), rest)
  | e, [], hes, fuel + 1, rest, hfuel => by
      simp only [render.renderElements, joinComma] at hfuel ⊢
      have hv := parseValue_render e hes.1 fuel (']' :: rest) (by omega)
        (delimited_cons (by decide) _)
      rw [parseElements_value fuel hv, skipSpace_of_not_space (by decide)]
      rfl
  | e, e' :: es, hes, fuel + 1, rest, hfuel => by
      have hlen := length_joinComma_cons (render e) (render.renderElements (e' :: es))
      rw [if_neg (by simp [render.renderElements])] at hlen
      rw [render.renderElements] at hfuel ⊢
      rw [joinComma_cons, if_neg (by simp [render.renderElements])]
      have hv := parseValue_render e hes.1 fuel
        (',' :: (joinComma (render.renderElements (e' :: es)) ++ ']' :: rest)) (by omega)
        (delimited_cons (by decide) _)
      have hrest := parseElements_render e' es hes.2 fuel rest (by omega)
      rw [parseElements_value fuel hv, skipSpace_of_not_space (by decide)]
      simp only [hrest, Option.map_some]
      rfl

theorem parseMembers_render : (k : JsString) → (v : Json N) → (ms : List (JsString × Json N)) →
    Printable.PrintableMembers ((k, v) :: ms) → ∀ (fuel : Nat) (rest : List Char),
      (joinComma (render.renderMembers ((k, v) :: ms))).length + 1 < fuel →
        parseMembers fuel (joinComma (render.renderMembers ((k, v) :: ms)) ++ '\x7d' :: rest) =
          some (ordered.orderedMembers ((k, v) :: ms), rest)
  | k, v, [], hms, fuel + 1, rest, hfuel => by
      simp only [render.renderMembers, joinComma, List.length_append, List.length_cons] at hfuel ⊢
      have hv := parseValue_render v hms.1 fuel ('\x7d' :: rest) (by omega)
        (delimited_cons (by decide) _)
      rw [List.append_assoc, List.cons_append, parseMembers_member fuel k hv,
        skipSpace_of_not_space (by decide)]
      rfl
  | k, v, (k', v') :: ms, hms, fuel + 1, rest, hfuel => by
      have hlen := length_joinComma_cons (quote k ++ ':' :: render v)
        (render.renderMembers ((k', v') :: ms))
      rw [if_neg (by simp [render.renderMembers]), List.length_append, List.length_cons] at hlen
      rw [render.renderMembers] at hfuel ⊢
      rw [joinComma_cons, if_neg (by simp [render.renderMembers])]
      have hv := parseValue_render v hms.1 fuel
        (',' :: (joinComma (render.renderMembers ((k', v') :: ms)) ++ '\x7d' :: rest)) (by omega)
        (delimited_cons (by decide) _)
      have hrest := parseMembers_render k' v' ms hms.2 fuel rest (by omega)
      rw [List.append_assoc, List.cons_append, parseMembers_member fuel k hv,
        skipSpace_of_not_space (by decide)]
      simp only [hrest, Option.map_some]
      rfl

end

omit [JsonNumber N] in
theorem skipSpace_append {before : List Char} (h : before.all isJsonSpace = true)
    (s : List Char) : skipSpace (before ++ s) = skipSpace s := by
  have hall : ∀ c ∈ before, isJsonSpace c = true := List.all_eq_true.mp h
  simp only [skipSpace]
  exact List.dropWhile_append_of_pos hall

omit [JsonNumber N] in
theorem skipSpace_eq_nil {s : List Char} (h : s.all isJsonSpace = true) : skipSpace s = [] := by
  have hall : ∀ c ∈ s, isJsonSpace c = true := List.all_eq_true.mp h
  exact List.dropWhile_eq_nil_iff.mpr hall

theorem parseValue_congr (fuel : Nat) {s t : List Char} (h : skipSpace s = skipSpace t) :
    (parseValue fuel s : Option (Json N × List Char)) = parseValue fuel t := by
  cases fuel with
  | zero => rfl
  | succ fuel => rw [parseValue, parseValue, h]

omit [JsonNumber N] in
theorem delimited_of_space {s : List Char} (h : s.all isJsonSpace = true) : Delimited s := by
  intro c hc
  obtain ⟨t, rfl⟩ := List.head?_eq_some_iff.mp hc
  have hspace := List.all_eq_true.mp h c (List.mem_cons_self ..)
  simp only [isJsonSpace, Bool.or_eq_true, beq_iff_eq] at hspace
  rcases hspace with ((rfl | rfl) | rfl) | rfl <;> decide

/-- `JSON.parse(JSON.stringify(v))`, with JSON white space around the text. -/
theorem parse_render_ordered {j : Json N} (hj : Printable j) (before after : List Char)
    (hbefore : before.all isJsonSpace = true) (hafter : after.all isJsonSpace = true) :
    parse (before ++ render j ++ after) = some (ordered j) := by
  have hvalue : parseValue (2 * (before ++ render j ++ after).length + 2)
      (before ++ render j ++ after) = some (ordered j, after) := by
    rw [parseValue_congr _ (t := render j ++ after)
      (by rw [List.append_assoc, skipSpace_append hbefore])]
    refine parseValue_render j hj _ after ?_ (delimited_of_space hafter)
    simp only [List.length_append]
    omega
  rw [parse, hvalue, Option.bind_some, if_pos (skipSpace_eq_nil hafter)]

/-- `JSON.parse(canonicalize(v))`, with JSON white space around it. -/
theorem parse_render {j : Json N} (hj : Canonical j) (before after : List Char)
    (hbefore : before.all isJsonSpace = true) (hafter : after.all isJsonSpace = true) :
    parse (before ++ render j ++ after) = some j := by
  rw [parse_render_ordered hj.printable before after hbefore hafter, hj.ordered_eq]

/-- `JSON.parse(JSON.stringify(v))` -/
theorem parse_stringify {j : Json N} (hj : Printable j) : parse j.render = some j.ordered := by
  have h := parse_render_ordered hj [] [] rfl rfl
  rwa [List.nil_append, List.append_nil] at h

end Json

/-- `JSON.parse(canonicalize(v))` -/
theorem Json.parse_render_self {N : Type} [JsonNumber N] {j : Json N} (hj : j.Canonical) :
    Json.parse j.render = some j := by
  have h := Json.parse_render hj [] [] rfl rfl
  rwa [List.nil_append, List.append_nil] at h

/-! ## Reading is local -/

/-- `p` reads `used` off the front of a text, and reads it the same before any
continuation that `ok` allows. -/
def Reads {α : Type} (p : List Char → Option (α × List Char)) (ok : List Char → Prop)
    (a : α) (used : List Char) : Prop :=
  used ≠ [] ∧ ∀ t, ok t → p (used ++ t) = some (a, t)

/-- No condition on what follows. -/
def Anything (_ : List Char) : Prop := True

theorem exists_spaces (s : List Char) :
    ∃ spaces, spaces.all isJsonSpace = true ∧ s = spaces ++ skipSpace s :=
  ⟨s.takeWhile isJsonSpace, List.all_eq_true.mpr fun _ hc => List.mem_takeWhile_imp hc,
    List.takeWhile_append_dropWhile.symm⟩

theorem parseString_reads {s rest : List Char} {us : List UInt16}
    (h : parseString s = some (us, rest)) :
    ∃ used, s = used ++ rest ∧ Reads parseString Anything us used := by
  induction s using parseString.induct generalizing us with
  | case1 => simp [parseString] at h
  | case2 s =>
      rw [parseString_close] at h
      obtain ⟨rfl, rfl⟩ := Prod.mk.inj (Option.some.inj h)
      exact ⟨['"'], rfl, by simp, fun t _ => parseString_close t⟩
  | case3 x y z w s _ ih =>
      rw [parseString_unicode, Option.bind_eq_some_iff] at h
      obtain ⟨u, hu, h⟩ := h
      obtain ⟨⟨vs, r⟩, hs, hret⟩ := Option.map_eq_some_iff.mp h
      obtain ⟨rfl, rfl⟩ := Prod.mk.inj hret
      obtain ⟨used, rfl, -, hread⟩ := ih hs
      refine ⟨'\\' :: 'u' :: x :: y :: z :: w :: used, rfl, by simp, fun t ht => ?_⟩
      simp only [List.cons_append]
      rw [parseString_unicode, hu, Option.bind_some, hread t ht]
      rfl
  | case4 e s hnot _ ih =>
      have he : e ≠ 'u' := by
        rintro rfl
        rw [parseString.eq_def] at h
        dsimp only at h
        rw [if_neg (by decide), if_pos rfl] at h
        split at h
        · rename_i heq
          exact hnot _ _ _ _ _ rfl (List.cons.inj heq).2
        · rename_i heq
          obtain ⟨rfl, -⟩ := List.cons.inj heq
          simp [unescape] at h
        · simp at h
      rw [parseString_escape he, Option.bind_eq_some_iff] at h
      obtain ⟨u, hu, h⟩ := h
      obtain ⟨⟨vs, r⟩, hs, hret⟩ := Option.map_eq_some_iff.mp h
      obtain ⟨rfl, rfl⟩ := Prod.mk.inj hret
      obtain ⟨used, rfl, -, hread⟩ := ih hs
      refine ⟨'\\' :: e :: used, rfl, by simp, fun t ht => ?_⟩
      simp only [List.cons_append]
      rw [parseString_escape he, hu, Option.bind_some, hread t ht]
      rfl
  | case5 => simp [parseString] at h
  | case6 c s hquote hslash hcontrol =>
      rw [parseString.eq_def] at h
      simp [hquote, hslash, hcontrol] at h
  | case7 c s hquote hslash hcontrol ih =>
      have hstep : ∀ s, parseString (c :: s) =
          (parseString s).map fun r => (JsString.utf16 c ++ r.1, r.2) := by
        intro s
        rw [parseString.eq_def]
        dsimp only
        rw [if_neg hquote, if_neg hslash, if_neg hcontrol]
      rw [hstep] at h
      obtain ⟨⟨vs, r⟩, hs, hret⟩ := Option.map_eq_some_iff.mp h
      obtain ⟨rfl, rfl⟩ := Prod.mk.inj hret
      obtain ⟨used, rfl, -, hread⟩ := ih hs
      refine ⟨c :: used, rfl, by simp, fun t ht => ?_⟩
      rw [List.cons_append, hstep, hread t ht]
      rfl

theorem stripWord_reads {word s rest : List Char} (h : stripWord word s = some rest) :
    s = word ++ rest ∧ ∀ t, stripWord word (word ++ t) = some t := by
  unfold stripWord at h ⊢
  split at h
  · rename_i hprefix
    obtain ⟨tail, rfl⟩ := List.isPrefixOf_iff_prefix.mp hprefix
    obtain rfl : tail = rest := by simpa using h
    simp
  · simp at h

namespace Json

variable {N : Type} [JsonNumber N]

/-- What may follow a value: anything, unless the value is a number. -/
def MayFollow (v : Json N) (t : List Char) : Prop := Delimited t ∨ ∀ n, v ≠ .num n

theorem parseScalar_word {c : Char} (word : List Char) {v : Json N} {s rest : List Char}
    (hv : ∀ t, (parseScalar (c :: t) : Option (Json N × List Char)) =
      (stripWord (c :: word) (c :: t)).map fun rest => (v, rest)) {w : Json N}
    (h : parseScalar (c :: s) = some (w, rest)) :
    w = v ∧ c :: s = (c :: word) ++ rest ∧ Reads parseScalar Anything v (c :: word) := by
  rw [hv] at h
  obtain ⟨r, hr, hret⟩ := Option.map_eq_some_iff.mp h
  obtain ⟨rfl, rfl⟩ := Prod.mk.inj hret
  obtain ⟨hs, hread⟩ := stripWord_reads hr
  refine ⟨rfl, hs, by simp, fun t _ => ?_⟩
  have ht := hread t
  rw [List.cons_append] at ht ⊢
  rw [hv, ht]
  rfl

theorem parseScalar_other {c : Char} (hn : c ≠ 'n') (ht : c ≠ 't') (hf : c ≠ 'f')
    (s : List Char) :
    (parseScalar (c :: s) : Option (Json N × List Char)) =
      if isNumberToken ((c :: s).takeWhile isNumberChar) then
        some (.num (JsonNumber.ofToken ((c :: s).takeWhile isNumberChar)),
          (c :: s).dropWhile isNumberChar)
      else none := by
  unfold parseScalar
  rw [List.head?_cons]
  split
  · rename_i h
    exact absurd (Option.some.inj h) hn
  · rename_i h
    exact absurd (Option.some.inj h) ht
  · rename_i h
    exact absurd (Option.some.inj h) hf
  · rfl

theorem parseScalar_reads {s rest : List Char} {v : Json N}
    (h : parseScalar s = some (v, rest)) :
    ∃ used, s = used ++ rest ∧ Reads parseScalar (MayFollow v) v used := by
  cases s with
  | nil => simp [parseScalar, isNumberToken] at h
  | cons c s =>
      have hword : ∀ {word : List Char} {w : Json N},
          (v = w ∧ c :: s = (c :: word) ++ rest ∧ Reads parseScalar Anything w (c :: word)) →
          ∃ used, c :: s = used ++ rest ∧ Reads parseScalar (MayFollow v) v used := by
        rintro word w ⟨rfl, hs, hne, hread⟩
        exact ⟨c :: word, hs, hne, fun t _ => hread t trivial⟩
      by_cases hn : c = 'n'
      · subst hn
        exact hword (parseScalar_word ['u', 'l', 'l'] (v := .null) (fun _ => rfl) h)
      by_cases ht : c = 't'
      · subst ht
        exact hword (parseScalar_word ['r', 'u', 'e'] (v := .bool true)
          (fun _ => rfl) h)
      by_cases hf : c = 'f'
      · subst hf
        exact hword (parseScalar_word ['a', 'l', 's', 'e'] (v := .bool false)
          (fun _ => rfl) h)
      rw [parseScalar_other hn ht hf] at h
      split_ifs at h with htoken
      obtain ⟨rfl, rfl⟩ := Prod.mk.inj (Option.some.inj h)
      obtain ⟨d, tail, hhead, hd⟩ := head_of_isNumberToken htoken
      refine ⟨(c :: s).takeWhile isNumberChar, List.takeWhile_append_dropWhile.symm, ?_, ?_⟩
      · rw [hhead]
        exact List.cons_ne_nil d tail
      · rintro t (hdelimited | hnum)
        · obtain ⟨htake, hdrop⟩ := takeWhile_append_of_delimited
            (fun x hx => List.mem_takeWhile_imp hx) hdelimited
          rw [parseScalar_number (c := d) (by rw [hhead]; rfl) hd, htake, hdrop, if_pos htoken]
        · exact absurd rfl (hnum _)

/-! ## Values, wherever they stand -/

omit [JsonNumber N] in
theorem exists_spaces_of_eq {s tail : List Char} {c : Char} (h : skipSpace s = c :: tail) :
    ∃ spaces, spaces.all isJsonSpace = true ∧ s = spaces ++ c :: tail := by
  obtain ⟨spaces, hspaces, hs⟩ := exists_spaces s
  exact ⟨spaces, hspaces, h ▸ hs⟩

omit [JsonNumber N] in
theorem skipSpace_spaces {spaces : List Char} (h : spaces.all isJsonSpace = true) {c : Char}
    (hc : isJsonSpace c = false) (s : List Char) : skipSpace (spaces ++ c :: s) = c :: s := by
  rw [skipSpace_append h, skipSpace_of_not_space hc]

omit [JsonNumber N] in
theorem delimited_spaces {spaces : List Char} (h : spaces.all isJsonSpace = true) {c : Char}
    (hc : isNumberChar c = false) (s : List Char) : Delimited (spaces ++ c :: s) := by
  cases spaces with
  | nil => exact delimited_cons hc s
  | cons d spaces =>
      rw [List.all_cons, Bool.and_eq_true] at h
      have hd : Delimited [d] := delimited_of_space (by simp [h.1])
      exact delimited_cons (hd d rfl) _

omit [JsonNumber N] in
theorem isJsonSpace_of_skipSpace {c : Char} {s tail : List Char} (h : skipSpace s = c :: tail) :
    isJsonSpace c = false := by
  have hhead := List.head?_dropWhile_not isJsonSpace s
  rw [← skipSpace, h] at hhead
  exact hhead

theorem parseValue_none (fuel : Nat) {c : Char} {s tail : List Char}
    (hs : skipSpace s = c :: tail) (hc : isValueStart c = false) :
    (parseValue fuel s : Option (Json N × List Char)) = none := by
  have hne : ∀ d : Char, isValueStart d = true → c ≠ d := by
    rintro d hd rfl
    rw [hc] at hd
    exact Bool.noConfusion hd
  cases fuel with
  | zero => rw [parseValue]
  | succ fuel =>
      have hspace : skipSpace (c :: tail) = c :: tail :=
        skipSpace_of_not_space (isJsonSpace_of_skipSpace hs) tail
      rw [parseValue_congr (fuel + 1) (t := c :: tail) (by rw [hs, hspace]),
        parseValue_scalar fuel tail hspace (hne _ (by decide)) (hne _ (by decide))
          (hne _ (by decide)),
        parseScalar_other (hne _ (by decide)) (hne _ (by decide)) (hne _ (by decide)), if_neg]
      intro htoken
      obtain ⟨d, _, hhead, hd⟩ := head_of_isNumberToken htoken
      rw [List.takeWhile_cons] at hhead
      split_ifs at hhead
      obtain rfl := (List.cons.inj hhead).1
      simp [isValueStart, hd] at hc

theorem parseMembers_none (fuel : Nat) {s : List Char} (hs : (skipSpace s).head? ≠ some '"') :
    (parseMembers fuel s : Option (List (JsString × Json N) × List Char)) = none := by
  cases fuel with
  | zero => rw [parseMembers]
  | succ fuel =>
      rw [parseMembers]
      split
      · rename_i h
        exact absurd (congrArg List.head? h) hs
      · rfl

/-- What a list of elements is made of. -/
theorem parseElements_cases {fuel : Nat} {s rest : List Char} {vs : List (Json N)}
    (h : parseElements (fuel + 1) s = some (vs, rest)) :
    ∃ v r, parseValue fuel s = some (v, r) ∧
      ((∃ tail vs', skipSpace r = ',' :: tail ∧ parseElements fuel tail = some (vs', rest) ∧
          vs = v :: vs') ∨
        (skipSpace r = ']' :: rest ∧ vs = [v])) := by
  rw [parseElements] at h
  obtain ⟨⟨v, r⟩, hv, h⟩ := Option.bind_eq_some_iff.mp h
  refine ⟨v, r, hv, ?_⟩
  dsimp only at h
  split at h
  · rename_i tail hcomma
    obtain ⟨⟨vs', r'⟩, hvs, hret⟩ := Option.map_eq_some_iff.mp h
    obtain ⟨rfl, rfl⟩ := Prod.mk.inj hret
    exact Or.inl ⟨tail, vs', hcomma, hvs, rfl⟩
  · rename_i tail hclose
    obtain ⟨rfl, rfl⟩ := Prod.mk.inj (Option.some.inj h)
    exact Or.inr ⟨hclose, rfl⟩
  · exact absurd h (by simp)

/-- What a list of members is made of. -/
theorem parseMembers_cases {fuel : Nat} {s rest : List Char} {ms : List (JsString × Json N)}
    (h : parseMembers (fuel + 1) s = some (ms, rest)) :
    ∃ key us colon value v r, skipSpace s = '"' :: key ∧ parseString key = some (us, colon) ∧
      skipSpace colon = ':' :: value ∧ parseValue fuel value = some (v, r) ∧
        ((∃ tail ms', skipSpace r = ',' :: tail ∧ parseMembers fuel tail = some (ms', rest) ∧
            ms = (⟨us⟩, v) :: ms') ∨
          (skipSpace r = '\x7d' :: rest ∧ ms = [(⟨us⟩, v)])) := by
  rw [parseMembers] at h
  split at h
  swap
  · exact absurd h (by simp)
  rename_i key hquote
  obtain ⟨⟨us, colon⟩, hkey, hmember⟩ := Option.bind_eq_some_iff.mp h
  clear h
  dsimp only at hmember
  split at hmember
  swap
  · exact absurd hmember (by simp)
  rename_i value hcolon
  obtain ⟨⟨v, r⟩, hv, hnext⟩ := Option.bind_eq_some_iff.mp hmember
  clear hmember
  refine ⟨key, us, colon, value, v, r, hquote, hkey, hcolon, hv, ?_⟩
  dsimp only at hnext
  split at hnext
  · rename_i tail hcomma
    obtain ⟨⟨ms', r'⟩, hms, hret⟩ := Option.map_eq_some_iff.mp hnext
    obtain ⟨rfl, rfl⟩ := Prod.mk.inj hret
    exact Or.inl ⟨tail, ms', hcomma, hms, rfl⟩
  · rename_i tail hclose
    obtain ⟨rfl, rfl⟩ := Prod.mk.inj (Option.some.inj hnext)
    exact Or.inr ⟨hclose, rfl⟩
  · exact absurd hnext (by simp)

/-- What the three readers at one fuel have in common: the text read is read
the same before any other continuation.  Members end with their brace. -/
structure ReadsLocally (N : Type) [JsonNumber N] (fuel : Nat) : Prop where
  value : ∀ {s rest : List Char} {v : Json N}, parseValue fuel s = some (v, rest) →
    ∃ used, s = used ++ rest ∧ Reads (parseValue fuel) (MayFollow v) v used
  elements : ∀ {s rest : List Char} {vs : List (Json N)}, parseElements fuel s = some (vs, rest) →
    ∃ used, s = used ++ rest ∧ Reads (parseElements fuel) Anything vs used
  members : ∀ {s rest : List Char} {ms : List (JsString × Json N)},
    parseMembers fuel s = some (ms, rest) →
      ∃ body, s = body ++ '\x7d' :: rest ∧
        Reads (parseMembers fuel) Anything ms (body ++ ['\x7d'])

/-- The text of an object ends with its brace. -/
theorem parseValue_object_reads {fuel : Nat} (ih : ReadsLocally N fuel) {s tail rest : List Char}
    {v : Json N} (hs : skipSpace s = '\x7b' :: tail)
    (h : parseValue (fuel + 1) s = some (v, rest)) :
    ∃ body, s = body ++ '\x7d' :: rest ∧
      Reads (parseValue (fuel + 1)) Anything v (body ++ ['\x7d']) := by
  obtain ⟨spaces, hspaces, rfl⟩ := exists_spaces_of_eq hs
  have hbrace : ∀ t, skipSpace (spaces ++ '\x7b' :: t) = '\x7b' :: t :=
    skipSpace_spaces hspaces (by decide)
  rw [parseValue_brace fuel (hbrace tail)] at h
  split_ifs at h with hclose
  · obtain ⟨tail', htail⟩ := List.head?_eq_some_iff.mp hclose
    rw [htail] at h
    obtain ⟨rfl, rfl⟩ := Prod.mk.inj (Option.some.inj h)
    obtain ⟨inner, hinner, rfl⟩ := exists_spaces_of_eq htail
    refine ⟨spaces ++ '\x7b' :: inner, by simp, by simp, fun t _ => ?_⟩
    have htext : spaces ++ '\x7b' :: inner ++ ['\x7d'] ++ t =
        spaces ++ '\x7b' :: (inner ++ '\x7d' :: t) := by simp
    rw [htext, parseValue_brace fuel (hbrace _), skipSpace_spaces hinner (by decide)]
    rfl
  · obtain ⟨⟨ms, r⟩, hms, hret⟩ := Option.map_eq_some_iff.mp h
    obtain ⟨rfl, rfl⟩ := Prod.mk.inj hret
    obtain ⟨body, rfl, hne, hread⟩ := ih.members hms
    refine ⟨spaces ++ '\x7b' :: body, by simp, by simp, fun t ht => ?_⟩
    have htext : spaces ++ '\x7b' :: body ++ ['\x7d'] ++ t =
        spaces ++ '\x7b' :: (body ++ ['\x7d'] ++ t) := by simp
    have hopen : ¬(skipSpace (body ++ ['\x7d'] ++ t)).head? = some '\x7d' := by
      intro hclose
      have hnone := parseMembers_none (N := N) fuel (s := body ++ ['\x7d'] ++ t)
        (by rw [hclose]; decide)
      rw [hread t ht] at hnone
      exact absurd hnone (Option.some_ne_none _)
    rw [htext, parseValue_brace fuel (hbrace _), if_neg hopen, hread t ht]
    rfl

theorem parseValue_array_reads {fuel : Nat} (ih : ReadsLocally N fuel) {s tail rest : List Char}
    {v : Json N} (hs : skipSpace s = '[' :: tail)
    (h : parseValue (fuel + 1) s = some (v, rest)) :
    ∃ used, s = used ++ rest ∧ Reads (parseValue (fuel + 1)) Anything v used := by
  obtain ⟨spaces, hspaces, rfl⟩ := exists_spaces_of_eq hs
  have hbracket : ∀ t, skipSpace (spaces ++ '[' :: t) = '[' :: t :=
    skipSpace_spaces hspaces (by decide)
  rw [parseValue_bracket fuel (hbracket tail)] at h
  split_ifs at h with hclose
  · obtain ⟨tail', htail⟩ := List.head?_eq_some_iff.mp hclose
    rw [htail] at h
    obtain ⟨rfl, rfl⟩ := Prod.mk.inj (Option.some.inj h)
    obtain ⟨inner, hinner, rfl⟩ := exists_spaces_of_eq htail
    refine ⟨spaces ++ '[' :: inner ++ [']'], by simp, by simp, fun t _ => ?_⟩
    have htext : spaces ++ '[' :: inner ++ [']'] ++ t =
        spaces ++ '[' :: (inner ++ ']' :: t) := by simp
    rw [htext, parseValue_bracket fuel (hbracket _), skipSpace_spaces hinner (by decide)]
    rfl
  · obtain ⟨⟨vs, r⟩, hvs, hret⟩ := Option.map_eq_some_iff.mp h
    obtain ⟨rfl, rfl⟩ := Prod.mk.inj hret
    obtain ⟨used, rfl, hne, hread⟩ := ih.elements hvs
    refine ⟨spaces ++ '[' :: used, by simp, by simp, fun t ht => ?_⟩
    have htext : spaces ++ '[' :: used ++ t = spaces ++ '[' :: (used ++ t) := by simp
    have hopen : ¬(skipSpace (used ++ t)).head? = some ']' := by
      intro hclose
      obtain ⟨tail, htail⟩ := List.head?_eq_some_iff.mp hclose
      have hread := hread t ht
      cases fuel with
      | zero => simp [parseElements] at hread
      | succ fuel =>
          rw [parseElements, parseValue_none fuel htail (by decide)] at hread
          exact absurd hread (by simp)
    rw [htext, parseValue_bracket fuel (hbracket _), if_neg hopen, hread t ht]
    rfl

theorem parseValue_quote_reads {fuel : Nat} {s tail rest : List Char} {v : Json N}
    (hs : skipSpace s = '"' :: tail) (h : parseValue (fuel + 1) s = some (v, rest)) :
    ∃ used, s = used ++ rest ∧ Reads (parseValue (fuel + 1)) Anything v used := by
  obtain ⟨spaces, hspaces, rfl⟩ := exists_spaces_of_eq hs
  have hquote : ∀ t, skipSpace (spaces ++ '"' :: t) = '"' :: t :=
    skipSpace_spaces hspaces (by decide)
  rw [parseValue_quote fuel (hquote tail)] at h
  obtain ⟨⟨us, r⟩, hus, hret⟩ := Option.map_eq_some_iff.mp h
  obtain ⟨rfl, rfl⟩ := Prod.mk.inj hret
  obtain ⟨used, rfl, -, hread⟩ := parseString_reads hus
  refine ⟨spaces ++ '"' :: used, by simp, by simp, fun t ht => ?_⟩
  have htext : spaces ++ '"' :: used ++ t = spaces ++ '"' :: (used ++ t) := by simp
  rw [htext, parseValue_quote fuel (hquote _), hread t ht]
  rfl

theorem parseValue_scalar_reads {fuel : Nat} {s rest : List Char} {v : Json N}
    (hquote : (skipSpace s).head? ≠ some '"') (hbracket : (skipSpace s).head? ≠ some '[')
    (hbrace : (skipSpace s).head? ≠ some '\x7b')
    (h : parseValue (fuel + 1) s = some (v, rest)) :
    ∃ used, s = used ++ rest ∧ Reads (parseValue (fuel + 1)) (MayFollow v) v used := by
  obtain ⟨spaces, hspaces, hs⟩ := exists_spaces s
  have hscalar : parseScalar (skipSpace s) = some (v, rest) := by
    rw [parseValue] at h
    split at h
    · rename_i heq
      exact absurd (congrArg List.head? heq) hquote
    · rename_i heq
      exact absurd (congrArg List.head? heq) hbracket
    · rename_i heq
      exact absurd (congrArg List.head? heq) hbrace
    · exact h
  obtain ⟨used, hused, hne, hread⟩ := parseScalar_reads hscalar
  obtain ⟨c, used', rfl⟩ := List.exists_cons_of_ne_nil hne
  refine ⟨spaces ++ c :: used', by rw [List.append_assoc, ← hused, ← hs], by simp,
    fun t ht => ?_⟩
  rw [hused] at hquote hbracket hbrace
  have hhead : ∀ {d : Char}, (c :: used' ++ rest).head? ≠ some d → c ≠ d :=
    fun h heq => h (heq ▸ rfl)
  have hspace : ∀ t, skipSpace (c :: t) = c :: t :=
    skipSpace_of_not_space (isJsonSpace_of_skipSpace hused)
  rw [parseValue_congr (fuel + 1) (t := c :: used' ++ t)
    (by rw [List.append_assoc, skipSpace_append hspaces]), List.cons_append,
    parseValue_scalar fuel _ (hspace _) (hhead hquote) (hhead hbracket) (hhead hbrace)]
  exact hread t ht

/-- The value or the end of the value is where it stands in the text. -/
theorem parseValue_succ_reads {fuel : Nat} (ih : ReadsLocally N fuel) {s rest : List Char}
    {v : Json N} (h : parseValue (fuel + 1) s = some (v, rest)) :
    ∃ used, s = used ++ rest ∧ Reads (parseValue (fuel + 1)) (MayFollow v) v used := by
  have hweaken : ∀ {used : List Char}, Reads (parseValue (fuel + 1)) Anything v used →
      Reads (parseValue (fuel + 1)) (MayFollow v) v used :=
    fun hread => ⟨hread.1, fun t _ => hread.2 t trivial⟩
  by_cases hquote : (skipSpace s).head? = some '"'
  · obtain ⟨tail, htail⟩ := List.head?_eq_some_iff.mp hquote
    obtain ⟨used, hs, hread⟩ := parseValue_quote_reads htail h
    exact ⟨used, hs, hweaken hread⟩
  by_cases hbracket : (skipSpace s).head? = some '['
  · obtain ⟨tail, htail⟩ := List.head?_eq_some_iff.mp hbracket
    obtain ⟨used, hs, hread⟩ := parseValue_array_reads ih htail h
    exact ⟨used, hs, hweaken hread⟩
  by_cases hbrace : (skipSpace s).head? = some '\x7b'
  · obtain ⟨tail, htail⟩ := List.head?_eq_some_iff.mp hbrace
    obtain ⟨body, hs, hread⟩ := parseValue_object_reads ih htail h
    exact ⟨body ++ ['\x7d'], by rw [hs]; simp, hweaken hread⟩
  exact parseValue_scalar_reads hquote hbracket hbrace h

theorem parseElements_succ_reads {fuel : Nat} (ih : ReadsLocally N fuel) {s rest : List Char}
    {vs : List (Json N)} (h : parseElements (fuel + 1) s = some (vs, rest)) :
    ∃ used, s = used ++ rest ∧ Reads (parseElements (fuel + 1)) Anything vs used := by
  obtain ⟨v, r, hv, hnext⟩ := parseElements_cases h
  obtain ⟨usedValue, rfl, hne, hvalue⟩ := ih.value hv
  rcases hnext with ⟨tail, vs', hcomma, hvs, rfl⟩ | ⟨hclose, rfl⟩
  · obtain ⟨spaces, hspaces, rfl⟩ := exists_spaces_of_eq hcomma
    obtain ⟨used, rfl, -, hread⟩ := ih.elements hvs
    refine ⟨usedValue ++ (spaces ++ ',' :: used), by simp, by simp [hne], fun t ht => ?_⟩
    have htext : usedValue ++ (spaces ++ ',' :: used) ++ t =
        usedValue ++ (spaces ++ ',' :: (used ++ t)) := by simp
    rw [htext, parseElements_value fuel
      (hvalue _ (Or.inl (delimited_spaces hspaces (by decide) _))),
      skipSpace_spaces hspaces (by decide)]
    simp only [hread t ht, Option.map_some]
  · obtain ⟨spaces, hspaces, rfl⟩ := exists_spaces_of_eq hclose
    refine ⟨usedValue ++ (spaces ++ [']']), by simp, by simp, fun t _ => ?_⟩
    have htext : usedValue ++ (spaces ++ [']']) ++ t = usedValue ++ (spaces ++ ']' :: t) := by
      simp
    rw [htext, parseElements_value fuel
      (hvalue _ (Or.inl (delimited_spaces hspaces (by decide) _))),
      skipSpace_spaces hspaces (by decide)]
    rfl

theorem parseMembers_succ_reads {fuel : Nat} (ih : ReadsLocally N fuel) {s rest : List Char}
    {ms : List (JsString × Json N)} (h : parseMembers (fuel + 1) s = some (ms, rest)) :
    ∃ body, s = body ++ '\x7d' :: rest ∧
      Reads (parseMembers (fuel + 1)) Anything ms (body ++ ['\x7d']) := by
  obtain ⟨key, us, colon, value, v, r, hquote, hkey, hcolon, hv, hnext⟩ := parseMembers_cases h
  obtain ⟨spacesQuote, hspacesQuote, rfl⟩ := exists_spaces_of_eq hquote
  obtain ⟨usedKey, rfl, -, hreadKey⟩ := parseString_reads hkey
  obtain ⟨spacesColon, hspacesColon, rfl⟩ := exists_spaces_of_eq hcolon
  obtain ⟨usedValue, rfl, hne, hreadValue⟩ := ih.value hv
  rcases hnext with ⟨tail, ms', hcomma, hms, rfl⟩ | ⟨hclose, rfl⟩
  · obtain ⟨spaces, hspaces, rfl⟩ := exists_spaces_of_eq hcomma
    obtain ⟨body, rfl, -, hread⟩ := ih.members hms
    refine ⟨spacesQuote ++ '"' :: (usedKey ++ (spacesColon ++ ':' :: (usedValue ++
      (spaces ++ ',' :: body)))), by simp, by simp, fun t ht => ?_⟩
    have htext : spacesQuote ++ '"' :: (usedKey ++ (spacesColon ++ ':' :: (usedValue ++
        (spaces ++ ',' :: body)))) ++ ['\x7d'] ++ t =
        spacesQuote ++ '"' :: (usedKey ++ (spacesColon ++ ':' :: (usedValue ++
          (spaces ++ ',' :: (body ++ ['\x7d'] ++ t))))) := by simp
    rw [htext, parseMembers_text fuel (skipSpace_spaces hspacesQuote (by decide) _)
      (hreadKey _ trivial) (skipSpace_spaces hspacesColon (by decide) _)
      (hreadValue _ (Or.inl (delimited_spaces hspaces (by decide) _))),
      skipSpace_spaces hspaces (by decide)]
    simp only [hread t ht, Option.map_some]
  · obtain ⟨spaces, hspaces, rfl⟩ := exists_spaces_of_eq hclose
    refine ⟨spacesQuote ++ '"' :: (usedKey ++ (spacesColon ++ ':' :: (usedValue ++ spaces))),
      by simp, by simp, fun t ht => ?_⟩
    have htext : spacesQuote ++ '"' :: (usedKey ++ (spacesColon ++ ':' :: (usedValue ++
        spaces))) ++ ['\x7d'] ++ t = spacesQuote ++ '"' :: (usedKey ++ (spacesColon ++
          ':' :: (usedValue ++ (spaces ++ '\x7d' :: t)))) := by simp
    rw [htext, parseMembers_text fuel (skipSpace_spaces hspacesQuote (by decide) _)
      (hreadKey _ trivial) (skipSpace_spaces hspacesColon (by decide) _)
      (hreadValue _ (Or.inl (delimited_spaces hspaces (by decide) _))),
      skipSpace_spaces hspaces (by decide)]
    rfl

/-- Reading is local, at every fuel. -/
theorem readsLocally (fuel : Nat) : ReadsLocally N fuel := by
  induction fuel with
  | zero =>
      refine ⟨?_, ?_, ?_⟩ <;> intro s rest v h
      · rw [parseValue] at h
        exact absurd h (by simp)
      · rw [parseElements] at h
        exact absurd h (by simp)
      · rw [parseMembers] at h
        exact absurd h (by simp)
  | succ fuel ih =>
      exact ⟨parseValue_succ_reads ih, parseElements_succ_reads ih, parseMembers_succ_reads ih⟩

/-! ## Fuel -/

/-- What more fuel leaves as it was. -/
structure FuelMono (N : Type) [JsonNumber N] (fuel : Nat) : Prop where
  value : ∀ {s rest : List Char} {v : Json N},
    parseValue fuel s = some (v, rest) → parseValue (fuel + 1) s = some (v, rest)
  elements : ∀ {s rest : List Char} {vs : List (Json N)},
    parseElements fuel s = some (vs, rest) → parseElements (fuel + 1) s = some (vs, rest)
  members : ∀ {s rest : List Char} {ms : List (JsString × Json N)},
    parseMembers fuel s = some (ms, rest) → parseMembers (fuel + 1) s = some (ms, rest)

theorem parseValue_succ_fuel {fuel : Nat} (ih : FuelMono N fuel) {s rest : List Char} {v : Json N}
    (h : parseValue (fuel + 1) s = some (v, rest)) :
    parseValue (fuel + 2) s = some (v, rest) := by
  rw [parseValue] at h ⊢
  generalize skipSpace s = text at h ⊢
  split at h
  · exact h
  · split_ifs at h ⊢
    · exact h
    · obtain ⟨⟨vs, r⟩, hvs, hret⟩ := Option.map_eq_some_iff.mp h
      rw [ih.elements hvs, Option.map_some, hret]
  · split_ifs at h ⊢
    · exact h
    · obtain ⟨⟨ms, r⟩, hms, hret⟩ := Option.map_eq_some_iff.mp h
      rw [ih.members hms, Option.map_some, hret]
  · exact h

theorem parseElements_succ_fuel {fuel : Nat} (ih : FuelMono N fuel) {s rest : List Char}
    {vs : List (Json N)} (h : parseElements (fuel + 1) s = some (vs, rest)) :
    parseElements (fuel + 2) s = some (vs, rest) := by
  obtain ⟨v, r, hv, hnext⟩ := parseElements_cases h
  rw [parseElements_value (fuel + 1) (ih.value hv)]
  rcases hnext with ⟨tail, vs', hcomma, hvs, rfl⟩ | ⟨hclose, rfl⟩
  · rw [hcomma]
    simp only [ih.elements hvs, Option.map_some]
  · rw [hclose]
    rfl

theorem parseMembers_succ_fuel {fuel : Nat} (ih : FuelMono N fuel) {s rest : List Char}
    {ms : List (JsString × Json N)} (h : parseMembers (fuel + 1) s = some (ms, rest)) :
    parseMembers (fuel + 2) s = some (ms, rest) := by
  obtain ⟨key, us, colon, value, v, r, hquote, hkey, hcolon, hv, hnext⟩ := parseMembers_cases h
  rw [parseMembers_text (fuel + 1) hquote hkey hcolon (ih.value hv)]
  rcases hnext with ⟨tail, ms', hcomma, hms, rfl⟩ | ⟨hclose, rfl⟩
  · rw [hcomma]
    simp only [ih.members hms, Option.map_some]
  · rw [hclose]
    rfl

theorem fuelMono (fuel : Nat) : FuelMono N fuel := by
  induction fuel with
  | zero =>
      refine ⟨?_, ?_, ?_⟩ <;> intro s rest v h
      · rw [parseValue] at h
        exact absurd h (by simp)
      · rw [parseElements] at h
        exact absurd h (by simp)
      · rw [parseMembers] at h
        exact absurd h (by simp)
  | succ fuel ih =>
      exact ⟨parseValue_succ_fuel ih, parseElements_succ_fuel ih, parseMembers_succ_fuel ih⟩

theorem parseValue_mono {fuel fuel' : Nat} (hle : fuel ≤ fuel') {s rest : List Char} {v : Json N}
    (h : parseValue fuel s = some (v, rest)) : parseValue fuel' s = some (v, rest) := by
  induction hle with
  | refl => exact h
  | step _ ih => exact (fuelMono _).value ih

theorem parseElements_mono {fuel fuel' : Nat} (hle : fuel ≤ fuel') {s rest : List Char}
    {vs : List (Json N)} (h : parseElements fuel s = some (vs, rest)) :
    parseElements fuel' s = some (vs, rest) := by
  induction hle with
  | refl => exact h
  | step _ ih => exact (fuelMono _).elements ih

theorem parseMembers_mono {fuel fuel' : Nat} (hle : fuel ≤ fuel') {s rest : List Char}
    {ms : List (JsString × Json N)} (h : parseMembers fuel s = some (ms, rest)) :
    parseMembers fuel' s = some (ms, rest) := by
  induction hle with
  | refl => exact h
  | step _ ih => exact (fuelMono _).members ih

omit [JsonNumber N] in
theorem length_of_skipSpace {s tail : List Char} {c : Char} (h : skipSpace s = c :: tail) :
    tail.length < s.length := by
  obtain ⟨spaces, -, rfl⟩ := exists_spaces_of_eq h
  simp only [List.length_append, List.length_cons]
  omega

/-- The fuel that suffices, for each reader. -/
structure FuelEnough (N : Type) [JsonNumber N] (fuel : Nat) : Prop where
  value : ∀ {s rest : List Char} {v : Json N},
    parseValue fuel s = some (v, rest) → parseValue (2 * s.length + 1) s = some (v, rest)
  elements : ∀ {s rest : List Char} {vs : List (Json N)},
    parseElements fuel s = some (vs, rest) → parseElements (2 * s.length + 2) s = some (vs, rest)
  members : ∀ {s rest : List Char} {ms : List (JsString × Json N)},
    parseMembers fuel s = some (ms, rest) → parseMembers (2 * s.length + 2) s = some (ms, rest)

theorem parseValue_fuel_enough {fuel : Nat} (ih : FuelEnough N fuel) {s rest : List Char}
    {v : Json N} (h : parseValue (fuel + 1) s = some (v, rest)) :
    parseValue (2 * s.length + 1) s = some (v, rest) := by
  rw [parseValue] at h ⊢
  generalize htext : skipSpace s = text at h ⊢
  split at h
  · exact h
  · have hlen := length_of_skipSpace htext
    split_ifs at h ⊢
    · exact h
    · obtain ⟨⟨vs, r⟩, hvs, hret⟩ := Option.map_eq_some_iff.mp h
      rw [parseElements_mono (by omega) (ih.elements hvs), Option.map_some, hret]
  · have hlen := length_of_skipSpace htext
    split_ifs at h ⊢
    · exact h
    · obtain ⟨⟨ms, r⟩, hms, hret⟩ := Option.map_eq_some_iff.mp h
      rw [parseMembers_mono (by omega) (ih.members hms), Option.map_some, hret]
  · exact h

theorem parseElements_fuel_enough {fuel : Nat} (ih : FuelEnough N fuel) {s rest : List Char}
    {vs : List (Json N)} (h : parseElements (fuel + 1) s = some (vs, rest)) :
    parseElements (2 * s.length + 2) s = some (vs, rest) := by
  obtain ⟨v, r, hv, hnext⟩ := parseElements_cases h
  obtain ⟨used, hs, hne, -⟩ := (readsLocally fuel).value hv
  have hr : r.length < s.length := by
    have hpos := List.length_pos_iff.mpr hne
    rw [hs, List.length_append]
    omega
  rw [parseElements_value (2 * s.length + 1) (ih.value hv)]
  rcases hnext with ⟨tail, vs', hcomma, hvs, rfl⟩ | ⟨hclose, rfl⟩
  · have hlen := length_of_skipSpace hcomma
    rw [hcomma]
    simp only [parseElements_mono (show 2 * tail.length + 2 ≤ 2 * s.length + 1 by omega)
      (ih.elements hvs), Option.map_some]
  · rw [hclose]
    rfl

theorem parseMembers_fuel_enough {fuel : Nat} (ih : FuelEnough N fuel) {s rest : List Char}
    {ms : List (JsString × Json N)} (h : parseMembers (fuel + 1) s = some (ms, rest)) :
    parseMembers (2 * s.length + 2) s = some (ms, rest) := by
  obtain ⟨key, us, colon, value, v, r, hquote, hkey, hcolon, hv, hnext⟩ := parseMembers_cases h
  obtain ⟨usedKey, hkeyText, -⟩ := parseString_reads hkey
  obtain ⟨usedValue, hvalueText, -⟩ := (readsLocally fuel).value hv
  have hquoteLen := length_of_skipSpace hquote
  have hcolonLen := length_of_skipSpace hcolon
  have hkeyLen : colon.length ≤ key.length := by
    rw [hkeyText, List.length_append]
    omega
  have hvalueLen : r.length ≤ value.length := by
    rw [hvalueText, List.length_append]
    omega
  rw [parseMembers_text (2 * s.length + 1) hquote hkey hcolon
    (parseValue_mono (by omega) (ih.value hv))]
  rcases hnext with ⟨tail, ms', hcomma, hms, rfl⟩ | ⟨hclose, rfl⟩
  · have hlen := length_of_skipSpace hcomma
    rw [hcomma]
    simp only [parseMembers_mono (show 2 * tail.length + 2 ≤ 2 * s.length + 1 by omega)
      (ih.members hms), Option.map_some]
  · rw [hclose]
    rfl

theorem fuelEnough (fuel : Nat) : FuelEnough N fuel := by
  induction fuel with
  | zero =>
      refine ⟨?_, ?_, ?_⟩ <;> intro s rest v h
      · rw [parseValue] at h
        exact absurd h (by simp)
      · rw [parseElements] at h
        exact absurd h (by simp)
      · rw [parseMembers] at h
        exact absurd h (by simp)
  | succ fuel ih =>
      exact ⟨parseValue_fuel_enough ih, parseElements_fuel_enough ih,
        parseMembers_fuel_enough ih⟩

/-- `JSON.parse` never fails for want of fuel. -/
theorem parseValue_fuel {fuel : Nat} {s rest : List Char} {v : Json N}
    (h : parseValue fuel s = some (v, rest)) :
    parseValue (2 * s.length + 2) s = some (v, rest) :=
  parseValue_mono (Nat.le_succ _) ((fuelEnough fuel).value h)

/-! ## A text has no control characters -/

/-- Without control characters. -/
def Visible (cs : List Char) : Prop := ∀ c ∈ cs, 0x20 ≤ c.toNat

instance (cs : List Char) : Decidable (Visible cs) :=
  List.decidableBAll (fun c : Char => 0x20 ≤ c.toNat) cs

theorem visible_cons {c : Char} {cs : List Char} (hc : 0x20 ≤ c.toNat) (hcs : Visible cs) :
    Visible (c :: cs) := List.forall_mem_cons.mpr ⟨hc, hcs⟩

theorem Visible.append {cs ds : List Char} (hcs : Visible cs) (hds : Visible ds) :
    Visible (cs ++ ds) := List.forall_mem_append.mpr ⟨hcs, hds⟩

theorem visible_quoteUnit (u : UInt16) : Visible (quoteUnit u) := by
  have hdigit : ∀ n < 16, 0x20 ≤ (hexDigit n).toNat := by decide
  have hu := u.toNat_lt
  unfold quoteUnit
  split
  · rename_i c hshort
    have hc : 0x20 ≤ c.toNat := by
      unfold shortEscape at hshort
      split_ifs at hshort <;> (obtain rfl := Option.some.inj hshort; decide)
    exact visible_cons (by decide) (visible_cons hc nofun)
  · split_ifs with hescape
    · have h3 := hdigit (u.toNat / 0x1000) (by omega)
      have h2 := hdigit (u.toNat / 0x100 % 0x10) (by omega)
      have h1 := hdigit (u.toNat / 0x10 % 0x10) (by omega)
      have h0 := hdigit (u.toNat % 0x10) (by omega)
      exact visible_cons (by decide) (visible_cons (by decide) (visible_cons h3
        (visible_cons h2 (visible_cons h1 (visible_cons h0 nofun)))))
    · simp only [isHighSurrogate, isLowSurrogate, Bool.or_eq_true, Bool.and_eq_true,
        decide_eq_true_eq, not_or, not_and] at hescape
      have hchar : (Char.ofNat u.toNat).toNat = u.toNat := toNat_charOfNat (by omega)
      exact visible_cons (by omega) nofun

theorem visible_quote (s : JsString) : Visible (quote s) := by
  have hunits : ∀ us : List UInt16, Visible (quoteUnits us) := by
    intro us
    induction us using quoteUnits.induct with
    | case1 => exact nofun
    | case2 u => exact visible_quoteUnit u
    | case3 u v tail hpair ih =>
        rw [quoteUnits, if_pos hpair]
        refine visible_cons ?_ ih
        rw [Bool.and_eq_true] at hpair
        have htwo := utf16_pairChar hpair.1 hpair.2
        by_contra hsmall
        rw [JsString.utf16, if_pos (by omega)] at htwo
        simp at htwo
    | case4 u v tail hpair ih =>
        rw [quoteUnits, if_neg hpair]
        exact (visible_quoteUnit u).append ih
  have hmark : 0x20 ≤ ('"' : Char).toNat := by decide
  rw [quote, List.cons_append]
  exact visible_cons hmark ((hunits _).append (visible_cons hmark nofun))

theorem visible_joinComma {parts : List (List Char)} (h : ∀ part ∈ parts, Visible part) :
    Visible (joinComma parts) := by
  induction parts with
  | nil => exact nofun
  | cons part parts ih =>
      have hpart := h part List.mem_cons_self
      have hparts := ih fun p hp => h p (List.mem_cons_of_mem _ hp)
      cases parts with
      | nil => exact hpart
      | cons next parts =>
          rw [joinComma]
          exact hpart.append (visible_cons (by decide) hparts)

theorem visible_isNumberChar {c : Char} (h : isNumberChar c = true) : 0x20 ≤ c.toNat := by
  by_contra hsmall
  have hall : ∀ n < 0x20, isNumberChar (Char.ofNat n) = false := by decide
  have hc := hall c.toNat (by omega)
  rw [Char.ofNat_toNat, h] at hc
  cases hc

mutual

theorem visible_render : (j : Json N) → j.Printable → Visible j.render
  | .null, _ => (by decide : Visible ['n', 'u', 'l', 'l'])
  | .bool true, _ => (by decide : Visible ['t', 'r', 'u', 'e'])
  | .bool false, _ => (by decide : Visible ['f', 'a', 'l', 's', 'e'])
  | .num n, hn => fun c hc => visible_isNumberChar (JsonNumber.isNumberChar_print n hn c hc)
  | .str s, _ => visible_quote s
  | .arr es, hes => by
      have hparts := visible_joinComma (visible_renderElements es hes)
      rw [render]
      exact visible_cons (by decide) (hparts.append (visible_cons (by decide) nofun))
  | .obj ms, hms => by
      have hparts := visible_joinComma (visible_renderMembers ms hms)
      rw [render]
      exact visible_cons (by decide) (hparts.append (visible_cons (by decide) nofun))

theorem visible_renderElements : (es : List (Json N)) → Printable.PrintableElements es →
    ∀ part ∈ render.renderElements es, Visible part
  | [], _ => nofun
  | e :: es, hes => by
      rw [render.renderElements]
      exact List.forall_mem_cons.mpr
        ⟨visible_render e hes.1, visible_renderElements es hes.2⟩

theorem visible_renderMembers : (ms : List (JsString × Json N)) →
    Printable.PrintableMembers ms → ∀ part ∈ render.renderMembers ms, Visible part
  | [], _ => nofun
  | (k, v) :: ms, hms => by
      rw [render.renderMembers]
      refine List.forall_mem_cons.mpr ⟨?_, visible_renderMembers ms hms.2⟩
      exact (visible_quote k).append (visible_cons (by decide) (visible_render v hms.1))

end

/-- A text stands on one line. -/
theorem newline_not_mem_render (j : Json N) (hj : Printable j) : '\n' ∉ render j :=
  fun hmem => absurd (visible_render j hj _ hmem) (by decide)

/-! ## Initial parts of a text -/

/-- A text that starts with a brace ends with one. -/
theorem parse_brace_ends {s : List Char} {v : Json N} (h : parse ('\x7b' :: s) = some v) :
    ∃ body spaces, '\x7b' :: s = body ++ '\x7d' :: spaces ∧ spaces.all isJsonSpace = true := by
  obtain ⟨⟨w, rest⟩, hw, hend⟩ := Option.bind_eq_some_iff.mp h
  split_ifs at hend with hspace
  obtain ⟨body, hbody, -⟩ := parseValue_object_reads (readsLocally _)
    (skipSpace_of_not_space (by decide) s) hw
  refine ⟨body, rest, hbody, ?_⟩
  obtain ⟨spaces, hspaces, hrest⟩ := exists_spaces rest
  rw [hspace, List.append_nil] at hrest
  rwa [hrest]

/-- No proper initial part of the text of an object is a text. -/
theorem parse_proper_prefix {ms : List (JsString × Json N)} (hms : Canonical (.obj ms))
    {s t : List Char} (hs : render (.obj ms) = s ++ t) (ht : t ≠ []) :
    parse s = (none : Option (Json N)) := by
  cases hparse : (parse s : Option (Json N)) with
  | none => rfl
  | some v =>
      obtain ⟨⟨w, rest⟩, hw, -⟩ := Option.bind_eq_some_iff.mp hparse
      cases s with
      | nil => simp [parse, parseValue, skipSpace, parseScalar, isNumberToken] at hparse
      | cons c s =>
          have hc : c = '\x7b' := by
            rw [render] at hs
            exact (List.cons.inj hs).1.symm
          subst hc
          obtain ⟨body, hbody, -, hread⟩ := parseValue_object_reads (readsLocally _)
            (skipSpace_of_not_space (by decide) s) hw
          -- the same object is read off the whole text, and something is left over
          have hlocal : parseValue (2 * (render (.obj ms)).length + 2) (render (.obj ms)) =
              some (w, rest ++ t) := by
            have htext : render (.obj ms) = body ++ ['\x7d'] ++ (rest ++ t) := by
              rw [hs, hbody]
              simp
            refine parseValue_mono ?_ (htext ▸ hread (rest ++ t) trivial)
            rw [hs, List.length_append]
            omega
          have hwhole := parseValue_render (.obj ms) hms.printable (2 * (render (.obj ms)).length + 2) []
            (by omega) (by intro c hc; cases hc)
          rw [List.append_nil, hlocal] at hwhole
          have hnil := (Prod.mk.inj (Option.some.inj hwhole)).2
          exact absurd (List.append_eq_nil_iff.mp hnil).2 ht

end Json

end H2a.Library
