import H2a.Drive.SignedLine
/-!
# What an agent sees is what was signed

A line that is read shows its payload exactly when its header has the five attributes, each once
and in order; and a payload is read back from its line exactly when none of its four identifiers
has a space or a bracket (`shown_iff_signed`).
-/

namespace H2a.Drive

open H2a.Library H2a.Protocol

/-! ## Headers -/

/-- `name=value` -/
def attributePart (attr : JsString × JsString) : List UInt16 :=
  attr.1.units ++ 0x3D :: attr.2.units

/-- The line of a header with these attributes. -/
def lineOf (attrs : List (JsString × JsString)) (instruction : JsString) : JsString :=
  ⟨(js "[h2a ").units ++ ([0x20].intercalate (attrs.map attributePart) ++
    0x5D :: 0x20 :: instruction.units)⟩

/-- No space and no closing bracket. -/
def IsPlain (s : JsString) : Prop := 0x20 ∉ s.units ∧ 0x5D ∉ s.units

instance : DecidablePred IsPlain := fun _ => inferInstanceAs (Decidable (_ ∧ _))

/-- An attribute that is read as it stands. -/
structure IsAttribute (attr : JsString × JsString) : Prop where
  name_ne : attr.1.units ≠ []
  name_equals : 0x3D ∉ attr.1.units
  name_plain : IsPlain attr.1
  value_plain : IsPlain attr.2

/-- The names in the header of a line. -/
def attributeNames (line : JsString) : List JsString :=
  match matchLine line with
  | none => []
  | some (header, _) =>
      (header.splitOn 0x20).map fun part => ⟨part.takeWhile fun u => decide (u ≠ 0x3D)⟩

/-- The attributes of a signed line. -/
def signedAttributes (payload : DriveInstructionPayload) (value : JsString) :
    List (JsString × JsString) :=
  [(js "from", payload.fromInstance), (js "to", payload.toInstance), (js "nonce", payload.nonce),
    (js "at", payload.at_), (js "sig", value)]

def signedNames : List JsString := [js "from", js "to", js "nonce", js "at", js "sig"]

theorem isAttribute_signed {payload : DriveInstructionPayload} {value : JsString}
    (h : ∀ attr ∈ signedAttributes payload value, IsPlain attr.2) :
    ∀ attr ∈ signedAttributes payload value, IsAttribute attr := by
  have hnames : ∀ name ∈ signedNames, name.units ≠ [] ∧ 0x3D ∉ name.units ∧ IsPlain name := by
    decide
  intro attr hattr
  have hname : attr.1 ∈ signedNames :=
    (List.mem_map_of_mem hattr : attr.1 ∈ (signedAttributes payload value).map Prod.fst)
  obtain ⟨hne, hequals, hplain⟩ := hnames attr.1 hname
  exact ⟨hne, hequals, hplain, h attr hattr⟩

theorem signedLine_eq (payload : DriveInstructionPayload) (value : JsString) :
    signedLine payload value = lineOf (signedAttributes payload value) payload.instruction := by
  apply JsString.ext_units
  simp only [signedLine, lineOf, signedAttributes, attributePart, List.map_cons, List.map_nil,
    List.intercalate_cons_cons, List.intercalate_singleton, JsString.append_units,
    List.append_assoc, List.cons_append, List.nil_append]
  rfl

theorem matchLine_eq_some_iff {line instruction : JsString} {header : List UInt16} :
    matchLine line = some (header, instruction) ↔
      line.units = (js "[h2a ").units ++ (header ++ 0x5D :: 0x20 :: instruction.units) ∧
        header ≠ [] ∧ 0x5D ∉ header := by
  have hlength : (js "[h2a ").units.length = 5 := by decide
  constructor
  · intro h
    rw [matchLine] at h
    split at h
    case isFalse => cases h
    case isTrue hstart =>
      split at h
      case h_2 => cases h
      case h_1 x header' instruction' hcut =>
        cases h
        obtain ⟨hrest, hnot⟩ := cut_eq_some_iff.mp hcut
        refine ⟨?_, List.cons_ne_nil _ _, hnot⟩
        rw [← hrest, ← hlength]
        exact (List.prefix_iff_eq_append.mp (List.isPrefixOf_iff_prefix.mp hstart)).symm
  · rintro ⟨hline, hne, hnot⟩
    have hstart : line.startsWith (js "[h2a ") = true := by
      rw [JsString.startsWith, List.isPrefixOf_iff_prefix, hline]
      exact List.prefix_append _ _
    have hdrop : line.units.drop 5 = header ++ 0x5D :: 0x20 :: instruction.units := by
      rw [hline, ← hlength, List.drop_left]
    rw [matchLine, if_pos hstart, hdrop, cut_append hnot]
    cases header with
    | nil => exact absurd rfl hne
    | cons x header => rfl

theorem attributePart_ne (attr : JsString × JsString) : attributePart attr ≠ [] :=
  List.append_ne_nil_of_right_ne_nil _ (List.cons_ne_nil _ _)

theorem mem_attributePart {attr : JsString × JsString} {u : UInt16} (hu : u ≠ 0x3D) :
    u ∈ attributePart attr ↔ u ∈ attr.1.units ∨ u ∈ attr.2.units := by
  rw [attributePart, List.mem_append, List.mem_cons]
  simp only [hu, false_or]

theorem intercalate_ne_nil {attrs : List (JsString × JsString)} (h : attrs ≠ []) :
    [0x20].intercalate (attrs.map attributePart) ≠ [] := by
  cases attrs with
  | nil => exact absurd rfl h
  | cons attr attrs =>
      intro hnil
      have hmem : 0x3D ∈ attributePart attr := by
        rw [attributePart, List.mem_append]
        exact Or.inr List.mem_cons_self
      have hjoined : 0x3D ∈ [0x20].intercalate ((attr :: attrs).map attributePart) :=
        (mem_intercalate_iff (by decide)).mpr
          ⟨_, List.mem_map_of_mem List.mem_cons_self, hmem⟩
      rw [hnil] at hjoined
      exact List.not_mem_nil hjoined

theorem matchLine_lineOf {attrs : List (JsString × JsString)} (hne : attrs ≠ [])
    (hattrs : ∀ attr ∈ attrs, IsAttribute attr) (instruction : JsString) :
    matchLine (lineOf attrs instruction) =
      some ([0x20].intercalate (attrs.map attributePart), instruction) := by
  refine matchLine_eq_some_iff.mpr ⟨rfl, intercalate_ne_nil hne, ?_⟩
  rw [mem_intercalate_iff (by decide)]
  rintro ⟨part, hpart, hmem⟩
  obtain ⟨attr, hattr, rfl⟩ := List.mem_map.mp hpart
  rcases (mem_attributePart (by decide)).mp hmem with hmem | hmem
  · exact (hattrs attr hattr).name_plain.2 hmem
  · exact (hattrs attr hattr).value_plain.2 hmem

theorem splitOn_header {attrs : List (JsString × JsString)} (hne : attrs ≠ [])
    (hattrs : ∀ attr ∈ attrs, IsAttribute attr) :
    ([0x20].intercalate (attrs.map attributePart)).splitOn 0x20 = attrs.map attributePart := by
  apply List.splitOn_intercalate
  · intro part hpart hmem
    obtain ⟨attr, hattr, rfl⟩ := List.mem_map.mp hpart
    rcases (mem_attributePart (by decide)).mp hmem with hmem | hmem
    · exact (hattrs attr hattr).name_plain.1 hmem
    · exact (hattrs attr hattr).value_plain.1 hmem
  · exact mt List.map_eq_nil_iff.mp hne

/-- The names of a header are read as they stand. -/
theorem attributeNames_lineOf {attrs : List (JsString × JsString)} (hne : attrs ≠ [])
    (hattrs : ∀ attr ∈ attrs, IsAttribute attr) (instruction : JsString) :
    attributeNames (lineOf attrs instruction) = attrs.map Prod.fst := by
  rw [attributeNames, matchLine_lineOf hne hattrs]
  dsimp only
  rw [splitOn_header hne hattrs, List.map_map]
  apply List.map_congr_left
  intro attr hattr
  apply JsString.ext_units
  have hname : ∀ u ∈ attr.1.units, decide (u ≠ 0x3D) = true := by
    intro u hu
    rw [decide_eq_true_eq]
    rintro rfl
    exact (hattrs attr hattr).name_equals hu
  change (attributePart attr).takeWhile _ = _
  rw [attributePart, List.takeWhile_append_of_pos hname, List.takeWhile_cons_of_neg (by decide),
    List.append_nil]

/-! ## Reading -/

/-- The map of the attributes: the last value of a name stands. -/
def collect (attrs : List (JsString × JsString)) (m : JsMap JsString JsString) :
    JsMap JsString JsString :=
  attrs.foldl (fun m attr => m.set attr.1 attr.2) m

theorem mem_of_get_collect {attrs : List (JsString × JsString)} {m : JsMap JsString JsString}
    {name value : JsString} (h : (collect attrs m).get name = some value) :
    (name, value) ∈ attrs ∨ m.get name = some value := by
  induction attrs generalizing m with
  | nil => exact Or.inr h
  | cons attr attrs ih =>
      rcases ih h with hmem | hget
      · exact Or.inl (List.mem_cons_of_mem _ hmem)
      · rw [JsMap.get_set] at hget
        split at hget
        case isTrue hname =>
          cases hget
          exact Or.inl (hname ▸ List.mem_cons_self)
        case isFalse => exact Or.inr hget

/-- Where no name occurs twice, each has its value. -/
theorem get_collect {attrs : List (JsString × JsString)} (hnodup : (attrs.map Prod.fst).Nodup)
    {attr : JsString × JsString} (h : attr ∈ attrs) (m : JsMap JsString JsString) :
    (collect attrs m).get attr.1 = some attr.2 := by
  have hlast : ∀ (attrs : List (JsString × JsString)) (m : JsMap JsString JsString) name,
      name ∉ attrs.map Prod.fst → (collect attrs m).get name = m.get name := by
    intro attrs
    induction attrs with
    | nil => exact fun _ _ _ => rfl
    | cons attr attrs ih =>
        intro m name hname
        rw [List.map_cons, List.mem_cons, not_or] at hname
        exact (ih _ name hname.2).trans (JsMap.get_set_of_ne m attr.2 hname.1)
  induction attrs generalizing m with
  | nil => cases h
  | cons first attrs ih =>
      rw [List.map_cons, List.nodup_cons] at hnodup
      rcases List.mem_cons.mp h with rfl | h
      · exact (hlast attrs _ attr.1 hnodup.1).trans (JsMap.get_set_self m attr.1 attr.2)
      · exact ih hnodup.2 h _

theorem readAttributes_eq_some_iff {parts : List (List UInt16)} {m m' : JsMap JsString JsString} :
    readAttributes parts m = some m' ↔ ∃ attrs : List (JsString × JsString),
      (∀ attr ∈ attrs, attr.1.units ≠ [] ∧ 0x3D ∉ attr.1.units) ∧
        parts = attrs.map attributePart ∧ m' = collect attrs m := by
  constructor
  · intro h
    induction parts generalizing m with
    | nil => exact ⟨[], by simp, rfl, (Option.some.inj h).symm⟩
    | cons part parts ih =>
        rw [readAttributes] at h
        split at h
        case h_2 => cases h
        case h_1 x name value hcut =>
          obtain ⟨hpart, hname⟩ := cut_eq_some_iff.mp hcut
          obtain ⟨attrs, hattrs, hparts, hm⟩ := ih h
          refine ⟨(⟨x :: name⟩, ⟨value⟩) :: attrs, ?_, ?_, hm⟩
          · intro attr hattr
            rcases List.mem_cons.mp hattr with rfl | hattr
            · exact ⟨List.cons_ne_nil _ _, hname⟩
            · exact hattrs attr hattr
          · rw [List.map_cons, ← hparts]
            exact congrArg (· :: parts) hpart
  · rintro ⟨attrs, hattrs, rfl, rfl⟩
    induction attrs generalizing m with
    | nil => rfl
    | cons attr attrs ih =>
        obtain ⟨hne, hequals⟩ := hattrs attr List.mem_cons_self
        rw [List.map_cons, readAttributes, attributePart, cut_append hequals]
        cases hname : attr.1.units with
        | nil => exact absurd hname hne
        | cons x name =>
            dsimp only
            rw [← hname]
            exact ih fun attr hattr => hattrs attr (List.mem_cons_of_mem _ hattr)

theorem nonEmptyAttribute_eq_some_iff {attrs : JsMap JsString JsString} {name value : JsString} :
    nonEmptyAttribute attrs name = some value ↔ attrs.get name = some value ∧ value.units ≠ [] := by
  rw [nonEmptyAttribute, Option.filter_eq_some_iff, decide_eq_true_eq]

/-- What a line that is read is made of. -/
theorem parse_eq_some_iff {line : JsString} {parsed : ParsedSignedDriveInstruction} :
    parseSignedDriveInstruction line = some parsed ↔
      ∃ attrs : List (JsString × JsString), attrs ≠ [] ∧ (∀ attr ∈ attrs, IsAttribute attr) ∧
        line = lineOf attrs parsed.payload.instruction ∧
        parsed.signature.signer = parsed.payload.fromInstance ∧
        parsed.signature.alg = js "ed25519" ∧
        ∀ attr ∈ signedAttributes parsed.payload parsed.signature.value,
          (collect attrs .empty).get attr.1 = some attr.2 ∧ attr.2.units ≠ [] := by
  constructor
  · intro h
    rw [parseSignedDriveInstruction] at h
    simp only [Option.bind_eq_bind, Option.bind_eq_some_iff, nonEmptyAttribute_eq_some_iff,
      Option.pure_def, Option.some.injEq, Prod.exists] at h
    obtain ⟨header, instruction, hmatch, m, hread, f, hf, t, ht, n, hn, a, ha, s, hs, rfl⟩ := h
    obtain ⟨hline, hne, hbracket⟩ := matchLine_eq_some_iff.mp hmatch
    obtain ⟨attrs, hattrs, hparts, rfl⟩ := readAttributes_eq_some_iff.mp hread
    have hheader : [0x20].intercalate (attrs.map attributePart) = header := by
      rw [← hparts, List.intercalate_splitOn]
    have hplain : ∀ attr ∈ attrs, 0x20 ∉ attributePart attr ∧ 0x5D ∉ attributePart attr := by
      intro attr hattr
      have hpart : attributePart attr ∈ attrs.map attributePart := List.mem_map_of_mem hattr
      refine ⟨not_mem_of_mem_splitOn (hparts ▸ hpart), fun hmem => hbracket ?_⟩
      rw [← hheader, mem_intercalate_iff (by decide)]
      exact ⟨_, hpart, hmem⟩
    refine ⟨attrs, ?_, fun attr hattr => ?_, JsString.ext_units ?_, rfl, rfl, ?_⟩
    · rintro rfl
      exact hne hheader.symm
    · obtain ⟨hspace, hbracket⟩ := hplain attr hattr
      rw [mem_attributePart (by decide), not_or] at hspace hbracket
      exact ⟨(hattrs attr hattr).1, (hattrs attr hattr).2, ⟨hspace.1, hbracket.1⟩,
        ⟨hspace.2, hbracket.2⟩⟩
    · rw [hline, lineOf, hheader]
    · simpa only [signedAttributes, List.forall_mem_cons, List.not_mem_nil, false_implies,
        implies_true, and_true] using ⟨hf, ht, hn, ha, hs⟩
  · rintro ⟨attrs, hne, hattrs, rfl, hsigner, halg, hget⟩
    simp only [signedAttributes, List.forall_mem_cons, List.not_mem_nil, false_implies,
      implies_true, and_true] at hget
    obtain ⟨hf, ht, hn, ha, hs⟩ := hget
    have hread : readAttributes (attrs.map attributePart) .empty = some (collect attrs .empty) :=
      readAttributes_eq_some_iff.mpr ⟨attrs,
        fun attr hattr => ⟨(hattrs attr hattr).name_ne, (hattrs attr hattr).name_equals⟩, rfl, rfl⟩
    rw [parseSignedDriveInstruction, matchLine_lineOf hne hattrs]
    simp only [Option.bind_eq_bind, Option.bind_some, splitOn_header hne hattrs, hread,
      nonEmptyAttribute_eq_some_iff.mpr hf, nonEmptyAttribute_eq_some_iff.mpr ht,
      nonEmptyAttribute_eq_some_iff.mpr hn, nonEmptyAttribute_eq_some_iff.mpr ha,
      nonEmptyAttribute_eq_some_iff.mpr hs]
    refine congrArg some (ParsedSignedDriveInstruction.ext rfl (DriveSignature.ext ?_ ?_ rfl))
    · exact hsigner.symm
    · exact halg.symm

theorem value_plain_of_get {attrs : List (JsString × JsString)} {name value : JsString}
    (hattrs : ∀ attr ∈ attrs, IsAttribute attr)
    (h : (collect attrs .empty).get name = some value) : IsPlain value := by
  rcases mem_of_get_collect h with hmem | hget
  · exact (hattrs _ hmem).value_plain
  · cases hget

/-- Two lists of attributes with the same names and the values of one map are the same. -/
theorem eq_of_names {l l' : List (JsString × JsString)} {m : JsMap JsString JsString}
    (hnames : l.map Prod.fst = l'.map Prod.fst) (h : ∀ attr ∈ l, m.get attr.1 = some attr.2)
    (h' : ∀ attr ∈ l', m.get attr.1 = some attr.2) : l = l' := by
  have hmap : ∀ {l : List (JsString × JsString)}, (∀ attr ∈ l, m.get attr.1 = some attr.2) →
      (l.map Prod.fst).map (fun name => (name, m.get name)) = l.map (Prod.map id some) := by
    intro l h
    rw [List.map_map]
    apply List.map_congr_left
    intro attr hattr
    exact Prod.ext rfl (h attr hattr)
  have hinjective : Function.Injective (Prod.map id some : JsString × JsString → _) := by
    intro a b hab
    exact Prod.ext (congrArg Prod.fst hab :) (Option.some.inj (congrArg Prod.snd hab :))
  apply List.map_injective_iff.mpr hinjective
  rw [← hmap h, ← hmap h', hnames]

/-- A read line is that of its payload when its header has the five attributes, each once and in
order. -/
theorem line_eq_iff {line : JsString} {parsed : ParsedSignedDriveInstruction}
    (h : parseSignedDriveInstruction line = some parsed) :
    line = signedLine parsed.payload parsed.signature.value ↔
      attributeNames line = signedNames := by
  obtain ⟨attrs, hne, hattrs, hline, -, -, hget⟩ := parse_eq_some_iff.mp h
  constructor
  · intro hsigned
    have hplain : ∀ attr ∈ signedAttributes parsed.payload parsed.signature.value,
        IsPlain attr.2 :=
      fun attr hattr => value_plain_of_get hattrs (hget attr hattr).1
    have hsignedNe : signedAttributes parsed.payload parsed.signature.value ≠ [] :=
      List.cons_ne_nil _ _
    rw [hsigned, signedLine_eq, attributeNames_lineOf hsignedNe (isAttribute_signed hplain)]
    rfl
  · intro hnames
    rw [hline, attributeNames_lineOf hne hattrs] at hnames
    have hnodup : (attrs.map Prod.fst).Nodup := by
      rw [hnames]
      decide
    have hsame : attrs = signedAttributes parsed.payload parsed.signature.value :=
      eq_of_names hnames (fun attr hattr => get_collect hnodup hattr _)
        fun attr hattr => (hget attr hattr).1
    rw [signedLine_eq, ← hsame]
    exact hline

/-- A payload is read back from its line when its identifiers have no space and no bracket. -/
theorem parse_signedLine_iff {payload : DriveInstructionPayload} {value : JsString}
    (hvalue : IsPlain value)
    (hne : ∀ attr ∈ signedAttributes payload value, attr.2.units ≠ []) :
    parseSignedDriveInstruction (signedLine payload value) =
        some ⟨payload, ⟨payload.fromInstance, js "ed25519", value⟩⟩ ↔
      IsPlain payload.fromInstance ∧ IsPlain payload.toInstance ∧ IsPlain payload.nonce ∧
        IsPlain payload.at_ := by
  rw [parse_eq_some_iff]
  constructor
  · rintro ⟨attrs, -, hattrs, -, -, -, hget⟩
    have hplain : ∀ attr ∈ signedAttributes payload value, IsPlain attr.2 :=
      fun attr hattr => value_plain_of_get hattrs (hget attr hattr).1
    simp only [signedAttributes, List.forall_mem_cons] at hplain
    exact ⟨hplain.1, hplain.2.1, hplain.2.2.1, hplain.2.2.2.1⟩
  · rintro ⟨hf, ht, hn, ha⟩
    have hplain : ∀ attr ∈ signedAttributes payload value, IsPlain attr.2 := by
      simp only [signedAttributes, List.forall_mem_cons, List.not_mem_nil, false_implies,
        implies_true, and_true]
      exact ⟨hf, ht, hn, ha, hvalue⟩
    have hnodup : ((signedAttributes payload value).map Prod.fst).Nodup :=
      (by decide : signedNames.Nodup)
    exact ⟨signedAttributes payload value, List.cons_ne_nil _ _, isAttribute_signed hplain,
      signedLine_eq _ _, rfl, rfl,
      fun attr hattr => ⟨get_collect hnodup hattr _, hne attr hattr⟩⟩

/-! ## Writing and verifying -/

section Signed

variable {N : Type} [JsonNumber N]

theorem base64_units (bytes : List UInt8) :
    (base64 bytes).units = (Base64.encode bytes).flatMap JsString.utf16 := by
  change (String.ofList (Base64.encode bytes)).toList.flatMap JsString.utf16 = _
  rw [String.toList_ofList]

theorem base64_plain (bytes : List UInt8) : IsPlain (base64 bytes) := by
  have halphabet : Base64.alphabet.all (fun c =>
      decide (0x20 ∉ JsString.utf16 c ∧ 0x5D ∉ JsString.utf16 c)) = true := by
    rw [Base64.alphabet_eq]
    decide +kernel
  have hplain : ∀ c ∈ Base64.alphabet, 0x20 ∉ JsString.utf16 c ∧ 0x5D ∉ JsString.utf16 c :=
    fun c hc => of_decide_eq_true (List.all_eq_true.mp halphabet c hc)
  have hunits : ∀ u ∈ (base64 bytes).units, ∃ c ∈ Base64.alphabet, u ∈ JsString.utf16 c := by
    intro u hu
    rw [base64_units] at hu
    obtain ⟨c, hc, hu⟩ := List.mem_flatMap.mp hu
    exact ⟨c, Base64.encode_mem hc, hu⟩
  constructor
  · intro hspace
    obtain ⟨c, hc, hu⟩ := hunits _ hspace
    exact (hplain c hc).1 hu
  · intro hbracket
    obtain ⟨c, hc, hu⟩ := hunits _ hbracket
    exact (hplain c hc).2 hu

theorem base64_ne_nil {bytes : List UInt8} (h : bytes ≠ []) : (base64 bytes).units ≠ [] := by
  rw [base64_units]
  cases hencode : Base64.encode bytes with
  | nil => exact absurd hencode (Base64.encode_ne_nil h)
  | cons c cs =>
      rw [List.flatMap_cons, JsString.utf16]
      split
      · exact List.cons_ne_nil _ _
      · exact List.cons_ne_nil _ _

/-- A payload has a text. -/
theorem canonicalize_payload (payload : DriveInstructionPayload) :
    ∃ t, canonicalize (payload.json : Json N) = .ok t := by
  have hfinite : AllFinite (payload.json : Json N) := by
    refine (allFinite_obj _).mpr fun m hm => ?_
    have hmember := mem_ofMembers hm
    simp only [List.mem_cons, List.not_mem_nil, or_false] at hmember
    rcases hmember with rfl | rfl | rfl | rfl | rfl <;> trivial
  exact ⟨_, canonicalize_eq_ok.mpr ⟨hfinite, rfl⟩⟩

theorem parse_of_verified {G : Type} {options : VerifyOptions N G} {line : JsString}
    {seen seen' : G} {payload : DriveInstructionPayload}
    (h : verifySignedDriveInstruction options line seen = .ok (.ok payload, seen')) :
    ∃ signature, parseSignedDriveInstruction line = some ⟨payload, signature⟩ := by
  rw [verifySignedDriveInstruction] at h
  split at h
  case h_1 => cases h
  case h_2 parsed hparsed =>
    dsimp only at h
    split at h
    case isTrue => cases h
    case isFalse =>
      obtain ⟨signatureOk, -, h⟩ := bind_eq_ok_iff.mp h
      cases signatureOk with
      | false => cases h
      | true =>
          rw [if_pos rfl] at h
          split at h
          · cases h
            exact ⟨parsed.signature, hparsed⟩
          · cases h

/-- A line that is accepted shows the payload that was verified exactly when its header has the
five attributes, each once and in order; and a payload is read back from the line that is written
of it exactly when its identifiers have no space and no closing bracket. -/
theorem shown_iff_signed {signing : SigningCrypto}
    (hsign : ∀ message key, (signing.sign message key).length = 64) :
    (∀ {G : Type} (options : VerifyOptions N G) line seen seen' payload,
      verifySignedDriveInstruction options line seen = .ok (.ok payload, seen') →
      ∃ signature, parseSignedDriveInstruction line = some ⟨payload, signature⟩ ∧
        (line = signedLine payload signature.value ↔ attributeNames line = signedNames)) ∧
    ∀ (options : FormatOptions) randomNonce isoNow payload key,
      signing.createPrivateKey options.privateKeyPem = some key →
      options.payload randomNonce isoNow = payload → payload.fromInstance.units ≠ [] →
      payload.toInstance.units ≠ [] → payload.nonce.units ≠ [] → payload.at_.units ≠ [] →
      ∃ value, signCanonical signing (payload.json : Json N) options.fromInstance
          options.privateKeyPem = .ok ⟨payload.fromInstance, js "ed25519", value⟩ ∧
        formatSignedDriveInstruction N signing randomNonce isoNow options =
          .ok (signedLine payload value) ∧
        (parseSignedDriveInstruction (signedLine payload value) =
            some ⟨payload, ⟨payload.fromInstance, js "ed25519", value⟩⟩ ↔
          IsPlain payload.fromInstance ∧ IsPlain payload.toInstance ∧ IsPlain payload.nonce ∧
            IsPlain payload.at_) := by
  constructor
  · intro G options line seen seen' payload h
    obtain ⟨signature, hparsed⟩ := parse_of_verified h
    have hline := line_eq_iff hparsed
    exact ⟨signature, hparsed, hline⟩
  · rintro options randomNonce isoNow payload key hkey rfl hfrom hto hnonce hat
    obtain ⟨t, ht⟩ := canonicalize_payload (N := N) (options.payload randomNonce isoNow)
    have hbytes : signing.sign (Utf8.encode t) key ≠ [] := by
      intro hnil
      have hlength := hsign (Utf8.encode t) key
      rw [hnil] at hlength
      cases hlength
    have hsigned : signCanonical signing ((options.payload randomNonce isoNow).json : Json N)
        options.fromInstance options.privateKeyPem =
          .ok ⟨options.fromInstance, js "ed25519", base64 (signing.sign (Utf8.encode t) key)⟩ := by
      simp only [signCanonical, hkey, ht, ok_bind, pure_eq_ok]
    refine ⟨base64 (signing.sign (Utf8.encode t) key), hsigned, ?_,
      parse_signedLine_iff (base64_plain _) ?_⟩
    · simp only [formatSignedDriveInstruction, hsigned, ok_bind, pure_eq_ok]
    · simp only [signedAttributes, List.forall_mem_cons, List.not_mem_nil, false_implies,
        implies_true, and_true]
      exact ⟨hfrom, hto, hnonce, hat, base64_ne_nil hbytes⟩

end Signed

/-! ## Two lines -/

/-- The signature of every message, under the key that is the neutral point. -/
def exampleSignature : List UInt8 := 1 :: List.replicate 63 0

def exampleSigning : SigningCrypto where
  PrivateKey := Unit
  createPrivateKey _ := some ()
  sign _ _ := exampleSignature

def exampleVerify : VerifyOptions Int ReplayGuard where
  crypto := {
    Key := Unit
    createPublicKey := fun _ => some ()
    fromBase64 := fun value =>
      if Json.isText (base64 exampleSignature) (some value) then some exampleSignature else none
    verify := fun _ _ raw => raw == exampleSignature }
  resolvePublicKeys _ := [js "lead.pem"]
  replayGuard := createReplayGuard defaultWindow
    (fun text => if text = js "2026-05-31T02:00:00.000Z" then some 1780192800000 else none)
    1780192801000
  now := none

def exampleOptions : FormatOptions where
  fromInstance := js "claude:lead"
  toInstance := js "codex:worker"
  instruction := js "Read [your] inbox."
  privateKeyPem := js "lead.key"
  nonce := some (js "nonce-1")
  at_ := some (js "2026-05-31T02:00:00.000Z")

def examplePayload : DriveInstructionPayload := exampleOptions.payload ⟨[]⟩ ⟨[]⟩

/-- The line of a payload, with another sender shown first. -/
def relabelledLine : JsString :=
  js "[h2a from=codex:owner from=claude:lead to=codex:worker nonce=nonce-1 " ++
    js "at=2026-05-31T02:00:00.000Z sig=" ++ base64 exampleSignature ++ js "] Read [your] inbox."

theorem shown_iff_signed_example : ∃ value,
    formatSignedDriveInstruction Int exampleSigning ⟨[]⟩ ⟨[]⟩ exampleOptions =
      .ok (signedLine examplePayload value) ∧
    parseSignedDriveInstruction (signedLine examplePayload value) =
      some ⟨examplePayload, ⟨js "claude:lead", js "ed25519", value⟩⟩ := by
  obtain ⟨value, -, hformat, hparse⟩ := (@shown_iff_signed Int _ exampleSigning
    fun _ _ => rfl).2 exampleOptions ⟨[]⟩ ⟨[]⟩ examplePayload () rfl rfl (by decide) (by decide)
      (by decide) (by decide)
  exact ⟨value, hformat, hparse.mpr (by decide)⟩

/-- The relabelled line is accepted for the payload. -/
theorem relabelledLine_accepted : ∃ result,
    verifySignedDriveInstruction exampleVerify relabelledLine .empty = .ok result ∧
      result.1 = .ok examplePayload := by
  apply exists_ok_of_any
  have hvalue : base64 exampleSignature =
      ⟨(Base64.encode exampleSignature).flatMap JsString.utf16⟩ :=
    congrArg JsString.mk (base64_units exampleSignature)
  rw [exampleVerify, relabelledLine, hvalue]
  decide +kernel

/-- No line of the payload starts as the relabelled one does. -/
theorem relabelledLine_ne (value : JsString) :
    relabelledLine ≠ signedLine examplePayload value := by
  intro hline
  have hshown : (signedLine examplePayload value).units.take 15 = (js "[h2a from=claud").units :=
    rfl
  rw [← hline] at hshown
  exact absurd hshown (by decide +kernel)

/-- The line is accepted, and it is not the line of the payload. -/
theorem shown_other_than_signed : ¬∀ line payload seen',
    verifySignedDriveInstruction exampleVerify line .empty = .ok (.ok payload, seen') →
    ∃ signature, parseSignedDriveInstruction line = some ⟨payload, signature⟩ ∧
      line = signedLine payload signature.value := by
  intro h
  obtain ⟨result, haccepted, hok⟩ := relabelledLine_accepted
  obtain ⟨signature, -, hline⟩ := h relabelledLine examplePayload result.2
    (haccepted.trans (congrArg Except.ok (Prod.ext hok rfl)))
  exact relabelledLine_ne signature.value hline

end H2a.Drive
