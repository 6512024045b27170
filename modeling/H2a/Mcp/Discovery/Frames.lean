import H2a.Mcp.Discovery.Traversal
/-!
# Discovery within the frame budget

The pager measures a page in a frame with the id `0`, and keeps a reserve.  The frame that leaves
has the id of its request and says that the result is no error: the reserve is enough for both, and
an error is small, so that every answer is sent as it is (`answers_sent`).
-/

namespace H2a.Mcp.Discovery

open H2a.Library

variable {N : Type} [JsonNumber N] {σ : Type} {pager : Pager σ}

/-! ## What is sent -/

/-- `{ code, message, ...(data ?? {}) }` -/
def DiscoveryError.json (error : DiscoveryError N) : Json N :=
  .obj ([(js "code", Json.str error.code.text), (js "message", .str error.message)] ++ error.data)

/-- `{ content: [{ type: "text", text }], isError: false }` -/
def plainResult (text : List Char) : Json N :=
  .obj [(js "content",
      .arr [.obj [(js "type", .str (js "text")), (js "text", .str ⟨unitsOf text⟩)]]),
    (js "isError", .bool false)]

/-- The result of the tool: `handleDiscoverInstances`, and what `format` makes of a page. -/
def DiscoverOutcome.result : DiscoverOutcome N → Json N
  | .page p => plainResult (stringify p.json)
  | .error e => errorResult (stringify e.json)

/-- The answer leaves in its own frame, within the budget. -/
def Sent (budget : FrameBudget) (id : Json N) (outcome : DiscoverOutcome N) : Prop :=
  ∃ frame, encodeFrame (some (resultFrame id outcome.result)) = some frame ∧
    frame.bytes ≤ budget.maxBytes ∧ ∀ (τ : Type) (recover : Option (Recover τ)) (t : τ),
      boundResponseFrame id (some (resultFrame id outcome.result)) budget recover t =
        (some frame, t)

/-! ## Sizes -/

theorem size_textContent (text : List Char) :
    (textContent text : Json N).size = Utf8.size (quote ⟨unitsOf text⟩) + 37 := by
  have hkeys : Utf8.size (quote (js "content")) = 9 ∧ Utf8.size (quote (js "type")) = 6 ∧
      Utf8.size (quote (js "text")) = 6 := by decide
  rw [textContent, Json.size_obj]
  simp only [List.map_cons, List.map_nil, List.sum_cons, List.sum_nil, Json.size_arr,
    Json.size_obj, Json.size_str, hkeys]
  omega

theorem size_plainResult (text : List Char) :
    (plainResult text : Json N).size = Utf8.size (quote ⟨unitsOf text⟩) + 53 := by
  have hkeys : Utf8.size (quote (js "content")) = 9 ∧ Utf8.size (quote (js "isError")) = 9 ∧
      Utf8.size (quote (js "type")) = 6 ∧ Utf8.size (quote (js "text")) = 6 := by decide
  rw [plainResult, Json.size_obj]
  simp only [List.map_cons, List.map_nil, List.sum_cons, List.sum_nil, Json.size_arr,
    Json.size_obj, Json.size_str, Json.size_false, hkeys]
  omega

/-- The frame of a page takes its text, and 72 bytes. -/
theorem bytes_measured (hnumbers : PrintsIntegers N) {page : DiscoverInstancesPage N} {bytes : Nat}
    (h : frameBytesFor page = some bytes) :
    bytes = Utf8.size (quote ⟨unitsOf (stringify page.json)⟩) + 72 ∧ bytes < 10 ^ 21 := by
  obtain ⟨encoded, hencoded, rfl⟩ := Option.map_eq_some_iff.mp h
  obtain ⟨hbytes, hlt⟩ := bytes_intact hnumbers hencoded
  rw [size_textContent] at hbytes
  exact ⟨hbytes, hlt⟩

/-- A frame within the budget is sent as it is. -/
theorem sent_of_size {budget : FrameBudget} (hmax : budget.maxBytes ≤ mcpMaxFrameBytes)
    {id : Json N} {outcome : DiscoverOutcome N}
    (h : id.size + outcome.result.size + 34 ≤ budget.maxBytes) : Sent budget id outcome := by
  have hlong : mcpMaxFrameBytes < maxStringLength := by decide
  have hsize := size_resultFrame id outcome.result
  have hshort : (resultFrame id outcome.result).size < maxStringLength := by omega
  have hframe := encodeFrame_of_size hshort
  have hfits : (resultFrame id outcome.result).size + 1 ≤ budget.maxBytes := by omega
  refine ⟨_, hframe, hfits, fun τ recover t => ?_⟩
  rw [boundResponseFrame, hframe]
  exact if_pos hfits

mutual

/-- Where all numbers are finite nothing is replaced. -/
theorem finite_of_printable : (j : Json N) → j.Printable → finite j = j
  | .null, _ => rfl
  | .bool _, _ => rfl
  | .num _, hn => if_pos hn
  | .str _, _ => rfl
  | .arr es, hes => congrArg Json.arr (finiteElements_of_printable es hes)
  | .obj ms, hms => congrArg Json.obj (finiteMembers_of_printable ms hms)

theorem finiteElements_of_printable : (es : List (Json N)) →
    Json.Printable.PrintableElements es → finite.finiteElements es = es
  | [], _ => rfl
  | e :: es, hes => by
      rw [finite.finiteElements, finite_of_printable e hes.1, finiteElements_of_printable es hes.2]

theorem finiteMembers_of_printable : (ms : List (JsString × Json N)) →
    Json.Printable.PrintableMembers ms → finite.finiteMembers ms = ms
  | [], _ => rfl
  | (k, v) :: ms, hms => by
      rw [finite.finiteMembers, finite_of_printable v hms.1, finiteMembers_of_printable ms hms.2]

end

/-- The text of a value takes at most twice its size in a result. -/
theorem size_quote_stringify {j : Json N} (hj : j.Printable) :
    Utf8.size (quote ⟨unitsOf (stringify j)⟩) ≤ 2 * j.size + 2 := by
  rw [stringify, finite_of_printable j hj]
  exact size_quote_utf16 (Json.visible_render j hj)

/-! ## Pages -/

/-- A page that was measured is sent. -/
theorem sent_of_pageFits (hnumbers : PrintsIntegers N) {id : Json N} (hid : id.size ≤ 770)
    (hmin : mcpMinFrameBytes ≤ pager.budget.maxBytes)
    (hmax : pager.budget.maxBytes ≤ mcpMaxFrameBytes) {sel : Selection N} {n : Nat}
    (h : pageFits pager sel n = .ok true) :
    Sent pager.budget id (.page (buildPage pager sel n)) := by
  unfold pageFits at h
  split at h
  · rename_i bytes hbytes
    have hfits := of_decide_eq_true (Except.ok.inj h)
    have hmeasured := (bytes_measured hnumbers hbytes).1
    have hreserve : mcpMinFrameBytes = 16384 := rfl
    unfold effectiveBudget pageFrameReserve at hfits
    apply sent_of_size hmax
    rw [DiscoverOutcome.result, size_plainResult]
    omega
  · cases h

/-- The page at the end of a listing. -/
theorem sent_emptyPage (hpager : pager.Sound) (hnumbers : PrintsIntegers N) {id : Json N}
    (hid : id.size ≤ 770) (hmin : mcpMinFrameBytes ≤ pager.budget.maxBytes)
    (hmax : pager.budget.maxBytes ≤ mcpMaxFrameBytes) {sel : Selection N} (hsel : sel.Sound pager)
    (hend : sel.position.offset = sel.total) :
    Sent pager.budget id (.page (buildPage pager sel 0)) := by
  have hjson : (buildPage pager sel 0).json =
      .obj [(js "instances", .arr []), (js "total", .num (JsonNumber.ofNat sel.total)),
        (js "hasMore", .bool false), (js "nextCursor", .null),
        (js "generation", .str sel.generation),
        (js "limit", .num (intNumber sel.position.limit)),
        (js "returned", .num (JsonNumber.ofNat 0 : N))] := by
    simp [buildPage, DiscoverInstancesPage.json, hend, textOrNull]
  obtain ⟨capture, hcapture⟩ := hsel.generation
  have hlength := length_computeGeneration hpager.host capture
  have hlimit : 0 ≤ sel.position.limit := Int.le_trans (by decide) hsel.plain.limit_pos
  have hprintable : ((buildPage pager sel 0).json : Json N).Printable := by
    rw [hjson, Json.printable_obj]
    obtain ⟨k, hk⟩ := Int.eq_ofNat_of_zero_le hlimit
    simp [Json.Printable, Json.Printable.PrintableElements, hk, intNumber,
      JsonNumber.isFinite_ofNat]
  have hkeys : Utf8.size (quote (js "instances")) = 11 ∧ Utf8.size (quote (js "total")) = 7 ∧
      Utf8.size (quote (js "hasMore")) = 9 ∧ Utf8.size (quote (js "nextCursor")) = 12 ∧
      Utf8.size (quote (js "generation")) = 12 ∧ Utf8.size (quote (js "limit")) = 7 ∧
      Utf8.size (quote (js "returned")) = 10 := by decide
  have hnone : (Json.arr [] : Json N).size = 2 := by
    simp only [Json.size, Json.render, Json.render.renderElements, joinComma]
    decide
  have htotal := size_counter_le hnumbers hsel.total
  have hzero := size_zero hnumbers
  have hbound := size_intNumber_le hnumbers hlimit hsel.plain.limit_le
  have hgeneration := size_quote_le (computeGeneration pager.host capture)
  have hsize : ((buildPage pager sel 0).json : Json N).size ≤ 700 := by
    rw [hjson, Json.size_obj]
    simp only [List.map_cons, List.map_nil, List.sum_cons, List.sum_nil, Json.size_str,
      Json.size_false, Json.size_null, hkeys, hnone, hzero, hcapture]
    omega
  have hquote := size_quote_stringify hprintable
  have hreserve : mcpMinFrameBytes = 16384 := rfl
  apply sent_of_size hmax
  rw [DiscoverOutcome.result, size_plainResult]
  omega

/-! ## Errors -/

theorem sent_of_error (hmin : mcpMinFrameBytes ≤ pager.budget.maxBytes)
    (hmax : pager.budget.maxBytes ≤ mcpMaxFrameBytes) {id : Json N} (hid : id.size ≤ 770)
    {error : DiscoveryError N} (hprintable : error.json.Printable)
    (hsize : error.json.size ≤ 7000) :
    Sent pager.budget id (.error error) := by
  have hquote := size_quote_stringify hprintable
  have hreserve : mcpMinFrameBytes = 16384 := rfl
  apply sent_of_size hmax
  rw [DiscoverOutcome.result, size_errorResult]
  omega

theorem DiscoveryErrorCode.size_text_le (code : DiscoveryErrorCode) :
    Utf8.size (quote code.text) ≤ 30 := by
  cases code <;> exact (size_quote_ofList _).trans_le (by decide)

theorem Refusal.small (hpager : pager.Sound) {error : DiscoveryError N}
    (h : Refusal pager.host error) :
    Json.Printable.PrintableMembers error.data ∧
      (error.data.map fun m => Utf8.size (quote m.1) + m.2.size + 2).sum ≤ 500 ∧
        Utf8.size (quote error.message) ≤ 100 := by
  have hkeys : Utf8.size (quote (js "restartRequired")) = 17 ∧
      Utf8.size (quote (js "retryable")) = 11 ∧ Utf8.size (quote (js "generation")) = 12 := by
    decide
  cases h with
  | filter =>
      refine ⟨trivial, Nat.zero_le _, ?_⟩
      exact (size_quote_ofList _).trans_le (by decide)
  | limit =>
      refine ⟨trivial, Nat.zero_le _, ?_⟩
      exact (size_quote_ofList _).trans_le (by decide)
  | cursor =>
      refine ⟨trivial, Nat.zero_le _, ?_⟩
      exact (size_quote_ofList _).trans_le (by decide)
  | stale =>
      refine ⟨⟨trivial, trivial⟩, ?_, ?_⟩
      · simp [cursorStale, hkeys]
      · exact (size_quote_ofList _).trans_le (by decide)
  | changed =>
      refine ⟨⟨trivial, trivial⟩, ?_, ?_⟩
      · simp [registryChanged, hkeys]
      · exact (size_quote_ofList _).trans_le (by decide)
  | inconsistent capture =>
      have hgeneration := size_quote_le (computeGeneration pager.host capture)
      rw [length_computeGeneration hpager.host capture] at hgeneration
      refine ⟨⟨trivial, trivial⟩, ?_, ?_⟩
      · simp only [registryInconsistent, List.map_cons, List.map_nil, List.sum_cons, List.sum_nil,
          Json.size_str, hkeys]
        omega
      · exact (size_quote_ofList _).trans_le (by decide)

/-- The errors that stop a call are small. -/
theorem sent_refusal (hpager : pager.Sound) (hmin : mcpMinFrameBytes ≤ pager.budget.maxBytes)
    (hmax : pager.budget.maxBytes ≤ mcpMaxFrameBytes) {id : Json N} (hid : id.size ≤ 770)
    {error : DiscoveryError N} (h : Refusal pager.host error) :
    Sent pager.budget id (.error error) := by
  have hkeys : Utf8.size (quote (js "code")) = 6 ∧ Utf8.size (quote (js "message")) = 9 := by decide
  have hcode := error.code.size_text_le
  obtain ⟨hprintable, hmembers, hmessage⟩ := h.small hpager
  apply sent_of_error hmin hmax hid
  · exact ⟨trivial, trivial, hprintable⟩
  · rw [DiscoveryError.json, List.cons_append, Json.size_obj]
    simp only [List.cons_append, List.nil_append, List.map_cons, List.sum_cons, Json.size_str,
      hkeys]
    omega

/-! ## An entry that fits no frame -/

/-- The references of the store are as long as those of the payload store. -/
def ShortPersist (persist : Option (Persist σ)) : Prop :=
  ∀ keep, persist = some keep → ∀ (text : List Char) s recovery s', Utf8.size text < 10 ^ 21 →
    keep (Utf8.encode text) s = (.ok recovery, s') → ShortRecovery recovery

variable (N) in
/-- `payloadStore.persistOutput` of the server is such a store. -/
theorem shortPersist_store {P : Type} [DecidableEq P] {host : PayloadHost} (hhost : host.Sound)
    (call : PersistCall P) :
    ShortPersist (some fun bytes (w : PayloadWorld P) =>
      w.persist N host call.p call.dir call.scope call.inputs bytes) := by
  intro keep hkeep text w recovery w' htext h
  obtain rfl := Option.some.inj hkeep
  exact shortRecovery_of_keep (N := N) hhost h htext

omit [JsonNumber N] in
theorem recoveredEntry_short {persist : Option (Persist σ)} (hpersist : ShortPersist persist)
    {text : List Char} (htext : Utf8.size text < 10 ^ 21) (s : σ) (r : PayloadRecoveryRef)
    (h : (recoveredEntry persist (Utf8.encode text) s).1 = some r) : ShortRecovery r := by
  unfold recoveredEntry at h
  split at h
  · cases h
  · rename_i keep
    split at h
    · rename_i recovery s' hkeep
      rw [← Option.some.inj h]
      exact hpersist keep rfl text s recovery s' htext hkeep
    · cases h

/-- The cursor to resume with takes its own characters. -/
theorem size_resumeCursor_le (hpager : pager.Sound) (hnumbers : PrintsIntegers N)
    {sel : Selection N} (hsel : sel.Sound pager) :
    (textOrNull (resumeCursor pager sel) : Json N).size ≤ 2050 := by
  unfold resumeCursor
  dsimp only
  split
  · rename_i hmore
    have hlength := length_encodeCursor_le (N := N) hpager.host hnumbers
      (shortPayload_payloadAt hpager hsel (Nat.le_of_lt hmore))
    have hcursor : Utf8.size (quote (cursorAt pager sel (sel.position.offset + 1))) =
        (cursorAt pager sel (sel.position.offset + 1)).units.length + 2 := by
      refine size_quote_bare fun u hu => ?_
      rw [cursorAt, encodeCursor, JsString.append_units, JsString.append_units, List.append_assoc,
        List.mem_append, List.mem_append] at hu
      rcases hu with hbody | hdot | hmac
      · exact (mem_b64url hbody).2
      · have hunits : (js ".").units = [0x2E] := by decide
        rw [hunits, List.mem_singleton] at hdot
        subst hdot
        decide
      · exact (mem_b64url hmac).2
    rw [textOrNull, Json.size_str, hcursor]
    exact Nat.add_le_add_right hlength 2
  · rw [textOrNull, Json.size_null]
    decide

theorem length_clipId_le (id : JsString) : (clipId id).units.length ≤ 257 := by
  unfold clipId
  split
  · rw [List.length_append, List.length_take, List.length_singleton]
    omega
  · omega

theorem size_entryTooLarge_le (hpager : pager.Sound) (hnumbers : PrintsIntegers N)
    (hmax : pager.budget.maxBytes ≤ mcpMaxFrameBytes) {sel : Selection N} (hsel : sel.Sound pager)
    {entry : Registration N} (hentry : Utf8.size (stringify entry.json) < 10 ^ 21)
    {recovery : Option PayloadRecoveryRef} (hrecovery : ∀ r, recovery = some r → ShortRecovery r) :
    (entryTooLarge pager sel entry recovery).json.size ≤ 7000 := by
  have hkeys : Utf8.size (quote (js "code")) = 6 ∧ Utf8.size (quote (js "message")) = 9 ∧
      Utf8.size (quote (js "budgetBytes")) = 13 ∧ Utf8.size (quote (js "entryBytes")) = 12 ∧
      Utf8.size (quote (js "id")) = 4 ∧ Utf8.size (quote (js "entrySha256")) = 13 ∧
      Utf8.size (quote (js "generation")) = 12 ∧ Utf8.size (quote (js "total")) = 7 ∧
      Utf8.size (quote (js "offset")) = 8 ∧ Utf8.size (quote (js "resumeCursor")) = 14 := by decide
  have htexts : Utf8.size (quote DiscoveryErrorCode.entryTooLarge.text) = 17 ∧
      Utf8.size (quote (js "one registry entry exceeds the MCP frame budget")) = 49 :=
    ⟨by decide, (size_quote_ofList _).trans (by decide)⟩
  have hbudget := size_counter_le hnumbers
    (Nat.lt_of_le_of_lt hmax (by decide : mcpMaxFrameBytes < 10 ^ 21))
  have hbytes := size_counter_le hnumbers hentry
  have htotal := size_counter_le hnumbers hsel.total
  have hoffset := size_counter_le hnumbers (Nat.lt_of_le_of_lt hsel.offset hsel.total)
  have hcursor := size_resumeCursor_le hpager hnumbers hsel
  have hmembers := size_recoveryMembers_le hnumbers hrecovery
  have hid := size_quote_le (clipId (regKey entry))
  have hclip := length_clipId_le (regKey entry)
  have hsha := size_quote_le
    (js "sha256:" ++ hexText (pager.host.sha256 (Utf8.encode (stringify entry.json))))
  have hprefix : (js "sha256:").units.length = 7 := by decide
  rw [JsString.append_units, List.length_append, hexText_length, hpager.host.sha256_length,
    hprefix] at hsha
  obtain ⟨capture, hcapture⟩ := hsel.generation
  have hgeneration := size_quote_le sel.generation
  rw [hcapture, length_computeGeneration hpager.host capture] at hgeneration
  unfold Utf8.size at hbytes
  rw [DiscoveryError.json, entryTooLarge, List.cons_append, Json.size_obj]
  simp only [List.cons_append, List.nil_append, List.map_cons, List.sum_cons, Json.size_str, hkeys,
    htexts]
  rw [hcapture]
  omega

theorem printable_entryTooLarge (sel : Selection N) (entry : Registration N)
    (recovery : Option PayloadRecoveryRef) :
    (entryTooLarge pager sel entry recovery).json.Printable := by
  have hresume : (textOrNull (resumeCursor pager sel) : Json N).Printable := by
    cases resumeCursor pager sel <;> exact trivial
  rw [DiscoveryError.json, entryTooLarge, Json.printable_obj]
  cases recovery with
  | none => simp [Json.Printable, recoveryMembers, JsonNumber.isFinite_ofNat, hresume]
  | some r =>
      simp [Json.Printable, Json.Printable.PrintableMembers, recoveryMembers,
        PayloadRecoveryRef.json, JsonNumber.isFinite_ofNat, hresume]

/-- An entry whose page was measured has a text of a possible length. -/
theorem size_entry_lt (hnumbers : PrintsIntegers N) {sel : Selection N} {entry : Registration N}
    (hentry : sel.sorted[sel.position.offset]? = some entry) {fits : Bool}
    (h : pageFits pager sel 1 = .ok fits) : Utf8.size (stringify entry.json) < 10 ^ 21 := by
  unfold pageFits at h
  split at h
  · rename_i bytes hbytes
    obtain ⟨hmeasured, hlt⟩ := bytes_measured hnumbers hbytes
    have hquote := size_le_quote (stringify (buildPage pager sel 1).json)
    obtain ⟨rest, hrest⟩ : ∃ rest, finite (buildPage pager sel 1).json =
        .obj ((js "instances", .arr [finite entry.json]) :: rest) := by
      rw [DiscoverInstancesPage.json, buildPage, take_one_of_getElem? hentry]
      exact ⟨_, rfl⟩
    have hsize : Utf8.size (stringify entry.json) ≤
        Utf8.size (stringify (buildPage pager sel 1).json) := by
      change (finite entry.json).size ≤ (finite (buildPage pager sel 1).json).size
      rw [hrest, Json.size_obj]
      simp only [List.map_cons, List.map_nil, List.sum_cons, List.sum_nil, Json.size_arr]
      omega
    unfold unitsOf at hmeasured
    omega
  · cases h

/-! ## Answers -/

/-- A page is cut short only where one more entry does not fit, and an entry is left out of the
pages only where it does not fit alone. -/
def Filled (pager : Pager σ) (sel : Selection N) : DiscoverOutcome N → Prop
  | .page p => p = buildPage pager sel p.returned ∧
      (p.returned = maxAvailable sel ∨ pageFits pager sel (p.returned + 1) = .ok false)
  | .error e => pageFits pager sel 1 = .ok false ∧ ∃ entry recovery,
      sel.sorted[sel.position.offset]? = some entry ∧ e = entryTooLarge pager sel entry recovery

theorem answer_sent (hpager : pager.Sound) (hnumbers : PrintsIntegers N)
    (hmin : mcpMinFrameBytes ≤ pager.budget.maxBytes)
    (hmax : pager.budget.maxBytes ≤ mcpMaxFrameBytes) (hpersist : ShortPersist pager.persist)
    {sel : Selection N} (hsel : sel.Sound pager) {s s' : σ} {outcome : DiscoverOutcome N}
    (h : answer pager sel s = (.ok outcome, s')) :
    Filled pager sel outcome ∧ ∀ id : Json N, id.size ≤ 770 → Sent pager.budget id outcome := by
  have hlimit := hsel.plain.limit_pos
  have hoffset := hsel.offset
  unfold answer at h
  split at h
  · rename_i hnone
    obtain ⟨h, -⟩ := Prod.mk.inj h
    have hzero : maxAvailable sel = 0 ∧ sel.position.offset = sel.total := by
      unfold maxAvailable at hnone ⊢
      omega
    rw [← Except.ok.inj h]
    exact ⟨⟨rfl, Or.inl hzero.1.symm⟩, fun id hid =>
      sent_emptyPage hpager hnumbers hid hmin hmax hsel hzero.2⟩
  · rename_i hsome
    have hpos : 0 < maxAvailable sel := by
      unfold maxAvailable at hsome ⊢
      omega
    dsimp only at h
    split at h
    · cases h
    · rename_i hfound
      have found := bisect_ok _ (Nat.zero_le _) (Nat.le_of_eq (Nat.sub_zero _)) hfound
      have hrefused : pageFits pager sel 1 = .ok false := by
        rcases found.refused with hhi | hrefused
        · omega
        · exact hrefused
      split at h
      · cases h
      · rename_i entry hentry
        obtain ⟨h, -⟩ := Prod.mk.inj h
        have htext := size_entry_lt hnumbers hentry hrefused
        rw [← Except.ok.inj h]
        refine ⟨⟨hrefused, entry, _, hentry, rfl⟩, fun id hid => ?_⟩
        exact sent_of_error hmin hmax hid (printable_entryTooLarge sel entry _)
          (size_entryTooLarge_le hpager hnumbers hmax hsel htext
            (recoveredEntry_short hpersist htext s))
    · rename_i n hfound
      have found := bisect_ok _ (Nat.zero_le _) (Nat.le_of_eq (Nat.sub_zero _)) hfound
      obtain ⟨h, -⟩ := Prod.mk.inj h
      rw [← Except.ok.inj h]
      refine ⟨⟨rfl, ?_⟩, fun id hid => ?_⟩
      · rcases found.refused with hhi | hrefused
        · left
          change ((n + 1 : Nat) : Int) = maxAvailable sel
          omega
        · exact Or.inr hrefused
      · rcases found.accepted with hzero | haccepted
        · cases hzero
        · exact sent_of_pageFits hnumbers hid hmin hmax haccepted

/-! ## Runs -/

/-- While no call is let through with a code that was not given, a position is one that passed the
checks of the call that began. -/
theorem sound_of_unforged (hpager : pager.Sound) {run : List (Exchange N σ)}
    (hrun : ∀ ex ∈ run, ex.Happens pager) (hforged : ¬Forged pager run)
    (earlier : List (Exchange N σ)) :
    ∀ (ex : Exchange N σ) (later : List (Exchange N σ)), run = earlier ++ ex :: later →
      ∀ capture sel, Selected pager ex.attempts ex.args capture sel → sel.Sound pager := by
  induction hlength : earlier.length using Nat.strongRecOn generalizing earlier with
  | ind length ih =>
      intro ex later hsplit capture sel hselected
      cases hargs : ex.args.cursor with
      | none => exact hselected.sound (hselected.first hargs).1
      | some value =>
          obtain ⟨raw, p, rfl, hdecode⟩ := hselected.decoded hargs
          obtain ⟨before, ex', between, cursor, rfl, hcursor, hbody⟩ :=
            given_of_unforged hforged hsplit hargs hdecode
          have hshort : before.length < length := by
            rw [← hlength, List.length_append, List.length_cons]
            omega
          have hex' : ex' ∈ run := by
            rw [hsplit]
            simp
          obtain ⟨capture', sel', hselected', hanswer⟩ := discover_ok (hrun ex' hex') hcursor
          rw [List.append_assoc, List.cons_append] at hsplit
          have hsound := ih _ hshort before rfl ex' _ hsplit capture' sel' hselected'
          obtain ⟨n, hn⟩ := answer_ok hsound.plain hsound.offset hanswer
          rw [hn.body hcursor] at hbody
          obtain rfl := decoded_body hpager hsound.plain hbody.symm hdecode
          obtain ⟨-, hposition⟩ := hselected.resumed hsound hargs hdecode
          refine hselected.sound ?_
          rw [hposition]
          exact (hsound.at hn.within).plain

/-- Every answer of a run is sent as it is, in a frame within the budget, whatever the id of its
request; a page stops before its limit only where one more entry would not fit.  Otherwise a call
was let through with a code that no answer had given. -/
theorem answers_sent (hpager : pager.Sound) (hnumbers : PrintsIntegers N)
    {env : JsString → Option JsString} (hbudget : pager.budget = resolveFrameBudget env)
    (hpersist : ShortPersist pager.persist) {run : List (Exchange N σ)}
    (hrun : ∀ ex ∈ run, ex.Happens pager) :
    Forged pager run ∨ ∀ ex ∈ run,
      (∀ id, isAcceptableRequestId id = true → ShortNumber id →
        Sent pager.budget id ex.outcome) ∧
      ((∃ e, ex.outcome = .error e ∧ Refusal pager.host e) ∨
        ∃ capture sel, Selected pager ex.attempts ex.args capture sel ∧
          Filled pager sel ex.outcome) := by
  by_cases hforged : Forged pager run
  · exact Or.inl hforged
  refine Or.inr fun ex hex => ?_
  obtain ⟨hmin, hmax⟩ := budget_bounds env
  rw [← hbudget] at hmin hmax
  rcases discover_cases (hrun ex hex) with ⟨e, houtcome, hrefusal⟩ | ⟨capture, sel, hselected, h⟩
  · refine ⟨fun id hid hshort => ?_, Or.inl ⟨e, houtcome, hrefusal⟩⟩
    rw [houtcome]
    exact sent_refusal hpager hmin hmax (size_id_le hid hshort) hrefusal
  · obtain ⟨earlier, later, hsplit⟩ := List.append_of_mem hex
    have hsound := sound_of_unforged hpager hrun hforged earlier ex later hsplit capture sel
      hselected
    obtain ⟨hfilled, hsent⟩ := answer_sent hpager hnumbers hmin hmax hpersist hsound h
    exact ⟨fun id hid hshort => hsent id (size_id_le hid hshort),
      Or.inr ⟨capture, sel, hselected, hfilled⟩⟩

theorem answers_sent_sample :
    Forged samplePager [sampleFirst, sampleSecond] ∨ ∀ ex ∈ [sampleFirst, sampleSecond],
      (∀ id, isAcceptableRequestId id = true → ShortNumber id →
        Sent samplePager.budget id ex.outcome) ∧
      ((∃ e, ex.outcome = .error e ∧ Refusal samplePager.host e) ∨
        ∃ capture sel, Selected samplePager ex.attempts ex.args capture sel ∧
          Filled samplePager sel ex.outcome) := by
  have hbudget : samplePager.budget = resolveFrameBudget fun _ => none := rfl
  refine answers_sent samplePager_sound printsIntegers_int hbudget nofun ?_
  exact List.forall_mem_cons.mpr
    ⟨sampleFirst_happens, List.forall_mem_singleton.mpr sampleSecond_happens⟩

/-! ## The central server -/

/-- `boundCallToolResult` of the central server leaves a page as it is if and only if its frame,
16 bytes larger than the one the pager measured, is within the limit. -/
theorem central_page_iff {τ : Type} (hnumbers : PrintsIntegers N) {budget : FrameBudget}
    {page : DiscoverInstancesPage N} {bytes : Nat} (hbytes : frameBytesFor page = some bytes)
    (hsmall : bytes < maxStringLength - 16) (recover : Option (Recover τ)) (t : τ) :
    (boundCallToolResult (some (DiscoverOutcome.page page).result) budget recover t).1 =
        some (DiscoverOutcome.page page).result ↔
      bytes + 16 ≤ max mcpMinFrameBytes (budget.maxBytes - 1024) := by
  obtain ⟨hmeasured, -⟩ := bytes_measured hnumbers hbytes
  have hsize : (resultFrame (.num (JsonNumber.ofNat 0)) (DiscoverOutcome.page page).result).size =
      bytes + 15 := by
    rw [size_resultFrame, size_zero hnumbers, DiscoverOutcome.result, size_plainResult]
    omega
  have hshort : (resultFrame (.num (JsonNumber.ofNat 0))
      (DiscoverOutcome.page page).result).size < maxStringLength := by omega
  have hintact := encodeFrame_of_size hshort
  simp only [boundCallToolResult, Option.map_some, hintact, hsize]
  by_cases hfits : bytes + 16 ≤ max mcpMinFrameBytes (budget.maxBytes - 1024)
  · rw [if_pos hfits]
    exact iff_of_true rfl hfits
  · rw [if_neg hfits]
    refine iff_of_false (fun heq => ?_) hfits
    simp [errorResult, DiscoverOutcome.result, plainResult] at heq

end H2a.Mcp.Discovery
