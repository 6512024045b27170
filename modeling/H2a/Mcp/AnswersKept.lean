import Mathlib.Algebra.Order.Group.Abs
import Mathlib.Algebra.Order.Group.Int
import H2a.Mcp.FrameSizes
import H2a.Mcp.PayloadKept
/-!
# Answers within the budget

An answer larger than the budget is replaced by an error that fits, and its text is read back from
the payload store.  The frame of a tool result is measured with the id `0`, and below
`mcpMinFrameBytes + 1024` bytes there is no reserve for a longer one: `answers_kept_iff` says which
results are then sent in a frame over the budget.
-/

namespace H2a.Mcp

open H2a.Library

variable {P N : Type} [DecidableEq P] [JsonNumber N]

/-! ## What is kept of an answer -/

/-- What `node:crypto` and `Date` promise. -/
structure PayloadHost.Sound (host : PayloadHost) : Prop where
  sha256_length : ∀ bytes, (host.sha256 bytes).units.length = 64
  parse_toISOString : ∀ time, |time| ≤ maxTime →
    host.parseDate (host.toISOString time) = some time
  toISOString_length : ∀ time, |time| ≤ maxTime → (host.toISOString time).units.length ≤ 27

/-- A call of `persistOutput`, by the store of a process. -/
structure PersistCall (P : Type) where
  p : P
  dir : JsString
  scope : JsString
  inputs : PersistInputs

variable (N) in
/-- `payloadStore.persistOutput(Buffer.from(json, "utf8"))` -/
def PayloadWorld.keep (w : PayloadWorld P) (host : PayloadHost) (call : PersistCall P)
    (json : List Char) : Except PayloadStoreError PayloadRecoveryRef × PayloadWorld P :=
  w.persist N host call.p call.dir call.scope call.inputs (Utf8.encode json)

variable (N) in
/-- `recover` of the servers -/
def storeRecover (host : PayloadHost) (call : PersistCall P) : Recover (PayloadWorld P) :=
  fun json _ w =>
    let (answer, w) := w.keep N host call json
    (answer.map some, w)

variable (N) in
/-- Read from 0 on before the reference expires, the chunks are the text, and there are at most as
many as it has bytes, or one. -/
def Recoverable (host : PayloadHost) (scope : JsString) (recovery : PayloadRecoveryRef)
    (json : List Char) (w : PayloadWorld P) : Prop :=
  ∃ expiry, host.parseDate recovery.expiresAt = some expiry ∧
    ∀ rounds : List (ReadRound P N), (∀ round ∈ rounds, round.Spares recovery.ref expiry) →
      readOn host scope recovery.ref w (JsonNumber.ofNat 0) rounds =
          some (.ok (Utf8.encode json)) ∨
        readOn host scope recovery.ref w (JsonNumber.ofNat 0) rounds = none ∧
          rounds.length < max 1 (Utf8.encode json).length

/-- The frame of a response is within the budget, and where the response was too large for it and
was kept, the frame has the reference, which gives the response back. -/
structure ResponseKept (host : PayloadHost) (budget : FrameBudget) (id : Json N)
    (message : Option (Json N)) (call : Option (PersistCall P)) (w : PayloadWorld P) : Prop where
  fits : ∃ frame,
    (boundResponseFrame id message budget (call.map (storeRecover N host)) w).1 = some frame ∧
      frame.bytes ≤ budget.maxBytes
  recovers : ∀ encoded c recovery w', encodeFrame message = some encoded →
    budget.maxBytes < encoded.bytes → call = some c →
      w.keep N host c encoded.json = (.ok recovery, w') →
        boundResponseFrame id message budget (call.map (storeRecover N host)) w =
            (encodeFrame (some (buildResponseTooLargeError id budget.maxBytes encoded.bytes
              (some recovery))), w') ∧
          Recoverable N host c.scope recovery encoded.json w'

/-- The same of a tool result, in the frame around what it is replaced by. -/
structure ToolResultKept (host : PayloadHost) (budget : FrameBudget) (id result : Json N)
    (call : Option (PersistCall P)) (w : PayloadWorld P) : Prop where
  fits : ∃ bounded frame,
    (boundCallToolResult (some result) budget (call.map (storeRecover N host)) w).1 =
        some bounded ∧
      encodeFrame (some (resultFrame id bounded)) = some frame ∧ frame.bytes ≤ budget.maxBytes
  recovers : ∀ intact c recovery w',
    encodeFrame (some (resultFrame (.num (JsonNumber.ofNat 0)) result)) = some intact →
      max mcpMinFrameBytes (budget.maxBytes - 1024) < intact.bytes → call = some c →
        w.keep N host c result.render = (.ok recovery, w') →
          boundCallToolResult (some result) budget (call.map (storeRecover N host)) w =
              (some (errorResult (tooLargeInfo (N := N) budget.maxBytes intact.bytes
                (some recovery)).render), w') ∧
            Recoverable N host c.scope recovery result.render w'

/-! ## Recovery -/

theorem persisted_of_keep {host : PayloadHost} {w w' : PayloadWorld P} {call : PersistCall P}
    {json : List Char} {recovery : PayloadRecoveryRef}
    (h : w.keep N host call json = (.ok recovery, w')) :
    Persisted N host call.scope call.inputs (Utf8.encode json) recovery w'.entries := by
  rw [PayloadWorld.keep, PayloadWorld.persist, Prod.mk.injEq] at h
  obtain ⟨hanswer, rfl⟩ := h
  have hcall : persistOutput N host call.dir call.scope call.inputs (Utf8.encode json) w.entries
      (w.caches call.p) = (.ok recovery, _, _) := Prod.ext hanswer rfl
  exact persisted_of_ok hcall

theorem shortRecovery_of_keep {host : PayloadHost} (hhost : host.Sound) {w w' : PayloadWorld P}
    {call : PersistCall P} {json : List Char} {recovery : PayloadRecoveryRef}
    (h : w.keep N host call json = (.ok recovery, w')) (hjson : Utf8.size json < 10 ^ 21) :
    ShortRecovery recovery := by
  have hpersisted := persisted_of_keep h
  have href : recovery.ref.units.length = 64 := by
    rw [hpersisted.ref, PersistInputs.ref, hexText_length, call.inputs.random.2]
  have hsha : recovery.sha256.units.length = 71 := by
    rw [hpersisted.sha256, JsString.append_units, List.length_append, hhost.sha256_length]
    rfl
  have htotal : recovery.totalBytes < 10 ^ 21 := by
    rw [hpersisted.totalBytes]
    exact hjson
  have hexpires : recovery.expiresAt.units.length ≤ 27 := by
    rw [hpersisted.expiresAt]
    exact hhost.toISOString_length _ hpersisted.time
  exact ⟨href, hsha, htotal, hexpires⟩

theorem recoverable_of_keep {host : PayloadHost} (hhost : host.Sound) {w w' : PayloadWorld P}
    {call : PersistCall P} {json : List Char} {recovery : PayloadRecoveryRef}
    (h : w.keep N host call json = (.ok recovery, w')) :
    Recoverable N host call.scope recovery json w' := by
  have hpersisted := persisted_of_keep h
  have hexpiry : host.parseDate recovery.expiresAt = some (call.inputs.now + payloadTtlMs) := by
    rw [hpersisted.expiresAt]
    exact hhost.parse_toISOString _ hpersisted.time
  refine ⟨_, hexpiry, fun rounds hrounds => ?_⟩
  have hread := readOn_intact rounds hpersisted.intact hpersisted.totalBytes hexpiry hrounds
    (Nat.zero_le _)
  rw [List.drop_zero, Nat.sub_zero] at hread
  exact hread

variable (N) in
theorem recovered_short {host : PayloadHost} (hhost : host.Sound) (w : PayloadWorld P)
    (call : Option (PersistCall P)) {json : List Char} (hjson : Utf8.size json < 10 ^ 21)
    (bytes : Nat) (r : PayloadRecoveryRef)
    (h : (recovered (call.map (storeRecover N host)) json bytes w).1 = some r) :
    ShortRecovery r := by
  cases call with
  | none => cases h
  | some c =>
      cases hkeep : w.keep N host c json with
      | mk answer w' =>
          cases answer with
          | error error =>
              simp [recovered, storeRecover, hkeep, Except.map] at h
          | ok recovery =>
              simp only [recovered, storeRecover, Option.map_some, hkeep, Except.map,
                Option.some.injEq] at h
              rw [← h]
              exact shortRecovery_of_keep hhost hkeep hjson

theorem recovered_of_keep {host : PayloadHost} {w w' : PayloadWorld P} {c : PersistCall P}
    {json : List Char} {recovery : PayloadRecoveryRef}
    (h : w.keep N host c json = (.ok recovery, w')) (bytes : Nat) :
    recovered (some (storeRecover N host c)) json bytes w = (some recovery, w') := by
  simp only [recovered, storeRecover, h, Except.map]

/-! ## The two bounds -/

section Bounds

variable {host : PayloadHost} {budget : FrameBudget} {id : Json N}

theorem budget_bounds (env : JsString → Option JsString) :
    mcpMinFrameBytes ≤ (resolveFrameBudget env).maxBytes ∧
      (resolveFrameBudget env).maxBytes ≤ mcpMaxFrameBytes := by
  have hle : mcpMinFrameBytes ≤ mcpMaxFrameBytes := by decide
  unfold resolveFrameBudget
  split
  · split
    · exact ⟨le_min hle (le_max_left _ _), min_le_left _ _⟩
    · exact ⟨hle, le_refl _⟩
  · exact ⟨hle, le_refl _⟩

/-- A small frame is within every budget. -/
theorem encodeFrame_small {value : Json N} (hvalue : value.size ≤ 9000)
    (hbudget : mcpMinFrameBytes ≤ budget.maxBytes) :
    ∃ frame, encodeFrame (some value) = some frame ∧ frame.bytes ≤ budget.maxBytes := by
  have hmax : 9000 < maxStringLength := by decide
  have hmin : 9001 ≤ mcpMinFrameBytes := by decide
  refine ⟨_, encodeFrame_of_size (Nat.lt_of_le_of_lt hvalue hmax), ?_⟩
  dsimp only
  omega

theorem responseKept (hhost : host.Sound) (hnumbers : PrintsIntegers N) (hid : id.size ≤ 770)
    (hmin : mcpMinFrameBytes ≤ budget.maxBytes) (hmax : budget.maxBytes ≤ mcpMaxFrameBytes)
    (message : Option (Json N)) (call : Option (PersistCall P)) (w : PayloadWorld P) :
    ResponseKept host budget id message call w where
  fits := by
    have hbudget : budget.maxBytes < 10 ^ 21 := Nat.lt_of_le_of_lt hmax (by decide)
    unfold boundResponseFrame
    split
    · have hsize := size_buildSerializationFailedError_le hnumbers hid
      dsimp only
      exact encodeFrame_small (by omega) hmin
    · rename_i encoded hencoded
      obtain ⟨value, rfl, hjson, hbytes, hlt⟩ := encodeFrame_eq_some hencoded
      split
      · exact ⟨encoded, rfl, ‹_›⟩
      · have htext : Utf8.size encoded.json < 10 ^ 21 := by
          rw [hjson]
          change value.size < 10 ^ 21
          omega
        have hsize := size_buildResponseTooLargeError_le hnumbers hid hbudget hlt
          (recovered_short N hhost w call htext encoded.bytes)
        dsimp only
        exact encodeFrame_small (by omega) hmin
  recovers := by
    rintro encoded c recovery w' hencoded hlarge rfl hkeep
    refine ⟨?_, recoverable_of_keep hhost hkeep⟩
    simp only [boundResponseFrame, hencoded, Option.map_some, if_neg (Nat.not_le.mpr hlarge),
      recovered_of_keep hkeep]

theorem toolResult_recovers (hhost : host.Sound) (result : Json N)
    {w w' : PayloadWorld P} {c : PersistCall P} {recovery : PayloadRecoveryRef}
    {intact : EncodedFrame}
    (hintact : encodeFrame (some (resultFrame (.num (JsonNumber.ofNat 0)) result)) = some intact)
    (hlarge : max mcpMinFrameBytes (budget.maxBytes - 1024) < intact.bytes)
    (hkeep : w.keep N host c result.render = (.ok recovery, w')) :
    boundCallToolResult (some result) budget ((some c).map (storeRecover N host)) w =
        (some (errorResult (tooLargeInfo (N := N) budget.maxBytes intact.bytes
          (some recovery)).render), w') ∧
      Recoverable N host c.scope recovery result.render w' := by
  refine ⟨?_, recoverable_of_keep hhost hkeep⟩
  simp only [boundCallToolResult, hintact, Option.map_some, if_neg (Nat.not_le.mpr hlarge),
    recovered_of_keep hkeep]

/-- The frame with the id `0` takes one byte for the id. -/
theorem bytes_intact (hnumbers : PrintsIntegers N) {result : Json N} {intact : EncodedFrame}
    (h : encodeFrame (some (resultFrame (.num (JsonNumber.ofNat 0)) result)) = some intact) :
    intact.bytes = result.size + 35 ∧ intact.bytes < 10 ^ 21 := by
  obtain ⟨value, hvalue, -, hbytes, hlt⟩ := encodeFrame_eq_some h
  obtain rfl := Option.some.inj hvalue
  rw [size_resultFrame, size_zero hnumbers] at hbytes
  exact ⟨by omega, hlt⟩

/-- The frame around a result that stands for another fits. -/
theorem errorResult_fits (hid : id.size ≤ 770) (hmin : mcpMinFrameBytes ≤ budget.maxBytes)
    {info : Json N} (hinfo : info.size ≤ 1300) :
    ∃ frame, encodeFrame (some (resultFrame id (errorResult info.render))) = some frame ∧
      frame.bytes ≤ budget.maxBytes := by
  have hresult := size_errorResult_le hinfo
  apply encodeFrame_small _ hmin
  rw [size_resultFrame]
  omega

theorem size_serializationFailed :
    (Json.obj (N := N) [(js "code", .str (js "serialization_failed"))]).size ≤ 1300 := by
  have htexts : Utf8.size (quote (js "code")) = 6 ∧
      Utf8.size (quote (js "serialization_failed")) = 22 := by decide
  rw [Json.size_obj]
  simp only [List.map_cons, List.map_nil, List.sum_cons, List.sum_nil, Json.size_str, htexts]
  decide

/-- The condition: there is a reserve for the id, or the result is replaced, or its frame fits. -/
def ReserveEnough (budget : FrameBudget) (id result : Json N) : Prop :=
  mcpMinFrameBytes + 1024 ≤ budget.maxBytes ∨ mcpMinFrameBytes < result.size + 35 ∨
    id.size + result.size + 34 ≤ budget.maxBytes

/-- A result that is sent as it is fits with its id. -/
theorem sent_fits (hid : id.size ≤ 770) (hmax : budget.maxBytes ≤ mcpMaxFrameBytes)
    {result : Json N} (henough : ReserveEnough budget id result)
    (hlimit : result.size + 35 ≤ max mcpMinFrameBytes (budget.maxBytes - 1024)) :
    ∃ frame, encodeFrame (some (resultFrame id result)) = some frame ∧
      frame.bytes ≤ budget.maxBytes := by
  have hfits : id.size + result.size + 34 ≤ budget.maxBytes := by
    rcases henough with hreserve | hlarge | hfits
    · omega
    · omega
    · exact hfits
  have hlong : mcpMaxFrameBytes < maxStringLength := by decide
  have hframe : (resultFrame id result).size < maxStringLength := by
    rw [size_resultFrame]
    omega
  refine ⟨_, encodeFrame_of_size hframe, ?_⟩
  dsimp only
  rw [size_resultFrame]
  exact hfits

theorem toolResultKept (hhost : host.Sound) (hnumbers : PrintsIntegers N) (hid : id.size ≤ 770)
    (hmin : mcpMinFrameBytes ≤ budget.maxBytes) (hmax : budget.maxBytes ≤ mcpMaxFrameBytes)
    {result : Json N} (henough : ReserveEnough budget id result)
    (call : Option (PersistCall P)) (w : PayloadWorld P) :
    ToolResultKept host budget id result call w where
  fits := by
    have hbudget : budget.maxBytes < 10 ^ 21 := Nat.lt_of_le_of_lt hmax (by decide)
    unfold boundCallToolResult
    rw [Option.map_some]
    cases hintact : encodeFrame (some (resultFrame (.num (JsonNumber.ofNat 0)) result)) with
    | none =>
        obtain ⟨frame, hframe, hle⟩ := errorResult_fits hid hmin (size_serializationFailed (N := N))
        exact ⟨_, frame, rfl, hframe, hle⟩
    | some intact =>
        obtain ⟨hbytes, hactual⟩ := bytes_intact hnumbers hintact
        have hsize : Utf8.size result.render < 10 ^ 21 := by
          change result.size < 10 ^ 21
          omega
        dsimp only
        split
        · obtain ⟨frame, hframe, hle⟩ := sent_fits hid hmax henough (hbytes ▸ ‹_›)
          exact ⟨result, frame, rfl, hframe, hle⟩
        · have hshort := recovered_short N hhost w call hsize intact.bytes
          have hinfo := size_tooLargeInfo_le hnumbers hbudget hactual hshort
          obtain ⟨frame, hframe, hle⟩ := errorResult_fits hid hmin hinfo
          exact ⟨_, frame, rfl, hframe, hle⟩
  recovers := by
    rintro intact c recovery w' hintact hlarge rfl hkeep
    exact toolResult_recovers hhost result hintact hlarge hkeep

/-- Where the condition fails, the result is sent in a frame over the budget. -/
theorem reserveEnough_of_kept (hnumbers : PrintsIntegers N) {result : Json N}
    {w : PayloadWorld P} (h : ToolResultKept host budget id result none w) :
    ReserveEnough budget id result := by
  by_contra hnot
  rw [ReserveEnough, not_or, not_or, not_le, not_lt, not_le] at hnot
  obtain ⟨hsmall, hlimit, hover⟩ := hnot
  have hlong : mcpMinFrameBytes < maxStringLength := by decide
  have hsize : (resultFrame (.num (JsonNumber.ofNat 0 : N)) result).size < maxStringLength := by
    rw [size_resultFrame, size_zero hnumbers]
    omega
  have hintact := encodeFrame_of_size hsize
  have hbytes := (bytes_intact hnumbers hintact).1
  obtain ⟨bounded, frame, hbounded, hframe, hle⟩ := h.fits
  have hsent : boundCallToolResult (some result) budget
      ((none : Option (PersistCall P)).map (storeRecover N host)) w = (some result, w) := by
    simp only [boundCallToolResult, Option.map_some, hintact]
    dsimp only at hbytes
    rw [if_pos (by omega)]
  rw [hsent, Option.some.injEq] at hbounded
  obtain ⟨value, hvalue, -, hframeBytes, -⟩ := encodeFrame_eq_some hframe
  obtain rfl := Option.some.inj hvalue
  rw [← hbounded, size_resultFrame] at hframeBytes
  omega

end Bounds

/-- Responses are always kept.  Tool results are, for a budget and an id, if and only if the reserve
is enough. -/
theorem answers_kept_iff {host : PayloadHost} (hhost : host.Sound) (hnumbers : PrintsIntegers N)
    (env : JsString → Option JsString) {id : Json N} (hid : isAcceptableRequestId id = true)
    (hshort : ShortNumber id) (result : Json N) :
    ((∀ message call (w : PayloadWorld P),
        ResponseKept host (resolveFrameBudget env) id message call w) ∧
      ∀ call (w : PayloadWorld P),
        ToolResultKept host (resolveFrameBudget env) id result call w) ↔
      ReserveEnough (resolveFrameBudget env) id result := by
  obtain ⟨hmin, hmax⟩ := budget_bounds env
  have hsize := size_id_le hid hshort
  constructor
  · intro hkept
    have hnone := hkept.2 none ⟨false, .empty, fun _ => ⟨.empty, none⟩⟩
    exact reserveEnough_of_kept hnumbers hnone
  · intro henough
    exact ⟨responseKept hhost hnumbers hsize hmin hmax,
      toolResultKept hhost hnumbers hsize hmin hmax henough⟩

/-! ## A frame over the budget -/

theorem printsIntegers_int : PrintsIntegers Int where
  token := fun n _ => ⟨rfl, congrArg JsonInteger.print (JsonInteger.ofToken_print n)⟩
  counter := fun _ _ => rfl
  counter_length := fun k hk => (Nat.length_toDigits_le_iff (by decide) (by decide)).mpr hk

/-- Dates in four code units. -/
def sampleHost : PayloadHost where
  sha256 _ := ⟨List.replicate 64 0x30⟩
  parseDate
    | ⟨[a, b, c, d]⟩ =>
        some (a.toNat * 2 ^ 48 + b.toNat * 2 ^ 32 + c.toNat * 2 ^ 16 + d.toNat - maxTime)
    | _ => none
  toISOString time :=
    let n := (time + maxTime).toNat
    ⟨[.ofNat (n / 2 ^ 48), .ofNat (n / 2 ^ 32 % 2 ^ 16), .ofNat (n / 2 ^ 16 % 2 ^ 16),
      .ofNat (n % 2 ^ 16)]⟩

theorem sampleHost_sound : sampleHost.Sound where
  sha256_length _ := List.length_replicate
  parse_toISOString := by
    intro time htime
    have hbounds := abs_le.mp htime
    have hmax : maxTime = 8640000000000000 := rfl
    have hunit : ∀ n < 2 ^ 16, (UInt16.ofNat n).toNat = n := by
      intro n hn
      rw [UInt16.toNat_ofNat']
      exact Nat.mod_eq_of_lt hn
    simp only [sampleHost]
    rw [hunit _ (by omega), hunit _ (by omega), hunit _ (by omega), hunit _ (by omega)]
    apply congrArg some
    omega
  toISOString_length _ _ := (by decide : 4 ≤ 27)

/-- A tool result whose text is `n` times the letter a. -/
def letters (n : Nat) : Json Int :=
  .obj [(js "content", .arr [.obj [(js "type", .str (js "text")),
    (js "text", .str ⟨List.replicate n 0x61⟩)]])]

theorem size_letters (n : Nat) : (letters n).size = n + 39 := by
  have htext : ∀ n, Utf8.size (quoteUnits (List.replicate n 0x61)) = n := by
    intro n
    induction n with
    | zero => rfl
    | succ n ih =>
        have hletter : Utf8.size (quoteUnit 0x61) = 1 := by decide
        cases n with
        | zero => exact hletter
        | succ n =>
            have hplain : ¬(isHighSurrogate 0x61 && isLowSurrogate 0x61) = true := by decide
            rw [List.replicate_succ, List.replicate_succ, quoteUnits, if_neg hplain,
              ← List.replicate_succ, Utf8.size_append, ih, hletter, Nat.add_comm]
  have hkeys : Utf8.size (quote (js "content")) = 9 ∧ Utf8.size (quote (js "type")) = 6 ∧
      Utf8.size (quote (js "text")) = 6 := by decide
  have hquoted : Utf8.size (quote ⟨List.replicate n 0x61⟩) = n + 2 := by rw [size_quote, htext]
  rw [letters, Json.size_obj]
  simp only [List.map_cons, List.map_nil, List.sum_cons, List.sum_nil, Json.size_arr,
    Json.size_obj, Json.size_str, hkeys, hquoted]
  omega

/-- An environment with the least budget. -/
def floorEnv (name : JsString) : Option JsString :=
  if name = mcpFrameBudgetEnv then some (js "16384") else none

def emptyWorld : PayloadWorld Unit := ⟨false, .empty, fun _ => ⟨.empty, none⟩⟩

theorem answers_kept_letters :
    (∀ (message : Option (Json Int)) call (w : PayloadWorld Unit), ResponseKept sampleHost
        (resolveFrameBudget fun _ => none) (.str (js "ab")) message call w) ∧
      ∀ call (w : PayloadWorld Unit), ToolResultKept sampleHost
        (resolveFrameBudget fun _ => none) (.str (js "ab")) (letters 5) call w := by
  refine (answers_kept_iff sampleHost_sound printsIntegers_int (fun _ => none) (by decide) ?_
    (letters 5)).mpr (.inl (by decide))
  intro n hn
  cases hn

/-- At the least budget a result whose frame with the id `0` fits exactly is sent as it is, and
with the id `"ab"` the frame is three bytes over. -/
theorem letters_over_budget :
    isAcceptableRequestId (.str (js "ab") : Json Int) = true ∧
      ¬ToolResultKept sampleHost (resolveFrameBudget floorEnv) (.str (js "ab")) (letters 16310)
        none emptyWorld := by
  refine ⟨by decide, fun hkept => ?_⟩
  have hbudget : (resolveFrameBudget floorEnv).maxBytes = 16384 := by decide +kernel
  have hmin : mcpMinFrameBytes = 16384 := rfl
  have hid : (.str (js "ab") : Json Int).size = 4 := by decide
  have henough := reserveEnough_of_kept printsIntegers_int hkept
  rw [ReserveEnough, hbudget, hmin, hid, size_letters] at henough
  omega

end H2a.Mcp
