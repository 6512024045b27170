import H2a.Mcp.FrameBudget
/-!
# The sizes of frames

The bytes a frame takes, from those of its parts: exactly for a result, and at most for the frames
that stand for one that is too large or cannot be written.
-/

namespace H2a.Mcp

open H2a.Library

variable {N : Type} [JsonNumber N]

/-! ## Encoding -/

theorem encodeFrame_eq_some {message : Option (Json N)} {encoded : EncodedFrame}
    (h : encodeFrame message = some encoded) :
    ∃ value, message = some value ∧ encoded.json = value.render ∧
      encoded.bytes = value.size + 1 ∧ encoded.bytes < 10 ^ 21 := by
  have hnewline : Utf8.size ['\n'] = 1 := by decide
  cases message with
  | none => cases h
  | some value =>
      simp only [encodeFrame, Option.bind_some] at h
      split at h
      · rename_i hunits
        obtain rfl := Option.some.inj h
        have hbytes : (Utf8.encode (value.render ++ ['\n'])).length = value.size + 1 := by
          have happend := Utf8.size_append value.render ['\n']
          rw [hnewline] at happend
          exact happend
        have hsize := Utf8.size_le (value.render ++ ['\n'])
        have hlength := Utf8.length_le_units (value.render ++ ['\n'])
        have hmax : maxStringLength < 2 ^ 53 := by decide
        refine ⟨value, rfl, rfl, hbytes, ?_⟩
        change Utf8.size (value.render ++ ['\n']) < 10 ^ 21
        unfold unitsOf at hunits
        omega
      · cases h

theorem encodeFrame_of_size {value : Json N} (h : value.size < maxStringLength) :
    encodeFrame (some value) =
      some ⟨value.render, value.render ++ ['\n'], value.size + 1⟩ := by
  have hnewline : Utf8.size ['\n'] = 1 := by decide
  have happend := Utf8.size_append value.render ['\n']
  rw [hnewline] at happend
  have hunits := Utf8.units_length_le (value.render ++ ['\n'])
  rw [happend] at hunits
  have hfits : (unitsOf (value.render ++ ['\n'])).length ≤ maxStringLength :=
    Nat.le_trans hunits h
  simp only [encodeFrame, Option.bind_some, if_pos hfits, Option.some.injEq,
    EncodedFrame.mk.injEq, true_and]
  exact happend

/-! ## Parts -/

/-- An id that is accepted takes 770 bytes at most. -/
theorem size_id_le {id : Json N} (hid : isAcceptableRequestId id = true) (hshort : ShortNumber id) :
    id.size ≤ 770 := by
  cases id with
  | null => exact (by decide : 4 ≤ 770)
  | num n =>
      have hlength := hshort n rfl
      rw [Json.size_num hid]
      omega
  | str s =>
      have hquote := size_quote_le_byteLength s
      have hbytes : Utf8.byteLength s ≤ 128 := of_decide_eq_true hid
      rw [Json.size_str]
      omega
  | bool b => cases hid
  | arr es => cases hid
  | obj ms => cases hid

theorem size_resultFrame (id result : Json N) :
    (resultFrame id result).size = id.size + result.size + 33 := by
  have hversion : Utf8.size (quote (js "jsonrpc")) = 9 ∧ Utf8.size (quote (js "2.0")) = 5 := by
    decide
  have hkeys : Utf8.size (quote (js "id")) = 4 ∧ Utf8.size (quote (js "result")) = 8 := by decide
  rw [resultFrame, Json.size_obj]
  simp only [List.map_cons, List.map_nil, List.sum_cons, List.sum_nil, Json.size_str, hversion,
    hkeys]
  omega

theorem size_errorFrame (id : Json N) (code : N) (message : JsString) (data : Json N) :
    (errorFrame id code message data).size =
      id.size + (Json.num code).size + Utf8.size (quote message) + data.size + 60 := by
  have hversion : Utf8.size (quote (js "jsonrpc")) = 9 ∧ Utf8.size (quote (js "2.0")) = 5 := by
    decide
  have hkeys : Utf8.size (quote (js "id")) = 4 ∧ Utf8.size (quote (js "error")) = 7 := by decide
  have herror : Utf8.size (quote (js "code")) = 6 ∧ Utf8.size (quote (js "message")) = 9 ∧
      Utf8.size (quote (js "data")) = 6 := by decide
  rw [errorFrame, Json.size_obj]
  simp only [List.map_cons, List.map_nil, List.sum_cons, List.sum_nil, Json.size_str, hversion,
    hkeys, Json.size_obj, herror]
  omega

theorem size_errorResult (text : List Char) :
    (errorResult text : Json N).size = Utf8.size (quote ⟨unitsOf text⟩) + 52 := by
  have hkeys : Utf8.size (quote (js "content")) = 9 ∧ Utf8.size (quote (js "isError")) = 9 := by
    decide
  have hentry : Utf8.size (quote (js "type")) = 6 ∧ Utf8.size (quote (js "text")) = 6 := by decide
  rw [errorResult, Json.size_obj]
  simp only [List.map_cons, List.map_nil, List.sum_cons, List.sum_nil, Json.size_arr,
    Json.size_obj, Json.size_str, Json.size_true, hkeys, hentry]
  omega

theorem size_counter_le (hnumbers : PrintsIntegers N) {k : Nat} (hk : k < 10 ^ 21) :
    (Json.num (JsonNumber.ofNat k : N)).size ≤ 21 := by
  rw [Json.size_num (JsonNumber.isFinite_ofNat k)]
  exact hnumbers.counter_length k hk

theorem size_zero (hnumbers : PrintsIntegers N) : (Json.num (JsonNumber.ofNat 0 : N)).size = 1 := by
  rw [Json.size_num (JsonNumber.isFinite_ofNat 0), hnumbers.counter 0 (by decide)]
  rfl

theorem size_code (hnumbers : PrintsIntegers N) {n : Int} (hn : n.natAbs < 2 ^ 53) :
    (Json.num (JsonNumber.ofToken (JsonInteger.print n) : N)).size =
      (JsonInteger.print n).length := by
  obtain ⟨hfinite, hprint⟩ := hnumbers.token n hn
  rw [Json.size_num hfinite, hprint]

theorem size_responseTooLargeCode (hnumbers : PrintsIntegers N) :
    (Json.num (responseTooLargeCode : N)).size = 6 := by
  have hprint : JsonInteger.print (-32010) = "-32010".toList := by decide
  rw [responseTooLargeCode, ← hprint, size_code hnumbers (by decide), hprint]
  rfl

theorem size_internalErrorCode (hnumbers : PrintsIntegers N) :
    (Json.num (internalErrorCode : N)).size = 6 := by
  have hprint : JsonInteger.print (-32603) = "-32603".toList := by decide
  rw [internalErrorCode, ← hprint, size_code hnumbers (by decide), hprint]
  rfl

/-! ## What stands for an answer -/

/-- The texts of a reference are as long as those the payload store gives. -/
structure ShortRecovery (recovery : PayloadRecoveryRef) : Prop where
  ref : recovery.ref.units.length = 64
  sha256 : recovery.sha256.units.length = 71
  totalBytes : recovery.totalBytes < 10 ^ 21
  expiresAt : recovery.expiresAt.units.length ≤ 27

theorem size_recovery_le (hnumbers : PrintsIntegers N) {recovery : PayloadRecoveryRef}
    (h : ShortRecovery recovery) : (recovery.json : Json N).size ≤ 1044 := by
  have hkeys : Utf8.size (quote (js "ref")) = 5 ∧ Utf8.size (quote (js "sha256")) = 8 ∧
      Utf8.size (quote (js "totalBytes")) = 12 ∧ Utf8.size (quote (js "expiresAt")) = 11 := by
    decide
  have href := size_quote_le recovery.ref
  have hsha := size_quote_le recovery.sha256
  have hexpires := size_quote_le recovery.expiresAt
  have htotal := size_counter_le hnumbers h.totalBytes
  rw [h.ref] at href
  rw [h.sha256] at hsha
  have hlong := h.expiresAt
  rw [PayloadRecoveryRef.json, Json.size_obj]
  simp only [List.map_cons, List.map_nil, List.sum_cons, List.sum_nil, Json.size_str, hkeys]
  omega

/-- The members of what stands for an answer, whether there is a reference or not. -/
theorem size_recoveryMembers_le (hnumbers : PrintsIntegers N) {recovery : Option PayloadRecoveryRef}
    (h : ∀ r, recovery = some r → ShortRecovery r) :
    ((recoveryMembers recovery).map fun m : JsString × Json N =>
      Utf8.size (quote m.1) + m.2.size + 2).sum ≤ 1056 := by
  have hkey : Utf8.size (quote (js "recovery")) = 10 := by decide
  cases recovery with
  | none => exact Nat.zero_le _
  | some r =>
      have hr := size_recovery_le hnumbers (h r rfl)
      simp only [recoveryMembers, Option.toList_some, List.map_cons, List.map_nil, List.sum_cons,
        List.sum_nil, hkey]
      omega

theorem size_responseTooLargeMessage : Utf8.size (quote responseTooLargeMessage) = 49 :=
  (size_quote_ofList _).trans (by decide)

theorem size_buildResponseTooLargeError_le (hnumbers : PrintsIntegers N) {id : Json N}
    (hid : id.size ≤ 770) {budgetBytes actualBytes : Nat} (hbudget : budgetBytes < 10 ^ 21)
    (hactual : actualBytes < 10 ^ 21) {recovery : Option PayloadRecoveryRef}
    (hrecovery : ∀ r, recovery = some r → ShortRecovery r) :
    (buildResponseTooLargeError id budgetBytes actualBytes recovery).size ≤ 2100 := by
  have hkeys : Utf8.size (quote (js "code")) = 6 ∧ Utf8.size (quote (js "budgetBytes")) = 13 ∧
      Utf8.size (quote (js "actualBytes")) = 13 ∧
      Utf8.size (quote (js "retryOriginal")) = 15 := by decide
  have htext : Utf8.size (quote (js "response_too_large")) = 20 := by decide
  have hcode := size_responseTooLargeCode hnumbers
  have hb := size_counter_le hnumbers hbudget
  have ha := size_counter_le hnumbers hactual
  have hr := size_recoveryMembers_le hnumbers hrecovery
  rw [buildResponseTooLargeError, size_errorFrame, hcode, size_responseTooLargeMessage,
    List.cons_append, List.cons_append, Json.size_obj]
  simp only [List.cons_append, List.map_cons, List.map_append, List.map_nil, List.sum_cons,
    List.sum_append, List.sum_nil, List.nil_append, Json.size_str, Json.size_false, hkeys,
    htext]
  omega

theorem size_tooLargeInfo_le (hnumbers : PrintsIntegers N) {budgetBytes actualBytes : Nat}
    (hbudget : budgetBytes < 10 ^ 21) (hactual : actualBytes < 10 ^ 21)
    {recovery : Option PayloadRecoveryRef}
    (hrecovery : ∀ r, recovery = some r → ShortRecovery r) :
    (tooLargeInfo budgetBytes actualBytes recovery : Json N).size ≤ 1300 := by
  have hkeys : Utf8.size (quote (js "code")) = 6 ∧ Utf8.size (quote (js "budgetBytes")) = 13 ∧
      Utf8.size (quote (js "actualBytes")) = 13 ∧ Utf8.size (quote (js "message")) = 9 ∧
      Utf8.size (quote (js "retryOriginal")) = 15 := by decide
  have htext : Utf8.size (quote (js "response_too_large")) = 20 := by decide
  have hb := size_counter_le hnumbers hbudget
  have ha := size_counter_le hnumbers hactual
  have hr := size_recoveryMembers_le hnumbers hrecovery
  rw [tooLargeInfo, List.cons_append, List.cons_append, Json.size_obj]
  simp only [List.cons_append, List.map_cons, List.map_append, List.map_nil, List.sum_cons,
    List.sum_append, List.sum_nil, List.nil_append, Json.size_str, Json.size_false, hkeys,
    htext, size_responseTooLargeMessage]
  omega

theorem size_buildSerializationFailedError_le (hnumbers : PrintsIntegers N) {id : Json N}
    (hid : id.size ≤ 770) : (buildSerializationFailedError id).size ≤ 2100 := by
  have htexts : Utf8.size (quote (js "Internal error")) = 16 ∧ Utf8.size (quote (js "code")) = 6 ∧
      Utf8.size (quote (js "serialization_failed")) = 22 := by decide
  have hcode := size_internalErrorCode hnumbers
  rw [buildSerializationFailedError, size_errorFrame, hcode, Json.size_obj]
  simp only [List.map_cons, List.map_nil, List.sum_cons, List.sum_nil, Json.size_str, htexts]
  omega

/-- The result that stands for another takes its text, escaped. -/
theorem size_errorResult_le {info : Json N} (hinfo : info.size ≤ 1300) :
    (errorResult info.render : Json N).size ≤ 8000 := by
  have hunits := Utf8.units_length_le info.render
  have hquote := size_quote_le ⟨unitsOf info.render⟩
  change Utf8.size info.render ≤ 1300 at hinfo
  rw [size_errorResult]
  change Utf8.size (quote ⟨unitsOf info.render⟩) ≤ 6 * (unitsOf info.render).length + 2 at hquote
  change (unitsOf info.render).length ≤ Utf8.size info.render at hunits
  omega

end H2a.Mcp
