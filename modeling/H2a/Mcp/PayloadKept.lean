import H2a.Mcp.PayloadStore
/-!
# A payload that was kept is read back

Any number of processes have a store on one root, and their calls come in any order.  Until it
expires a record stays as it was written: a sweep removes expired records only, and the names of
other records differ.  So a reader that follows `nextOffset` is given the bytes, whatever chunks it
asks for and whatever the stores do between two of its reads.
-/

namespace H2a.Mcp

open H2a.Library

variable {P N : Type} [JsonNumber N]

/-! ## Names -/

theorem isHexUnit_hexUnit {n : Nat} (hn : n < 16) : isRef.isHexUnit (hexText.hexUnit n) = true := by
  have hall : ∀ n < 16, isRef.isHexUnit (hexText.hexUnit n) = true := by decide
  exact hall n hn

theorem hexText_length (bytes : List UInt8) : (hexText bytes).units.length = 2 * bytes.length := by
  induction bytes with
  | nil => rfl
  | cons b bytes ih =>
      simp only [hexText, List.flatMap_cons, List.length_append, List.length_cons,
        List.length_nil] at ih ⊢
      omega

theorem isRef_ref (inputs : PersistInputs) : isRef inputs.ref = true := by
  have hlength : (hexText inputs.random.1).units.length = 64 := by
    rw [hexText_length, inputs.random.2]
  rw [isRef, Bool.and_eq_true, List.all_eq_true]
  refine ⟨beq_iff_eq.mpr hlength, fun u hu => ?_⟩
  obtain ⟨b, -, hb⟩ := List.mem_flatMap.mp hu
  have hlt := b.toNat_lt
  rw [List.mem_cons, List.mem_singleton] at hb
  rcases hb with rfl | rfl
  · exact isHexUnit_hexUnit (by omega)
  · exact isHexUnit_hexUnit (by omega)

theorem not_isRef_staged (ref : JsString) : isRef (stagedRef ref) = false := by
  have hdot : isRef.isHexUnit 0x2E = false := by decide
  have hunits : (stagedRef ref).units = 0x2E :: (ref.units ++ (js ".tmp").units) := rfl
  rw [isRef, hunits, List.all_cons, hdot, Bool.false_and, Bool.and_false]

theorem binPath_ne_metaPath (ref ref' : JsString) : binPath ref ≠ metaPath ref' := by
  intro h
  have hends := congrArg (fun s : JsString => s.units.reverse.take 2) h
  have hbin : (binPath ref).units.reverse = 0x6E :: 0x69 :: 0x62 :: 0x2E :: ref.units.reverse := by
    rw [binPath, JsString.append_units, List.reverse_append]
    rfl
  have hmeta : (metaPath ref').units.reverse =
      0x6E :: 0x6F :: 0x73 :: 0x6A :: 0x2E :: ref'.units.reverse := by
    rw [metaPath, JsString.append_units, List.reverse_append]
    rfl
  simp only [hbin, hmeta, List.take_succ_cons, List.take_zero] at hends
  exact absurd hends (by decide)

theorem binPath_inj {ref ref' : JsString} (h : binPath ref = binPath ref') : ref = ref' :=
  JsString.ext_units (List.append_cancel_right (congrArg JsString.units h))

theorem metaPath_inj {ref ref' : JsString} (h : metaPath ref = metaPath ref') : ref = ref' :=
  JsString.ext_units (List.append_cancel_right (congrArg JsString.units h))

/-- The files of one record. -/
def Own (ref name : JsString) : Prop := name = binPath ref ∨ name = metaPath ref

theorem not_own_bin {ref other : JsString} (h : other ≠ ref) : ¬Own ref (binPath other) := by
  rintro (hbin | hmeta)
  · exact h (binPath_inj hbin)
  · exact binPath_ne_metaPath other ref hmeta

theorem not_own_meta {ref other : JsString} (h : other ≠ ref) : ¬Own ref (metaPath other) := by
  rintro (hbin | hmeta)
  · exact binPath_ne_metaPath ref other hbin.symm
  · exact h (metaPath_inj hmeta)

/-! ## The metadata -/

theorem parse_content (record : PayloadMeta) :
    Json.parse (Utf8.decode (record.content N)) = some (record.json : Json N).ordered := by
  have hprintable : Json.Printable (record.json : Json N) := by
    rw [PayloadMeta.json, Json.printable_obj]
    intro m hm
    simp only [List.mem_cons, List.not_mem_nil, or_false] at hm
    rcases hm with rfl | rfl | rfl | rfl | rfl
    · exact trivial
    · exact JsonNumber.isFinite_ofNat record.totalBytes
    · exact trivial
    · exact trivial
    · exact trivial
  have hparse := Json.parse_render_ordered hprintable [] ['\n'] rfl rfl
  rw [PayloadMeta.content, Utf8.decode_encode]
  exact hparse

theorem get_json (record : PayloadMeta) (k : JsString) :
    (record.json : Json N).ordered.get k = ((record.json : Json N).get k).map Json.ordered := by
  have hkeys :
      [js "sha256", js "totalBytes", js "createdAt", js "expiresAt", js "scope"].Nodup := by
    decide
  refine Json.get_ordered ?_ k
  exact hkeys

theorem expiresAt_json (record : PayloadMeta) :
    (record.json : Json N).ordered.get (js "expiresAt") = some (.str record.expiresAt) := by
  rw [get_json]
  rfl

theorem scope_json (record : PayloadMeta) :
    (record.json : Json N).ordered.get (js "scope") = some (.str record.scope) := by
  rw [get_json]
  rfl

theorem totalBytes_json (record : PayloadMeta) :
    (record.json : Json N).ordered.get (js "totalBytes") =
      some (.num (JsonNumber.ofNat record.totalBytes)) := by
  rw [get_json]
  rfl

theorem truthy_json (record : PayloadMeta) : (record.json : Json N).ordered.truthy = true := by
  rw [PayloadMeta.json, Json.ordered_obj]
  rfl

/-! ## A record that stays -/

variable (N) in
/-- The two files of a record are as they were written. -/
structure Intact (ref : JsString) (record : PayloadMeta) (bytes : List UInt8)
    (entries : DirEntries) : Prop where
  isRef : isRef ref = true
  bin : ∃ stamp, entries.get (binPath ref) = some (.file bytes stamp)
  record : ∃ stamp, entries.get (metaPath ref) = some (.file (record.content N) stamp)

section Kept

variable {host : PayloadHost} {ref : JsString} {record : PayloadMeta} {bytes : List UInt8}
variable {entries entries' : DirEntries} {expiry : Int}

theorem Intact.of_get (h : Intact N ref record bytes entries)
    (hget : ∀ name, Own ref name → entries'.get name = entries.get name) :
    Intact N ref record bytes entries' where
  isRef := h.isRef
  bin := by
    rw [hget _ (.inl rfl)]
    exact h.bin
  record := by
    rw [hget _ (.inr rfl)]
    exact h.record

theorem Intact.delete (h : Intact N ref record bytes entries) {name : JsString}
    (hname : ¬Own ref name) : Intact N ref record bytes (entries.delete name) := by
  apply h.of_get
  intro own hown
  have hne : own ≠ name := by
    rintro rfl
    exact hname hown
  rw [JsMap.get_delete, if_neg hne]

theorem Intact.set (h : Intact N ref record bytes entries) {name : JsString} {entry : DirEntry}
    (hname : ¬Own ref name) : Intact N ref record bytes (entries.set name entry) := by
  apply h.of_get
  intro own hown
  have hne : own ≠ name := by
    rintro rfl
    exact hname hown
  exact JsMap.get_set_of_ne _ _ hne

theorem hasExpired_json (hexpiry : host.parseDate record.expiresAt = some expiry) (now : Int) :
    hasExpired host now (record.json : Json N).ordered = decide (expiry ≤ now) := by
  rw [hasExpired, expiresAt_json, dateText, hexpiry]
  rfl

theorem expiryOf_json (hexpiry : host.parseDate record.expiresAt = some expiry) :
    expiryOf host (record.json : Json N).ordered = .ok (some expiry) := by
  have hmember : (record.json : Json N).ordered.member (js "expiresAt") =
      .ok ((record.json : Json N).ordered.get (js "expiresAt")) := by
    rw [PayloadMeta.json, Json.ordered_obj]
    rfl
  rw [expiryOf, hmember, expiresAt_json, ← hexpiry]
  rfl

/-- A sweep does not find it expired before it is. -/
theorem inspect_intact (h : Intact N ref record bytes entries)
    (hexpiry : host.parseDate record.expiresAt = some expiry) {now : Int} (hnow : now < expiry)
    (cache : StoreCache) : inspect N host cache now entries ref ≠ .expired := by
  obtain ⟨stamp, hget⟩ := h.record
  rw [inspect, hget]
  dsimp only
  split
  · exact Inspection.noConfusion
  · rw [parse_content, Option.map_some, expiryOf_json hexpiry]
    dsimp only
    rw [if_neg (Int.not_le.mpr hnow)]
    exact Inspection.noConfusion

theorem sweepEntry_intact {cache : StoreCache} {now : Int} {sweep : Sweep}
    (h : Intact N ref record bytes sweep.entries)
    (hexpiry : host.parseDate record.expiresAt = some expiry) (hnow : now < expiry)
    (name : JsString) :
    Intact N ref record bytes (sweepEntry N host cache now sweep name).entries := by
  unfold sweepEntry
  split
  · exact h
  · rename_i other _
    split
    · exact h
    · exact h
    · rename_i hinspect
      have hne : other ≠ ref := by
        rintro rfl
        exact inspect_intact h hexpiry hnow cache hinspect
      exact (h.delete (not_own_meta hne)).delete (not_own_bin hne)

theorem sweepExpired_intact (h : Intact N ref record bytes entries)
    (hexpiry : host.parseDate record.expiresAt = some expiry) {now : Int} (hnow : now < expiry)
    (sweptAt : ℚ) (cache : StoreCache) :
    Intact N ref record bytes (sweepExpired N host now sweptAt entries cache).2.1 := by
  have hfold : ∀ (names : List JsString) (sweep : Sweep),
      Intact N ref record bytes sweep.entries →
        Intact N ref record bytes (names.foldl (sweepEntry N host cache now) sweep).entries := by
    intro names
    induction names with
    | nil => exact fun _ hsweep => hsweep
    | cons name names ih =>
        exact fun _ hsweep => ih _ (sweepEntry_intact hsweep hexpiry hnow name)
  exact hfold _ _ h

theorem usedBytes_intact (h : Intact N ref record bytes entries)
    (hexpiry : host.parseDate record.expiresAt = some expiry) {inputs : PersistInputs}
    (hnow : inputs.sweepNow < expiry) (size : Nat) (cache : StoreCache) :
    Intact N ref record bytes (usedBytes N host inputs size entries cache).2.1 := by
  have hsweep := sweepExpired_intact h hexpiry hnow inputs.sweptAt cache
  unfold usedBytes
  split
  · exact h
  · dsimp only
    split
    · exact hsweep
    · split
      · exact hsweep
      · exact h

theorem writeRecord_intact (h : Intact N ref record bytes entries) {inputs : PersistInputs}
    (hfresh : inputs.ref ≠ ref) (other : PayloadMeta) (content : List UInt8) :
    Intact N ref record bytes (writeRecord N inputs other content entries).2 := by
  have hstaged : stagedRef inputs.ref ≠ ref := by
    intro heq
    have hnot := not_isRef_staged inputs.ref
    rw [heq, h.isRef] at hnot
    cases hnot
  unfold writeRecord
  dsimp only
  split
  · have hbin := (h.delete (not_own_bin hstaged)).delete (not_own_meta hstaged)
    exact (hbin.delete (not_own_bin hfresh)).delete (not_own_meta hfresh)
  · exact (h.set (not_own_bin hfresh)).set (not_own_meta hfresh)

theorem persistOutput_intact (h : Intact N ref record bytes entries)
    (hexpiry : host.parseDate record.expiresAt = some expiry) {inputs : PersistInputs}
    (hfresh : inputs.ref ≠ ref) (hnow : inputs.sweepNow < expiry) (dir scope : JsString)
    (content : List UInt8) (cache : StoreCache) :
    Intact N ref record bytes
      (persistOutput N host dir scope inputs content entries cache).2.1 := by
  have hused := usedBytes_intact h hexpiry hnow content.length cache
  unfold persistOutput
  split
  · exact h
  · split
    · exact h
    · dsimp only
      split
      · exact hused
      · split
        · exact hused
        · have hwritten := writeRecord_intact hused hfresh
            { sha256 := js "sha256:" ++ host.sha256 content
              totalBytes := content.length
              createdAt := host.toISOString inputs.now
              expiresAt := host.toISOString (inputs.now + payloadTtlMs)
              scope := scope } content
          split
          · rename_i heq
            rw [heq] at hwritten
            exact hwritten
          · rename_i heq
            rw [heq] at hwritten
            exact hwritten

/-! ## What a call writes -/

theorem intact_of_writeRecord {inputs : PersistInputs}
    (h : writeRecord N inputs record bytes entries = (none, entries')) :
    Intact N inputs.ref record bytes entries' := by
  unfold writeRecord at h
  dsimp only at h
  split at h
  · simp at h
  · obtain ⟨-, rfl⟩ := Prod.mk.inj h
    have hne : binPath inputs.ref ≠ metaPath inputs.ref := binPath_ne_metaPath _ _
    refine ⟨isRef_ref inputs, ⟨inputs.stamp, ?_⟩, ⟨inputs.stamp, JsMap.get_set_self _ _ _⟩⟩
    rw [JsMap.get_set_of_ne _ _ hne, JsMap.get_set_self]

variable (N host) in
/-- A call of `persistOutput` that gives a reference has written its record. -/
structure Persisted (scope : JsString) (inputs : PersistInputs) (bytes : List UInt8)
    (recovery : PayloadRecoveryRef) (entries : DirEntries) : Prop where
  ref : recovery.ref = inputs.ref
  sha256 : recovery.sha256 = js "sha256:" ++ host.sha256 bytes
  totalBytes : recovery.totalBytes = bytes.length
  expiresAt : recovery.expiresAt = host.toISOString (inputs.now + payloadTtlMs)
  time : |inputs.now + payloadTtlMs| ≤ maxTime
  intact : Intact N recovery.ref
    { sha256 := recovery.sha256
      totalBytes := recovery.totalBytes
      createdAt := host.toISOString inputs.now
      expiresAt := recovery.expiresAt
      scope := scope } bytes entries

theorem persisted_of_ok {dir scope : JsString} {inputs : PersistInputs} {cache cache' : StoreCache}
    {recovery : PayloadRecoveryRef}
    (h : persistOutput N host dir scope inputs bytes entries cache =
      (.ok recovery, entries', cache')) : Persisted N host scope inputs bytes recovery entries' := by
  unfold persistOutput at h
  split at h
  · simp at h
  · split at h
    · simp at h
    · dsimp only at h
      split at h
      · simp at h
      · split at h
        · simp at h
        · rename_i htimes
          split at h
          · simp at h
          · rename_i hwritten
            simp only [Prod.mk.injEq, Except.ok.injEq] at h
            obtain ⟨rfl, rfl, -⟩ := h
            rw [not_or, not_lt, not_lt] at htimes
            exact ⟨rfl, rfl, rfl, rfl, htimes.2, intact_of_writeRecord hwritten⟩

/-! ## One read -/

theorem recordOf_intact (h : Intact N ref record bytes entries) :
    recordOf record.scope entries ref = some (record.json : Json N).ordered := by
  obtain ⟨stamp, hget⟩ := h.record
  have hmeta : readMeta entries ref = some (record.json : Json N).ordered := by
    rw [readMeta, hget]
    exact parse_content record
  have hscope :
      Json.isText record.scope ((record.json : Json N).ordered.get (js "scope")) = true := by
    rw [scope_json]
    exact beq_self_eq_true record.scope
  rw [recordOf, if_pos h.isRef, hmeta, Option.filter_some, truthy_json, hscope]
  rfl

theorem readCap_pos (maxBytes : N) : 0 < readCap maxBytes := Nat.le_max_left 1 _

/-- A read from where the record is intact gives the next bytes, one at least if there are any. -/
theorem readPayload_intact (h : Intact N ref record bytes entries)
    (htotal : record.totalBytes = bytes.length)
    (hexpiry : host.parseDate record.expiresAt = some expiry) {now : Int} (hnow : now < expiry)
    {o : Nat} (ho : o ≤ bytes.length) (maxBytes : N) :
    readPayload host record.scope entries now ref (JsonNumber.ofNat o) maxBytes =
      .ok
        { ref := ref
          data := Base64.encode ((bytes.drop o).take (readCap maxBytes))
          offset := JsonNumber.ofNat o
          nextOffset :=
            if bytes.length ≤ o + ((bytes.drop o).take (readCap maxBytes)).length then none
            else some (JsonNumber.ofNat (o + ((bytes.drop o).take (readCap maxBytes)).length))
          totalBytes := some (.num (JsonNumber.ofNat bytes.length))
          sha256 := (record.json : Json N).ordered.get (js "sha256")
          expiresAt := some (.str record.expiresAt) } := by
  obtain ⟨stamp, hbin⟩ := h.bin
  have hoffset : validOffset (some (.num (JsonNumber.ofNat bytes.length : N)))
      (JsonNumber.ofNat o : N) = some o := by
    rw [validOffset, JsonNumber.toInt?_ofNat]
    simp only [Json.counter?_ofNat, Option.any_some, decide_eq_true_eq]
    exact if_neg (Nat.not_lt.mpr ho)
  have hnot : hasExpired host now (record.json : Json N).ordered = false := by
    rw [hasExpired_json hexpiry]
    exact decide_eq_false (Int.not_le.mpr hnow)
  simp only [readPayload, recordOf_intact h, hnot, totalBytes_json, htotal, hoffset, hbin,
    expiresAt_json, Json.counter?_ofNat, Bool.false_eq_true, if_false, if_true]

end Kept

/-! ## Stores side by side -/

/-- The directory, and what the store of each process holds in memory. -/
structure PayloadWorld (P : Type) where
  /-- `existsSync(dir)` -/
  made : Bool
  entries : DirEntries
  caches : P → StoreCache

/-- A call of a store that changes the directory. -/
inductive StoreStep (P : Type) where
  | persist (p : P) (dir scope : JsString) (inputs : PersistInputs) (bytes : List UInt8)
  /-- `now` is `Date.now()`, or what the caller says it is -/
  | sweep (p : P) (now : Int) (sweptAt : ℚ)

/-- What a reader asks for, after what the stores have done since its last read. -/
structure ReadRound (P N : Type) where
  steps : List (StoreStep P)
  /-- `Date.now()` -/
  now : Int
  maxBytes : N

section World

variable [DecidableEq P] (host : PayloadHost)

variable (N) in
/-- `persistOutput(bytes)` of the store of `p` -/
def PayloadWorld.persist (w : PayloadWorld P) (p : P) (dir scope : JsString)
    (inputs : PersistInputs) (bytes : List UInt8) :
    Except PayloadStoreError PayloadRecoveryRef × PayloadWorld P :=
  let (answer, entries, cache) :=
    persistOutput N host dir scope inputs bytes w.entries (w.caches p)
  (answer,
    { made := w.made || (inputs.gateError.isNone && inputs.mkdirError.isNone)
      entries := entries
      caches := Function.update w.caches p cache })

variable (N) in
def PayloadWorld.step (w : PayloadWorld P) : StoreStep P → PayloadWorld P
  | .persist p dir scope inputs bytes => (w.persist N host p dir scope inputs bytes).2
  | .sweep p now sweptAt =>
      if w.made then
        let (_, entries, cache) := sweepExpired N host now sweptAt w.entries (w.caches p)
        { w with entries := entries, caches := Function.update w.caches p cache }
      else w

/-- The reader decodes each chunk and goes on from `nextOffset`; `none` where it is not at the end
after these rounds. -/
def readOn (scope ref : JsString) :
    PayloadWorld P → N → List (ReadRound P N) → Option (Except PayloadReadError (List UInt8))
  | _, _, [] => none
  | w, offset, round :: rounds =>
      let w := round.steps.foldl (PayloadWorld.step N host) w
      match readPayload host scope w.entries round.now ref offset round.maxBytes with
      | .error error => some (.error error)
      | .ok chunk =>
          match chunk.nextOffset with
          | none => some (.ok (Base64.decode chunk.data))
          | some next =>
              (readOn scope ref w next rounds).map fun answer =>
                answer.map fun rest => Base64.decode chunk.data ++ rest

variable {host}

/-- A call that happens before the expiry of `ref` and does not draw `ref` again. -/
def StoreStep.Spares (ref : JsString) (expiry : Int) : StoreStep P → Prop
  | .persist _ _ _ inputs _ => inputs.ref ≠ ref ∧ inputs.sweepNow < expiry
  | .sweep _ now _ => now < expiry

/-- A read before the expiry of `ref`, after such calls. -/
def ReadRound.Spares (ref : JsString) (expiry : Int) (round : ReadRound P N) : Prop :=
  round.now < expiry ∧ ∀ step ∈ round.steps, step.Spares ref expiry

variable {ref : JsString} {record : PayloadMeta} {bytes : List UInt8} {expiry : Int}

theorem step_intact {w : PayloadWorld P} (h : Intact N ref record bytes w.entries)
    (hexpiry : host.parseDate record.expiresAt = some expiry) {step : StoreStep P}
    (hstep : step.Spares ref expiry) :
    Intact N ref record bytes (PayloadWorld.step N host w step).entries := by
  cases step with
  | persist p dir scope inputs content =>
      exact persistOutput_intact h hexpiry hstep.1 hstep.2 dir scope content (w.caches p)
  | sweep p now sweptAt =>
      unfold PayloadWorld.step
      dsimp only
      split
      · exact sweepExpired_intact h hexpiry hstep sweptAt (w.caches p)
      · exact h

theorem steps_intact (steps : List (StoreStep P)) {w : PayloadWorld P}
    (h : Intact N ref record bytes w.entries)
    (hexpiry : host.parseDate record.expiresAt = some expiry)
    (hsteps : ∀ step ∈ steps, step.Spares ref expiry) :
    Intact N ref record bytes (steps.foldl (PayloadWorld.step N host) w).entries := by
  induction steps generalizing w with
  | nil => exact h
  | cons step steps ih =>
      have hhead := step_intact h hexpiry (hsteps step List.mem_cons_self)
      exact ih hhead fun s hs => hsteps s (List.mem_cons_of_mem _ hs)

/-- The chunks from `o` on are the bytes from `o` on, and there are no more of them than bytes. -/
theorem readOn_intact (rounds : List (ReadRound P N)) {w : PayloadWorld P}
    (h : Intact N ref record bytes w.entries) (htotal : record.totalBytes = bytes.length)
    (hexpiry : host.parseDate record.expiresAt = some expiry)
    (hrounds : ∀ round ∈ rounds, round.Spares ref expiry) {o : Nat} (ho : o ≤ bytes.length) :
    readOn host record.scope ref w (JsonNumber.ofNat o) rounds = some (.ok (bytes.drop o)) ∨
      readOn host record.scope ref w (JsonNumber.ofNat o) rounds = none ∧
        rounds.length < max 1 (bytes.length - o) := by
  induction rounds generalizing w o with
  | nil => exact .inr ⟨rfl, by simp⟩
  | cons round rounds ih =>
      have hround := hrounds round List.mem_cons_self
      have hw := steps_intact round.steps h hexpiry hround.2
      have hread := readPayload_intact hw htotal hexpiry hround.1 ho round.maxBytes
      have hcap := readCap_pos round.maxBytes
      have hlength : ((bytes.drop o).take (readCap round.maxBytes)).length =
          min (readCap round.maxBytes) (bytes.length - o) := by
        rw [List.length_take, List.length_drop]
      rw [readOn, hread]
      by_cases hend : bytes.length ≤ o + ((bytes.drop o).take (readCap round.maxBytes)).length
      · -- the chunk reaches the end
        have hall : (bytes.drop o).take (readCap round.maxBytes) = bytes.drop o := by
          apply List.take_of_length_le
          rw [List.length_drop]
          omega
        rw [hall] at hend
        simp only [hall, hend, if_true, Base64.decode_encode]
        exact .inl trivial
      · have hfull : ((bytes.drop o).take (readCap round.maxBytes)).length =
            readCap round.maxBytes := by omega
        have hnext := ih hw (fun r hr => hrounds r (List.mem_cons_of_mem _ hr))
          (o := o + readCap round.maxBytes) (by omega)
        have hjoin : (bytes.drop o).take (readCap round.maxBytes) ++
            bytes.drop (o + readCap round.maxBytes) = bytes.drop o := by
          rw [← List.drop_drop, List.take_append_drop]
        rw [hfull] at hend
        simp only [hfull, hend, if_false, Base64.decode_encode]
        rcases hnext with hok | ⟨hnone, hshort⟩
        · rw [hok]
          exact .inl (congrArg (fun rest => some (Except.ok rest)) hjoin)
        · rw [hnone]
          refine .inr ⟨rfl, ?_⟩
          rw [List.length_cons]
          omega

end World

end H2a.Mcp
