import H2a.NativeTerminal.ReplayBuffer
/-!
# A replay is exact

The evicted chunks are the shortest start of the history without which the rest is within the
limits.  A reader is given every chunk after those it has and those that are evicted, and a prefix
that stands for the evicted ones, exactly when they leave no negative flags on a keyboard.
-/

namespace H2a.NativeTerminal

open H2a.Library

/-! ## Histories -/

theorem length_chunksOf (history : List JsString) : (chunksOf history).length = history.length := by
  rw [chunksOf, List.length_map, List.length_zipIdx]

theorem chunksOf_concat (history : List JsString) (data : JsString) :
    chunksOf (history ++ [data]) =
      chunksOf history ++ [bufferedChunk (history.length + 1) data] := by
  simp [chunksOf, List.zipIdx_append]

theorem getElem?_chunksOf (history : List JsString) (i : Nat) :
    (chunksOf history)[i]? = history[i]?.map (bufferedChunk (i + 1)) := by
  rw [chunksOf, List.getElem?_map, List.getElem?_zipIdx]
  cases history[i]? <;> simp

theorem seq_chunksOf {history : List JsString} {i : Nat} {entry : BufferedChunk}
    (h : (chunksOf history)[i]? = some entry) : entry.chunk.seq = i + 1 := by
  rw [getElem?_chunksOf] at h
  obtain ⟨data, -, rfl⟩ := Option.map_eq_some_iff.mp h
  rfl

theorem TerminalModeTracker.feedAll_concat (tracker : TerminalModeTracker)
    (history : List JsString) (data : JsString) :
    tracker.feedAll (history ++ [data]) = (tracker.feedAll history).feed data := by
  rw [feedAll, List.foldl_append]
  rfl

theorem TerminalModeTracker.feedAll_append (tracker : TerminalModeTracker) (a b : List JsString) :
    tracker.feedAll (a ++ b) = (tracker.feedAll a).feedAll b := List.foldl_append

theorem TerminalModeTracker.feedAll_eq (tracker : TerminalModeTracker) (history : List JsString) :
    tracker.feedAll history = tracker.feedUnits (history.flatMap JsString.units) := by
  induction history generalizing tracker with
  | nil => rfl
  | cons data history ih =>
      rw [List.flatMap_cons, feedUnits_append, ← feed_eq tracker data]
      exact ih (tracker.feed data)

/-! ## What the buffer holds -/

/-- The first `evicted` chunks of a history are evicted, and no fewer would do. -/
structure Retains (history : List JsString) (buffer : TerminalReplayBuffer) (evicted : Nat) :
    Prop where
  evicted_le : evicted ≤ history.length
  head_le : buffer.head ≤ buffer.chunks.length
  retained : buffer.chunks.drop buffer.head = (chunksOf history).drop evicted
  bytes :
    buffer.bytes = ((((chunksOf history).drop evicted).map BufferedChunk.bytes).sum : Nat)
  wireBytes :
    buffer.wireBytes = ((((chunksOf history).drop evicted).map BufferedChunk.wireBytes).sum : Nat)
  latestSeq : buffer.latestSeq = history.length
  evictedModes : buffer.evictedModes = TerminalModeTracker.new.feedAll (history.take evicted)
  currentModes : buffer.currentModes = TerminalModeTracker.new.feedAll history
  least : ∀ i < evicted, ¬buffer.limits.Fits ((chunksOf history).drop i)

variable {history : List JsString} {buffer : TerminalReplayBuffer} {evicted : Nat}

theorem Retains.exceeds_iff (h : Retains history buffer evicted) :
    buffer.exceeds = true ↔ ¬buffer.limits.Fits ((chunksOf history).drop evicted) := by
  have hlength : buffer.chunks.length - buffer.head = ((chunksOf history).drop evicted).length := by
    rw [← List.length_drop, h.retained]
  simp only [TerminalReplayBuffer.exceeds, ReplayLimits.Fits, h.bytes, h.wireBytes, hlength,
    Bool.or_eq_true, decide_eq_true_eq]
  omega

/-- One turn of the loop of `append`. -/
theorem Retains.evict_one (h : Retains history buffer evicted) {entry : BufferedChunk}
    {rest : List BufferedChunk} (hrest : buffer.chunks.drop buffer.head = entry :: rest)
    (hexceeds : buffer.exceeds = true) :
    Retains history { buffer with
      head := buffer.head + 1
      evictedModes := buffer.evictedModes.feed entry.chunk.data
      bytes := buffer.bytes - entry.bytes
      wireBytes := buffer.wireBytes - entry.wireBytes } (evicted + 1) := by
  have hdrop : (chunksOf history).drop evicted = entry :: rest := h.retained.symm.trans hrest
  have hnext : (chunksOf history).drop (evicted + 1) = rest := by
    rw [← List.tail_drop, hdrop, List.tail_cons]
  have hget : (chunksOf history)[evicted]? = some entry := by
    rw [← List.head?_drop, hdrop, List.head?_cons]
  rw [getElem?_chunksOf] at hget
  obtain ⟨data, hdata, rfl⟩ := Option.map_eq_some_iff.mp hget
  constructor
  · exact (List.getElem?_eq_some_iff.mp hdata).1
  · have hlength := congrArg List.length hrest
    rw [List.length_drop, List.length_cons] at hlength
    change buffer.head + 1 ≤ buffer.chunks.length
    omega
  · rw [hnext]
    change buffer.chunks.drop (buffer.head + 1) = rest
    rw [← List.tail_drop, hrest, List.tail_cons]
  · have hbytes := h.bytes
    rw [hdrop, List.map_cons, List.sum_cons] at hbytes
    rw [hnext]
    change buffer.bytes - _ = _
    rw [Int.natCast_add] at hbytes
    omega
  · have hbytes := h.wireBytes
    rw [hdrop, List.map_cons, List.sum_cons] at hbytes
    rw [hnext]
    change buffer.wireBytes - _ = _
    rw [Int.natCast_add] at hbytes
    omega
  · exact h.latestSeq
  · change buffer.evictedModes.feed data = _
    rw [List.take_add_one, hdata, Option.toList_some, TerminalModeTracker.feedAll_concat,
      ← h.evictedModes]
  · exact h.currentModes
  · intro i hi
    rcases Nat.lt_succ_iff_lt_or_eq.mp hi with hi | rfl
    · exact h.least i hi
    · exact h.exceeds_iff.mp hexceeds

theorem fits_nil (limits : ReplayLimits) : limits.Fits [] :=
  ⟨Nat.zero_le _, Nat.zero_le _, Nat.zero_le _⟩

/-- The loop ends where the chunks are within the limits. -/
theorem Retains.evict (h : Retains history buffer evicted) :
    ∃ evicted', Retains history
        (TerminalReplayBuffer.evict (buffer.chunks.drop buffer.head) buffer) evicted' ∧
      buffer.limits.Fits ((chunksOf history).drop evicted') ∧
      (TerminalReplayBuffer.evict (buffer.chunks.drop buffer.head) buffer).limits =
        buffer.limits := by
  generalize hrest : buffer.chunks.drop buffer.head = rest
  induction rest generalizing buffer evicted with
  | nil =>
      refine ⟨evicted, h, ?_, rfl⟩
      rw [← h.retained, hrest]
      exact fits_nil _
  | cons entry rest ih =>
      rw [TerminalReplayBuffer.evict]
      split_ifs with hexceeds
      · apply ih (h.evict_one hrest hexceeds)
        change buffer.chunks.drop (buffer.head + 1) = rest
        rw [← List.tail_drop, hrest, List.tail_cons]
      · exact ⟨evicted, h, by_contra fun hnot => hexceeds (h.exceeds_iff.mpr hnot), rfl⟩

theorem Retains.compact (h : Retains history buffer evicted) :
    Retains history buffer.compact evicted ∧ buffer.compact.limits = buffer.limits := by
  rw [TerminalReplayBuffer.compact]
  split_ifs
  · exact ⟨{ h with head_le := Nat.zero_le _ }, rfl⟩
  · exact ⟨h, rfl⟩

theorem ReplayLimits.Fits.of_append {limits : ReplayLimits} {a b : List BufferedChunk}
    (h : limits.Fits (a ++ b)) : limits.Fits a := by
  simp only [ReplayLimits.Fits, List.map_append, List.sum_append, List.length_append] at h ⊢
  omega

/-- A chunk that is pushed. -/
theorem Retains.push (h : Retains history buffer evicted) (data : JsString) :
    Retains (history ++ [data]) { buffer with
      latestSeq := buffer.latestSeq + 1
      currentModes := buffer.currentModes.feed data
      chunks := buffer.chunks ++ [bufferedChunk (buffer.latestSeq + 1) data]
      bytes := buffer.bytes + (bufferedChunk (buffer.latestSeq + 1) data).bytes
      wireBytes := buffer.wireBytes + (bufferedChunk (buffer.latestSeq + 1) data).wireBytes }
      evicted := by
  have hle := h.evicted_le
  have hdrop (i : Nat) (hi : i ≤ history.length) : (chunksOf (history ++ [data])).drop i =
      (chunksOf history).drop i ++ [bufferedChunk (buffer.latestSeq + 1) data] := by
    rw [chunksOf_concat, List.drop_append_of_le_length (by rw [length_chunksOf]; exact hi),
      h.latestSeq]
  constructor
  · rw [List.length_append]
    omega
  · have hhead := h.head_le
    rw [List.length_append]
    change buffer.head ≤ _
    omega
  · rw [hdrop evicted hle, ← h.retained]
    exact List.drop_append_of_le_length h.head_le
  · rw [hdrop evicted hle, List.map_append, List.sum_append, List.map_singleton,
      List.sum_singleton, Int.natCast_add, ← h.bytes]
  · rw [hdrop evicted hle, List.map_append, List.sum_append, List.map_singleton,
      List.sum_singleton, Int.natCast_add, ← h.wireBytes]
  · rw [List.length_append, List.length_singleton, ← h.latestSeq]
  · rw [List.take_append_of_le_length hle]
    exact h.evictedModes
  · rw [TerminalModeTracker.feedAll_concat, ← h.currentModes]
  · intro i hi hfits
    rw [hdrop i (by omega)] at hfits
    exact h.least i hi hfits.of_append

theorem Retains.append (h : Retains history buffer evicted) {data : JsString}
    (hdata : data.length ≠ 0) :
    ∃ after evicted', buffer.append data = .ok after ∧ after.limits = buffer.limits ∧
      Retains (history ++ [data]) after evicted' ∧
      after.limits.Fits ((chunksOf (history ++ [data])).drop evicted') := by
  obtain ⟨evicted', hretains, hfits, hlimits⟩ := (h.push data).evict
  obtain ⟨hcompact, hlimits'⟩ := hretains.compact
  have heq := hlimits'.trans hlimits
  rw [TerminalReplayBuffer.append, if_neg hdata]
  refine ⟨_, evicted', rfl, heq, hcompact, ?_⟩
  rw [heq]
  exact hfits

/-- Outputs are appended, and the chunks that are evicted are the fewest that do. -/
theorem Retains.appendAll (h : Retains history buffer evicted)
    (hfits : buffer.limits.Fits ((chunksOf history).drop evicted)) {later : List JsString}
    (hlater : ∀ data ∈ later, data.length ≠ 0) :
    ∃ after evicted', buffer.appendAll later = .ok after ∧ after.limits = buffer.limits ∧
      Retains (history ++ later) after evicted' ∧
      after.limits.Fits ((chunksOf (history ++ later)).drop evicted') := by
  induction later generalizing history buffer evicted with
  | nil =>
      rw [List.append_nil]
      exact ⟨buffer, evicted, rfl, rfl, h, hfits⟩
  | cons data later ih =>
      obtain ⟨between, evicted', hok, hlimits, hretains, hbetween⟩ :=
        h.append (hlater data List.mem_cons_self)
      obtain ⟨after, evicted'', hafter, hlimits', hall⟩ :=
        ih hretains hbetween fun data hdata => hlater data (List.mem_cons_of_mem _ hdata)
      refine ⟨after, evicted'', ?_, hlimits'.trans hlimits, ?_⟩
      · rw [TerminalReplayBuffer.appendAll, List.foldlM_cons, hok]
        exact hafter
      · rw [List.append_assoc, List.singleton_append] at hall
        exact hall

theorem retains_new {maxBytes : Int} {maxChunks maxWireBytes : Option Int}
    (h : TerminalReplayBuffer.new maxBytes maxChunks maxWireBytes = .ok buffer) :
    Retains [] buffer 0 := by
  rw [TerminalReplayBuffer.new] at h
  split_ifs at h
  rw [← Except.ok.inj h]
  exact ⟨Nat.le_refl _, Nat.le_refl _, rfl, rfl, rfl, rfl, rfl, rfl, by simp⟩

/-! ## What a reader is given -/

theorem Retains.oldest (h : Retains history buffer evicted) :
    (buffer.chunks[buffer.head]?).elim (buffer.latestSeq + 1) (·.chunk.seq) = evicted + 1 := by
  have hget : buffer.chunks[buffer.head]? = (chunksOf history)[evicted]? := by
    rw [← List.head?_drop, h.retained, List.head?_drop]
  rw [hget]
  cases hentry : (chunksOf history)[evicted]? with
  | none =>
      rw [List.getElem?_eq_none_iff, length_chunksOf] at hentry
      have hle := h.evicted_le
      rw [Option.elim_none, h.latestSeq]
      omega
  | some entry =>
      rw [Option.elim_some]
      exact seq_chunksOf hentry

theorem seq_drop {n i : Nat} {entry : BufferedChunk}
    (h : ((chunksOf history).drop n)[i]? = some entry) : entry.chunk.seq = n + i + 1 := by
  rw [List.getElem?_drop] at h
  exact seq_chunksOf h

/-- The chunks after a number are those from its place on. -/
theorem filter_chunksOf (history : List JsString) (afterSeq evicted : Nat) :
    (((chunksOf history).drop evicted).filter fun entry => afterSeq < entry.chunk.seq) =
      (chunksOf history).drop (max afterSeq evicted) := by
  have hall (n : Nat) (hn : afterSeq ≤ n) :
      (((chunksOf history).drop n).filter fun entry => afterSeq < entry.chunk.seq) =
        (chunksOf history).drop n := by
    rw [List.filter_eq_self]
    intro entry hentry
    obtain ⟨i, hi⟩ := List.mem_iff_getElem?.mp hentry
    rw [decide_eq_true_eq, seq_drop hi]
    omega
  rcases le_total afterSeq evicted with hle | hle
  · rw [max_eq_right hle]
    exact hall evicted hle
  · rw [max_eq_left hle]
    obtain ⟨more, rfl⟩ := Nat.exists_eq_add_of_le hle
    have hnone : (((chunksOf history).drop evicted).take more).filter
        (fun entry => evicted + more < entry.chunk.seq) = [] := by
      rw [List.filter_eq_nil_iff]
      intro entry hentry
      obtain ⟨i, hi⟩ := List.mem_iff_getElem?.mp hentry
      rw [List.getElem?_take] at hi
      split_ifs at hi with hlt
      rw [decide_eq_true_eq, seq_drop hi]
      omega
    rw [← List.take_append_drop more ((chunksOf history).drop evicted), List.filter_append, hnone,
      List.nil_append, List.drop_drop]
    exact hall _ le_rfl

theorem map_data_chunksOf (history : List JsString) :
    (chunksOf history).map (·.chunk.data) = history := by
  rw [chunksOf, List.map_map]
  exact List.zipIdx_map_fst 0 history

/-- The answer to a reader. -/
theorem Retains.readAfter (h : Retains history buffer evicted) {afterSeq : Nat}
    (hafter : afterSeq ≤ history.length) :
    buffer.readAfter afterSeq = .ok {
      chunks := ((chunksOf history).drop (max afterSeq evicted)).map BufferedChunk.chunk
      gap := if afterSeq < evicted then some ⟨afterSeq + 1, evicted⟩ else none
      latestSeq := history.length
      terminalModePrefix :=
        if afterSeq < evicted then
          ⟨buffer.evictedModes.restoreSequence ++ buffer.evictedModes.replayPrefix⟩
        else ⟨[]⟩ } := by
  rw [TerminalReplayBuffer.readAfter, if_neg (by rw [h.latestSeq]; omega), h.oldest, h.retained,
    filter_chunksOf, h.latestSeq]
  by_cases hgap : afterSeq < evicted
  · simp [hgap]
  · simp [hgap]

/-! ## The replay is exact -/

/-- What a buffer of an accepted size is after outputs. -/
theorem exists_retains {maxBytes : Int} {maxChunks maxWireBytes : Option Int}
    {empty : TerminalReplayBuffer}
    (hnew : TerminalReplayBuffer.new maxBytes maxChunks maxWireBytes = .ok empty)
    (hhistory : ∀ data ∈ history, data.length ≠ 0) :
    ∃ buffer evicted, empty.appendAll history = .ok buffer ∧ buffer.limits = empty.limits ∧
      Retains history buffer evicted ∧
      IsLeast {n | empty.limits.Fits ((chunksOf history).drop n)} evicted := by
  obtain ⟨buffer, evicted, hok, hlimits, hretains, hfits⟩ :=
    (retains_new hnew).appendAll (fits_nil _) hhistory
  rw [List.nil_append] at hretains hfits
  refine ⟨buffer, evicted, hok, hlimits, hretains, hlimits ▸ hfits, fun n hn => ?_⟩
  by_contra hlt
  exact hretains.least n (not_le.mp hlt) (hlimits ▸ hn)

/-- The output leaves no negative flags on a keyboard. -/
def LeavesNonNegative (history : List JsString) : Prop :=
  TerminalModeTracker.NonNegative (TerminalModeTracker.new.feedAll history).modes

instance : DecidablePred LeavesNonNegative := fun _ => inferInstanceAs (Decidable (_ ∧ _))

/-- A fresh tracker that is fed a prefix instead of a history prints the same after more output. -/
def StandsFor (sent : JsString) (history later : List JsString) : Prop :=
  ((TerminalModeTracker.new.feed sent).feedAll later).sequences =
    (TerminalModeTracker.new.feedAll (history ++ later)).sequences

theorem Retains.standsFor_iff (h : Retains history buffer evicted) :
    (∀ later, StandsFor ⟨buffer.evictedModes.restoreSequence ++ buffer.evictedModes.replayPrefix⟩
      (history.take evicted) later) ↔ LeavesNonNegative (history.take evicted) := by
  have hvalid : buffer.evictedModes.Valid := by
    rw [h.evictedModes, TerminalModeTracker.feedAll_eq]
    exact TerminalModeTracker.valid_new.feedUnits _
  have hmodes : LeavesNonNegative (history.take evicted) ↔
      TerminalModeTracker.NonNegative buffer.evictedModes.modes := by
    rw [LeavesNonNegative, ← h.evictedModes]
  rw [hmodes, ← TerminalModeTracker.restored_iff hvalid]
  have hstands (later : List JsString) :
      StandsFor ⟨buffer.evictedModes.restoreSequence ++ buffer.evictedModes.replayPrefix⟩
        (history.take evicted) later ↔
      (TerminalModeTracker.new.feedUnits (buffer.evictedModes.restoreSequence ++
        buffer.evictedModes.replayPrefix ++ later.flatMap JsString.units)).sequences =
        (buffer.evictedModes.feedUnits (later.flatMap JsString.units)).sequences := by
    rw [StandsFor, TerminalModeTracker.feedAll_append, ← h.evictedModes,
      TerminalModeTracker.feedAll_eq, TerminalModeTracker.feed_eq,
      TerminalModeTracker.feedAll_eq]
    simp only [TerminalModeTracker.feedUnits_append]
  constructor
  · intro hall later
    have hone := (hstands [⟨later⟩]).mp (hall [⟨later⟩])
    rw [List.flatMap_singleton] at hone
    exact hone
  · exact fun hall later => (hstands later).mpr (hall _)

/-- Every reader is given exactly what it lacks.  The prefix that replaces the evicted output stands
for it, whatever follows, exactly when that output leaves no negative flags. -/
theorem replay_exact {maxBytes : Int} {maxChunks maxWireBytes : Option Int}
    {empty : TerminalReplayBuffer}
    (hnew : TerminalReplayBuffer.new maxBytes maxChunks maxWireBytes = .ok empty)
    {history : List JsString} (hhistory : ∀ data ∈ history, data.length ≠ 0) :
    ∃ buffer evicted, empty.appendAll history = .ok buffer ∧
      IsLeast {n | empty.limits.Fits ((chunksOf history).drop n)} evicted ∧
      ∀ afterSeq ≤ history.length, ∃ replay, buffer.readAfter afterSeq = .ok replay ∧
        replay.latestSeq = history.length ∧
        replay.chunks = ((chunksOf history).map BufferedChunk.chunk).filter
          (fun chunk => max afterSeq evicted < chunk.seq) ∧
        replay.chunks.map (·.seq) = List.range' (max afterSeq evicted + 1)
          (history.length - max afterSeq evicted) ∧
        replay.gap = (if evicted ≤ afterSeq then none else some ⟨afterSeq + 1, evicted⟩) ∧
        (replay.gap ≠ none →
          history = history.take evicted ++ replay.chunks.map (·.data) ∧
          (LeavesNonNegative (history.take evicted) →
            StandsFor replay.terminalModePrefix (history.take evicted)
              (replay.chunks.map (·.data))) ∧
          ((∀ later, StandsFor replay.terminalModePrefix (history.take evicted) later) →
            LeavesNonNegative (history.take evicted))) := by
  obtain ⟨buffer, evicted, hok, -, hretains, hleast⟩ := exists_retains hnew hhistory
  refine ⟨buffer, evicted, hok, hleast, fun afterSeq hafter => ?_⟩
  have hlength := length_chunksOf history
  have hchunks : ((chunksOf history).drop (max afterSeq evicted)).map BufferedChunk.chunk =
      ((chunksOf history).map BufferedChunk.chunk).filter
        (fun chunk => max afterSeq evicted < chunk.seq) := by
    have hfilter := filter_chunksOf history (max afterSeq evicted) 0
    rw [List.drop_zero, Nat.max_zero] at hfilter
    rw [List.filter_map, ← hfilter]
    rfl
  have hseq : (((chunksOf history).drop (max afterSeq evicted)).map BufferedChunk.chunk).map
      (·.seq) = List.range' (max afterSeq evicted + 1)
        (history.length - max afterSeq evicted) := by
    apply List.ext_getElem?
    intro i
    rw [List.map_map, List.getElem?_map]
    cases hentry : ((chunksOf history).drop (max afterSeq evicted))[i]? with
    | none =>
        rw [List.getElem?_eq_none_iff, List.length_drop, hlength] at hentry
        rw [Option.map_none, List.getElem?_eq_none (by rw [List.length_range']; exact hentry)]
    | some entry =>
        have hlt := (List.getElem?_eq_some_iff.mp hentry).1
        rw [List.length_drop, hlength] at hlt
        rw [Option.map_some, List.getElem?_range' hlt]
        change some entry.chunk.seq = _
        rw [seq_drop hentry, Nat.one_mul, Nat.add_right_comm]
  refine ⟨_, hretains.readAfter hafter, rfl, hchunks, hseq, ?_, fun hgap => ?_⟩
  · by_cases hle : evicted ≤ afterSeq
    · rw [if_pos hle, if_neg (by omega)]
    · rw [if_neg hle, if_pos (by omega)]
  · have hlt : afterSeq < evicted := by
      by_contra hnot
      exact hgap (if_neg hnot)
    have hdata : (((chunksOf history).drop (max afterSeq evicted)).map
        BufferedChunk.chunk).map (·.data) = history.drop evicted := by
      rw [max_eq_right hlt.le, List.map_map, List.map_drop]
      change List.drop evicted ((chunksOf history).map (·.chunk.data)) = _
      rw [map_data_chunksOf]
    dsimp only
    rw [hdata, if_pos hlt, List.take_append_drop]
    exact ⟨rfl, fun hcondition => hretains.standsFor_iff.mpr hcondition _,
      hretains.standsFor_iff.mp⟩

/-! ## Two histories -/

/-- A history of which a buffer of 20 bytes holds the second output: the flags are set to `2 ^ 31`,
by an operator on 32 bits when `operation` says so. -/
def flagsHistory (operation : String) : List JsString :=
  [⟨csiUnits ((js ("=2147483648" ++ operation)).units) 'u'⟩, js "12345678901234567890"]

/-- What a reader of such a buffer is given. -/
def replayOf (history : List JsString) : Except String TerminalReplay := do
  let empty ← TerminalReplayBuffer.new 20 none none
  let buffer ← empty.appendAll history
  buffer.readAfter 0

instance (sent : JsString) (history later : List JsString) :
    Decidable (StandsFor sent history later) := inferInstanceAs (Decidable (_ = _))

theorem replay_exact_flags_set : ∃ replay, replayOf (flagsHistory "") = .ok replay ∧
    replay.gap = some ⟨1, 1⟩ ∧
    StandsFor replay.terminalModePrefix ((flagsHistory "").take 1)
      (replay.chunks.map (·.data)) := by
  obtain ⟨empty, hnew⟩ : ∃ empty, TerminalReplayBuffer.new 20 none none = .ok empty := ⟨_, rfl⟩
  have hhistory : ∀ data ∈ flagsHistory "", data.length ≠ 0 := by decide
  obtain ⟨buffer, evicted, hok, -, hread⟩ := replay_exact hnew hhistory
  obtain ⟨replay, hreplay, -, -, -, hgap, hstands⟩ := hread 0 (Nat.zero_le _)
  have hrun : replayOf (flagsHistory "") = .ok replay := by
    simp only [replayOf, hnew, hok, ok_bind]
    exact hreplay
  have hone : (replayOf (flagsHistory "")).map TerminalReplay.gap = .ok (some ⟨1, 1⟩) := by
    decide +kernel
  rw [hrun] at hone
  have hreplayGap : replay.gap = some ⟨1, 1⟩ := Except.ok.inj hone
  have hevicted : evicted = 1 := by
    rw [hreplayGap] at hgap
    split_ifs at hgap
    exact (TerminalReplayGap.mk.inj (Option.some.inj hgap)).2.symm
  subst hevicted
  refine ⟨replay, hrun, hreplayGap, (hstands ?_).2.1 (by decide +kernel)⟩
  rw [hreplayGap]
  exact Option.some_ne_none _

/-- A replay with a gap for which the prefix does not stand. -/
def IsWrong (history : List JsString) (replay : TerminalReplay) : Prop :=
  replay.gap = some ⟨1, 1⟩ ∧
    ¬StandsFor replay.terminalModePrefix (history.take 1) (replay.chunks.map (·.data))

instance (history : List JsString) : DecidablePred (IsWrong history) :=
  fun _ => inferInstanceAs (Decidable (_ ∧ ¬_))

/-- The operator makes the flags negative, and the prefix does not make them. -/
theorem replay_exact_fails :
    ∃ replay, replayOf (flagsHistory ";2") = .ok replay ∧ IsWrong (flagsHistory ";2") replay :=
  exists_ok_of_any (by decide +kernel)

end H2a.NativeTerminal
