import H2a.Library.Result
import H2a.Library.Utf8
import H2a.NativeTerminal.ModesRestored
import Mathlib.Algebra.Group.Int.Defs
import Mathlib.Algebra.GroupWithZero.Nat
import Mathlib.Order.Bounds.Defs
/-!
# The replay buffer of a terminal

`TerminalReplayBuffer` of `packages/h2a-runtime/src/native-terminal/replay-buffer.ts`: the last
output of a terminal within three limits.  What a reader has missed is replaced by a prefix that
makes the modes of the evicted output.
-/

namespace H2a.NativeTerminal

open H2a.Library

structure TerminalOutputChunk where
  seq : Nat
  data : JsString

structure BufferedChunk where
  chunk : TerminalOutputChunk
  bytes : Nat
  wireBytes : Nat

/-- The chunks are those from `fromSeq` to `toSeq`. -/
structure TerminalReplayGap where
  fromSeq : Nat
  toSeq : Nat
  deriving DecidableEq

/-- A prefix that is left out is empty. -/
structure TerminalReplay where
  chunks : List TerminalOutputChunk
  gap : Option TerminalReplayGap
  latestSeq : Nat
  terminalModePrefix : JsString

/-- `Buffer.byteLength(data, "utf8")` -/
def byteLength (data : JsString) : Nat := (Utf8.encode (JsString.toText.decode data.units)).length

/-- `JSON.stringify(chunk)` -/
def TerminalOutputChunk.json (chunk : TerminalOutputChunk) : List Char :=
  "\x7b\"seq\":".toList ++ (toString chunk.seq).toList ++ ",\"data\":".toList ++
    quote chunk.data ++ ['\x7d']

/-- The entry of a chunk; a byte more "reserves either the array comma or a conservative
bracket". -/
def bufferedChunk (seq : Nat) (data : JsString) : BufferedChunk where
  chunk := ⟨seq, data⟩
  bytes := byteLength data
  wireBytes := (Utf8.encode (TerminalOutputChunk.json ⟨seq, data⟩)).length + 1

structure ReplayLimits where
  maxBytes : Nat
  maxChunks : Nat
  maxWireBytes : Nat

structure TerminalReplayBuffer where
  limits : ReplayLimits
  chunks : List BufferedChunk
  head : Nat
  bytes : Int
  wireBytes : Int
  latestSeq : Nat
  evictedModes : TerminalModeTracker
  currentModes : TerminalModeTracker

/-- `NATIVE_TERMINAL_MAX_REPLAY_CHUNKS_PER_SESSION` -/
def maxReplayChunksPerSession : Int := 65536

/-- `NATIVE_TERMINAL_MAX_REPLAY_WIRE_BYTES_PER_SESSION` -/
def maxReplayWireBytesPerSession : Int := 24 * 1024 * 1024

/-- `Number.isSafeInteger(n) && n > 0` -/
def isPositiveSafeInteger (n : Int) : Prop := 0 < n ∧ n ≤ 2 ^ 53 - 1

instance : DecidablePred isPositiveSafeInteger := fun _ => inferInstanceAs (Decidable (_ ∧ _))

namespace TerminalReplayBuffer

/-- `new TerminalReplayBuffer(maxBytes, { maxChunks, maxWireBytes })` -/
def new (maxBytes : Int) (maxChunks maxWireBytes : Option Int) :
    Except String TerminalReplayBuffer :=
  let maxChunks := maxChunks.getD maxReplayChunksPerSession
  let maxWireBytes := maxWireBytes.getD maxReplayWireBytesPerSession
  if ¬isPositiveSafeInteger maxBytes then .error "maxBytes must be a positive safe integer"
  else if ¬isPositiveSafeInteger maxChunks then .error "maxChunks must be a positive safe integer"
  else if ¬isPositiveSafeInteger maxWireBytes then
    .error "maxWireBytes must be a positive safe integer"
  else .ok {
    limits := ⟨maxBytes.toNat, maxChunks.toNat, maxWireBytes.toNat⟩
    chunks := []
    head := 0
    bytes := 0
    wireBytes := 0
    latestSeq := 0
    evictedModes := .new
    currentModes := .new }

variable (buffer : TerminalReplayBuffer)

/-- Whether one of the three limits is passed. -/
def exceeds : Bool :=
  buffer.limits.maxBytes < buffer.bytes || buffer.limits.maxWireBytes < buffer.wireBytes ||
    buffer.limits.maxChunks < buffer.chunks.length - buffer.head

/-- The loop of `append` that evicts; the list is `#chunks` from `#head` on. -/
def evict : List BufferedChunk → TerminalReplayBuffer → TerminalReplayBuffer
  | [], buffer => buffer
  | evicted :: rest, buffer =>
      if buffer.exceeds then
        evict rest { buffer with
          head := buffer.head + 1
          evictedModes := buffer.evictedModes.feed evicted.chunk.data
          bytes := buffer.bytes - evicted.bytes
          wireBytes := buffer.wireBytes - evicted.wireBytes }
      else buffer

/-- The array is cut where its dead half has grown. -/
def compact : TerminalReplayBuffer :=
  if 1024 ≤ buffer.head ∧ buffer.chunks.length ≤ buffer.head * 2 then
    { buffer with chunks := buffer.chunks.drop buffer.head, head := 0 }
  else buffer

/-- `append(data)` -/
def append (data : JsString) : Except String TerminalReplayBuffer :=
  if data.length = 0 then .error "terminal output chunks must not be empty"
  else
    let entry := bufferedChunk (buffer.latestSeq + 1) data
    let pushed := { buffer with
      latestSeq := buffer.latestSeq + 1
      currentModes := buffer.currentModes.feed data
      chunks := buffer.chunks ++ [entry]
      bytes := buffer.bytes + entry.bytes
      wireBytes := buffer.wireBytes + entry.wireBytes }
    .ok (evict (pushed.chunks.drop pushed.head) pushed).compact

/-- `resetSequence()` -/
def resetSequence : List UInt16 := buffer.currentModes.resetSequence

/-- `readAfter(afterSeq)` -/
def readAfter (afterSeq : Nat) : Except String TerminalReplay :=
  if buffer.latestSeq < afterSeq then .error "afterSeq must identify this buffer's history"
  else
    let oldestAvailable := (buffer.chunks[buffer.head]?).elim (buffer.latestSeq + 1) (·.chunk.seq)
    let gap : Option TerminalReplayGap :=
      if afterSeq < oldestAvailable - 1 then some ⟨afterSeq + 1, oldestAvailable - 1⟩ else none
    .ok {
      chunks := ((buffer.chunks.drop buffer.head).filter fun entry =>
        afterSeq < entry.chunk.seq).map BufferedChunk.chunk
      gap := gap
      latestSeq := buffer.latestSeq
      terminalModePrefix :=
        if gap = none then ⟨[]⟩
        else ⟨buffer.evictedModes.restoreSequence ++ buffer.evictedModes.replayPrefix⟩ }

/-- Outputs, one appended after the other. -/
def appendAll : List JsString → Except String TerminalReplayBuffer :=
  List.foldlM append buffer

end TerminalReplayBuffer

/-- The chunks of outputs. -/
def chunksOf (history : List JsString) : List BufferedChunk :=
  history.zipIdx.map fun (data, index) => bufferedChunk (index + 1) data

/-- Chunks that are within the limits. -/
def ReplayLimits.Fits (limits : ReplayLimits) (chunks : List BufferedChunk) : Prop :=
  (chunks.map BufferedChunk.bytes).sum ≤ limits.maxBytes ∧
    (chunks.map BufferedChunk.wireBytes).sum ≤ limits.maxWireBytes ∧
    chunks.length ≤ limits.maxChunks

/-- A tracker that is fed outputs. -/
def TerminalModeTracker.feedAll (tracker : TerminalModeTracker) (history : List JsString) :
    TerminalModeTracker := history.foldl feed tracker

end H2a.NativeTerminal
