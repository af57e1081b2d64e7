import OpenRtdds.Lib.Compact
import OpenRtdds.Lib.Run
import OpenRtdds.Spec.Types

/-!
# The KEEP_LAST history

`KeepLastHistory` of `include/openrtdds/core/keep_last_history.hpp`, a circular array of samples, for
every depth and every payload bound, and the queue it stands for: the list of the newest samples.
-/

namespace OpenRtdds

open Lib

/-- `core::KeepLastHistory`. -/
structure KeepLastHistory (Depth MaxPayloadBytes : ℕ) where
  samples : Fin Depth → BoundedSample MaxPayloadBytes := fun _ => {}
  size : ℕ := 0
  oldestIndex : ℕ := 0
  writeIndex : ℕ := 0

/-- A call that changes the history. -/
inductive HistoryOp where
  | push (payload : Span) (metadata : SampleMetadata)
  | popOldest
  | clear

namespace KeepLastHistory

variable {Depth MaxPayloadBytes : ℕ} [NeZero Depth]

omit [NeZero Depth] in
/-- `increment`. -/
def increment (_ : KeepLastHistory Depth MaxPayloadBytes) (index : ℕ) : ℕ := (index + 1) % Depth

/-- `push`. -/
def push (h : KeepLastHistory Depth MaxPayloadBytes) (payload : Span) (metadata : SampleMetadata) :
    Option HistoryError × KeepLastHistory Depth MaxPayloadBytes :=
  if payload.isNull && payload.size != 0 then (some .invalidArgument, h)
  else if payload.size > MaxPayloadBytes then (some .payloadTooLarge, h)
  else match BoundedSample.assign payload metadata with
    | .error e => (some e, h)
    | .ok sample =>
      (none,
        { samples := Function.update h.samples (wrap h.writeIndex) sample
          size := if h.size = Depth then h.size else h.size + 1
          oldestIndex := if h.size = Depth then h.increment h.oldestIndex else h.oldestIndex
          writeIndex := h.increment h.writeIndex })

omit [NeZero Depth] in
/-- `empty`. -/
def empty (h : KeepLastHistory Depth MaxPayloadBytes) : Bool := h.size == 0

omit [NeZero Depth] in
/-- `full`. -/
def full (h : KeepLastHistory Depth MaxPayloadBytes) : Bool := h.size == Depth

/-- `oldest`; a null pointer is `none`. -/
def oldest (h : KeepLastHistory Depth MaxPayloadBytes) : Option (BoundedSample MaxPayloadBytes) :=
  if h.empty then none else some (h.samples (wrap h.oldestIndex))

/-- `newest`. -/
def newest (h : KeepLastHistory Depth MaxPayloadBytes) : Option (BoundedSample MaxPayloadBytes) :=
  if h.empty then none
  else some (h.samples (wrap (if h.writeIndex = 0 then Depth - 1 else h.writeIndex - 1)))

omit [NeZero Depth] in
/-- `pop_oldest`. -/
def popOldest (h : KeepLastHistory Depth MaxPayloadBytes) :
    Bool × KeepLastHistory Depth MaxPayloadBytes :=
  if h.empty then (false, h)
  else (true, { h with oldestIndex := h.increment h.oldestIndex, size := h.size - 1 })

omit [NeZero Depth] in
/-- `clear`. -/
def clear (h : KeepLastHistory Depth MaxPayloadBytes) : KeepLastHistory Depth MaxPayloadBytes :=
  { h with size := 0, oldestIndex := 0, writeIndex := 0 }

/-- The history after a call. -/
def step (h : KeepLastHistory Depth MaxPayloadBytes) : HistoryOp → KeepLastHistory Depth MaxPayloadBytes
  | .push payload metadata => (h.push payload metadata).2
  | .popOldest => h.popOldest.2
  | .clear => h.clear

end KeepLastHistory

namespace NewestQueue

/-- What a caller sees of a sample: its bytes and its metadata. -/
abbrev Entry := List UInt8 × SampleMetadata

/-- The payload can be read and is within the bound. -/
def Accepts (MaxPayloadBytes : ℕ) (payload : Span) : Prop :=
  (payload.isNull = true → payload.size = 0) ∧ payload.size ≤ MaxPayloadBytes

instance (MaxPayloadBytes : ℕ) (payload : Span) : Decidable (Accepts MaxPayloadBytes payload) :=
  inferInstanceAs (Decidable (_ ∧ _))

/-- **The queue of the newest samples**: an accepted sample is appended, and the front is dropped when
the length would exceed the depth. -/
def step (Depth MaxPayloadBytes : ℕ) (queue : List Entry) : HistoryOp → List Entry
  | .push payload metadata =>
    if Accepts MaxPayloadBytes payload then
      let longer := queue ++ [(payload.data, metadata)]
      longer.drop (longer.length - Depth)
    else queue
  | .popOldest => queue.tail
  | .clear => []

end NewestQueue

end OpenRtdds
