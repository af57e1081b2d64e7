import Mathlib.Tactic

/-!
# Data types shared by the protocol

Identifiers, byte orders, samples and the control counts of
`openrtdds/rtps/types.hpp`, `serialization/cdr.hpp` (`ByteOrder`),
`core/keep_last_history.hpp` (`BoundedSample`) and `rtps/reliability_state.cpp`
(control counts).

64-bit sequence numbers and times are natural numbers; nothing the model computes
from them leaves their range. Control counts are the 32 bits of an `int32_t`, the
repair counter of a sample is a `UInt8`.
-/

namespace OpenRtdds

/-- `std::numeric_limits<std::int64_t>::max()`. -/
def int64Max : ℕ := 9223372036854775807

/-- `std::numeric_limits<std::uint64_t>::max()`, also that of `std::size_t`. -/
def uint64Max : ℕ := 18446744073709551615

/-- `std::numeric_limits<std::int32_t>::max()`. -/
def int32Max : ℕ := 2147483647

/-- `std::numeric_limits<std::uint32_t>::max()`. -/
def uint32Max : ℕ := 4294967295

/-- The fixed capacities of the code are not zero. -/
instance neZero_one : NeZero 1 := ⟨by decide⟩

instance neZero_two : NeZero 2 := ⟨by decide⟩

instance neZero_eight : NeZero 8 := ⟨by decide⟩

instance neZero_windowSize : NeZero 256 := ⟨by decide⟩

/-- `rtps::EntityId`. -/
abbrev EntityId := Vector UInt8 4

/-- `rtps::GuidPrefix`. -/
abbrev GuidPrefix := Vector UInt8 12

/-- `rtps::ProtocolVersion`. -/
structure ProtocolVersion where
  major : UInt8 := 2
  minor : UInt8 := 5
  deriving DecidableEq

/-- `rtps::VendorId`. -/
abbrev VendorId := Vector UInt8 2

/-- `serialization::ByteOrder`: an enumeration over a byte, which may hold other values. -/
inductive ByteOrder where
  | bigEndian
  | littleEndian
  | other (code : UInt8)
  deriving DecidableEq

/-- A pointer with a length, as C++ callers hand over bytes: null with any length, or
the bytes behind the pointer. -/
inductive Span where
  | null (size : ℕ)
  | bytes (data : List UInt8)
  deriving DecidableEq

namespace Span

def isNull : Span → Bool
  | null _ => true
  | bytes _ => false

def size : Span → ℕ
  | null n => n
  | bytes data => data.length

/-- The bytes a copy of the whole span reads; nothing is read through a null pointer. -/
def data : Span → List UInt8
  | null _ => []
  | bytes data => data

theorem length_data_le : ∀ span : Span, span.data.length ≤ span.size
  | null n => Nat.zero_le n
  | bytes data => Nat.le_refl data.length

end Span

/-- The byte at `i`; the code never reads beyond its input. -/
def byteAt (m : List UInt8) (i : ℕ) : UInt8 := m.getD i 0

/-- `core::HistoryError` without `none`. -/
inductive HistoryError where
  | invalidArgument
  | payloadTooLarge
  deriving DecidableEq

/-- `core::SampleMetadata`. -/
structure SampleMetadata where
  sequenceNumber : ℕ := 0
  sourceTimestampNs : ℕ := 0
  deriving DecidableEq

/-- `core::BoundedSample`: at most `P` payload bytes and their metadata. -/
structure BoundedSample (P : ℕ) where
  payload : List UInt8 := []
  metadata : SampleMetadata := {}
  fits : payload.length ≤ P := by simp
  deriving DecidableEq

/-- `BoundedSample::assign`. -/
def BoundedSample.assign {P : ℕ} (payload : Span) (metadata : SampleMetadata) :
    Except HistoryError (BoundedSample P) :=
  if payload.isNull && payload.size != 0 then .error .invalidArgument
  else if h : payload.size > P then .error .payloadTooLarge
  else .ok ⟨payload.data, metadata, by
    cases payload with
    | null n => exact Nat.zero_le P
    | bytes d => exact Nat.le_of_not_lt h⟩

/-- `control_count_is_newer`: the serial order of 32-bit counts. -/
def controlCountIsNewer (candidate reference : BitVec 32) : Bool :=
  let difference := candidate - reference
  difference != 0 && decide (difference.toNat < 0x80000000)

/-- `next_control_count`. -/
def nextControlCount (count : BitVec 32) : BitVec 32 := count + 1

/-- A later count is newer than an earlier one while they are less than half the range apart. -/
theorem controlCountIsNewer_ofNat {m n : ℕ} (h : m < n) (hn : n - m < 2 ^ 31) :
    controlCountIsNewer (.ofNat 32 n) (.ofNat 32 m) = true := by
  have hd : BitVec.ofNat 32 n - BitVec.ofNat 32 m = BitVec.ofNat 32 (n - m) := by
    rw [← Nat.sub_add_cancel h.le, BitVec.ofNat_add, BitVec.add_sub_cancel, Nat.sub_add_cancel h.le]
  have hv : (BitVec.ofNat 32 (n - m)).toNat = n - m := by
    rw [BitVec.toNat_ofNat, Nat.mod_eq_of_lt (by omega)]
  have h0 : BitVec.ofNat 32 (n - m) ≠ 0 := by
    intro h0
    rw [h0] at hv
    simp at hv
    omega
  simp only [controlCountIsNewer, hd, hv, Bool.and_eq_true, bne_iff_ne, ne_eq, decide_eq_true_eq]
  exact ⟨h0, by omega⟩

/-- `rtps::ReliabilityError`. -/
inductive ReliabilityError where
  | none
  | invalidConfiguration
  | invalidArgument
  | unexpectedPeer
  | invalidSequenceNumber
  | nonMonotonicSequence
  | payloadTooLarge
  | historyFull
  | actionCapacityExceeded
  | staleControl
  | duplicateData
  | staleData
  | receiveWindowExceeded
  | timeRegression
  | gapNotRepairable
  deriving DecidableEq

/-- `rtps::RepairFailure` without `none`. -/
inductive RepairFailure where
  | repairLimitExceeded
  | repairWindowExpired
  deriving DecidableEq

end OpenRtdds
