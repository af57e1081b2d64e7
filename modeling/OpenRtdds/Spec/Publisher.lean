import OpenRtdds.Spec.Subscription

/-!
# Publishers

The history of `rmw_openrtdds_cpp/src/publisher.cpp`: a ring of the last `D` published
samples, filled by `publish_sample` after serialization and read by the network worker.
-/

namespace OpenRtdds

open Lib

/-- `PublisherSampleMetadata` with the bytes of its history slot. -/
structure PublishedSample where
  sequenceNumber : ℕ := 0
  sourceTimestampNs : ℕ := 0
  payload : List UInt8 := []

/-- The part of `PublisherData` that publishing and the network worker use. -/
structure Publisher (D : ℕ) where
  participantPrefix : GuidPrefix
  writerId : EntityId
  serializedCapacity : ℕ
  history : Fin D → PublishedSample
  historyNext : ℕ
  historySize : ℕ
  nextSequence : ℕ
  dataMessage : List UInt8
  size_le : historySize ≤ D
  next_lt : historyNext < D

/-- Why `publish_sample` returns an error after the message was serialized. -/
inductive PublishError where
  | sequenceExhausted
  | dataConstructionFailed (error : RtpsError)
  | clockUnreadable
  deriving DecidableEq

/-- `kProtocol` and `kVendor`. -/
def protocolVersion : ProtocolVersion := ⟨2, 3⟩

def vendorId : VendorId := #v[0x01, 0x42]

/-- `writer_id`: the entity id of the publisher in a slot. -/
def writerId (slot : Fin 8) : EntityId := #v[0, 0, .ofNat (slot + 1), 0x03]

namespace Publisher

variable {D : ℕ} [NeZero D]

/-- A publisher as `create_publisher_endpoint` leaves it. -/
def init (participantPrefix : GuidPrefix) (writerId : EntityId) (serializedCapacity : ℕ) :
    Publisher D where
  participantPrefix := participantPrefix
  writerId := writerId
  serializedCapacity := serializedCapacity
  history := fun _ => {}
  historyNext := 0
  historySize := 0
  nextSequence := 1
  dataMessage := []
  size_le := Nat.zero_le D
  next_lt := Nat.pos_of_neZero D

/-- The DATA configuration of a sample of this publisher. -/
def dataConfig (p : Publisher D) (sequenceNumber : ℕ) : DataMessageConfig where
  version := protocolVersion
  vendorId := vendorId
  guidPrefix := p.participantPrefix
  readerId := unknownReader
  writerId := p.writerId
  sequenceNumber := sequenceNumber
  submessageByteOrder := .littleEndian

omit [NeZero D] in
theorem pushed_size_le (p : Publisher D) :
    (if p.historySize < D then p.historySize + 1 else p.historySize) ≤ D := by
  have := p.size_le
  split <;> omega

theorem pushed_next_lt (p : Publisher D) : (p.historyNext + 1) % D < D :=
  Nat.mod_lt _ (Nat.pos_of_neZero D)

/-- `publish_sample` from the end of serialization on: `serialized` are the bytes in the
staging buffer, `clock` the source timestamp if the clock can be read. -/
def publishSerialized (p : Publisher D) (serialized : List UInt8) (clock : Option ℕ) :
    Except PublishError (Publisher D) :=
  if p.nextSequence ≥ int64Max then .error .sequenceExhausted
  else match buildDataMessage false (p.serializedCapacity + 44) (p.dataConfig p.nextSequence)
      (.bytes serialized) with
    | .error e => .error (.dataConstructionFailed e)
    | .ok message =>
      match clock with
      | none => .error .clockUnreadable
      | some timestamp => .ok
        { p with
          history := Function.update p.history (wrap p.historyNext)
            { sequenceNumber := p.nextSequence
              sourceTimestampNs := timestamp
              payload := serialized }
          historyNext := (p.historyNext + 1) % D
          historySize := if p.historySize < D then p.historySize + 1 else p.historySize
          nextSequence := p.nextSequence + 1
          dataMessage := message
          size_le := pushed_size_le p
          next_lt := pushed_next_lt p }

/-- The loop of `publisher_network_copy_next`: the retained sample with the least sequence
number above `afterSequence`. -/
def selectNext (p : Publisher D) (afterSequence : ℕ) : Option PublishedSample :=
  let oldest := (p.historyNext + D - p.historySize) % D
  (List.range p.historySize).foldl
    (fun selected offset =>
      let sample := p.history (wrap (oldest + offset))
      if afterSequence < sample.sequenceNumber ∧
          sample.sequenceNumber < (selected.map PublishedSample.sequenceNumber).getD uint64Max
      then some sample else selected)
    none

/-- `publisher_network_copy_next`: the sequence number and the rebuilt DATA datagram. -/
def networkCopyNext (p : Publisher D) (afterSequence capacity : ℕ) : Option (ℕ × List UInt8) :=
  if p.historySize = 0 then none
  else match p.selectNext afterSequence with
    | none => none
    | some sample =>
      match buildDataMessage false capacity (p.dataConfig sample.sequenceNumber)
          (.bytes sample.payload) with
      | .error _ => none
      | .ok packet => some (sample.sequenceNumber, packet)

end Publisher

end OpenRtdds
