import OpenRtdds.Lib.Compact
import OpenRtdds.Spec.DataMessage

/-!
# Subscriptions

The ingress and take side of `rmw_openrtdds_cpp/src/subscription.cpp`: a ring of `D`
samples (`history_sample_slots`, the KEEP_LAST depth) and a table of sixteen writers with
the last sequence number accepted from each.
-/

namespace OpenRtdds

open Lib

/-- An `rmw_gid_t`: the bytes of a participant prefix and an entity id. -/
abbrev Gid := Vector UInt8 16

/-- `make_rmw_gid` and `make_gid`. -/
def makeGid (guidPrefix : GuidPrefix) (entity : EntityId) : Gid := guidPrefix ++ entity

/-- `kUnknownReader`. -/
def unknownReader : EntityId := .replicate 4 0

/-- `reader_id`: the entity id of the subscription in a slot. -/
def readerId (slot : Fin 8) : EntityId := #v[0, 0, .ofNat (slot + 1), 0x04]

/-- `valid_writer_id`: a user writer, keyed or not. -/
def validWriterId (entity : EntityId) : Bool :=
  (entity[0] ||| entity[1] ||| entity[2]) != 0 && (entity[3] == 0x02 || entity[3] == 0x03)

/-- `SubscriptionSampleMetadata` with the bytes of its history slot. -/
structure StoredSample where
  publisherGid : Gid := .replicate 16 0
  publicationSequenceNumber : ℕ := 0
  receptionSequenceNumber : ℕ := 0
  sourceTimestampNs : ℕ := 0
  receivedTimestampNs : ℕ := 0
  payload : List UInt8 := []

/-- `WriterState`. -/
structure WriterState where
  guid : Gid := .replicate 16 0
  lastSequence : ℕ := 0
  occupied : Bool := false

/-- The part of `SubscriptionData` that ingress and take use. `shutdown` is the flag of the
context and `ignoreLocalPublications` an option of the handle. -/
structure Subscription (D : ℕ) where
  participantPrefix : GuidPrefix
  readerId : EntityId
  serializedCapacity : ℕ
  ignoreLocalPublications : Bool
  shutdown : Bool
  history : Fin D → StoredSample
  historyHead : ℕ
  historySize : ℕ
  writers : Fin 16 → WriterState
  observedWriterCount : ℕ
  nextReceptionSequence : ℕ
  acceptedSamples : ℕ
  droppedSamples : ℕ
  size_le : historySize ≤ D

/-- `SubscriptionReceiveError` without `none`. -/
inductive SubscriptionReceiveError where
  | invalidArgument
  | inactiveContext
  | invalidTimestamp
  | rtpsParseFailed (error : RtpsError)
  | wrongReader
  | invalidWriter
  | payloadTooLarge
  | writerTableFull
  | receptionSequenceExhausted
  deriving DecidableEq

/-- `SubscriptionReceiveResult` of a call that returned true. -/
inductive SubscriptionReceiveResult where
  | accepted (publicationSequenceNumber receptionSequenceNumber : ℕ) (droppedOldest : Bool)
  | ignoredLocal (publicationSequenceNumber : ℕ)
  | duplicateOrStale (publicationSequenceNumber : ℕ)
  deriving DecidableEq

/-- `rtps_timestamp_ns`. -/
def rtpsTimestampNs (v : DataMessageView) : ℕ :=
  if !v.context.hasTimestamp || v.context.timestamp.seconds.msb then 0
  else v.context.timestamp.seconds.toNat * 1000000000 +
    (v.context.timestamp.fraction * 1000000000) >>> 32

namespace Subscription

variable {D : ℕ}

/-- A subscription as `create_subscription_endpoint` leaves it. -/
def init (participantPrefix : GuidPrefix) (readerId : EntityId) (serializedCapacity : ℕ)
    (ignoreLocalPublications : Bool) : Subscription D where
  participantPrefix := participantPrefix
  readerId := readerId
  serializedCapacity := serializedCapacity
  ignoreLocalPublications := ignoreLocalPublications
  shutdown := false
  history := fun _ => {}
  historyHead := 0
  historySize := 0
  writers := fun _ => {}
  observedWriterCount := 0
  nextReceptionSequence := 1
  acceptedSamples := 0
  droppedSamples := 0
  size_le := Nat.zero_le D

/-- The writer loop of `receive_data_message`: the state of this writer, if it has one. -/
def findWriter (s : Subscription D) (guid : Gid) : Option (Fin 16) :=
  (List.finRange 16).find? fun i => (s.writers i).occupied && (s.writers i).guid == guid

/-- The first unoccupied writer state. -/
def freeWriter (s : Subscription D) : Option (Fin 16) :=
  (List.finRange 16).find? fun i => !(s.writers i).occupied

/-- The samples of the ring, oldest first. -/
def queue [NeZero D] (s : Subscription D) : List StoredSample :=
  (List.range s.historySize).map fun k => s.history (wrap (s.historyHead + k))

/-- The commit of an accepted sample: the ring slot, the writer state and the counters. -/
def commit [NeZero D] (s : Subscription D) (sample : StoredSample) (writer : Fin 16)
    (isNew : Bool) : Subscription D :=
  let full := decide (s.historySize = D)
  { s with
    history := Function.update s.history
      (if full then wrap s.historyHead else wrap (s.historyHead + s.historySize)) sample
    historyHead := if full then (s.historyHead + 1) % D else s.historyHead
    historySize := if full then s.historySize else s.historySize + 1
    droppedSamples := if full then s.droppedSamples + 1 else s.droppedSamples
    writers := Function.update s.writers writer
      { guid := sample.publisherGid
        lastSequence := sample.publicationSequenceNumber
        occupied := true }
    observedWriterCount := if isNew then s.observedWriterCount + 1 else s.observedWriterCount
    nextReceptionSequence := s.nextReceptionSequence + 1
    acceptedSamples := s.acceptedSamples + 1
    size_le := by
      have := s.size_le
      split
      · exact this
      · rename_i h
        have h' : s.historySize ≠ D := by simpa [full] using h
        omega }

/-- `receive_data_message` for a valid subscription handle. -/
def receiveDataMessage [NeZero D] (s : Subscription D) (message : Span)
    (sourceTimestampNs receivedTimestampNs : ℕ) :
    Except SubscriptionReceiveError SubscriptionReceiveResult × Subscription D :=
  if message.isNull || message.size == 0 then (.error .invalidArgument, s)
  else if s.shutdown then (.error .inactiveContext, s)
  else if receivedTimestampNs = 0 ∨ receivedTimestampNs > int64Max ∨ sourceTimestampNs > int64Max then
    (.error .invalidTimestamp, s)
  else match parseDataMessage message with
    | .error e => (.error (.rtpsParseFailed e), s)
    | .ok view =>
      if view.context.hasDestination && view.context.destination != s.participantPrefix ||
          view.readerId != unknownReader && view.readerId != s.readerId then (.error .wrongReader, s)
      else if !nonzeroPrefix view.guidPrefix || !validWriterId view.writerId then
        (.error .invalidWriter, s)
      else if view.payload.length = 0 ∨ view.payload.length > s.serializedCapacity then
        (.error .payloadTooLarge, s)
      else
        let resolved := if sourceTimestampNs = 0 then rtpsTimestampNs view else sourceTimestampNs
        if resolved > int64Max then (.error .invalidTimestamp, s)
        else if s.ignoreLocalPublications && view.guidPrefix == s.participantPrefix then
          (.ok (.ignoredLocal view.sequenceNumber), s)
        else
          let gid := makeGid view.guidPrefix view.writerId
          let sample : StoredSample :=
            { publisherGid := gid
              publicationSequenceNumber := view.sequenceNumber
              receptionSequenceNumber := s.nextReceptionSequence
              sourceTimestampNs := resolved
              receivedTimestampNs
              payload := view.payload }
          let droppedOldest := decide (s.historySize = D)
          match s.findWriter gid, s.freeWriter with
          | some i, _ =>
            if view.sequenceNumber ≤ (s.writers i).lastSequence then
              (.ok (.duplicateOrStale view.sequenceNumber), s)
            else if s.nextReceptionSequence = uint64Max then (.error .receptionSequenceExhausted, s)
            else (.ok (.accepted view.sequenceNumber s.nextReceptionSequence droppedOldest),
              s.commit sample i false)
          | none, none => (.error .writerTableFull, s)
          | none, some i =>
            if s.nextReceptionSequence = uint64Max then (.error .receptionSequenceExhausted, s)
            else (.ok (.accepted view.sequenceNumber s.nextReceptionSequence droppedOldest),
              s.commit sample i true)

/-- `subscription_network_receive`: the receive time serves as source time too. -/
def networkReceive [NeZero D] (s : Subscription D) (packet : Span) (receivedTimestampNs : ℕ) :
    Except SubscriptionReceiveError SubscriptionReceiveResult × Subscription D :=
  s.receiveDataMessage packet receivedTimestampNs receivedTimestampNs

/-- Removes the head of the ring, as `take_one` and `take_service` do. -/
def dropHead (s : Subscription D) : Subscription D :=
  { s with
    historyHead := (s.historyHead + 1) % D
    historySize := s.historySize - 1
    size_le := by have := s.size_le; omega }

theorem dropMany_size_le (s : Subscription D) (count : ℕ) : s.historySize - count ≤ D :=
  (Nat.sub_le _ _).trans s.size_le

/-- Removes several samples from the head of the ring, as `rmw_take_sequence` does. -/
def dropMany (s : Subscription D) (count : ℕ) : Subscription D :=
  { s with
    historyHead := (s.historyHead + count) % D
    historySize := s.historySize - count
    size_le := dropMany_size_le s count }

/-- `take_one`, with the codec of the subscription as a parameter: the head of the ring is
removed if it decodes. -/
def takeOne [NeZero D] {M : Type} (decode : List UInt8 → Option M) (s : Subscription D) :
    Option (M × StoredSample) × Subscription D :=
  if s.shutdown then (none, s)
  else if s.historySize = 0 then (none, s)
  else
    let sample := s.history (wrap s.historyHead)
    match decode sample.payload with
    | none => (none, s)
    | some m => (some (m, sample), s.dropHead)

end Subscription

end OpenRtdds
