import OpenRtdds.Lib.Guarded
import OpenRtdds.Spec.ReliabilityMessages

/-!
# Parsers over raw memory

`find_submessage`, `parse_data_message`, `parse_heartbeat_message` and `parse_acknack_message` once
more, as they use the memory of the message: a pointer into the message is a position, every read
names the bytes it reads, and every size that is subtracted or added up is a `std::size_t`. A read
outside the message, a pointer beyond its end, a size that wraps, a word outside the bitmap and a loop
that does not end are faults.

No parser reads the output it is given; it is assigned as a whole when everything has been accepted.
-/

namespace OpenRtdds

open Lib Guarded

namespace Raw

section Memory

variable {ε : Type} (m : List UInt8)

/-- `message[i]`. -/
def load (i : ℕ) : Guarded ε UInt8 := access m i 1 (byteAt m i)

/-- `read_u16` and `read_u32`, and `read_u64` of `graph_cache.cpp`, at `&message[i]`. -/
def readWord (i width : ℕ) (order : ByteOrder) : Guarded ε ℕ := access m i width (readAt m i width order)

/-- `memcpy` of `n` bytes from `&message[i]` into an array of this size. -/
def copyBytes (i n : ℕ) : Guarded ε (Vector UInt8 n) := access m i n (copyAt m i n)

/-- The `n` bytes at `&message[i]`, for a `memcpy` or a `memcmp` of `n` bytes. -/
def bytesAt (i n : ℕ) : Guarded ε (List UInt8) := access m i n ((m.drop i).take n)

/-- `&message[i]`, which may be one past the end. -/
def address (i : ℕ) : Guarded ε ℕ := access m i 0 i

end Memory

section Route

/-- `apply_info`; `content` points into the message. -/
def applyInfo (m : List UInt8) (id flags : UInt8) (order : ByteOrder) (content contentSize : ℕ)
    (c : RouteContext) : Guarded MessageRouteError RouteContext :=
  if id = submessageIdInfoDestination then do
    require (contentSize = 12) .invalidInfoSubmessage
    let destination ← copyBytes m content 12
    pure { c with destination, hasDestination := nonzeroPrefix destination }
  else if id = submessageIdInfoSource then do
    require (contentSize = 20) .invalidInfoSubmessage
    let major ← load m (content + 4)
    let minor ← load m (content + 5)
    require (supportedVersion ⟨major, minor⟩) .unsupportedVersion
    let vendorId ← copyBytes m (content + 6) 2
    let source ← copyBytes m (content + 8) 12
    pure { c with version := ⟨major, minor⟩, vendorId, source }
  else if id = submessageIdInfoTimestamp then
    if flags &&& 0x02 ≠ 0 then do
      require (contentSize = 0) .invalidInfoSubmessage
      pure { c with hasTimestamp := false }
    else do
      require (contentSize = 8) .invalidInfoSubmessage
      let seconds ← readWord m content 4 order
      let fraction ← readWord m (content + 4) 4 order
      pure { c with timestamp := ⟨BitVec.ofNat 32 seconds, fraction⟩, hasTimestamp := true }
  else pure c

/-- `rtps::RoutedSubmessageView`. -/
structure RoutedSubmessageView where
  context : RouteContext
  id : UInt8
  flags : UInt8
  byteOrder : ByteOrder
  content : ℕ
  contentSize : ℕ
  offset : ℕ

/-- The variables of the loop of `find_submessage`. -/
structure RouteState where
  context : RouteContext
  candidate : Option RoutedSubmessageView := none
  occurrence : ℕ := 0
  offset : ℕ := 20

/-- One submessage whose header has been read; the flag says that the loop goes on. -/
def takeSubmessage (m : List UInt8) (wantedId : UInt8) (wantedOccurrence : ℕ) (s : RouteState)
    (id flags : UInt8) (order : ByteOrder) (contentOffset available contentSize : ℕ)
    (extendsToEnd : Bool) : Guarded MessageRouteError (RouteState × Bool) := do
  require (contentSize ≤ available) .truncated
  let content ← address m contentOffset
  let candidate := if id = wantedId ∧ s.occurrence = wantedOccurrence then
      some
        { context := s.context, id, flags, byteOrder := order, content, contentSize
          offset := s.offset }
    else s.candidate
  let occurrence := if id = wantedId then s.occurrence + 1 else s.occurrence
  let context ← applyInfo m id flags order content contentSize s.context
  let offset ← sizeAdd contentOffset contentSize
  pure ({ context, candidate, occurrence, offset }, !extendsToEnd)

/-- The loop condition and the body of the loop. -/
def routeStep (m : List UInt8) (messageSize : ℕ) (wantedId : UInt8) (wantedOccurrence : ℕ)
    (s : RouteState) : Guarded MessageRouteError (RouteState × Bool) :=
  if s.offset < messageSize then do
    let remaining ← sizeSub messageSize s.offset
    require (4 ≤ remaining) .malformedSubmessage
    let id ← load m s.offset
    let flags ← load m (s.offset + 1)
    let order : ByteOrder := if flags &&& 0x01 ≠ 0 then .littleEndian else .bigEndian
    let declared ← readWord m (s.offset + 2) 2 order
    let contentOffset ← sizeAdd s.offset 4
    let available ← sizeSub messageSize contentOffset
    let extendsToEnd :=
      decide (declared = 0) && !(id == submessageIdPad || id == submessageIdInfoTimestamp)
    let contentSize := if extendsToEnd then available else declared
    takeSubmessage m wantedId wantedOccurrence s id flags order contentOffset available contentSize
      extendsToEnd
  else pure (s, false)

/-- `find_submessage`. -/
def findSubmessage (message : Span) (wantedId : UInt8) (wantedOccurrence : ℕ) :
    Guarded MessageRouteError RoutedSubmessageView := do
  let m := message.data
  require (¬ (message.isNull && message.size != 0)) .invalidArgument
  require (20 ≤ message.size) .truncated
  let protocol ← bytesAt m 0 4
  require (protocol = [0x52, 0x54, 0x50, 0x53]) .invalidProtocol
  let major ← load m 4
  let minor ← load m 5
  require (supportedVersion ⟨major, minor⟩) .unsupportedVersion
  let vendorId ← copyBytes m 6 2
  let source ← copyBytes m 8 12
  let s ← loop (routeStep m message.size wantedId wantedOccurrence) (message.size + 1)
    { context := { version := ⟨major, minor⟩, vendorId, source } }
  require (s.offset = message.size) .malformedSubmessage
  match s.candidate with
  | none => .error .submessageNotFound
  | some view => pure view

end Route

section Data

/-- `rtps::DataMessageView`. -/
structure DataMessageView where
  context : RouteContext
  readerId : EntityId
  writerId : EntityId
  sequenceNumber : ℕ
  submessageByteOrder : ByteOrder
  serializedPayload : ℕ
  payloadSize : ℕ

/-- `supported_serialized_payload` at a pointer into the message. -/
def supportedSerializedPayload {ε : Type} (m : List UInt8) (payload size : ℕ) : Guarded ε Bool :=
  if size ≥ 4 then do
    let first ← load m payload
    if first = 0 then do
      let second ← load m (payload + 1)
      pure (second ≤ 3)
    else pure false
  else pure false

/-- `parse_data_message`. -/
def parseDataMessage (message : Span) : Guarded RtpsError DataMessageView := do
  let m := message.data
  let routed ← (findSubmessage message submessageIdData 0).mapError .ofRoute
  let order := routed.byteOrder
  let content := routed.content
  require (routed.flags &&& 0x04 ≠ 0) .invalidSubmessage
  require (routed.flags &&& (0x02 ||| 0x08 ||| 0x10) = 0) .unsupportedFeature
  require (24 ≤ routed.contentSize) .invalidSubmessage
  let extraFlags ← readWord m content 2 order
  require (extraFlags = 0) .unsupportedFeature
  let inlineQosOffset ← readWord m (content + 2) 2 order
  require (16 ≤ inlineQosOffset) .invalidSubmessage
  let payloadOffset ← sizeAdd 4 inlineQosOffset
  require (payloadOffset ≤ routed.contentSize) .invalidSubmessage
  let payloadSize ← sizeSub routed.contentSize payloadOffset
  require (4 ≤ payloadSize) .invalidSubmessage
  let sequenceHigh ← readWord m (content + 12) 4 order
  let sequenceLow ← readWord m (content + 16) 4 order
  -- a high word above `INT32_MAX` is a negative number
  require (sequenceHigh < 2 ^ 31) .invalidSequenceNumber
  let sequenceNumber := sequenceHigh <<< 32 ||| sequenceLow
  require (sequenceNumber ≠ 0) .invalidSequenceNumber
  let payload ← address m (content + payloadOffset)
  let supported ← supportedSerializedPayload m payload payloadSize
  require supported .invalidSerializedPayload
  let readerId ← copyBytes m (content + 4) 4
  let writerId ← copyBytes m (content + 8) 4
  pure
    { context := routed.context
      readerId, writerId, sequenceNumber
      submessageByteOrder := order
      serializedPayload := payload
      payloadSize }

end Data

section Reliability

/-- `read_sequence_number` at a pointer into the message. -/
def readSequenceNumber (m : List UInt8) (source : ℕ) (order : ByteOrder) (allowZero : Bool) :
    Guarded ReliabilityMessageError ℕ := do
  let high ← readWord m source 4 order
  require (high < 2 ^ 31) .invalidSequenceNumber
  let low ← readWord m (source + 4) 4 order
  let candidate := high <<< 32 ||| low
  require (¬ ((!allowZero && candidate == 0) || decide (candidate > int64Max)))
    .invalidSequenceNumber
  pure candidate

/-- `ParsedPrefix`. -/
structure ParsedPrefix where
  header : ReliabilityMessageHeader
  byteOrder : ByteOrder
  flags : UInt8
  content : ℕ
  contentSize : ℕ

/-- `parse_prefix`. -/
def parsePrefix (message : Span) (expectedSubmessageId : UInt8) :
    Guarded ReliabilityMessageError ParsedPrefix := do
  require (¬ (message.isNull && message.size != 0)) .invalidArgument
  let routed ← (findSubmessage message expectedSubmessageId 0).mapError .ofRoute
  pure
    { header :=
        { version := routed.context.version
          vendorId := routed.context.vendorId
          guidPrefix := routed.context.source
          submessageByteOrder := routed.byteOrder }
      byteOrder := routed.byteOrder
      flags := routed.flags
      content := routed.content
      contentSize := routed.contentSize }

/-- `parse_heartbeat_message`. -/
def parseHeartbeatMessage (message : Span) : Guarded ReliabilityMessageError Heartbeat := do
  let m := message.data
  let parsed ← parsePrefix message submessageIdHeartbeat
  let content := parsed.content
  let order := parsed.byteOrder
  require (parsed.flags &&& 0x08 = 0) .unsupportedFeature
  require (parsed.flags &&& ~~~(0x01 ||| 0x02 ||| 0x04) = 0) .unsupportedFeature
  require (parsed.contentSize = 28) .invalidSubmessage
  let readerId ← copyBytes m content 4
  let writerId ← copyBytes m (content + 4) 4
  let first ← readSequenceNumber m (content + 8) order false
  let last ← readSequenceNumber m (content + 16) order true
  let before ← sizeSub first 1
  require (before ≤ last) .invalidSequenceNumber
  let count ← readWord m (content + 24) 4 order
  pure
    { header := parsed.header
      readerId, writerId
      firstSequenceNumber := first
      lastSequenceNumber := last
      count := BitVec.ofNat 32 count
      finalFlag := parsed.flags &&& 0x02 != 0
      livelinessFlag := parsed.flags &&& 0x04 != 0 }

/-- `SequenceNumberSet::set`, which writes a word of the array of eight. -/
def setBit {ε : Type} (s : SequenceNumberSet) (offset : ℕ) : Guarded ε SequenceNumberSet := do
  guard (offset < s.numBits → offset / 32 < 8)
  pure (s.set offset).2

/-- The loop over the bits of a word. -/
def parseWord {ε : Type} (numBits wordIndex : ℕ) (word : BitVec 32) (s : SequenceNumberSet) :
    Guarded ε SequenceNumberSet :=
  (List.range 32).foldlM
    (fun s bitIndex =>
      let bitOffset := wordIndex * 32 + bitIndex
      if bitOffset < numBits ∧ word &&& (1#32 <<< (31 - bitIndex)) ≠ 0 then setBit s bitOffset
      else pure s)
    s

/-- The loop over the words of the bitmap. -/
def parseWords {ε : Type} (m : List UInt8) (content : ℕ) (order : ByteOrder) (numBits wordCount : ℕ)
    (s : SequenceNumberSet) : Guarded ε SequenceNumberSet :=
  (List.range wordCount).foldlM
    (fun s wordIndex => do
      let word ← readWord m (content + (20 + wordIndex * 4)) 4 order
      parseWord numBits wordIndex (BitVec.ofNat 32 word) s)
    s

/-- `parse_acknack_message`. -/
def parseAcknackMessage (message : Span) : Guarded ReliabilityMessageError AckNack := do
  let m := message.data
  let parsed ← parsePrefix message submessageIdAcknack
  let content := parsed.content
  let order := parsed.byteOrder
  require (parsed.flags &&& ~~~(0x01 ||| 0x02) = 0) .unsupportedFeature
  require (24 ≤ parsed.contentSize) .invalidSubmessage
  let bitmapBase ← readSequenceNumber m (content + 8) order false
  let numBits ← readWord m (content + 16) 4 order
  require (numBits ≤ 256) .bitmapBoundExceeded
  let wordCount := (numBits + 31) / 32
  require (parsed.contentSize = 24 + wordCount * 4) .invalidSubmessage
  let readerId ← copyBytes m content 4
  let writerId ← copyBytes m (content + 4) 4
  let fresh := SequenceNumberSet.empty.reset bitmapBase numBits
  require fresh.1 .invalidSequenceNumber
  let readerState ← parseWords m content order numBits wordCount fresh.2
  let count ← readWord m (content + (20 + wordCount * 4)) 4 order
  pure
    { header := parsed.header
      readerId, writerId, readerState
      count := BitVec.ofNat 32 count
      finalFlag := parsed.flags &&& 0x02 != 0 }

end Reliability

end Raw

end OpenRtdds
