import OpenRtdds.Spec.DataMessage
import OpenRtdds.Spec.SequenceSet

/-!
# HEARTBEAT and ACKNACK messages

`rtps/reliability_messages.cpp`: the builders and the parsers of the two control messages. Both are
an RTPS header and one submessage; an ACKNACK carries the words of its bitmap.
-/

namespace OpenRtdds

open Lib

/-- `rtps::ReliabilityMessageError` without `none`. -/
inductive ReliabilityMessageError where
  | invalidArgument
  | bufferOverflow
  | truncated
  | invalidProtocol
  | unsupportedVersion
  | unsupportedSubmessage
  | unsupportedFeature
  | invalidSubmessage
  | invalidSequenceNumber
  | bitmapBoundExceeded
  deriving DecidableEq

/-- `route_error` of `reliability_messages.cpp`. -/
def ReliabilityMessageError.ofRoute : MessageRouteError → ReliabilityMessageError
  | .invalidArgument => .invalidArgument
  | .truncated => .truncated
  | .invalidProtocol => .invalidProtocol
  | .unsupportedVersion => .unsupportedVersion
  | .submessageNotFound => .unsupportedSubmessage
  | .malformedSubmessage | .invalidInfoSubmessage => .invalidSubmessage

namespace SequenceNumberSet

/-- `word_count`. -/
def wordCount (s : SequenceNumberSet) : ℕ := (s.numBits + 31) / 32

/-- `word`. -/
def word (s : SequenceNumberSet) (index : ℕ) : BitVec 32 :=
  if index < s.wordCount then s.bitmap (wrap index) else 0

end SequenceNumberSet

section Build

/-- `write_rtps_header`. -/
def rtpsHeader (header : ReliabilityMessageHeader) : List UInt8 :=
  [0x52, 0x54, 0x50, 0x53, header.version.major, header.version.minor] ++
    (header.vendorId.toList ++ header.guidPrefix.toList)

/-- `write_sequence_number`. -/
def sequenceNumberBytes (order : ByteOrder) (sequenceNumber : ℕ) : List UInt8 :=
  storeInt (order == .littleEndian) 4 (sequenceNumber >>> 32) ++
    storeInt (order == .littleEndian) 4 (sequenceNumber &&& 0xFFFFFFFF)

/-- The flags of a control submessage; an ACKNACK has no liveliness flag. -/
def controlFlags (order : ByteOrder) (finalFlag livelinessFlag : Bool) : UInt8 :=
  (if order == .littleEndian then 0x01 else 0) ||| (if finalFlag then 0x02 else 0) |||
    (if livelinessFlag then 0x04 else 0)

/-- `ReliabilityMessageBuilder::begin`: the checks that both builders make last; the header is
written when they pass. -/
def beginMessage (bufferIsNull : Bool) (capacity : ℕ) (header : ReliabilityMessageHeader)
    (messageSize : ℕ) : Except ReliabilityMessageError (List UInt8) :=
  if bufferIsNull && capacity != 0 then .error .invalidArgument
  else if !supportedVersion header.version then .error .unsupportedVersion
  else if !supportedByteOrder header.submessageByteOrder then .error .invalidArgument
  else if messageSize > capacity then .error .bufferOverflow
  else .ok (rtpsHeader header)

/-- The content of a HEARTBEAT submessage. -/
def heartbeatContent (config : Heartbeat) : List UInt8 :=
  let order := config.header.submessageByteOrder
  config.readerId.toList ++ (config.writerId.toList ++
    (sequenceNumberBytes order config.firstSequenceNumber ++
      (sequenceNumberBytes order config.lastSequenceNumber ++
        storeInt (order == .littleEndian) 4 config.count.toNat)))

/-- `ReliabilityMessageBuilder::build_heartbeat` into a buffer of `capacity` bytes. -/
def buildHeartbeat (bufferIsNull : Bool) (capacity : ℕ) (config : Heartbeat) :
    Except ReliabilityMessageError (List UInt8) :=
  if !validSequenceNumber config.firstSequenceNumber ||
      decide (config.lastSequenceNumber > int64Max) ||
      decide (config.lastSequenceNumber < config.firstSequenceNumber - 1) then
    .error .invalidSequenceNumber
  else match beginMessage bufferIsNull capacity config.header 52 with
    | .error e => .error e
    | .ok header =>
      let order := config.header.submessageByteOrder
      .ok (header ++
        ([submessageIdHeartbeat, controlFlags order config.finalFlag config.livelinessFlag] ++
          (storeInt (order == .littleEndian) 2 28 ++ heartbeatContent config)))

/-- The words of a bitmap, in the order and at the place of the loop of `build_acknack`. -/
def wordBytes (order : ByteOrder) (s : SequenceNumberSet) : List UInt8 :=
  (List.range s.wordCount).flatMap fun index =>
    storeInt (order == .littleEndian) 4 (s.word index).toNat

/-- The content of an ACKNACK submessage. -/
def acknackContent (config : AckNack) : List UInt8 :=
  let order := config.header.submessageByteOrder
  config.readerId.toList ++ (config.writerId.toList ++
    (sequenceNumberBytes order config.readerState.bitmapBase ++
      (storeInt (order == .littleEndian) 4 config.readerState.numBits ++
        (wordBytes order config.readerState ++
          storeInt (order == .littleEndian) 4 config.count.toNat))))

/-- `ReliabilityMessageBuilder::build_acknack` into a buffer of `capacity` bytes. -/
def buildAcknack (bufferIsNull : Bool) (capacity : ℕ) (config : AckNack) :
    Except ReliabilityMessageError (List UInt8) :=
  if !validSequenceNumber config.readerState.bitmapBase then .error .invalidSequenceNumber
  else if config.readerState.numBits > 256 then .error .bitmapBoundExceeded
  else
    let contentSize := 24 + config.readerState.wordCount * 4
    match beginMessage bufferIsNull capacity config.header (20 + 4 + contentSize) with
    | .error e => .error e
    | .ok header =>
      let order := config.header.submessageByteOrder
      .ok (header ++ ([submessageIdAcknack, controlFlags order config.finalFlag false] ++
        (storeInt (order == .littleEndian) 2 contentSize ++ acknackContent config)))

end Build

section Parse

/-- `read_sequence_number`; a high word above `INT32_MAX` is a negative number. -/
def readSequenceNumber (content : List UInt8) (i : ℕ) (order : ByteOrder) (allowZero : Bool) :
    Option ℕ :=
  let high := readAt content i 4 order
  if high ≥ 2 ^ 31 then none
  else
    let candidate := high <<< 32 ||| readAt content (i + 4) 4 order
    if (!allowZero && candidate == 0) || decide (candidate > int64Max) then none
    else some candidate

/-- `ParsedPrefix`. -/
structure ParsedPrefix where
  header : ReliabilityMessageHeader
  byteOrder : ByteOrder
  flags : UInt8
  content : List UInt8

/-- `parse_prefix`. -/
def parsePrefix (message : Span) (expectedSubmessageId : UInt8) :
    Except ReliabilityMessageError ParsedPrefix :=
  if message.isNull && message.size != 0 then .error .invalidArgument
  else match findSubmessage message expectedSubmessageId 0 with
    | .error e => .error (.ofRoute e)
    | .ok routed => .ok
      { header :=
          { version := routed.context.version
            vendorId := routed.context.vendorId
            guidPrefix := routed.context.source
            submessageByteOrder := routed.byteOrder }
        byteOrder := routed.byteOrder
        flags := routed.flags
        content := routed.content }

/-- `parse_heartbeat_message`. -/
def parseHeartbeatMessage (message : Span) : Except ReliabilityMessageError Heartbeat :=
  match parsePrefix message submessageIdHeartbeat with
  | .error e => .error e
  | .ok parsed =>
    let content := parsed.content
    let order := parsed.byteOrder
    if parsed.flags &&& 0x08 ≠ 0 then .error .unsupportedFeature
    else if parsed.flags &&& ~~~(0x01 ||| 0x02 ||| 0x04) ≠ 0 then .error .unsupportedFeature
    else if content.length ≠ 28 then .error .invalidSubmessage
    else match readSequenceNumber content 8 order false with
      | none => .error .invalidSequenceNumber
      | some first => match readSequenceNumber content 16 order true with
        | none => .error .invalidSequenceNumber
        | some last =>
          if last < first - 1 then .error .invalidSequenceNumber
          else .ok
            { header := parsed.header
              readerId := copyAt content 0 4
              writerId := copyAt content 4 4
              firstSequenceNumber := first
              lastSequenceNumber := last
              count := BitVec.ofNat 32 (readAt content 24 4 order)
              finalFlag := parsed.flags &&& 0x02 != 0
              livelinessFlag := parsed.flags &&& 0x04 != 0 }

/-- One word of the bitmap: the loop over its bits, most significant first, which sets those below
`numBits`. -/
def parseWord (numBits wordIndex : ℕ) (word : BitVec 32) (s : SequenceNumberSet) : SequenceNumberSet :=
  (List.range 32).foldl
    (fun s bitIndex =>
      let bitOffset := wordIndex * 32 + bitIndex
      if bitOffset < numBits ∧ word &&& (1#32 <<< (31 - bitIndex)) ≠ 0 then (s.set bitOffset).2
      else s)
    s

/-- The loop over the words of the bitmap, which start at offset 20 of the content. -/
def parseWords (content : List UInt8) (order : ByteOrder) (numBits wordCount : ℕ)
    (s : SequenceNumberSet) : SequenceNumberSet :=
  (List.range wordCount).foldl
    (fun s wordIndex =>
      parseWord numBits wordIndex (BitVec.ofNat 32 (readAt content (20 + wordIndex * 4) 4 order)) s)
    s

/-- `parse_acknack_message`. -/
def parseAcknackMessage (message : Span) : Except ReliabilityMessageError AckNack :=
  match parsePrefix message submessageIdAcknack with
  | .error e => .error e
  | .ok parsed =>
    let content := parsed.content
    let order := parsed.byteOrder
    if parsed.flags &&& ~~~(0x01 ||| 0x02) ≠ 0 then .error .unsupportedFeature
    else if content.length < 24 then .error .invalidSubmessage
    else match readSequenceNumber content 8 order false with
      | none => .error .invalidSequenceNumber
      | some bitmapBase =>
        let numBits := readAt content 16 4 order
        if numBits > 256 then .error .bitmapBoundExceeded
        else
          let wordCount := (numBits + 31) / 32
          if content.length ≠ 24 + wordCount * 4 then .error .invalidSubmessage
          else
            let fresh := SequenceNumberSet.empty.reset bitmapBase numBits
            if !fresh.1 then .error .invalidSequenceNumber
            else .ok
              { header := parsed.header
                readerId := copyAt content 0 4
                writerId := copyAt content 4 4
                readerState := parseWords content order numBits wordCount fresh.2
                count := BitVec.ofNat 32 (readAt content (20 + wordCount * 4) 4 order)
                finalFlag := parsed.flags &&& 0x02 != 0 }

end Parse

section Canonical

/-- A word of a bitmap without the bits at offsets from `numBits` on. -/
def canonicalWord (numBits wordIndex : ℕ) (word : BitVec 32) : BitVec 32 :=
  word &&& (BitVec.allOnes 32 <<< (32 * (wordIndex + 1) - numBits))

/-- The content of an ACKNACK with the stray bits of its bitmap cleared; every other byte stays. -/
def canonicalContent (order : ByteOrder) (content : List UInt8) : List UInt8 :=
  let numBits := readAt content 16 4 order
  let wordCount := (numBits + 31) / 32
  content.take 20 ++
    ((List.range wordCount).flatMap (fun index => storeInt (order == .littleEndian) 4
      (canonicalWord numBits index
        (BitVec.ofNat 32 (readAt content (20 + index * 4) 4 order))).toNat) ++
      content.drop (20 + wordCount * 4))

end Canonical

end OpenRtdds
