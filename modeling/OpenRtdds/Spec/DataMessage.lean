import OpenRtdds.Spec.Router

/-!
# DATA messages

`rtps/data_message.cpp`: the builder and the parser of an RTPS message with one DATA
submessage.
-/

namespace OpenRtdds

open Lib

/-- `rtps::RtpsError` without `none`. -/
inductive RtpsError where
  | invalidArgument
  | bufferOverflow
  | messageTooLarge
  | truncated
  | invalidProtocol
  | unsupportedVersion
  | unsupportedSubmessage
  | unsupportedFeature
  | invalidSubmessage
  | invalidSequenceNumber
  | invalidSerializedPayload
  deriving DecidableEq

/-- `route_error` of `data_message.cpp`. -/
def RtpsError.ofRoute : MessageRouteError → RtpsError
  | .invalidArgument => .invalidArgument
  | .truncated => .truncated
  | .invalidProtocol => .invalidProtocol
  | .unsupportedVersion => .unsupportedVersion
  | .submessageNotFound => .unsupportedSubmessage
  | .malformedSubmessage | .invalidInfoSubmessage => .invalidSubmessage

/-- `rtps::DataMessageConfig`. -/
structure DataMessageConfig where
  version : ProtocolVersion := {}
  vendorId : VendorId := .replicate 2 0
  guidPrefix : GuidPrefix := .replicate 12 0
  readerId : EntityId := .replicate 4 0
  writerId : EntityId := .replicate 4 0
  sequenceNumber : ℕ := 1
  submessageByteOrder : ByteOrder := .littleEndian

/-- `supported_serialized_payload`: one of the four CDR encapsulations. -/
def supportedSerializedPayload (payload : Span) : Bool :=
  !payload.isNull && decide (payload.size ≥ 4) && byteAt payload.data 0 == 0 &&
    decide (byteAt payload.data 1 ≤ 3)

def supportedByteOrder (order : ByteOrder) : Bool := order == .bigEndian || order == .littleEndian

/-- The bytes `DataMessageBuilder::build` writes when every check has passed. -/
def dataMessageBytes (config : DataMessageConfig) (payload : List UInt8) : List UInt8 :=
  let little := config.submessageByteOrder == .littleEndian
  [0x52, 0x54, 0x50, 0x53, config.version.major, config.version.minor] ++
    config.vendorId.toList ++ config.guidPrefix.toList ++
    [submessageIdData, if little then 0x05 else 0x04] ++
    storeInt little 2 (20 + payload.length) ++ storeInt little 2 0 ++ storeInt little 2 16 ++
    config.readerId.toList ++ config.writerId.toList ++
    storeInt little 4 (config.sequenceNumber >>> 32) ++
    storeInt little 4 (config.sequenceNumber &&& 0xFFFFFFFF) ++ payload

/-- `DataMessageBuilder::build` into a buffer of `capacity` bytes. -/
def buildDataMessage (bufferIsNull : Bool) (capacity : ℕ) (config : DataMessageConfig)
    (serializedPayload : Span) : Except RtpsError (List UInt8) :=
  if bufferIsNull && capacity != 0 then .error .invalidArgument
  else if !supportedVersion config.version then .error .unsupportedVersion
  else if !supportedByteOrder config.submessageByteOrder then .error .invalidArgument
  else if config.sequenceNumber = 0 ∨ config.sequenceNumber > int64Max then
    .error .invalidSequenceNumber
  else if !supportedSerializedPayload serializedPayload then .error .invalidSerializedPayload
  else if 44 + serializedPayload.size > 65507 then .error .messageTooLarge
  else if 44 + serializedPayload.size > capacity then .error .bufferOverflow
  else if 20 + serializedPayload.size > 65535 then .error .messageTooLarge
  else .ok (dataMessageBytes config serializedPayload.data)

/-- A builder of messages: the buffer that the caller handed over (its size is `capacity_`), the size
of the built message and the error. A null buffer with a size is an invalid argument. -/
structure MessageBuilder {ε : Type} (invalidArgument : ε) where
  buffer : Span
  size : ℕ := 0
  error : Option ε := if buffer.isNull && buffer.size != 0 then some invalidArgument else none

namespace MessageBuilder

variable {ε : Type} {invalidArgument : ε}

/-- How `build` ends; the bytes behind the message stay. -/
def finish (b : MessageBuilder invalidArgument) :
    Except ε (List UInt8) → Bool × MessageBuilder invalidArgument
  | .error e => (false, { b with size := 0, error := some e })
  | .ok m =>
    (true, { buffer := .bytes (m ++ b.buffer.data.drop m.length), size := m.length, error := none })

/-- The `size()` bytes at `data()`. -/
def message (b : MessageBuilder invalidArgument) : List UInt8 := b.buffer.data.take b.size

end MessageBuilder

/-- `rtps::DataMessageBuilder`. -/
abbrev DataMessageBuilder := MessageBuilder RtpsError.invalidArgument

/-- `DataMessageBuilder::build`. -/
def DataMessageBuilder.build (b : DataMessageBuilder) (config : DataMessageConfig)
    (serializedPayload : Span) : Bool × DataMessageBuilder :=
  b.finish (buildDataMessage b.buffer.isNull b.buffer.size config serializedPayload)

/-- `rtps::DataMessageView`; the payload is the bytes its pointer and size delimit. -/
structure DataMessageView where
  context : RouteContext
  readerId : EntityId
  writerId : EntityId
  sequenceNumber : ℕ
  submessageByteOrder : ByteOrder
  payload : List UInt8

namespace DataMessageView

/-- `guid_prefix`: the participant of the writer. -/
abbrev guidPrefix (v : DataMessageView) : GuidPrefix := v.context.source

end DataMessageView

/-- `parse_data_message`. -/
def parseDataMessage (message : Span) : Except RtpsError DataMessageView :=
  match findSubmessage message submessageIdData 0 with
  | .error e => .error (.ofRoute e)
  | .ok routed =>
    let order := routed.byteOrder
    let content := routed.content
    if routed.flags &&& 0x04 = 0 then .error .invalidSubmessage
    else if routed.flags &&& (0x02 ||| 0x08 ||| 0x10) ≠ 0 then .error .unsupportedFeature
    else if content.length < 24 then .error .invalidSubmessage
    else if readAt content 0 2 order ≠ 0 then .error .unsupportedFeature
    else
      let inlineQosOffset := readAt content 2 2 order
      if inlineQosOffset < 16 then .error .invalidSubmessage
      else
        let payloadOffset := 4 + inlineQosOffset
        if payloadOffset > content.length ∨ content.length - payloadOffset < 4 then
          .error .invalidSubmessage
        else
          let sequenceHigh := readAt content 12 4 order
          let sequenceNumber := sequenceHigh <<< 32 ||| readAt content 16 4 order
          -- a high word above `INT32_MAX` is a negative number
          if sequenceHigh ≥ 2 ^ 31 then .error .invalidSequenceNumber
          else if sequenceNumber = 0 then .error .invalidSequenceNumber
          else
            let payload := content.drop payloadOffset
            if !supportedSerializedPayload (.bytes payload) then .error .invalidSerializedPayload
            else .ok
              { context := routed.context
                readerId := copyAt content 4 4
                writerId := copyAt content 8 4
                sequenceNumber
                submessageByteOrder := order
                payload }

end OpenRtdds
