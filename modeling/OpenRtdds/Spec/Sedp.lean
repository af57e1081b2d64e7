import OpenRtdds.Spec.Parameters

/-!
# SEDP messages

`rtps/sedp.cpp`: the builder and the parser of an endpoint announcement, and the match of a local
endpoint with an announced one.
-/

namespace OpenRtdds

open Lib Guarded Raw

/-- `rtps::EndpointKind`. -/
inductive EndpointKind where
  | writer
  | reader
  deriving DecidableEq

/-- `rtps::ReliabilityKind`: an enumeration over an `int32_t`, which may hold other values. -/
inductive ReliabilityKind where
  | bestEffort
  | reliable
  | other (bits : BitVec 32)
  deriving DecidableEq

/-- `rtps::DurabilityKind`: an enumeration over an `int32_t`, which may hold other values. -/
inductive DurabilityKind where
  | volatileDurability
  | transientLocal
  | other (bits : BitVec 32)
  deriving DecidableEq

/-- The `int32_t` of a kind. -/
def ReliabilityKind.bits : ReliabilityKind → BitVec 32
  | .bestEffort => 1
  | .reliable => 2
  | .other bits => bits

def DurabilityKind.bits : DurabilityKind → BitVec 32
  | .volatileDurability => 0
  | .transientLocal => 1
  | .other bits => bits

/-- `valid_reliability`. -/
def validReliability (kind : ReliabilityKind) : Bool := kind == .bestEffort || kind == .reliable

/-- `valid_durability`. -/
def validDurability (kind : DurabilityKind) : Bool :=
  kind == .volatileDurability || kind == .transientLocal

/-- `valid_reliability` of the bits of an `int32_t`. -/
def ReliabilityKind.ofBits (bits : ℕ) : Option ReliabilityKind :=
  if bits = 1 then some .bestEffort else if bits = 2 then some .reliable else none

/-- `valid_durability` of the bits of an `int32_t`. -/
def DurabilityKind.ofBits (bits : ℕ) : Option DurabilityKind :=
  if bits = 0 then some .volatileDurability else if bits = 1 then some .transientLocal else none

/-- `rtps::SedpError` without `none`; the error of the DATA parser is the one `SedpResult` carries. -/
inductive SedpError where
  | invalidArgument
  | invalidConfiguration
  | bufferOverflow
  | rtpsError (error : RtpsError)
  | unsupportedRepresentation
  | malformedParameter
  | unknownRequiredParameter
  | missingRequiredParameter
  | duplicateParameter
  | locatorBoundExceeded
  | invalidLocator
  | invalidDuration
  | invalidIdentity
  | participantMismatch
  | tableFull
  | staleAnnouncement
  | endpointNotFound
  | actionCapacityExceeded
  deriving DecidableEq

/-- `rtps::SedpEndpointData`. -/
structure SedpEndpointData where
  protocolVersion : ProtocolVersion := {}
  vendorId : VendorId := .replicate 2 0
  participantGuidPrefix : GuidPrefix := .replicate 12 0
  endpointId : EntityId := .replicate 4 0
  kind : EndpointKind := .writer
  topicName : Vector UInt8 256 := .replicate 256 0
  topicNameSize : ℕ := 0
  typeName : Vector UInt8 256 := .replicate 256 0
  typeNameSize : ℕ := 0
  unicastLocators : BoundedLocatorList 4 := {}
  multicastLocators : BoundedLocatorList 4 := {}
  reliability : ReliabilityKind := .bestEffort
  durability : DurabilityKind := .volatileDurability
  maxBlockingTimeNs : ℕ := 100000000
  expectsInlineQos : Bool := false

/-- `rtps::SedpMessageView`. -/
structure SedpMessageView where
  endpoint : SedpEndpointData
  sequenceNumber : ℕ
  submessageByteOrder : ByteOrder
  parameterByteOrder : ByteOrder

namespace Sedp

def pidTopicName : ℕ := 0x0005
def pidTypeName : ℕ := 0x0007
def pidReliability : ℕ := 0x001A
def pidDurability : ℕ := 0x001D
def pidUnicastLocator : ℕ := 0x002F
def pidMulticastLocator : ℕ := 0x0030
def pidEndpointGuid : ℕ := 0x005A

def entityIdPublicationsWriter : EntityId := #v[0, 0, 3, 0xC2]
def entityIdPublicationsReader : EntityId := #v[0, 0, 3, 0xC7]
def entityIdSubscriptionsWriter : EntityId := #v[0, 0, 4, 0xC2]
def entityIdSubscriptionsReader : EntityId := #v[0, 0, 4, 0xC7]

/-- `valid_endpoint_id`. -/
def validEndpointId (id : EntityId) (kind : EndpointKind) : Bool :=
  let entityKind := byteAt id.toList 3
  (byteAt id.toList 0 ||| byteAt id.toList 1 ||| byteAt id.toList 2) != 0 &&
    if kind = .writer then entityKind == 0x02 || entityKind == 0x03
    else entityKind == 0x04 || entityKind == 0x07

/-- The kind of the announced endpoint and the reader of its announcements. -/
def announcedKind (writerId : EntityId) : Option (EndpointKind × EntityId) :=
  if writerId = entityIdPublicationsWriter then some (.writer, entityIdPublicationsReader)
  else if writerId = entityIdSubscriptionsWriter then some (.reader, entityIdSubscriptionsReader)
  else none

/-- The endpoint that the loop fills in, and the parameters it has seen. -/
structure Candidate where
  endpoint : SedpEndpointData
  seenEndpoint : Bool := false
  seenParticipant : Bool := false
  seenLocator : Bool := false
  seenTopic : Bool := false
  seenType : Bool := false
  seenReliability : Bool := false
  seenDurability : Bool := false
  seenInline : Bool := false

/-- A parameter that may occur once and has a fixed length. -/
def single (seen : Bool) (length size : ℕ) : Guarded SedpError Unit :=
  singleParameter .duplicateParameter .malformedParameter seen length size

/-- `append_parsed_locator`. -/
def appendParsedLocator (m : List UInt8) (value length : ℕ) (order : ByteOrder)
    (output : BoundedLocatorList 4) : Guarded SedpError (BoundedLocatorList 4) :=
  parseLocator .malformedParameter .invalidLocator .locatorBoundExceeded m value length order output

/-- `parse_duration`; seconds above `INT32_MAX` are negative. -/
def parseDuration (m : List UInt8) (value : ℕ) (order : ByteOrder) : Guarded SedpError ℕ := do
  let seconds ← readWord m value 4 order
  require (seconds < 2 ^ 31) .invalidDuration
  let fraction ← readWord m (value + 4) 4 order
  pure (durationNs seconds fraction)

/-- `parse_string`: the text and its size without the final zero. -/
def parseString {capacity : ℕ} (m : List UInt8) (value length : ℕ) (order : ByteOrder)
    (output : Vector UInt8 capacity) : Guarded SedpError (Vector UInt8 capacity × ℕ) := do
  require (8 ≤ length) .malformedParameter
  let encodedSize ← readWord m value 4 order
  require (1 < encodedSize) .malformedParameter
  let room ← sizeSub length 4
  require (encodedSize ≤ room) .malformedParameter
  require (encodedSize ≤ capacity) .malformedParameter
  let lastIndex ← sizeSub (4 + encodedSize) 1
  let last ← load m (value + lastIndex)
  require (last = 0) .malformedParameter
  let outputSize ← sizeSub encodedSize 1
  let text ← bytesAt m (value + 4) outputSize
  require (text.contains 0 = false) .malformedParameter
  let output ← fill output text
  pure (output, outputSize)

/-- The switch over the id of a parameter. -/
def parameter (m : List UInt8) (order : ByteOrder) (expectedParticipant : GuidPrefix)
    (id length value : ℕ) (c : Candidate) : Guarded SedpError Candidate :=
  let e := c.endpoint
  if id = 0 then pure c
  else if id = pidEndpointGuid then do
    single c.seenEndpoint length 16
    let guidPrefix ← copyBytes m value 12
    require (guidPrefix = expectedParticipant) .participantMismatch
    let endpointId ← copyBytes m (value + 12) 4
    pure { c with endpoint := { e with endpointId }, seenEndpoint := true }
  else if id = pidParticipantGuid then do
    single c.seenParticipant length 16
    let guidPrefix ← copyBytes m value 12
    require (guidPrefix = expectedParticipant) .participantMismatch
    let entity ← copyBytes m (value + 12) 4
    require (entity = entityIdParticipant) .participantMismatch
    pure { c with seenParticipant := true }
  else if id = pidTopicName then do
    require (c.seenTopic = false) .duplicateParameter
    let (topicName, topicNameSize) ← parseString m value length order e.topicName
    pure { c with endpoint := { e with topicName, topicNameSize }, seenTopic := true }
  else if id = pidTypeName then do
    require (c.seenType = false) .duplicateParameter
    let (typeName, typeNameSize) ← parseString m value length order e.typeName
    pure { c with endpoint := { e with typeName, typeNameSize }, seenType := true }
  else if id = pidReliability then do
    single c.seenReliability length 12
    let bits ← readWord m value 4 order
    match ReliabilityKind.ofBits bits with
    | none => .error .malformedParameter
    | some reliability => do
      let maxBlockingTimeNs ← parseDuration m (value + 4) order
      pure { c with endpoint := { e with reliability, maxBlockingTimeNs }, seenReliability := true }
  else if id = pidDurability then do
    single c.seenDurability length 4
    let bits ← readWord m value 4 order
    match DurabilityKind.ofBits bits with
    | none => .error .malformedParameter
    | some durability => pure { c with endpoint := { e with durability }, seenDurability := true }
  else if id = pidExpectsInlineQos then do
    single c.seenInline length 4
    let flag ← load m value
    require (flag ≤ 1) .malformedParameter
    pure { c with endpoint := { e with expectsInlineQos := flag != 0 }, seenInline := true }
  else if id = pidUnicastLocator then do
    let list ← appendParsedLocator m value length order e.unicastLocators
    pure { c with endpoint := { e with unicastLocators := list }, seenLocator := true }
  else if id = pidMulticastLocator then do
    let list ← appendParsedLocator m value length order e.multicastLocators
    pure { c with endpoint := { e with multicastLocators := list }, seenLocator := true }
  else do
    require (id &&& mustUnderstandMask = 0) .unknownRequiredParameter
    pure c

end Sedp

open Sedp in
/-- `parse_sedp_message`; with the view it returns the number of bytes of the result. -/
def parseSedpMessage (message : Span) (expectedParticipant : GuidPrefix) :
    Guarded SedpError (SedpMessageView × ℕ) := do
  let m := message.data
  let data ← (Raw.parseDataMessage message).mapError .rtpsError
  match announcedKind data.writerId with
  | none => .error .invalidIdentity
  | some (kind, expectedReader) => do
    require (data.readerId = entityIdUnknown ∨ data.readerId = expectedReader) .invalidIdentity
    require (data.context.source = expectedParticipant) .participantMismatch
    let order ← parameterByteOrder .unsupportedRepresentation m data.serializedPayload
      data.payloadSize
    let c ← parseParameters .malformedParameter m data.serializedPayload data.payloadSize order
      (parameter m order expectedParticipant)
      { endpoint :=
        { protocolVersion := data.context.version
          vendorId := data.context.vendorId
          participantGuidPrefix := expectedParticipant
          kind } }
    let e := c.endpoint
    require (c.seenEndpoint ∧ c.seenTopic ∧ c.seenType ∧
      ¬ (c.seenLocator ∧ e.unicastLocators.size + e.multicastLocators.size = 0))
      .missingRequiredParameter
    require (validEndpointId e.endpointId kind) .invalidIdentity
    pure (
      { endpoint := e
        sequenceNumber := data.sequenceNumber
        submessageByteOrder := data.submessageByteOrder
        parameterByteOrder := order }, message.size)

/-- `rtps::SedpAnnouncementConfig`. -/
structure SedpAnnouncementConfig where
  endpoint : SedpEndpointData := {}
  readerId : EntityId := .replicate 4 0
  sequenceNumber : ℕ := 1
  submessageByteOrder : ByteOrder := .littleEndian
  parameterByteOrder : ByteOrder := .littleEndian

namespace Sedp

/-- `payload_capacity`. -/
def payloadCapacity : ℕ := 1280

/-- `valid_text`. -/
def validText {capacity : ℕ} (text : Vector UInt8 capacity) (size : ℕ) : Bool :=
  !(size == 0 || decide (size ≥ capacity)) && !(text.toList.take size).contains 0

/-- The reader of the announcements of endpoints of a kind. -/
def expectedReader : EndpointKind → EntityId
  | .writer => entityIdPublicationsReader
  | .reader => entityIdSubscriptionsReader

/-- The writer of the announcements of endpoints of a kind. -/
def announcementWriter : EndpointKind → EntityId
  | .writer => entityIdPublicationsWriter
  | .reader => entityIdSubscriptionsWriter

/-- The configuration checks of `SedpMessageBuilder::build`; the sum of two sizes is a `size_t`. -/
def validConfiguration (config : SedpAnnouncementConfig) : Bool :=
  let e := config.endpoint
  supportedVersion e.protocolVersion && nonzeroPrefix e.participantGuidPrefix &&
    validEndpointId e.endpointId e.kind && validText e.topicName e.topicNameSize &&
    validText e.typeName e.typeNameSize && validReliability e.reliability &&
    validDurability e.durability &&
    (config.readerId == entityIdUnknown || config.readerId == expectedReader e.kind) &&
    (e.unicastLocators.size + e.multicastLocators.size) % 2 ^ 64 != 0

/-- `append_duration`, which refuses more seconds than an `int32_t` holds. -/
def appendDuration (w : ParameterWriter) (durationNs : ℕ) : Option (List UInt8) :=
  if durationNs / nanosecondsPerSecond > int32Max then none else some (w.duration durationNs)

/-- `append_guid`. -/
def appendGuid (w : ParameterWriter) (id : ℕ) (guidPrefix : GuidPrefix) (entity : EntityId) :
    Option ParameterWriter :=
  w.append id (guidPrefix.toList ++ entity.toList)

/-- The parameters that `SedpMessageBuilder::build` writes. A duration out of range ends the chain in
the way of a full buffer. -/
def writeParameters (e : SedpEndpointData) (order : ByteOrder) : Option ParameterWriter := do
  let w := ParameterWriter.start payloadCapacity order
  let w ← appendGuid w pidEndpointGuid e.participantGuidPrefix e.endpointId
  let w ← appendGuid w pidParticipantGuid e.participantGuidPrefix entityIdParticipant
  let w ← w.append pidTopicName (w.text e.topicName e.topicNameSize)
  let w ← w.append pidTypeName (w.text e.typeName e.typeNameSize)
  let duration ← appendDuration w e.maxBlockingTimeNs
  let w ← w.append pidReliability (w.word 4 e.reliability.bits.toNat ++ duration)
  let w ← w.append pidDurability (w.word 4 e.durability.bits.toNat)
  let w ← w.append pidExpectsInlineQos [if e.expectsInlineQos then 1 else 0]
  let w ← w.appendList pidUnicastLocator e.unicastLocators
  let w ← w.appendList pidMulticastLocator e.multicastLocators
  w.finish

/-- The DATA message of an announcement. -/
def dataConfig (config : SedpAnnouncementConfig) : DataMessageConfig where
  version := config.endpoint.protocolVersion
  vendorId := config.endpoint.vendorId
  guidPrefix := config.endpoint.participantGuidPrefix
  readerId := config.readerId
  writerId := announcementWriter config.endpoint.kind
  sequenceNumber := config.sequenceNumber
  submessageByteOrder := config.submessageByteOrder

end Sedp

open Sedp in
/-- `SedpMessageBuilder::build` into a buffer of `capacity` bytes. -/
def buildSedpMessage (bufferIsNull : Bool) (capacity : ℕ) (config : SedpAnnouncementConfig) :
    Except SedpError (List UInt8) :=
  let e := config.endpoint
  if bufferIsNull && capacity != 0 || !supportedByteOrder config.submessageByteOrder ||
      !supportedByteOrder config.parameterByteOrder then .error .invalidArgument
  else if !validConfiguration config then .error .invalidConfiguration
  else if !validLocators e.unicastLocators || !validLocators e.multicastLocators then
    .error .invalidLocator
  else match writeParameters e config.parameterByteOrder with
    | none => .error .bufferOverflow
    | some w =>
      match buildDataMessage bufferIsNull capacity (dataConfig config) (.bytes w.bytes) with
      | .error e => .error (.rtpsError e)
      | .ok m => .ok m

/-- `rtps::SedpMessageBuilder`. -/
abbrev SedpMessageBuilder := MessageBuilder SedpError.invalidArgument

/-- `SedpMessageBuilder::build`. -/
def SedpMessageBuilder.build (b : SedpMessageBuilder) (config : SedpAnnouncementConfig) :
    Bool × SedpMessageBuilder :=
  b.finish (buildSedpMessage b.buffer.isNull b.buffer.size config)

section Match

/-- `rtps::LocalEndpointDescriptor`; a name is a pointer with a size. -/
structure LocalEndpointDescriptor where
  kind : EndpointKind := .writer
  topicName : Span := .null 0
  typeName : Span := .null 0
  reliability : ReliabilityKind := .bestEffort
  durability : DurabilityKind := .volatileDurability

/-- `rtps::MatchStatus`. -/
inductive MatchStatus where
  | matched
  | invalidLocalEndpoint
  | sameEndpointKind
  | topicMismatch
  | typeMismatch
  | reliabilityIncompatible
  | durabilityIncompatible
  deriving DecidableEq

/-- `same_text` of a text and the first `rightSize` characters of an array. -/
def sameText {capacity : ℕ} (left : Span) (right : Vector UInt8 capacity) (rightSize : ℕ) : Bool :=
  left.size == rightSize && left.data == right.toList.take rightSize

/-- `evaluate_endpoint_match`. -/
def evaluateEndpointMatch (l : LocalEndpointDescriptor) (remote : SedpEndpointData) : MatchStatus :=
  if l.topicName.isNull || l.typeName.isNull || l.topicName.size == 0 ||
      decide (l.topicName.size > 255) || l.typeName.size == 0 || decide (l.typeName.size > 255) ||
      !validReliability l.reliability || !validDurability l.durability then .invalidLocalEndpoint
  else if l.kind = remote.kind then .sameEndpointKind
  else if !sameText l.topicName remote.topicName remote.topicNameSize then .topicMismatch
  else if !sameText l.typeName remote.typeName remote.typeNameSize then .typeMismatch
  else
    let offeredReliability := if l.kind = .writer then l.reliability else remote.reliability
    let requestedReliability := if l.kind = .reader then l.reliability else remote.reliability
    if offeredReliability.bits.toInt < requestedReliability.bits.toInt then .reliabilityIncompatible
    else
      let offeredDurability := if l.kind = .writer then l.durability else remote.durability
      let requestedDurability := if l.kind = .reader then l.durability else remote.durability
      if offeredDurability.bits.toInt < requestedDurability.bits.toInt then .durabilityIncompatible
      else .matched

end Match

end OpenRtdds
