import OpenRtdds.Spec.Parameters

/-!
# SPDP messages

`rtps/spdp.cpp`: the builder and the parser of a participant announcement, and the ports of a participant.
-/

namespace OpenRtdds

open Lib Guarded Raw

/-- `rtps::SpdpError` without `none`; the error of the DATA parser is the one `SpdpResult` carries. -/
inductive SpdpError where
  | invalidArgument
  | invalidConfiguration
  | bufferOverflow
  | rtpsError (error : RtpsError)
  | unsupportedRepresentation
  | malformedParameter
  | unknownRequiredParameter
  | missingRequiredParameter
  | duplicateParameter
  | locatorBoundExceeded
  | invalidLocator
  | invalidDuration
  | invalidIdentity
  | domainMismatch
  | selfAnnouncement
  | tableFull
  | staleAnnouncement
  | timeRegression
  | expirationOverflow
  | actionCapacityExceeded
  deriving DecidableEq

/-- `rtps::SpdpParticipantData`. -/
structure SpdpParticipantData where
  protocolVersion : ProtocolVersion := {}
  vendorId : VendorId := .replicate 2 0
  guidPrefix : GuidPrefix := .replicate 12 0
  domainId : ℕ := 0
  expectsInlineQos : Bool := false
  metatrafficUnicast : BoundedLocatorList 4 := {}
  metatrafficMulticast : BoundedLocatorList 4 := {}
  defaultUnicast : BoundedLocatorList 4 := {}
  defaultMulticast : BoundedLocatorList 4 := {}
  /-- The announcer and the detector of participants. -/
  availableBuiltinEndpoints : ℕ := 3
  leaseDurationNs : ℕ := 100000000000
  entityName : Vector UInt8 64 := .replicate 64 0
  entityNameSize : ℕ := 0

/-- `rtps::SpdpMessageView`. -/
structure SpdpMessageView where
  participant : SpdpParticipantData
  sequenceNumber : ℕ
  submessageByteOrder : ByteOrder
  parameterByteOrder : ByteOrder

namespace Spdp

def pidParticipantLeaseDuration : ℕ := 0x0002
def pidDomainId : ℕ := 0x000F
def pidProtocolVersion : ℕ := 0x0015
def pidVendorId : ℕ := 0x0016
def pidDefaultUnicastLocator : ℕ := 0x0031
def pidMetatrafficUnicastLocator : ℕ := 0x0032
def pidMetatrafficMulticastLocator : ℕ := 0x0033
def pidDefaultMulticastLocator : ℕ := 0x0048
def pidBuiltinEndpointSet : ℕ := 0x0058
def pidEntityName : ℕ := 0x0062

def entityIdSpdpWriter : EntityId := #v[0, 1, 0, 0xC2]

def entityIdSpdpReader : EntityId := #v[0, 1, 0, 0xC7]

/-- The participant that the loop fills in, and the parameters it has seen. -/
structure Candidate where
  participant : SpdpParticipantData
  seenProtocol : Bool := false
  seenVendor : Bool := false
  seenGuid : Bool := false
  seenDomain : Bool := false
  seenInline : Bool := false
  seenEndpoints : Bool := false
  seenLease : Bool := false
  seenName : Bool := false

/-- A parameter that may occur once and has a fixed length. -/
def single (seen : Bool) (length size : ℕ) : Guarded SpdpError Unit :=
  singleParameter .duplicateParameter .malformedParameter seen length size

/-- `append_parsed_locator`. -/
def appendParsedLocator (m : List UInt8) (value length : ℕ) (order : ByteOrder)
    (output : BoundedLocatorList 4) : Guarded SpdpError (BoundedLocatorList 4) :=
  parseLocator .malformedParameter .invalidLocator .locatorBoundExceeded m value length order output

/-- The lease of `pid_participant_lease_duration`; seconds above `INT32_MAX` are negative. -/
def parseLease (m : List UInt8) (value : ℕ) (order : ByteOrder) : Guarded SpdpError ℕ := do
  let seconds ← readWord m value 4 order
  require (seconds < 2 ^ 31) .invalidDuration
  let fraction ← readWord m (value + 4) 4 order
  let lease := durationNs seconds fraction
  require (lease ≠ 0) .invalidDuration
  pure lease

/-- The text of `pid_entity_name` and its size without the final zero. -/
def parseName (m : List UInt8) (value length : ℕ) (order : ByteOrder) (name : Vector UInt8 64) :
    Guarded SpdpError (Vector UInt8 64 × ℕ) := do
  require (8 ≤ length) .malformedParameter
  let stringSize ← readWord m value 4 order
  require (stringSize ≠ 0) .malformedParameter
  let room ← sizeSub length 4
  require (stringSize ≤ room) .malformedParameter
  require (stringSize ≤ 64) .malformedParameter
  let lastIndex ← sizeSub (4 + stringSize) 1
  let last ← load m (value + lastIndex)
  require (last = 0) .malformedParameter
  let nameSize ← sizeSub stringSize 1
  let text ← bytesAt m (value + 4) nameSize
  let name ← fill name text
  pure (name, nameSize)

/-- The switch over the id of a parameter. -/
def parameter (m : List UInt8) (order : ByteOrder) (id length value : ℕ) (c : Candidate) :
    Guarded SpdpError Candidate :=
  let p := c.participant
  if id = 0 then pure c
  else if id = pidProtocolVersion then do
    single c.seenProtocol length 4
    let major ← load m value
    let minor ← load m (value + 1)
    pure { c with participant := { p with protocolVersion := ⟨major, minor⟩ }, seenProtocol := true }
  else if id = pidVendorId then do
    single c.seenVendor length 4
    let vendorId ← copyBytes m value 2
    pure { c with participant := { p with vendorId }, seenVendor := true }
  else if id = pidDomainId then do
    single c.seenDomain length 4
    let domainId ← readWord m value 4 order
    pure { c with participant := { p with domainId }, seenDomain := true }
  else if id = pidParticipantGuid then do
    single c.seenGuid length 16
    let guidPrefix ← copyBytes m value 12
    let entity ← bytesAt m (value + 12) 4
    require (entity = entityIdParticipant.toList) .invalidIdentity
    pure { c with participant := { p with guidPrefix }, seenGuid := true }
  else if id = pidExpectsInlineQos then do
    single c.seenInline length 4
    let flag ← load m value
    require (flag ≤ 1) .malformedParameter
    pure { c with participant := { p with expectsInlineQos := flag != 0 }, seenInline := true }
  else if id = pidBuiltinEndpointSet then do
    single c.seenEndpoints length 4
    let endpoints ← readWord m value 4 order
    pure { c with participant := { p with availableBuiltinEndpoints := endpoints }, seenEndpoints := true }
  else if id = pidParticipantLeaseDuration then do
    single c.seenLease length 8
    let lease ← parseLease m value order
    pure { c with participant := { p with leaseDurationNs := lease }, seenLease := true }
  else if id = pidMetatrafficUnicastLocator then do
    let list ← appendParsedLocator m value length order p.metatrafficUnicast
    pure { c with participant := { p with metatrafficUnicast := list } }
  else if id = pidMetatrafficMulticastLocator then do
    let list ← appendParsedLocator m value length order p.metatrafficMulticast
    pure { c with participant := { p with metatrafficMulticast := list } }
  else if id = pidDefaultUnicastLocator then do
    let list ← appendParsedLocator m value length order p.defaultUnicast
    pure { c with participant := { p with defaultUnicast := list } }
  else if id = pidDefaultMulticastLocator then do
    let list ← appendParsedLocator m value length order p.defaultMulticast
    pure { c with participant := { p with defaultMulticast := list } }
  else if id = pidEntityName then do
    require (c.seenName = false) .duplicateParameter
    let (entityName, entityNameSize) ← parseName m value length order p.entityName
    pure { c with participant := { p with entityName, entityNameSize }, seenName := true }
  else do
    require (id &&& mustUnderstandMask = 0) .unknownRequiredParameter
    pure c

end Spdp

open Spdp in
/-- `parse_spdp_message`; with the view it returns the number of bytes of the result. -/
def parseSpdpMessage (message : Span) (expectedDomainId : ℕ) :
    Guarded SpdpError (SpdpMessageView × ℕ) := do
  let m := message.data
  let data ← (Raw.parseDataMessage message).mapError .rtpsError
  require (data.writerId = entityIdSpdpWriter ∧
    (data.readerId = entityIdUnknown ∨ data.readerId = entityIdSpdpReader)) .invalidIdentity
  let order ← parameterByteOrder .unsupportedRepresentation m data.serializedPayload data.payloadSize
  let c ← parseParameters .malformedParameter m data.serializedPayload data.payloadSize order
    (parameter m order) { participant := { domainId := expectedDomainId } }
  let p := c.participant
  require (c.seenProtocol ∧ c.seenVendor ∧ c.seenGuid ∧ c.seenEndpoints ∧ p.defaultUnicast.size ≠ 0 ∧
    p.metatrafficUnicast.size + p.metatrafficMulticast.size ≠ 0) .missingRequiredParameter
  require (supportedVersion p.protocolVersion ∧ nonzeroPrefix p.guidPrefix ∧
    p.guidPrefix = data.context.source ∧ p.protocolVersion = data.context.version ∧
    p.vendorId = data.context.vendorId) .invalidIdentity
  require (p.domainId = expectedDomainId) .domainMismatch
  pure (
    { participant := p
      sequenceNumber := data.sequenceNumber
      submessageByteOrder := data.submessageByteOrder
      parameterByteOrder := order }, message.size)

/-- `rtps::SpdpAnnouncementConfig`. -/
structure SpdpAnnouncementConfig where
  participant : SpdpParticipantData := {}
  sequenceNumber : ℕ := 1
  submessageByteOrder : ByteOrder := .littleEndian
  parameterByteOrder : ByteOrder := .littleEndian

namespace Spdp

/-- `payload_capacity`. -/
def payloadCapacity : ℕ := 768

/-- `spdp_endpoint_participant_announcer | spdp_endpoint_participant_detector`. -/
def requiredEndpoints : ℕ := 3

/-- The configuration checks of `SpdpMessageBuilder::build`; the sum of two sizes is a `size_t`. -/
def validConfiguration (p : SpdpParticipantData) : Bool :=
  supportedVersion p.protocolVersion && nonzeroPrefix p.guidPrefix &&
    decide (p.entityNameSize ≤ 63) && decide (2 ≤ p.leaseDurationNs) &&
    (p.availableBuiltinEndpoints &&& requiredEndpoints) == requiredEndpoints &&
    p.defaultUnicast.size != 0 &&
    (p.metatrafficUnicast.size + p.metatrafficMulticast.size) % 2 ^ 64 != 0

/-- The parameters that `SpdpMessageBuilder::build` writes. -/
def writeParameters (p : SpdpParticipantData) (order : ByteOrder) : Option ParameterWriter := do
  let w := ParameterWriter.start payloadCapacity order
  let w ← w.append pidProtocolVersion [p.protocolVersion.major, p.protocolVersion.minor]
  let w ← w.append pidVendorId p.vendorId.toList
  let w ← w.append pidDomainId (w.word 4 p.domainId)
  let w ← w.append pidParticipantGuid (p.guidPrefix.toList ++ entityIdParticipant.toList)
  let w ← w.append pidExpectsInlineQos [if p.expectsInlineQos then 1 else 0]
  let w ← w.append pidBuiltinEndpointSet (w.word 4 p.availableBuiltinEndpoints)
  let w ← w.append pidParticipantLeaseDuration (w.duration p.leaseDurationNs)
  let w ← w.appendList pidMetatrafficUnicastLocator p.metatrafficUnicast
  let w ← w.appendList pidMetatrafficMulticastLocator p.metatrafficMulticast
  let w ← w.appendList pidDefaultUnicastLocator p.defaultUnicast
  let w ← w.appendList pidDefaultMulticastLocator p.defaultMulticast
  let w ← if p.entityNameSize ≠ 0 then w.append pidEntityName (w.text p.entityName p.entityNameSize)
    else some w
  w.finish

/-- The DATA message of an announcement. -/
def dataConfig (config : SpdpAnnouncementConfig) : DataMessageConfig where
  version := config.participant.protocolVersion
  vendorId := config.participant.vendorId
  guidPrefix := config.participant.guidPrefix
  readerId := entityIdUnknown
  writerId := entityIdSpdpWriter
  sequenceNumber := config.sequenceNumber
  submessageByteOrder := config.submessageByteOrder

end Spdp

open Spdp in
/-- `SpdpMessageBuilder::build` into a buffer of `capacity` bytes. -/
def buildSpdpMessage (bufferIsNull : Bool) (capacity : ℕ) (config : SpdpAnnouncementConfig) :
    Except SpdpError (List UInt8) :=
  let p := config.participant
  if bufferIsNull && capacity != 0 || !supportedByteOrder config.submessageByteOrder ||
      !supportedByteOrder config.parameterByteOrder then .error .invalidArgument
  else if !validConfiguration p then .error .invalidConfiguration
  else if !validLocators p.metatrafficUnicast || !validLocators p.metatrafficMulticast ||
      !validLocators p.defaultUnicast || !validLocators p.defaultMulticast then .error .invalidLocator
  else if p.leaseDurationNs / nanosecondsPerSecond > int32Max then .error .invalidDuration
  else match writeParameters p config.parameterByteOrder with
    | none => .error .bufferOverflow
    | some w =>
      match buildDataMessage bufferIsNull capacity (dataConfig config) (.bytes w.bytes) with
      | .error e => .error (.rtpsError e)
      | .ok m => .ok m

/-- `rtps::SpdpMessageBuilder`. -/
abbrev SpdpMessageBuilder := MessageBuilder SpdpError.invalidArgument

/-- `SpdpMessageBuilder::build`. -/
def SpdpMessageBuilder.build (b : SpdpMessageBuilder) (config : SpdpAnnouncementConfig) :
    Bool × SpdpMessageBuilder :=
  b.finish (buildSpdpMessage b.buffer.isNull b.buffer.size config)

/-- `rtps::SpdpPortConfig`. -/
structure SpdpPortConfig where
  portBase : UInt32 := 7400
  domainGain : UInt32 := 250
  participantGain : UInt32 := 2
  multicastOffset : UInt32 := 0
  unicastOffset : UInt32 := 10

section Ports

/-- Sums, differences and products of `uint64_t`; `none` if one wraps. -/
def addU64 (a b : ℕ) : Option ℕ := if a + b ≤ uint64Max then some (a + b) else none

def subU64 (a b : ℕ) : Option ℕ := if b ≤ a then some (a - b) else none

def mulU64 (a b : ℕ) : Option ℕ := if a * b ≤ uint64Max then some (a * b) else none

/-- `spdp_multicast_port`: its result, and the port of the caller after the call. -/
def spdpMulticastPort (domainId : UInt32) (config : SpdpPortConfig) (port : UInt16) :
    Option (Bool × UInt16) := do
  let fixed ← addU64 config.portBase.toNat config.multicastOffset.toNat
  if fixed > 65535 then return (false, port)
  let remaining ← subU64 65535 fixed
  if config.domainGain ≠ 0 ∧ domainId.toNat > remaining / config.domainGain.toNat then return (false, port)
  let value ← addU64 fixed (← mulU64 config.domainGain.toNat domainId.toNat)
  if value = 0 then return (false, port)
  return (true, UInt16.ofNat value)

/-- `spdp_unicast_port`: its result, and the port of the caller after the call. -/
def spdpUnicastPort (domainId participantId : UInt32) (config : SpdpPortConfig) (port : UInt16) :
    Option (Bool × UInt16) := do
  let fixed ← addU64 config.portBase.toNat config.unicastOffset.toNat
  if fixed > 65535 then return (false, port)
  let domainTerm ← mulU64 config.domainGain.toNat domainId.toNat
  if domainTerm > (← subU64 65535 fixed) then return (false, port)
  let partialPort ← addU64 fixed domainTerm
  let remaining ← subU64 65535 partialPort
  if config.participantGain ≠ 0 ∧ participantId.toNat > remaining / config.participantGain.toNat then
    return (false, port)
  let value ← addU64 partialPort (← mulU64 config.participantGain.toNat participantId.toNat)
  if value = 0 then return (false, port)
  return (true, UInt16.ofNat value)

end Ports

end OpenRtdds
