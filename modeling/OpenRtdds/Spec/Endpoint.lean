import OpenRtdds.Spec.Format
import OpenRtdds.Spec.Publisher

/-!
# Endpoints

What a type and a channel add to a publisher and to a subscription: `publish_sample` of
`publisher.cpp`, which serializes a message and puts the correlation envelope of a service sample
before it, and `take_service` of `subscription.cpp`, which reads both back.
-/

namespace OpenRtdds

open Lib

/-- `detail::RosChannel`. -/
inductive RosChannel where
  | topic
  | serviceRequest
  | serviceResponse
  deriving DecidableEq

/-- `kMaximumSampleSize`. -/
def maximumSampleSize : ℕ := 65000

theorem maximumSampleSize_le : maximumSampleSize ≤ uint64Max := by decide

/-- `detail::kServiceCorrelationSize`: a GID of 16 bytes and a sequence number of 8. -/
def serviceCorrelationSize : ℕ := 24

/-- `rmw_request_id_t`; the sequence number is the 64 bits of an `int64_t`. -/
structure RequestId where
  writerGuid : Gid
  sequenceNumber : ℕ
  deriving DecidableEq

/-- The correlation envelope that `publish_sample` puts before a service sample. -/
def correlationEnvelope (id : RequestId) : List UInt8 :=
  id.writerGuid.toList ++ storeInt true 8 id.sequenceNumber

/-- The participant prefix that `configure_sockets` forms of the domain, the participant and the
process. -/
def configuredPrefix (domain participant : ℕ) (process : BitVec 32) : GuidPrefix :=
  #v[0x4F, 0x52, 0x54, 0x44, 0x44, 0x53, .ofNat domain, .ofNat participant,
    .ofNat (process.toNat >>> 24), .ofNat (process.toNat >>> 16), .ofNat (process.toNat >>> 8),
    .ofNat process.toNat]

/-- The part of an endpoint that does not change: a type that the analysis accepts with
`kMaximumSampleSize`, and the channel. -/
structure Endpoint (language : TypeSupportLanguage) where
  type : Descriptor language
  channel : RosChannel
  limit : type.limit = maximumSampleSize

/-- Why `publish_sample` returns an error. -/
inductive PublishSampleError where
  | correlationMismatch
  | contextShutdown
  | serializationFailed (failure : CodecFailure)
  | publishFailed (error : PublishError)

/-- Why `take_service` returns an error. -/
inductive TakeServiceError where
  | notServiceChannel
  | contextShutdown
  | truncatedEnvelope
  | deserializationFailed (failure : CodecFailure)

/-- `rmw_service_info_t`. -/
structure ServiceInfo where
  sourceTimestamp : ℕ
  receivedTimestamp : ℕ
  requestId : RequestId

/-- The candidate of `take_service` for a stored sample. -/
def StoredSample.serviceInfo (sample : StoredSample) : ServiceInfo where
  sourceTimestamp := sample.sourceTimestampNs
  receivedTimestamp := sample.receivedTimestampNs
  requestId :=
    { writerGuid := copyAt sample.payload 0 16
      sequenceNumber := readAt sample.payload 16 8 .littleEndian }

/-- Why `take_one` returns an error. -/
inductive TakeError where
  | contextShutdown
  | deserializationFailed (failure : CodecFailure)

/-- `rmw_message_info_t`. -/
structure MessageInfo where
  sourceTimestamp : ℕ
  receivedTimestamp : ℕ
  publicationSequenceNumber : ℕ
  receptionSequenceNumber : ℕ
  publisherGid : Gid
  fromIntraProcess : Bool

/-- `message_info`. -/
def StoredSample.messageInfo (sample : StoredSample) : MessageInfo where
  sourceTimestamp := sample.sourceTimestampNs
  receivedTimestamp := sample.receivedTimestampNs
  publicationSequenceNumber := sample.publicationSequenceNumber
  receptionSequenceNumber := sample.receptionSequenceNumber
  publisherGid := sample.publisherGid
  fromIntraProcess := false

/-- A call of `publish_sample` on a publisher of a topic. -/
structure PublishCall (language : TypeSupportLanguage) where
  shutdown : Bool
  message : Sample language
  clock : Option ℕ

/-- A call on a subscription of a topic: `receive_data_message` or `take_one`. -/
inductive SubscriptionCall (language : TypeSupportLanguage) where
  | receive (packet : Span) (sourceTimestampNs receivedTimestampNs : ℕ)
  | take (message : Sample language)

namespace Endpoint

variable {language : TypeSupportLanguage} {D : ℕ} [NeZero D]

/-- The `serialized_capacity` that the creation of an endpoint computes. -/
def serializedCapacity (e : Endpoint language) : ℕ :=
  e.type.info.maximumSerializedSize + if e.channel = .topic then 0 else serviceCorrelationSize

/-- `publish_sample`; `shutdown` is the flag of the context and `clock` the source timestamp if
the clock can be read. -/
def publishSample (e : Endpoint language) (shutdown : Bool) (p : Publisher D)
    (message : Sample language) (requestId : Option RequestId) (clock : Option ℕ) :
    Except PublishSampleError (Publisher D) :=
  if (e.channel != .topic) != requestId.isSome then .error .correlationMismatch
  else if shutdown then .error .contextShutdown
  else match e.type.serialize message e.type.info.maximumSerializedSize .littleEndian with
    | .error failure => .error (.serializationFailed failure)
    | .ok body =>
      let envelope := (requestId.map correlationEnvelope).getD []
      match p.publishSerialized (envelope ++ body) clock with
      | .error error => .error (.publishFailed error)
      | .ok p' => .ok p'

/-- `take_service` into `message`, with the filter of the caller if it has one. The result says
whether a sample was taken and with which metadata. -/
def takeService (e : Endpoint language) (s : Subscription D) (accept : Option (RequestId → Bool))
    (message : Sample language) :
    Except TakeServiceError (Option ServiceInfo) × Subscription D × Sample language :=
  if e.channel = .topic then (.error .notServiceChannel, s, message)
  else if s.shutdown then (.error .contextShutdown, s, message)
  else if s.historySize = 0 then (.ok none, s, message)
  else
    let sample := s.history (wrap s.historyHead)
    if sample.payload.length ≤ serviceCorrelationSize then (.error .truncatedEnvelope, s, message)
    else
      let candidate := sample.serviceInfo
      if accept.any fun accept => !accept candidate.requestId then (.ok none, s.dropHead, message)
      else
        match deserializeXcdr1 (stringsOf language) e.type.memory e.type.handle
            (.bytes (sample.payload.drop serviceCorrelationSize))
            e.type.info.maximumSerializedSize message with
        | (.error failure, message') => (.error (.deserializationFailed failure), s, message')
        | (.ok _, message') => (.ok (some candidate), s.dropHead, message')

/-- `take_one` into `message`. The result says whether a sample was taken and with which
metadata. -/
def takeOne (e : Endpoint language) (s : Subscription D) (message : Sample language) :
    Except TakeError (Option MessageInfo) × Subscription D × Sample language :=
  if s.shutdown then (.error .contextShutdown, s, message)
  else if s.historySize = 0 then (.ok none, s, message)
  else
    let sample := s.history (wrap s.historyHead)
    match deserializeXcdr1 (stringsOf language) e.type.memory e.type.handle (.bytes sample.payload)
        e.type.info.maximumSerializedSize message with
    | (.error failure, message') => (.error (.deserializationFailed failure), s, message')
    | (.ok _, message') => (.ok (some sample.messageInfo), s.dropHead, message')

/-- A publisher after a call, which leaves it alone if it fails. -/
def published (e : Endpoint language) (p : Publisher D) (call : PublishCall language) : Publisher D :=
  match e.publishSample call.shutdown p call.message none call.clock with
  | .error _ => p
  | .ok p' => p'

/-- A subscription after a call. -/
def called (e : Endpoint language) (s : Subscription D) : SubscriptionCall language → Subscription D
  | .receive packet source received => (s.receiveDataMessage packet source received).2
  | .take message => (e.takeOne s message).2.1

end Endpoint

/-- A service sample makes its way: it is published, its DATA datagram is parsed and accepted, and
the next take returns the request id and a message of the value. -/
def ServiceRoundTrip {language language' : TypeSupportLanguage} {D D' : ℕ} [NeZero D] [NeZero D']
    (e : Endpoint language) (e' : Endpoint language') (p : Publisher D) (s : Subscription D')
    (v : Sample language) (id : RequestId) (clock : Option ℕ) (ts : ℕ) (dest : Sample language') :
    Prop :=
  ∃ p', e.publishSample false p v (some id) clock = .ok p' ∧
    (∃ view, parseDataMessage (.bytes p'.dataMessage) = .ok view) ∧
    (∃ n k d, (s.networkReceive (.bytes p'.dataMessage) ts).1 = .ok (.accepted n k d)) ∧
    ∃ info s' dest', e'.takeService (s.networkReceive (.bytes p'.dataMessage) ts).2 none dest =
        (.ok (some info), s', dest') ∧
      info.requestId = id ∧
      Represents (stringsOf language') maximumTypeNestingDepth dest'
        (Message.view (stringsOf language) maximumTypeNestingDepth v)

end OpenRtdds
