import OpenRtdds.Proof.PublisherOps
import OpenRtdds.Proof.RoundTrip
import OpenRtdds.Proof.SubscriptionOps

/-!
# Service samples

The envelope of a service sample is the beginning of the DATA payload, and the DATA builder wants
a CDR encapsulation there.

* `supported_envelope`: the builder takes a GID for an encapsulation if its first two bytes are.
* `serviceRoundTrip_iff`: between matching endpoints a service sample makes its way exactly then.
* `configured_service_sample_refused`: the GIDs of this implementation begin with `ORTDDS`, so
  none of its service samples is ever published.
-/

namespace OpenRtdds

open Lib

section Envelope

variable {id : RequestId} {body : List UInt8}

@[simp] theorem correlationEnvelope_length (id : RequestId) :
    (correlationEnvelope id).length = serviceCorrelationSize := by
  simp [correlationEnvelope, serviceCorrelationSize]

/-- The payload of a service sample has an encapsulation if its GID looks like one. -/
theorem supported_envelope (id : RequestId) (body : List UInt8) :
    supportedSerializedPayload (.bytes (correlationEnvelope id ++ body)) = true ↔
      id.writerGuid[0] = 0 ∧ id.writerGuid[1] ≤ 3 := by
  have hbyte : ∀ k (hk : k < 16), byteAt (correlationEnvelope id ++ body) k = id.writerGuid[k] := by
    intro k hk
    have hlen : id.writerGuid.toList.length = 16 := id.writerGuid.length_toList
    rw [correlationEnvelope, List.append_assoc, byteAt_left (by omega)]
    simp [byteAt, List.getD, hk]
  have hsize : 4 ≤ serviceCorrelationSize + body.length := Nat.le_add_right_of_le (by decide)
  simp only [supportedSerializedPayload, Span.isNull, Span.size, Span.data, hbyte 0 (by decide),
    hbyte 1 (by decide)]
  simp [hsize]

/-- What `publish_sample` writes into the envelope, `take_service` reads. -/
theorem serviceInfo_requestId {sample : StoredSample}
    (hpayload : sample.payload = correlationEnvelope id ++ body) (hid : id.sequenceNumber < 2 ^ 64) :
    sample.serviceInfo.requestId = id := by
  have hguid : copyAt sample.payload 0 16 = id.writerGuid := by
    rw [hpayload, correlationEnvelope, List.append_assoc]
    exact copyAt_toList _
  have hnumber : readAt sample.payload 16 8 .littleEndian = id.sequenceNumber := by
    have hread : readAt (storeInt true 8 id.sequenceNumber ++ body) 0 8 .littleEndian =
        id.sequenceNumber % 2 ^ (8 * 8) := readAt_storeInt .littleEndian 8 _
    rw [hpayload, correlationEnvelope, List.append_assoc, readAt_skip _ _ (by simp),
      Vector.length_toList, hread]
    exact Nat.mod_eq_of_lt hid
  simp only [StoredSample.serviceInfo, hguid, hnumber]

end Envelope

/-- The bytes of a value are read with every limit from the largest size of the type on. -/
theorem Descriptor.deserialize_limit {language : TypeSupportLanguage} (T : Descriptor language)
    (hgen : T.Generated) {m : Message Text maximumTypeNestingDepth}
    (hm : Meets (bounded (· ≤ ·)) T.memory maximumTypeNestingDepth T.root m) {order : ByteOrder}
    (ho : order = .bigEndian ∨ order = .littleEndian) {dest : Sample language}
    (hdest : Accommodates (stringsOf language) _ dest m) {limit : ℕ}
    (hlimit : T.info.maximumSerializedSize ≤ limit) (hmax : limit ≤ uint64Max)
    (hfit : (T.encoding order m).length ≤ limit) :
    ∃ dest', deserializeXcdr1 (stringsOf language) T.memory T.handle (.bytes (T.encoding order m))
        limit dest = (.ok (T.encoding order m).length, dest') ∧
      Represents (stringsOf language) _ dest' m := by
  obtain ⟨info, hinfo, hlanguage⟩ := T.accepts hlimit hmax
  exact (⟨T.memory, T.handle, limit, info, hinfo, hlanguage, hmax⟩ :
    Descriptor language).deserialize_encoding hgen hm ho hdest hfit

namespace Endpoint

variable {language : TypeSupportLanguage} {D : ℕ} [NeZero D] {e : Endpoint language}
  {p p' : Publisher D} {v dest : Sample language} {id : RequestId} {clock : Option ℕ}

/-- Behind the serialization, a service sample is published with its envelope. -/
theorem publishSample_service (hc : e.channel ≠ .topic) {body : List UInt8}
    (hbody : e.type.serialize v e.type.info.maximumSerializedSize .littleEndian = .ok body) :
    e.publishSample false p v (some id) clock =
      (p.publishSerialized (correlationEnvelope id ++ body) clock).mapError .publishFailed := by
  unfold publishSample
  rw [if_neg (by simp [hc]), if_neg (by simp), hbody]
  simp only [Option.map_some, Option.getD_some]
  cases p.publishSerialized (correlationEnvelope id ++ body) clock <;> rfl

/-- A service sample that is published has a GID that looks like an encapsulation. -/
theorem publishSample_supported {shutdown : Bool}
    (h : e.publishSample shutdown p v (some id) clock = .ok p') :
    id.writerGuid[0] = 0 ∧ id.writerGuid[1] ≤ 3 := by
  obtain ⟨body, -, hp⟩ := publishSample_serialized h
  exact (supported_envelope id body).1 (build_ok (Publisher.publishSerialized_ok hp).datagram).1.supported

/-- A service sample with another GID fails in the DATA builder. -/
theorem publishSample_refused (hc : e.channel ≠ .topic)
    (hbody : ∃ body, e.type.serialize v e.type.info.maximumSerializedSize .littleEndian = .ok body)
    (hn : 1 ≤ p.nextSequence ∧ p.nextSequence < int64Max)
    (hid : ¬ (id.writerGuid[0] = 0 ∧ id.writerGuid[1] ≤ 3)) :
    e.publishSample false p v (some id) clock =
      .error (.publishFailed (.dataConstructionFailed .invalidSerializedPayload)) := by
  obtain ⟨body, hbody⟩ := hbody
  have hno : supportedSerializedPayload (.bytes (correlationEnvelope id ++ body)) = false := by
    rw [← Bool.not_eq_true, supported_envelope]
    exact hid
  rw [publishSample_service hc hbody, Publisher.publishSerialized_refuses clock hn hno]
  rfl

/-- `take_service` without a filter takes the oldest sample if its body can be read. -/
theorem takeService_head {s : Subscription D} {sample : StoredSample} {rest : List StoredSample}
    {n : ℕ} {dest' : Sample language} (hc : e.channel ≠ .topic) (hs : s.shutdown = false)
    (hq : s.queue = sample :: rest) (hlength : serviceCorrelationSize < sample.payload.length)
    (hbody : deserializeXcdr1 (stringsOf language) e.type.memory e.type.handle
      (.bytes (sample.payload.drop serviceCorrelationSize)) e.type.info.maximumSerializedSize dest =
        (.ok n, dest')) :
    e.takeService s none dest = (.ok (some sample.serviceInfo), s.dropHead, dest') := by
  obtain ⟨hsize, hcell⟩ := Subscription.queue_head hq
  unfold takeService
  rw [if_neg hc, if_neg (by simp [hs]), if_neg hsize]
  simp only [hcell, Option.any_none, Bool.false_eq_true, if_false, hbody]
  rw [if_neg (by omega)]

end Endpoint

section RoundTrip

variable {language language' : TypeSupportLanguage} {D D' : ℕ} [NeZero D] [NeZero D']

/-- The bytes of a message between two endpoints: the one writes them, they fit into both, they begin
with an encapsulation, and the other reads the value of the message from them. -/
structure SharedBytes (e : Endpoint language) (e' : Endpoint language') (v : Sample language)
    (body : List UInt8) : Prop where
  serialize : e.type.serialize v e.type.info.maximumSerializedSize .littleEndian = .ok body
  length_le : body.length ≤ e.type.info.maximumSerializedSize
  length_le' : body.length ≤ e'.type.info.maximumSerializedSize
  maximum_le : e.type.info.maximumSerializedSize ≤ 65000
  supported : supportedSerializedPayload (.bytes body) = true
  deserialize : ∀ dest, Accommodates (stringsOf language') _ dest
      (Descriptor.value v) →
    ∃ dest', deserializeXcdr1 (stringsOf language') e'.type.memory e'.type.handle (.bytes body)
        e'.type.info.maximumSerializedSize dest = (.ok body.length, dest') ∧
      Represents (stringsOf language') _ dest' (Descriptor.value v)

/-- **The endpoints of one schema share the bytes** of every message that serializes. -/
theorem sharedBytes {e : Endpoint language} {e' : Endpoint language'}
    (hschema : SameSchema e.type.memory e'.type.memory maximumTypeNestingDepth e.type.root e'.type.root)
    (hgen : e'.type.Generated) {v : Sample language} (hv : e.type.InBounds v)
    (hready : e.type.Ready v) :
    SharedBytes e e' v (e.type.encoding .littleEndian (Descriptor.value v)) := by
  obtain ⟨-, -, -, -, hlimit⟩ := e.type.analysed
  obtain ⟨-, -, -, -, hlimit'⟩ := e'.type.analysed
  have hmax : e.type.limit = 65000 := e.limit
  -- the two descriptors give the value the same bytes
  obtain ⟨hm', hchunks⟩ := hschema.chunks true _ hv
  have hbody : e'.type.encoding .littleEndian (Descriptor.value v) =
      e.type.encoding .littleEndian (Descriptor.value v) := by
    simp only [Descriptor.encoding]
    exact congrArg _ (congrArg _ hchunks.symm)
  have hlength' : (e'.type.encoding .littleEndian (Descriptor.value v)).length ≤
      e'.type.info.maximumSerializedSize := e'.type.encoding_length_le hm'
  refine ⟨?_, e.type.encoding_length_le hv, hbody ▸ hlength', by omega, ?_, fun dest hdest => ?_⟩
  · rcases e.type.serialize_outcome (.inr rfl) hv le_rfl (hlimit.trans e.type.machine) with
      ⟨-, heq⟩ | ⟨hno, -⟩
    · exact heq
    · exact absurd hready hno
  · simp [supportedSerializedPayload, Descriptor.encoding, Span.isNull, Span.size, Span.data, byteAt]
  · rw [← hbody]
    exact e'.type.deserialize_limit hgen hm' (.inr rfl) hdest le_rfl
      (hlimit'.trans e'.type.machine) hlength'

/-- A service publisher and a service subscription of one schema, as creation and discovery leave
them, ready for one sample. -/
structure ServicePair (e : Endpoint language) (e' : Endpoint language') (p : Publisher D)
    (s : Subscription D') : Prop where
  publishes : e.channel ≠ .topic
  takes : e'.channel ≠ .topic
  schema : SameSchema e.type.memory e'.type.memory maximumTypeNestingDepth e.type.root e'.type.root
  generated : e'.type.Generated
  capacity : p.serializedCapacity = e.serializedCapacity
  capacity' : s.serializedCapacity = e'.serializedCapacity
  number : 1 ≤ p.nextSequence ∧ p.nextSequence < int64Max
  active : s.shutdown = false
  empty : s.queue = []
  discovered : s.Discovered p.participantPrefix p.writerId
  room : s.HasRoom (makeGid p.participantPrefix p.writerId)
  fresh : ∀ i, s.findWriter (makeGid p.participantPrefix p.writerId) = some i →
    (s.writers i).lastSequence < p.nextSequence
  reception : s.nextReceptionSequence ≠ uint64Max

omit [NeZero D] in
/-- Ingress of a built datagram by a subscription that has room for it and holds no sample. -/
theorem networkReceive_built {p p' : Publisher D} {s : Subscription D'} {payload : List UInt8}
    (hp : Publisher.Published p p' payload) (hs : s.shutdown = false) (hempty : s.queue = [])
    (hd : s.Discovered p.participantPrefix p.writerId)
    (hfit : payload.length ≤ s.serializedCapacity)
    (hroom : s.HasRoom (makeGid p.participantPrefix p.writerId))
    (hfresh : ∀ i, s.findWriter (makeGid p.participantPrefix p.writerId) = some i →
      (s.writers i).lastSequence < p.nextSequence)
    (hreception : s.nextReceptionSequence ≠ uint64Max) {ts : ℕ} (hts : 0 < ts ∧ ts ≤ int64Max) :
    ∃ n k d s' sample, s.networkReceive (.bytes p'.dataMessage) ts = (.ok (.accepted n k d), s') ∧
      s'.shutdown = false ∧ s'.queue = [sample] ∧ sample.payload = payload := by
  have hparse := parse_build hp.datagram
  have hqueue : ∀ sample i isNew, (s.commit sample i isNew).queue = [sample] := by
    intro sample i isNew
    rw [Subscription.commit_queue, hempty, List.tail_nil, ite_self, List.nil_append]
  obtain ⟨i, isNew, hcommit⟩ := Subscription.receive_commits hparse
    ((Subscription.networkReceive_accepts ts hparse hs hd hfit hroom).2
      ⟨⟨fun h => (nomatch h), .inl rfl⟩, hts, hfresh, hreception⟩)
  exact ⟨_, _, _, _, _, hcommit, hs, hqueue _ _ _, rfl⟩

/-- **When a service sample makes its way.** Between matching endpoints, a message within its
bounds that serializes makes the round trip exactly if the GID of its request id begins like a CDR
encapsulation. -/
theorem serviceRoundTrip_iff {e : Endpoint language} {e' : Endpoint language'} {p : Publisher D}
    {s : Subscription D'} (h : ServicePair e e' p s) {v : Sample language}
    (hv : e.type.InBounds v) (hready : e.type.Ready v) {id : RequestId}
    (hid : id.sequenceNumber < 2 ^ 64) (clock : ℕ) {ts : ℕ} (hts : 0 < ts ∧ ts ≤ int64Max)
    {dest : Sample language'}
    (hdest : Accommodates (stringsOf language') _ dest (Descriptor.value v)) :
    ServiceRoundTrip e e' p s v id (some clock) ts dest ↔
      id.writerGuid[0] = 0 ∧ id.writerGuid[1] ≤ 3 := by
  refine ⟨fun ⟨p', hp, _⟩ => Endpoint.publishSample_supported hp, fun hguid => ?_⟩
  set body := e.type.encoding .littleEndian (Descriptor.value v)
  have hshared : SharedBytes e e' v body := sharedBytes h.schema h.generated hv hready
  have hlength := hshared.length_le
  have hlength' := hshared.length_le'
  have hmax := hshared.maximum_le
  set payload := correlationEnvelope id ++ body with hpayload
  have hsize : payload.length = 24 + body.length := by
    rw [hpayload, List.length_append, correlationEnvelope_length]
    rfl
  have hcapacity : p.serializedCapacity = e.type.info.maximumSerializedSize + 24 := by
    rw [h.capacity, Endpoint.serializedCapacity, if_neg h.publishes]
    rfl
  have hcapacity' : s.serializedCapacity = e'.type.info.maximumSerializedSize + 24 := by
    rw [h.capacity', Endpoint.serializedCapacity, if_neg h.takes]
    rfl
  have hsupported : supportedSerializedPayload (.bytes payload) = true :=
    (supported_envelope id body).2 hguid
  obtain ⟨p', hp'⟩ := Publisher.publishSerialized_accepts clock h.number hsupported (by omega)
    (by omega)
  have hpublished := Publisher.publishSerialized_ok hp'
  obtain ⟨n, k, d, s', sample, hreceive, hactive, hqueue, hsample⟩ := networkReceive_built hpublished
    h.active h.empty h.discovered (by omega) h.room h.fresh h.reception hts
  obtain ⟨dest', hread, hrep⟩ := hshared.deserialize dest hdest
  have hdrop : sample.payload.drop serviceCorrelationSize = body := by
    rw [hsample, hpayload, List.drop_left' (correlationEnvelope_length id)]
  rw [← hdrop] at hread
  refine ⟨p', ?_, ⟨_, parse_build hpublished.datagram⟩, ⟨n, k, d, by rw [hreceive]⟩,
    sample.serviceInfo, s'.dropHead, dest', ?_, serviceInfo_requestId hsample hid, hrep⟩
  · rw [Endpoint.publishSample_service h.publishes hshared.serialize, hp']
    rfl
  · rw [hreceive]
    refine Endpoint.takeService_head h.takes hactive hqueue ?_ hread
    have hfour : 4 ≤ body.length := by simp [body, Descriptor.encoding]
    rw [hsample, hsize]
    exact Nat.lt_add_of_pos_right (by omega)

/-- No GID of a participant of this implementation begins like an encapsulation. -/
theorem configured_unsupported (domain participant : ℕ) (process : BitVec 32) (entity : EntityId) :
    ¬ ((makeGid (configuredPrefix domain participant process) entity)[0] = 0 ∧
      (makeGid (configuredPrefix domain participant process) entity)[1] ≤ 3) := by
  intro h
  have hfirst : (makeGid (configuredPrefix domain participant process) entity)[0] = 0x4F := by
    exact Vector.getElem_append_left (by decide)
  rw [hfirst] at h
  exact absurd h.1 (by decide)

/-- **No service sample is ever published.** For a request id with a GID of a participant that
`configure_sockets` named, `publish_sample` succeeds for no message, so the round trip never takes
place. It fails in the DATA builder whenever the channel is a service's, the message serializes and
the numbers are not exhausted. -/
theorem configured_service_sample_refused (e : Endpoint language) (e' : Endpoint language')
    (p : Publisher D) (s : Subscription D') (v : Sample language) (domain participant : ℕ)
    (process : BitVec 32) (entity : EntityId) (number : ℕ) (clock : Option ℕ) (ts : ℕ)
    (dest : Sample language') :
    let id : RequestId := ⟨makeGid (configuredPrefix domain participant process) entity, number⟩
    (∀ shutdown p', e.publishSample shutdown p v (some id) clock ≠ .ok p') ∧
    ¬ ServiceRoundTrip e e' p s v id clock ts dest ∧
    (e.channel ≠ .topic →
      (∃ body, e.type.serialize v e.type.info.maximumSerializedSize .littleEndian = .ok body) →
      1 ≤ p.nextSequence ∧ p.nextSequence < int64Max →
      e.publishSample false p v (some id) clock =
        .error (.publishFailed (.dataConstructionFailed .invalidSerializedPayload))) := by
  intro id
  have hid := configured_unsupported domain participant process entity
  refine ⟨fun shutdown p' h => hid (Endpoint.publishSample_supported h), ?_, fun hc hbody hn =>
    Endpoint.publishSample_refused hc hbody hn hid⟩
  rintro ⟨p', hp, -⟩
  exact hid (Endpoint.publishSample_supported hp)

end RoundTrip

/-- A request channel of the type of `sampleDescriptor`. -/
def requestEndpoint : Endpoint .introspectionCpp where
  type := { sampleDescriptor with limit := maximumSampleSize, accepted := rfl, machine := by decide }
  channel := .serviceRequest
  limit := rfl

/-- The request channel in C. -/
def requestEndpointC : Endpoint .introspectionC where
  type := { sampleDescriptorC with limit := maximumSampleSize, accepted := rfl, machine := by decide }
  channel := .serviceRequest
  limit := rfl

/-- A topic of the same type. -/
def sampleTopic : Endpoint .introspectionCpp := { requestEndpoint with channel := .topic }

/-- The participant 1 of domain 0 in the process 4660, and its publisher in the first slot. -/
def requestPublisher : Publisher 1 :=
  .init (configuredPrefix 0 1 4660) (writerId 0) requestEndpoint.serializedCapacity

/-- The first request of a client: the message serializes, and the publisher refuses it. -/
theorem first_request_refused :
    requestEndpoint.type.InBounds fullSample ∧
    (∃ body, requestEndpoint.type.serialize fullSample 24 .littleEndian = .ok body) ∧
    requestEndpoint.publishSample false requestPublisher fullSample
        (some ⟨makeGid (configuredPrefix 0 1 4660) (writerId 0), 1⟩) (some 1) =
      .error (.publishFailed (.dataConstructionFailed .invalidSerializedPayload)) := by
  have hv : requestEndpoint.type.InBounds fullSample := fullSample_atBounds.inBounds
  have hbody : ∃ body, requestEndpoint.type.serialize fullSample 24 .littleEndian = .ok body := by
    rcases requestEndpoint.type.serialize_outcome (.inr rfl) hv le_rfl (by decide) with
      ⟨-, heq⟩ | ⟨hno, -⟩
    · exact ⟨_, heq⟩
    · exact absurd fullSample_ready hno
  exact ⟨hv, hbody, Endpoint.publishSample_refused (by decide) hbody (by decide)
    (configured_unsupported 0 1 4660 _)⟩

/-- The subscription of a service in another participant. -/
def requestSubscription : Subscription 1 :=
  .init (configuredPrefix 0 2 4661) (readerId 0) requestEndpointC.serializedCapacity false

/-- The request does not reach the service. -/
theorem first_request_lost :
    ¬ ServiceRoundTrip requestEndpoint requestEndpointC requestPublisher requestSubscription
      fullSample ⟨makeGid (configuredPrefix 0 1 4660) (writerId 0), 1⟩ (some 1) 1 fullSampleC :=
  (configured_service_sample_refused requestEndpoint requestEndpointC requestPublisher
    requestSubscription fullSample 0 1 4660 (writerId 0) 1 (some 1) 1 fullSampleC).2.1

/-- With a GID that begins with zeros the same request goes from C++ to C. -/
theorem zeroGuid_request_arrives :
    ServiceRoundTrip requestEndpoint requestEndpointC requestPublisher requestSubscription
      fullSample ⟨.replicate 16 0, 1⟩ (some 1) 1 fullSampleC := by
  have hdest : Accommodates cStrings _ fullSampleC (Descriptor.value fullSample) :=
    .cons (.array (.cons (.scalar trivial) (.cons (.scalar trivial) .nil))) <|
    .cons (.single (.text rfl)) <|
    .cons (.array (.cons (.nested (.cons (.single (.scalar trivial)) .nil))
      (.cons (.nested (.cons (.single (.scalar trivial)) .nil)) .nil))) .nil
  have hpair : ServicePair requestEndpoint requestEndpointC requestPublisher requestSubscription := {
    publishes := by decide
    takes := by decide
    schema := sampleDescriptors_sameSchema
    generated := sampleMemory_all (by decide) rfl
    capacity := rfl
    capacity' := rfl
    number := by decide
    active := rfl
    empty := rfl
    discovered := ⟨by decide, by decide, by decide⟩
    room := .inr (by decide)
    fresh := fun i hi => by cases hi
    reception := by decide }
  exact (serviceRoundTrip_iff hpair fullSample_atBounds.inBounds fullSample_ready (by decide) 1
    (by decide) hdest).2 (by decide)

end OpenRtdds
