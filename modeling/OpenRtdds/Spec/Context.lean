import OpenRtdds.Spec.Network
import OpenRtdds.Spec.ServiceClient

/-!
# The publishers of a context

The publisher pool of a context (`create_publisher_endpoint`, `release_slot` and
`rmw_destroy_publisher` of `publisher.cpp`) and the clients of `services.cpp`, which own a
publisher each. The pool has eight slots, and the entity id of a publisher is made of its slot.

A client is kept beside its request publisher, whose GID is its own and which nothing else can
reach. A service is its response publisher.
-/

namespace OpenRtdds

open Lib

/-- `PublisherData`, with the client that owns the publisher if one does. The code has no `serial`:
it tells the publishers of a context apart. -/
structure PublisherData where
  language : TypeSupportLanguage
  endpoint : Endpoint language
  depth : ℕ+
  publisher : Publisher depth
  client : Option ClientData
  serial : ℕ

/-- `detail::PublisherSlot`; an occupied slot has data. -/
structure PublisherSlot where
  data : Option PublisherData := none
  generation : BitVec 32 := 1

/-- `release_slot`. -/
def PublisherSlot.release (slot : PublisherSlot) : PublisherSlot where
  data := none
  generation := if slot.generation + 1 = 0 then 1 else slot.generation + 1

/-- What an `rmw_publisher_t` refers to. -/
structure PublisherHandle where
  slot : Fin 8
  generation : BitVec 32

/-- The part of `rmw_context_impl_t` that publishing uses; `created` counts the publishers. -/
structure Context where
  participantPrefix : GuidPrefix
  shutdown : Bool
  publishers : Fin 8 → PublisherSlot
  created : ℕ

/-- A message of the caller, as each language reads it. -/
abbrev RosMessage := (language : TypeSupportLanguage) → Sample language

/-- What one successful publication puts on the wire: the publisher and its slot, the RTPS identity
of the sample, its request id if it is a request, and its DATA datagram. -/
structure Publication where
  slot : Fin 8
  serial : ℕ
  guid : Gid
  number : ℕ
  request : Option RequestId
  datagram : List UInt8

/-- The calls on a context. -/
inductive ContextEvent where
  | createPublisher {language : TypeSupportLanguage} (endpoint : Endpoint language) (depth : ℕ+)
  | createClient {language : TypeSupportLanguage} (endpoint : Endpoint language) (depth : ℕ+)
  | destroy (handle : PublisherHandle)
  | publish (handle : PublisherHandle) (message : RosMessage) (clock : Option ℕ)
  | sendRequest (handle : PublisherHandle) (message : RosMessage) (clock : Option ℕ)
  | sendResponse (handle : PublisherHandle) (requestId : RequestId) (message : RosMessage)
      (clock : Option ℕ)
  | takeResponse (handle : PublisherHandle) (entry : Fin serviceOutstandingCapacity)
  | shutdown

namespace Context

/-- A new context of a participant. -/
def init (participantPrefix : GuidPrefix) : Context where
  participantPrefix := participantPrefix
  shutdown := false
  publishers := fun _ => {}
  created := 0

/-- `valid_publisher`: the publisher of a handle that is not stale. -/
def validPublisher (c : Context) (handle : PublisherHandle) : Option PublisherData :=
  if (c.publishers handle.slot).generation = handle.generation then (c.publishers handle.slot).data
  else none

/-- Stores the data of a publisher in its slot. -/
def store (c : Context) (slot : Fin 8) (data : PublisherData) : Context :=
  { c with
    publishers := Function.update c.publishers slot { c.publishers slot with data := some data } }

/-- `create_publisher_endpoint` in the first slot that is free. A creation that fails later on
is a creation and a destruction. -/
def createPublisher (c : Context) {language : TypeSupportLanguage} (endpoint : Endpoint language)
    (depth : ℕ+) (isClient : Bool) : Context :=
  if c.shutdown then c
  else match (List.finRange 8).find? fun slot => (c.publishers slot).data.isNone with
    | none => c
    | some slot =>
      { c.store slot
          { language, endpoint, depth
            publisher := .init c.participantPrefix (writerId slot) endpoint.serializedCapacity
            client := if isClient then some { gid := makeGid c.participantPrefix (writerId slot) }
              else none
            serial := c.created } with
        created := c.created + 1 }

/-- Publishes through the publisher of a slot; `client` is the state of its client behind a
success, `requestId` goes into the envelope and `request` into the log. -/
def publishThrough (c : Context) (slot : Fin 8) (data : PublisherData) (client : Option ClientData)
    (message : RosMessage) (requestId request : Option RequestId) (clock : Option ℕ) :
    Context × Option Publication :=
  match data.endpoint.publishSample c.shutdown data.publisher (message data.language) requestId
      clock with
  | .error _ => (c, none)
  | .ok publisher =>
    (c.store slot { data with publisher, client }, some
      { slot
        serial := data.serial
        guid := makeGid data.publisher.participantPrefix data.publisher.writerId
        number := data.publisher.nextSequence
        request
        datagram := publisher.dataMessage })

/-- `rmw_send_request` of the client that owns the publisher. -/
def sendRequest (c : Context) (slot : Fin 8) (data : PublisherData) (client : ClientData)
    (message : RosMessage) (clock : Option ℕ) : Context × Option Publication :=
  match client.request with
  | .error _ => (c, none)
  | .ok client' =>
    let id : RequestId := ⟨client.gid, client.nextSequence⟩
    c.publishThrough slot data (some client') message (some id) (some id) clock

/-- One call. A call through a stale handle changes nothing. -/
def step (c : Context) : ContextEvent → Context × Option Publication
  | .createPublisher endpoint depth => (c.createPublisher endpoint depth false, none)
  | .createClient endpoint depth => (c.createPublisher endpoint depth true, none)
  | .shutdown => ({ c with shutdown := true }, none)
  | .destroy handle =>
    match c.validPublisher handle with
    | none => (c, none)
    | some _ =>
      ({ c with
          publishers := Function.update c.publishers handle.slot
            (c.publishers handle.slot).release }, none)
  | .publish handle message clock =>
    match c.validPublisher handle with
    | none => (c, none)
    | some data => c.publishThrough handle.slot data data.client message none none clock
  | .sendRequest handle message clock =>
    match c.validPublisher handle with
    | none => (c, none)
    | some data =>
      match data.client with
      | none => (c, none)
      | some client => c.sendRequest handle.slot data client message clock
  | .sendResponse handle requestId message clock =>
    match c.validPublisher handle with
    | none => (c, none)
    | some data => c.publishThrough handle.slot data data.client message (some requestId) none clock
  | .takeResponse handle entry =>
    -- a response for the entry was taken
    match c.validPublisher handle with
    | none => (c, none)
    | some data =>
      (c.store handle.slot { data with client := data.client.map (·.complete entry) }, none)

end Context

/-- A context, what it has published, a remote subscription and what that has accepted of it. -/
structure Broadcast (D : ℕ) where
  context : Context
  sent : List Publication
  remote : Subscription D
  accepted : List Publication

/-- What happens to the two sides: a call, the delivery of any datagram sent so far, a datagram of
another participant, a take. -/
inductive BroadcastEvent where
  | call (event : ContextEvent)
  | deliver (index receivedTimestampNs : ℕ)
  | foreign (packet : Span) (receivedTimestampNs : ℕ)
  | take (decode : List UInt8 → Option Unit)

namespace Broadcast

variable {D : ℕ} [NeZero D]

def step (s : Broadcast D) : BroadcastEvent → Broadcast D
  | .call event =>
    let r := s.context.step event
    { s with context := r.1, sent := s.sent ++ r.2.toList }
  | .deliver index ts =>
    match s.sent[index]? with
    | none => s
    | some publication =>
      let r := s.remote.networkReceive (.bytes publication.datagram) ts
      { s with
        remote := r.2
        accepted := if (acceptedNumber? (some r.1)).isSome then s.accepted ++ [publication]
          else s.accepted }
  | .foreign packet ts =>
    match parseDataMessage packet with
    | .error _ => s
    | .ok view =>
      if view.guidPrefix = s.context.participantPrefix then s
      else { s with remote := (s.remote.networkReceive packet ts).2 }
  | .take decode => { s with remote := (s.remote.takeOne decode).2 }

/-- The two sides after a run from a new context and a new subscription. -/
def after (participantPrefix remotePrefix : GuidPrefix) (readerId : EntityId)
    (serializedCapacity : ℕ) (ignoreLocalPublications : Bool) (es : List BroadcastEvent) :
    Broadcast D :=
  run step
    { context := .init participantPrefix
      sent := []
      remote := .init remotePrefix readerId serializedCapacity ignoreLocalPublications
      accepted := [] } es

end Broadcast

end OpenRtdds
