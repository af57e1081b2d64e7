import OpenRtdds.Lib.Run
import OpenRtdds.Spec.GraphCache
import OpenRtdds.Spec.Sedp
import OpenRtdds.Spec.Spdp
import OpenRtdds.Spec.Subscription

/-!
# The discovery state of the network worker

`NetworkRuntime` in `rmw_openrtdds_cpp/src/network_runtime.cpp`: the tables of remote participants and
remote endpoints, the graph cache of the context, and the match counts of its publishers and
subscriptions. A step is the body of `receive_discovery` for one datagram, or `expire_remote_state`;
between them this context changes its own nodes and endpoints.

The notifications that follow a change of the graph or of a match count are left out.
-/

namespace OpenRtdds

open Lib

/-- What a UDP socket hands over: at most the bytes of `receive_buffer_`. -/
abbrev Datagram := { bytes : List UInt8 // bytes.length ≤ 65507 }

/-- `NetworkRuntime::RemoteParticipant`. -/
structure RemoteParticipant where
  data : SpdpParticipantData := {}
  lastSeenNs : UInt64 := 0
  occupied : Bool := false

/-- `NetworkRuntime::RemoteEndpoint`. -/
structure RemoteEndpoint where
  data : SedpEndpointData := {}
  lastSeenNs : UInt64 := 0
  occupied : Bool := false

/-- What the network worker reads and writes of a `PublisherData` or a `SubscriptionData`: its names and
reliability, and its match status. -/
structure MatchSource where
  topicName : List UInt8
  typeName : List UInt8
  reliable : Bool
  matched : ℕ := 0
  totalMatched : ℕ := 0
  matchGeneration : UInt64 := 1

/-- `PublisherSlot` and `SubscriptionSlot`; the data of a slot may be null. -/
structure MatchSlot where
  data : Option MatchSource := none
  occupied : Bool := false

namespace MatchSource

/-- The descriptor of a `NetworkEndpointView`. -/
def networkView (kind : EndpointKind) (source : MatchSource) : LocalEndpointDescriptor where
  kind
  topicName := .bytes source.topicName
  typeName := .bytes source.typeName
  reliability := if source.reliable then .reliable else .bestEffort
  durability := .volatileDurability

/-- `publisher_network_view`. -/
def publisherNetworkView : MatchSource → LocalEndpointDescriptor := networkView .writer

/-- `subscription_network_view`. -/
def subscriptionNetworkView : MatchSource → LocalEndpointDescriptor := networkView .reader

/-- `publisher_network_set_match_count` and `subscription_network_set_match_count`. -/
def networkSetMatchCount (source : MatchSource) (count : ℕ) : MatchSource :=
  if count ≠ source.matched then
    { source with
      totalMatched := if count > source.matched then
          (source.totalMatched + (count - source.matched)) % 2 ^ 64 else source.totalMatched
      matched := count
      matchGeneration :=
        if source.matchGeneration + 1 = 0 then 1 else source.matchGeneration + 1 }
  else source

end MatchSource

/-- `NetworkRuntime` and the parts of the context that discovery works on. -/
structure NetworkRuntime where
  participantPrefix : GuidPrefix
  domainId : ℕ
  participants : Vector RemoteParticipant 16 := .replicate 16 {}
  endpoints : Vector RemoteEndpoint 32 := .replicate 32 {}
  graph : GraphCache := {}
  publishers : Vector MatchSlot 8 := .replicate 8 {}
  subscriptions : Vector MatchSlot 8 := .replicate 8 {}

namespace NetworkRuntime

/-- `kRemoteStateLifetimeNs`. -/
def remoteStateLifetimeNs : UInt64 := 5000000000

/-- `kGraphWriter`. -/
def graphWriter : EntityId := #v[0, 0, 0xF1, 0xC2]

/-- `packet_prefix`. -/
def packetPrefix (packet : List UInt8) : GuidPrefix :=
  if packet.length ≥ 20 then copyAt packet 8 12 else .replicate 12 0

/-- `find_participant`. -/
def findParticipant (s : NetworkRuntime) (guidPrefix : GuidPrefix) : Option (Fin 16) :=
  s.participants.findFinIdx? fun p => p.occupied && p.data.guidPrefix == guidPrefix

section Matches

/-- The remote endpoints of a kind that match a local one. -/
def matchesOf (s : NetworkRuntime) (kind : EndpointKind) (descriptor : LocalEndpointDescriptor) :
    List RemoteEndpoint :=
  s.endpoints.toList.filter fun remote => remote.occupied && remote.data.kind == kind &&
    evaluateEndpointMatch descriptor remote.data == .matched

/-- One iteration of a loop of `recompute_matches`. -/
def recomputeSlot (view : MatchSource → LocalEndpointDescriptor)
    (count : LocalEndpointDescriptor → ℕ) (slot : MatchSlot) : MatchSlot :=
  if slot.occupied then
    { slot with data := slot.data.map fun source => source.networkSetMatchCount (count (view source)) }
  else slot

/-- `recompute_matches`. -/
def recomputeMatches (s : NetworkRuntime) : NetworkRuntime :=
  { s with
    publishers := s.publishers.map (recomputeSlot MatchSource.publisherNetworkView fun descriptor =>
      (s.matchesOf .reader descriptor).length)
    subscriptions := s.subscriptions.map (recomputeSlot MatchSource.subscriptionNetworkView
      fun descriptor => (s.matchesOf .writer descriptor).length) }

end Matches

section Receive

/-- The part of `receive_discovery` for a participant announcement. -/
def announceParticipant (s : NetworkRuntime) (data : SpdpParticipantData) (nowNs : UInt64) :
    NetworkRuntime :=
  if data.guidPrefix = s.participantPrefix then s
  else
    let participants := upsert RemoteParticipant.occupied
      (fun p => decide (p.data.guidPrefix = data.guidPrefix)) s.participants
      { data, lastSeenNs := nowNs, occupied := true }
    { s with participants := participants.getD s.participants }

/-- The part for a snapshot of the graph. -/
def announceGraph (s : NetworkRuntime) (guidPrefix : GuidPrefix) (view : DataMessageView) :
    NetworkRuntime :=
  { s with graph := s.graph.step (.applyRemote guidPrefix (.bytes view.payload) view.sequenceNumber) }

/-- The part for an endpoint announcement. -/
def announceEndpoint (s : NetworkRuntime) (data : SedpEndpointData) (nowNs : UInt64) : NetworkRuntime :=
  match upsert RemoteEndpoint.occupied
      (fun e => decide ((e.data.participantGuidPrefix, e.data.endpointId) =
        (data.participantGuidPrefix, data.endpointId))) s.endpoints
      { data, lastSeenNs := nowNs, occupied := true } with
  | none => s
  | some endpoints => { s with endpoints }.recomputeMatches

/-- The DATA message of a snapshot of the graph. -/
def graphView (packet : List UInt8) : Option DataMessageView :=
  match parseDataMessage (.bytes packet) with
  | .error _ => none
  | .ok view => if view.writerId = graphWriter ∧ view.readerId = unknownReader then some view else none

/-- The datagram of a participant that is known. -/
def receiveFrom (s : NetworkRuntime) (guidPrefix : GuidPrefix) (packet : List UInt8) (nowNs : UInt64) :
    NetworkRuntime :=
  match graphView packet with
  | some view => s.announceGraph guidPrefix view
  | none =>
    match parseSedpMessage (.bytes packet) guidPrefix with
    | .ok (view, _) => s.announceEndpoint view.endpoint nowNs
    | _ => s

/-- The body of the loop of `receive_discovery`. -/
def receiveDiscovery (s : NetworkRuntime) (packet : Datagram) (nowNs : UInt64) : NetworkRuntime :=
  match parseSpdpMessage (.bytes packet.1) s.domainId with
  | .ok (view, _) => s.announceParticipant view.participant nowNs
  | _ =>
    match s.findParticipant (packetPrefix packet.1) with
    | none => s
    | some _ => s.receiveFrom (packetPrefix packet.1) packet.1 nowNs

end Receive

section Expire

/-- The comparison of `expire_remote_state`, in `uint64_t`. -/
def expired (nowNs lastSeenNs : UInt64) : Bool := nowNs - lastSeenNs ≥ remoteStateLifetimeNs

/-- What goes with a participant: its slot, its part of the graph and its endpoints. -/
def removeParticipant (s : NetworkRuntime) (i : Fin 16) : NetworkRuntime :=
  let guidPrefix := (s.participants.get i).data.guidPrefix
  { s with
    participants := setSlot s.participants i {}
    graph := s.graph.step (.removeRemoteParticipant guidPrefix)
    endpoints := s.endpoints.map fun e =>
      if e.occupied && e.data.participantGuidPrefix == guidPrefix then {} else e }

/-- One iteration of the loop over the participants; the flag is `changed`. -/
def expireParticipant (nowNs : UInt64) (s : NetworkRuntime × Bool) (i : Fin 16) :
    NetworkRuntime × Bool :=
  let participant := s.1.participants.get i
  if participant.occupied && expired nowNs participant.lastSeenNs then (s.1.removeParticipant i, true)
  else s

/-- The endpoints that have not been announced for the lifetime. -/
def expiredEndpoint (nowNs : UInt64) (e : RemoteEndpoint) : Bool :=
  e.occupied && expired nowNs e.lastSeenNs

/-- `expire_remote_state`. -/
def expireRemoteState (s : NetworkRuntime) (nowNs : UInt64) : NetworkRuntime :=
  let afterParticipants := (List.finRange 16).foldl (expireParticipant nowNs) (s, false)
  let changed := afterParticipants.2 || afterParticipants.1.endpoints.toList.any (expiredEndpoint nowNs)
  let s : NetworkRuntime :=
    { afterParticipants.1 with
      endpoints := afterParticipants.1.endpoints.map fun e =>
        if expiredEndpoint nowNs e then {} else e }
  if changed then s.recomputeMatches else s

end Expire

end NetworkRuntime

/-- A step of the discovery: a datagram arrives, old state expires, or this context changes its part of
the graph or its publishers and subscriptions. -/
inductive DiscoveryEvent where
  | datagram (packet : Datagram) (nowNs : UInt64)
  | expire (nowNs : UInt64)
  | graph (op : GraphOp)
  | registries (publishers subscriptions : Vector MatchSlot 8)

namespace NetworkRuntime

def step (s : NetworkRuntime) : DiscoveryEvent → NetworkRuntime
  | .datagram packet nowNs => s.receiveDiscovery packet nowNs
  | .expire nowNs => s.expireRemoteState nowNs
  | .graph op => if op.isLocal then { s with graph := s.graph.step op } else s
  | .registries publishers subscriptions => { s with publishers, subscriptions }

/-- The worker after a run of steps. -/
def after (participantPrefix : GuidPrefix) (domainId : ℕ) (events : List DiscoveryEvent) :
    NetworkRuntime :=
  run step { participantPrefix, domainId } events

end NetworkRuntime

end OpenRtdds
