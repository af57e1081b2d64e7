import OpenRtdds.Spec.Discovery
import OpenRtdds.Spec.Network

/-!
# Where samples are sent

`send_pending_samples` of `rmw_openrtdds_cpp/src/network_runtime.cpp`, over all publishers of a context:
the samples that are pending go to the best-effort readers that match, each to the first endpoint of its
unicast locators, and a reliable reader gets a link in the table `reliable_writers_`.

A pass reads the discovery state and does not change it. `user_socket_.send_to` is a record of what is
handed to the socket. The counter `test_drop_reliable_data_` is zero outside of the tests.
-/

namespace OpenRtdds

open Lib

/-- `transport::UdpEndpoint`. -/
structure UdpEndpoint where
  octets : Vector UInt8 4 := .replicate 4 0
  port : ℕ := 0
  deriving DecidableEq

/-- `to_endpoint`. -/
def toEndpoint (locator : Locator) : Option UdpEndpoint :=
  if validUdpV4Locator locator then
    let address := locator.address.toList
    some
      { octets := #v[byteAt address 12, byteAt address 13, byteAt address 14, byteAt address 15]
        port := locator.port % 2 ^ 16 }
  else none

/-- `first_endpoint`. -/
def firstEndpoint {capacity : ℕ} (locators : BoundedLocatorList capacity) : Option UdpEndpoint :=
  locators.entries.findSome? toEndpoint

/-- A datagram that is handed to the socket, with the slot of the publisher and the reader it is for. -/
structure Sent where
  slot : Fin 8
  reader : GuidPrefix × EntityId
  destination : UdpEndpoint
  packet : List UInt8
  deriving DecidableEq

/-- What a pass reads of a publisher besides its names and policies: the generation of its slot, its
writer id, and `publisher_network_copy_next`. -/
structure PublisherFeed where
  generation : UInt32
  entityId : EntityId
  copyNext : ℕ → Option (ℕ × List UInt8)

/-- A slot of `reliable_writers_`. -/
structure WriterLinkSlot where
  link : WriterLink := { state := .init {}, lastQueuedSequence := 0, nextHeartbeatNs := 0 }
  remotePrefix : GuidPrefix := .replicate 12 0
  remoteReader : EntityId := .replicate 4 0
  localWriter : EntityId := .replicate 4 0
  destination : UdpEndpoint := {}
  localSlot : ℕ := 0
  localGeneration : UInt32 := 0
  occupied : Bool := false

/-- The part of `NetworkRuntime` that only sending works on. -/
structure Sender where
  publisherGenerations : Vector UInt32 8 := .replicate 8 0
  lastSentSequence : Vector ℕ 8 := .replicate 8 0
  reliableWriters : Vector WriterLinkSlot 32 := .replicate 32 {}

section Links

/-- What a link is found by: the slot, its generation and writer, and the remote reader. -/
abbrev LinkKey := ℕ × UInt32 × EntityId × GuidPrefix × EntityId

/-- The fields `writer_link` tells a link by. -/
def WriterLinkSlot.key (l : WriterLinkSlot) : LinkKey :=
  (l.localSlot, l.localGeneration, l.localWriter, l.remotePrefix, l.remoteReader)

/-- The key of the link of a publisher to a remote reader. -/
def linkKey (slot : Fin 8) (feed : PublisherFeed) (remote : SedpEndpointData) : LinkKey :=
  (slot, feed.generation, feed.entityId, remote.participantGuidPrefix, remote.endpointId)

/-- The link `writer_link` creates. -/
def newLink (slot : Fin 8) (feed : PublisherFeed) (remote : SedpEndpointData)
    (destination : UdpEndpoint) : WriterLinkSlot where
  link := .create remote.endpointId feed.entityId
  remotePrefix := remote.participantGuidPrefix
  remoteReader := remote.endpointId
  localWriter := feed.entityId
  destination
  localSlot := slot
  localGeneration := feed.generation
  occupied := true

/-- `writer_link`: the place of the link, and the table. -/
def writerLink (links : Vector WriterLinkSlot 32) (slot : Fin 8) (feed : PublisherFeed)
    (remote : SedpEndpointData) : Option (Fin 32 × Vector WriterLinkSlot 32) :=
  match links.findFinIdx? fun l => l.occupied && decide (l.key = linkKey slot feed remote) with
  | some i =>
    let link := links.get i
    let destination := (firstEndpoint remote.unicastLocators).getD link.destination
    some (i, setSlot links i { link with destination })
  | none =>
    match links.findFinIdx? (!·.occupied) with
    | none => none
    | some i => (firstEndpoint remote.unicastLocators).map fun destination =>
      (i, setSlot links i (newLink slot feed remote destination))

/-- The part of `send_pending_samples` for one reliable reader. -/
def sendReliable (slot : Fin 8) (feed : PublisherFeed) (nowNs : ℕ) (links : Vector WriterLinkSlot 32)
    (remote : RemoteEndpoint) : Vector WriterLinkSlot 32 × List Sent :=
  match writerLink links slot feed remote.data with
  | none => (links, [])
  | some (i, links) =>
    let link := links.get i
    let r := link.link.sendNext feed.copyNext nowNs
    (setSlot links i { link with link := r.1 }, r.2.map fun packet =>
      { slot
        reader := (remote.data.participantGuidPrefix, remote.data.endpointId)
        destination := link.destination
        packet })

end Links

section BestEffort

/-- `kMaximumSamplesPerPublisherPass`. -/
def maximumSamplesPerPublisherPass : ℕ := 32

/-- One sample for the best-effort readers. -/
def sendSample (slot : Fin 8) (packet : List UInt8) (readers : List RemoteEndpoint) : List Sent :=
  readers.filterMap fun remote => (firstEndpoint remote.data.unicastLocators).map fun destination =>
    { slot
      reader := (remote.data.participantGuidPrefix, remote.data.endpointId)
      destination
      packet }

/-- The loop over the pending samples, with the number of the last one. -/
def sendBestEffort (slot : Fin 8) (feed : PublisherFeed) (readers : List RemoteEndpoint) :
    ℕ → ℕ → ℕ × List Sent
  | 0, lastSent => (lastSent, [])
  | samples + 1, lastSent =>
    match feed.copyNext lastSent with
    | none => (lastSent, [])
    | some (sequenceNumber, packet) =>
      let rest := sendBestEffort slot feed readers samples sequenceNumber
      (rest.1, sendSample slot packet readers ++ rest.2)

end BestEffort

namespace NetworkRuntime

/-- The number a publisher's samples have been sent up to; a slot that has been taken again starts
anew. -/
def lastSent (sender : Sender) (slot : Fin 8) (feed : PublisherFeed) : ℕ :=
  if sender.publisherGenerations.get slot ≠ feed.generation then 0 else sender.lastSentSequence.get slot

/-- The iteration of `send_pending_samples` for one slot. -/
def sendSlot (s : NetworkRuntime) (feeds : Fin 8 → PublisherFeed) (nowNs : ℕ) (sender : Sender)
    (slot : Fin 8) : Sender × List Sent :=
  let feed := feeds slot
  let publisherGenerations := setSlot sender.publisherGenerations slot feed.generation
  if !(s.publishers.get slot).occupied then
    ({ sender with
       publisherGenerations
       lastSentSequence := setSlot sender.lastSentSequence slot 0 }, [])
  else
    match (s.publishers.get slot).data with
    | none =>
      ({ sender with
         publisherGenerations
         lastSentSequence := setSlot sender.lastSentSequence slot (lastSent sender slot feed) }, [])
    | some source =>
      let descriptor := source.publisherNetworkView
      let readers := s.matchesOf .reader descriptor
      let bestEffort := sendBestEffort slot feed (readers.filter (·.data.reliability != .reliable))
        maximumSamplesPerPublisherPass (lastSent sender slot feed)
      let sender :=
        { sender with
          publisherGenerations
          lastSentSequence := setSlot sender.lastSentSequence slot bestEffort.1 }
      if descriptor.reliability ≠ .reliable then (sender, bestEffort.2)
      else
        let reliable := collect (sendReliable slot feed nowNs) sender.reliableWriters
          (readers.filter (·.data.reliability == .reliable))
        ({ sender with reliableWriters := reliable.1 }, bestEffort.2 ++ reliable.2)

/-- `send_pending_samples`. -/
def sendPendingSamples (s : NetworkRuntime) (feeds : Fin 8 → PublisherFeed) (nowNs : ℕ)
    (sender : Sender) : Sender × List Sent :=
  collect (s.sendSlot feeds nowNs) sender (List.finRange 8)

end NetworkRuntime

end OpenRtdds
