import OpenRtdds.Lib.Run
import OpenRtdds.Spec.Publisher
import OpenRtdds.Spec.Reader
import OpenRtdds.Spec.Writer

/-!
# One reliable association of the network worker

`rmw_openrtdds_cpp/src/network_runtime.cpp` for one local publisher and one remote
subscription that are matched and both reliable: the writer link of the publishing context
(`WriterSide`), the reader link and the subscription of the receiving context
(`ReaderSide`), and the two connected by the network (`Association`). The tables of the
runtime hold no other entry that a message of the pair could reach, so a link is an option
here: `none` until the first use and after pruning.

DATA travels as datagrams; HEARTBEAT and ACKNACK travel as the records the wire codec
carries.
-/

namespace OpenRtdds

open Lib

/-- `kMaximumDatagramSize`. -/
def maximumDatagramSize : ℕ := 65507

/-- `direct_message`: an INFO_DST between the header of a message and the rest. `outputCapacity` is `none`
for a null output. -/
def directMessage (message : Span) (destination : GuidPrefix) (outputCapacity : Option ℕ) :
    Option (List UInt8) :=
  outputCapacity.bind fun capacity =>
    if message.isNull ∨ capacity < 16 ∨ message.size < 20 ∨ message.size > capacity - 16 then none
    else some (message.data.take 20 ++
      ([submessageIdInfoDestination, 0x01, 12, 0] ++ destination.toList ++ message.data.drop 20))

/-- `kRepairWindowNs` and `kHeartbeatPeriodNs`. -/
def repairWindowNs : ℕ := 2000000000

def heartbeatPeriodNs : ℕ := 100000000

/-- An identity of an endpoint in discovery data. -/
structure Guid where
  guidPrefix : GuidPrefix
  entityId : EntityId
  deriving DecidableEq

/-- The datagram an action asks to repeat. -/
def ReliabilityAction.retransmit? : ReliabilityAction → Option (List UInt8)
  | .retransmitData _ data => some data
  | _ => none

/-- `ReliableWriterLink`. -/
structure WriterLink where
  state : ReliableWriter 1 maximumDatagramSize
  lastQueuedSequence : ℕ
  nextHeartbeatNs : ℕ

namespace WriterLink

/-- The link that `writer_link` creates for a remote reader and a local writer. -/
def create (readerId writerId : EntityId) : WriterLink where
  state := .init { readerId, writerId, maxRepairAttempts := 2, repairWindowNs }
  lastQueuedSequence := 0
  nextHeartbeatNs := 0

/-- What `send_pending_samples` does with the link of a reliable reader, with the DATA it sends;
`copyNext` is `publisher_network_copy_next`. -/
def sendNext (link : WriterLink) (copyNext : ℕ → Option (ℕ × List UInt8)) (nowNs : ℕ) :
    WriterLink × List (List UInt8) :=
  if !link.state.empty then (link, [])
  else match copyNext link.lastQueuedSequence with
    | none => (link, [])
    | some (sequenceNumber, packet) =>
      let o := link.state.write (.bytes packet) sequenceNumber nowNs (.empty : ActionBuffer 4)
      match o.error, o.actions.actions with
      | .none, [.sendData _ data] =>
        ({ state := o.state, lastQueuedSequence := sequenceNumber, nextHeartbeatNs := nowNs }, [data])
      | _, _ => ({ link with state := o.state }, [])

end WriterLink

/-- The publishing context: the publisher, the remote reader it discovered and its link. -/
structure WriterSide (D : ℕ) where
  publisher : Publisher D
  reader : Guid
  link : Option WriterLink

namespace WriterSide

variable {D : ℕ} [NeZero D]

/-- `writer_link`: the link, created on first use. -/
def writerLink (w : WriterSide D) : WriterLink :=
  w.link.getD (.create w.reader.entityId w.publisher.writerId)

/-- The reliable part of `send_pending_samples`, with the datagrams it sends. -/
def sendPendingSamples (w : WriterSide D) (nowNs : ℕ) : WriterSide D × List (List UInt8) :=
  let r := w.writerLink.sendNext (w.publisher.networkCopyNext · maximumDatagramSize) nowNs
  ({ w with link := some r.1 }, r.2)

/-- `service_reliable_writers`, with the HEARTBEAT it sends. -/
def serviceReliableWriters (w : WriterSide D) (nowNs : ℕ) : WriterSide D × Option Heartbeat :=
  match w.link with
  | none => (w, none)
  | some link =>
    let o := link.state.onTimer nowNs (.empty : ActionBuffer 4)
    if o.error ≠ .none then ({ w with link := none }, none)
    else if !o.state.empty && decide (nowNs ≥ link.nextHeartbeatNs) then
      -- `send_heartbeat`
      let r := o.state.fillHeartbeat
        { header := { version := protocolVersion, vendorId, guidPrefix := w.publisher.participantPrefix }
          finalFlag := false }
      let link := { link with state := r.2.1, nextHeartbeatNs := nowNs + heartbeatPeriodNs }
      ({ w with link := some link }, if r.1 = .none then some r.2.2 else none)
    else
      let link := { link with state := o.state }
      ({ w with link := some link }, none)

/-- `handle_acknack`, with the actions of the writer. -/
def handleAcknack (w : WriterSide D) (acknack : AckNack) (nowNs : ℕ) :
    WriterSide D × List ReliabilityAction :=
  if acknack.header.guidPrefix ≠ w.reader.guidPrefix ∨ acknack.readerId ≠ w.reader.entityId then
    (w, [])
  else match w.link with
    | none => (w, [])
    | some link =>
      if acknack.writerId ≠ w.publisher.writerId then (w, [])
      else
        let o := link.state.onAcknack acknack nowNs (.empty : ActionBuffer 4)
        let repeats := o.actions.actions.filterMap ReliabilityAction.retransmit?
        let link := { link with
          state := o.state
          nextHeartbeatNs := if repeats.isEmpty then link.nextHeartbeatNs else nowNs }
        ({ w with link := some link }, o.actions.actions)

end WriterSide

/-- The receiving context: the subscription, the remote writer it discovered and its link. -/
structure ReaderSide (S : ℕ) where
  subscription : Subscription S
  writer : Guid
  link : Option (ReliableReader 256)

namespace ReaderSide

variable {S : ℕ}

/-- `reader_link`: the link, created on first use with a nonzero initial number. -/
def readerLink (r : ReaderSide S) (initialSequence : ℕ) : Option (ReliableReader 256) :=
  match r.link with
  | some link => some link
  | none =>
    if initialSequence = 0 then none
    else some (.init
      { readerId := r.subscription.readerId
        writerId := r.writer.entityId
        initialSequenceNumber := initialSequence })

/-- `handle_heartbeat`, with the ACKNACK it sends. -/
def handleHeartbeat (r : ReaderSide S) (heartbeat : Heartbeat) : ReaderSide S × Option AckNack :=
  if heartbeat.header.guidPrefix ≠ r.writer.guidPrefix ∨ heartbeat.writerId ≠ r.writer.entityId then
    (r, none)
  else if heartbeat.readerId ≠ unknownReader ∧ heartbeat.readerId ≠ r.subscription.readerId then
    (r, none)
  else match r.readerLink heartbeat.firstSequenceNumber with
    | none => (r, none)
    | some link =>
      let directed := { heartbeat with readerId := r.subscription.readerId }
      let o := link.onHeartbeat directed (.empty : ActionBuffer 4)
      let reply := match o.actions.actions with
        | [.sendAcknack readerId writerId readerState count finalFlag] =>
          -- `send_acknack`
          some
            { header :=
                { version := protocolVersion, vendorId
                  guidPrefix := r.subscription.participantPrefix }
              readerId, writerId, readerState, count, finalFlag }
        | _ => none
      ({ r with link := some o.state }, reply)

variable [NeZero S]

/-- What the reader link makes of a parsed DATA message: the link it leaves, and whether
`on_data` returned `none` with `sample_received`. -/
def linkData (r : ReaderSide S) (sequenceNumber : ℕ) : Option (ReliableReader 256) × Bool :=
  match r.readerLink sequenceNumber with
  | none => (r.link, false)
  | some link =>
    let o := link.onData sequenceNumber (.empty : ActionBuffer 4)
    (some o.state, o.error == .none && match o.actions.actions with
      | [.sampleReceived _] => true
      | _ => false)

/-- `handle_data`; `received` says what the subscription made of the datagram, if it was
given it. -/
def handleData (r : ReaderSide S) (packet : Span) (receivedTimestampNs : ℕ) :
    ReaderSide S × Option (Except SubscriptionReceiveError SubscriptionReceiveResult) :=
  match parseDataMessage packet with
  | .error _ => (r, none)
  | .ok view =>
    if view.guidPrefix ≠ r.writer.guidPrefix ∨ view.writerId ≠ r.writer.entityId then (r, none)
    else
      let link := r.linkData view.sequenceNumber
      if !link.2 then ({ r with link := link.1 }, none)
      else
        let received := r.subscription.networkReceive packet receivedTimestampNs
        ({ r with link := link.1, subscription := received.2 }, some received.1)

end ReaderSide

/-- The number a call of `handle_data` brought into the history. -/
def acceptedNumber? :
    Option (Except SubscriptionReceiveError SubscriptionReceiveResult) → Option ℕ
  | some (.ok (.accepted number _ _)) => some number
  | _ => none

/-- What happens to the receiving context: a datagram or a HEARTBEAT arrives, or the
application takes with a codec that decodes some payloads. -/
inductive ReaderSideEvent where
  | data (packet : Span) (receivedTimestampNs : ℕ)
  | heartbeat (heartbeat : Heartbeat)
  | take (decode : List UInt8 → Option Unit)

/-- The receiving context with the numbers its subscription accepted from the writer. -/
structure ReaderSideLog (S : ℕ) where
  side : ReaderSide S
  accepted : List ℕ

namespace ReaderSideLog

variable {S : ℕ} [NeZero S]

def step (l : ReaderSideLog S) : ReaderSideEvent → ReaderSideLog S
  | .data packet ts =>
    let r := l.side.handleData packet ts
    { side := r.1, accepted := l.accepted ++ (acceptedNumber? r.2).toList }
  | .heartbeat heartbeat => { l with side := (l.side.handleHeartbeat heartbeat).1 }
  | .take decode =>
    { l with side := { l.side with subscription := (l.side.subscription.takeOne decode).2 } }

/-- The receiving context after a run. -/
def after (side : ReaderSide S) (es : List ReaderSideEvent) : ReaderSideLog S :=
  run step { side, accepted := [] } es

end ReaderSideLog

/-- A writer side and a reader side that are matched, with every message either of them ever
sent. A message in flight is one of these. -/
structure Association (D S : ℕ) where
  writer : WriterSide D
  reader : ReaderSide S
  data : List (List UInt8) := []
  heartbeats : List Heartbeat := []
  acknacks : List AckNack := []

/-- What happens to an association. A `deliver` event picks any message sent so far by its
index, so that messages may be lost, repeated and reordered; the prune events are those of
`prune_reliable_links`. -/
inductive AssociationEvent where
  | publish (serialized : List UInt8) (clock : Option ℕ)
  | sendPending (nowNs : ℕ)
  | service (nowNs : ℕ)
  | deliverData (index receivedTimestampNs : ℕ)
  | deliverHeartbeat (index : ℕ)
  | deliverAcknack (index nowNs : ℕ)
  | pruneWriter
  | pruneReader

namespace Association

variable {D S : ℕ} [NeZero D] [NeZero S]

/-- A new publisher and a new subscription that discovered each other. -/
def init (publisher : Publisher D) (subscription : Subscription S) : Association D S where
  writer :=
    { publisher
      reader := ⟨subscription.participantPrefix, subscription.readerId⟩
      link := none }
  reader :=
    { subscription
      writer := ⟨publisher.participantPrefix, publisher.writerId⟩
      link := none }

/-- The next due HEARTBEAT of the writer link is handed to `handle_heartbeat`, and the
ACKNACK it causes to `handle_acknack`: the actions of the writer. -/
def acknowledge (a : Association D S) (heartbeatNs acknackNs : ℕ) :
    Association D S × List ReliabilityAction :=
  match a.writer.serviceReliableWriters heartbeatNs with
  | (writer, none) => ({ a with writer }, [])
  | (writer, some heartbeat) =>
    match a.reader.handleHeartbeat heartbeat with
    | (reader, none) => ({ a with writer, reader }, [])
    | (reader, some acknack) =>
      let r := writer.handleAcknack acknack acknackNs
      ({ a with writer := r.1, reader }, r.2)

def step (a : Association D S) : AssociationEvent → Association D S
  | .publish serialized clock =>
    match a.writer.publisher.publishSerialized serialized clock with
    | .error _ => a
    | .ok publisher => { a with writer := { a.writer with publisher } }
  | .sendPending now =>
    let r := a.writer.sendPendingSamples now
    { a with writer := r.1, data := a.data ++ r.2 }
  | .service now =>
    let r := a.writer.serviceReliableWriters now
    { a with writer := r.1, heartbeats := a.heartbeats ++ r.2.toList }
  | .deliverData index ts =>
    match a.data[index]? with
    | none => a
    | some packet => { a with reader := (a.reader.handleData (.bytes packet) ts).1 }
  | .deliverHeartbeat index =>
    match a.heartbeats[index]? with
    | none => a
    | some heartbeat =>
      let r := a.reader.handleHeartbeat heartbeat
      { a with reader := r.1, acknacks := a.acknacks ++ r.2.toList }
  | .deliverAcknack index now =>
    match a.acknacks[index]? with
    | none => a
    | some acknack =>
      let r := a.writer.handleAcknack acknack now
      { a with writer := r.1, data := a.data ++ r.2.filterMap ReliabilityAction.retransmit? }
  | .pruneWriter => { a with writer := { a.writer with link := none } }
  | .pruneReader => { a with reader := { a.reader with link := none } }

/-- The association after a run. -/
def after (publisher : Publisher D) (subscription : Subscription S) (es : List AssociationEvent) :
    Association D S :=
  run step (init publisher subscription) es

end Association

end OpenRtdds
