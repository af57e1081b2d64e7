import OpenRtdds.Lib.Run
import OpenRtdds.Spec.Reader
import OpenRtdds.Spec.Writer

/-!
# Runs of the reliability state machines

Calls on a writer or a reader as events, with the actions the calls emitted kept in a
log: a reader or writer alone, driven by arbitrary calls (`WriterLog`, `ReaderLog`), and
the two connected by a network (`Link`) that may lose, duplicate and reorder every DATA
number, HEARTBEAT and ACKNACK the two sides ever produced.
-/

namespace OpenRtdds

open Lib

namespace ReliabilityAction

/-- The number of a sample the writer asks to send or to repeat. -/
def dataNumber? : ReliabilityAction → Option ℕ
  | sendData s _ | retransmitData s _ => some s
  | _ => none

/-- The number and the bytes of a sample the writer asks to repeat. -/
def repair? : ReliabilityAction → Option (ℕ × List UInt8)
  | retransmitData s data => some (s, data)
  | _ => none

def deliveredNumber? : ReliabilityAction → Option ℕ
  | sampleDelivered s => some s
  | _ => none

def failedNumber? : ReliabilityAction → Option ℕ
  | sampleFailed s _ => some s
  | _ => none

def receivedNumber? : ReliabilityAction → Option ℕ
  | sampleReceived s => some s
  | _ => none

/-- The ACKNACK message an action asks to send. -/
def acknack? : ReliabilityAction → Option AckNack
  | sendAcknack readerId writerId readerState controlCount finalFlag =>
    some { readerId, writerId, readerState, count := controlCount, finalFlag }
  | _ => none

end ReliabilityAction

/-- A call on a writer, with the actions buffer it is given (of any capacity, possibly
holding earlier actions). -/
inductive WriterEvent where
  | write {cap : ℕ} (payload : Span) (sequenceNumber nowNs : ℕ) (actions : ActionBuffer cap)
  | acknack {cap : ℕ} (acknack : AckNack) (nowNs : ℕ) (actions : ActionBuffer cap)
  | timer {cap : ℕ} (nowNs : ℕ) (actions : ActionBuffer cap)
  | heartbeat (template : Heartbeat)

/-- A writer with what it did so far: the numbers `write` accepted, the actions it
emitted and the heartbeats it filled, oldest first. -/
structure WriterLog (H P : ℕ) where
  writer : ReliableWriter H P
  accepted : List ℕ := []
  actions : List ReliabilityAction := []
  heartbeats : List Heartbeat := []

namespace WriterLog

variable {H P : ℕ}

def init (config : ReliableWriterConfig) : WriterLog H P := { writer := .init config }

/-- The numbers reported by `sample_delivered`, in order. -/
def delivered (l : WriterLog H P) : List ℕ := l.actions.filterMap ReliabilityAction.deliveredNumber?

/-- The numbers reported by `sample_failed`, in order. -/
def failed (l : WriterLog H P) : List ℕ := l.actions.filterMap ReliabilityAction.failedNumber?

/-- The numbers of the DATA messages sent so far. -/
def data (l : WriterLog H P) : List ℕ := l.actions.filterMap ReliabilityAction.dataNumber?

/-- The repairs asked for so far, in order. -/
def repairs (l : WriterLog H P) : List (ℕ × List UInt8) :=
  l.actions.filterMap ReliabilityAction.repair?

variable [NeZero H]

/-- The numbers of the retained records, oldest first. -/
def retained (l : WriterLog H P) : List ℕ :=
  l.writer.retained.map fun r => r.sample.metadata.sequenceNumber

/-- Log the outcome of a call that was given the buffer `b`. -/
def record {cap : ℕ} (l : WriterLog H P) (b : ActionBuffer cap)
    (o : Outcome (ReliableWriter H P) cap) : WriterLog H P :=
  { l with writer := o.state, actions := l.actions ++ b.emitted o.actions }

def step (l : WriterLog H P) : WriterEvent → WriterLog H P
  | .write payload s now b =>
    let o := l.writer.write payload s now b
    { l.record b o with accepted := if o.error = .none then l.accepted ++ [s] else l.accepted }
  | .acknack a now b => l.record b (l.writer.onAcknack a now b)
  | .timer now b => l.record b (l.writer.onTimer now b)
  | .heartbeat template =>
    let r := l.writer.fillHeartbeat template
    { l with
      writer := r.2.1
      heartbeats := if r.1 = .none then l.heartbeats ++ [r.2.2] else l.heartbeats }

/-- A writer after a run of calls. -/
def after (config : ReliableWriterConfig) (es : List WriterEvent) : WriterLog H P :=
  run step (init config) es

end WriterLog

/-- A call on a reader. -/
inductive ReaderEvent where
  | data {cap : ℕ} (sequenceNumber : ℕ) (actions : ActionBuffer cap)
  | heartbeat {cap : ℕ} (heartbeat : Heartbeat) (actions : ActionBuffer cap)

/-- A reader with the actions it emitted so far. -/
structure ReaderLog (W : ℕ) where
  reader : ReliableReader W
  actions : List ReliabilityAction := []

namespace ReaderLog

variable {W : ℕ}

def init (config : ReliableReaderConfig) : ReaderLog W := { reader := .init config }

/-- The numbers reported by `sample_received`, in order. -/
def received (l : ReaderLog W) : List ℕ := l.actions.filterMap ReliabilityAction.receivedNumber?

/-- The ACKNACK messages sent so far. -/
def acknacks (l : ReaderLog W) : List AckNack := l.actions.filterMap ReliabilityAction.acknack?

/-- Log the outcome of a call that was given the buffer `b`. -/
def record {cap : ℕ} (l : ReaderLog W) (b : ActionBuffer cap) (o : Outcome (ReliableReader W) cap) :
    ReaderLog W where
  reader := o.state
  actions := l.actions ++ b.emitted o.actions

variable [NeZero W]

def step (l : ReaderLog W) : ReaderEvent → ReaderLog W
  | .data s b => l.record b (l.reader.onData s b)
  | .heartbeat h b => l.record b (l.reader.onHeartbeat h b)

/-- A reader after a run of calls. -/
def after (config : ReliableReaderConfig) (es : List ReaderEvent) : ReaderLog W :=
  run step (init config) es

end ReaderLog

/-- One writer and one reader. The network holds every message ever sent, so the messages
in flight are those of the two logs. -/
structure Link (H P W : ℕ) where
  writer : WriterLog H P
  reader : ReaderLog W

/-- A call on one side; a `deliver` event picks any message sent so far by its index, so
that messages may be lost, repeated and reordered. -/
inductive LinkEvent where
  | write {cap : ℕ} (payload : Span) (sequenceNumber nowNs : ℕ) (actions : ActionBuffer cap)
  | timer {cap : ℕ} (nowNs : ℕ) (actions : ActionBuffer cap)
  | heartbeat (template : Heartbeat)
  | deliverData {cap : ℕ} (index : ℕ) (actions : ActionBuffer cap)
  | deliverHeartbeat {cap : ℕ} (index : ℕ) (actions : ActionBuffer cap)
  | deliverAcknack {cap : ℕ} (index nowNs : ℕ) (actions : ActionBuffer cap)

namespace Link

variable {H P W : ℕ} [NeZero H] [NeZero W]

def init (writer : ReliableWriterConfig) (reader : ReliableReaderConfig) : Link H P W :=
  ⟨.init writer, .init reader⟩

def step (k : Link H P W) : LinkEvent → Link H P W
  | .write payload s now b => { k with writer := k.writer.step (.write payload s now b) }
  | .timer now b => { k with writer := k.writer.step (.timer now b) }
  | .heartbeat template => { k with writer := k.writer.step (.heartbeat template) }
  | .deliverData index b =>
    match k.writer.data[index]? with
    | some s => { k with reader := k.reader.step (.data s b) }
    | none => k
  | .deliverHeartbeat index b =>
    match k.writer.heartbeats[index]? with
    | some h => { k with reader := k.reader.step (.heartbeat h b) }
    | none => k
  | .deliverAcknack index now b =>
    match k.reader.acknacks[index]? with
    | some a => { k with writer := k.writer.step (.acknack a now b) }
    | none => k

/-- The link after a run of events. -/
def after (writer : ReliableWriterConfig) (reader : ReliableReaderConfig) (es : List LinkEvent) :
    Link H P W :=
  run step (init writer reader) es

/-- A round without loss: the retained DATA in ascending order, a new heartbeat, and the ACKNACK
that answers it. Every call has its own buffer. -/
def round (k : Link H P W) (dataBuffers : ℕ → (cap : ℕ) × ActionBuffer cap) (template : Heartbeat)
    {cap cap' : ℕ} (heartbeatBuffer : ActionBuffer cap) (nowNs : ℕ)
    (acknackBuffer : ActionBuffer cap') : List LinkEvent :=
  (k.writer.retained.map fun s => .deliverData (k.writer.data.idxOf s) (dataBuffers s).2) ++
    [.heartbeat template, .deliverHeartbeat k.writer.heartbeats.length heartbeatBuffer,
      .deliverAcknack k.reader.acknacks.length nowNs acknackBuffer]

end Link

end OpenRtdds
