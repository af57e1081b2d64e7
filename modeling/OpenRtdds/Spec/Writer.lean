import OpenRtdds.Spec.Action

/-!
# ReliableWriter

`ReliableWriter<HistoryDepth, MaxPayloadBytes>` of `rtps/reliability_state.hpp`: the
records that await acknowledgement, in a fixed array that `onAcknack` and `onTimer`
compact in place.
-/

namespace OpenRtdds

open Lib

/-- `rtps::ReliableWriterConfig`. -/
structure ReliableWriterConfig where
  readerId : EntityId := .replicate 4 0
  writerId : EntityId := .replicate 4 0
  maxRepairAttempts : UInt8 := 2
  repairWindowNs : ℕ := 100000000

namespace ReliableWriter

/-- `ReliableWriter::Record`. -/
structure Record (P : ℕ) where
  sample : BoundedSample P := {}
  firstSendNs : ℕ := 0
  repairAttempts : UInt8 := 0

/-- `ReliableWriter::Decision`. -/
inductive Decision where
  | keep
  | deliver
  | repair
  | failWindow
  | failAttempts
  deriving DecidableEq

end ReliableWriter

open ReliableWriter

/-- `rtps::ReliableWriter`. -/
structure ReliableWriter (H P : ℕ) where
  config : ReliableWriterConfig
  records : Fin H → Record P
  size : ℕ
  lastSequenceNumber : ℕ
  heartbeatCount : BitVec 32
  lastAcknackCount : BitVec 32
  valid : Bool
  acknackCountInitialized : Bool
  size_le : size ≤ H

namespace ReliableWriter

variable {H P cap : ℕ}

/-- The constructor. -/
def init (config : ReliableWriterConfig) : ReliableWriter H P where
  config := config
  records := fun _ => {}
  size := 0
  lastSequenceNumber := 0
  heartbeatCount := 0
  lastAcknackCount := 0
  valid := config.repairWindowNs != 0
  acknackCountInitialized := false
  size_le := Nat.zero_le H

variable [NeZero H]

/-- `ReliableWriter::write`. -/
def write (w : ReliableWriter H P) (payload : Span) (sequenceNumber nowNs : ℕ)
    (actions : ActionBuffer cap) : Outcome (ReliableWriter H P) cap :=
  if !w.valid then ⟨.invalidConfiguration, w, actions⟩
  else if payload.isNull && payload.size != 0 then ⟨.invalidArgument, w, actions⟩
  else if payload.size > P then ⟨.payloadTooLarge, w, actions⟩
  else if !validStateSequence sequenceNumber then ⟨.invalidSequenceNumber, w, actions⟩
  else if w.lastSequenceNumber != 0 && decide (sequenceNumber ≤ w.lastSequenceNumber) then
    ⟨.nonMonotonicSequence, w, actions⟩
  else if hfull : w.size = H then ⟨.historyFull, w, actions⟩
  else if actions.remaining = 0 then ⟨.actionCapacityExceeded, w, actions⟩
  else match BoundedSample.assign (P := P) payload ⟨sequenceNumber, nowNs⟩ with
    | .error .invalidArgument => ⟨.invalidArgument, w, actions⟩
    | .error .payloadTooLarge => ⟨.payloadTooLarge, w, actions⟩
    | .ok sample =>
      ⟨.none,
        { w with
          records := Function.update w.records (wrap w.size)
            { sample, firstSendNs := nowNs, repairAttempts := 0 }
          size := w.size + 1
          lastSequenceNumber := sequenceNumber
          size_le := by have := w.size_le; omega },
        actions.push (.sendData sequenceNumber sample.payload)⟩

/-- The body of the first loop of `on_acknack`: what an ACKNACK means for a record, or
`time_regression`. -/
def decision (config : ReliableWriterConfig) (acknack : AckNack) (nowNs : ℕ) (record : Record P) :
    Except ReliabilityError Decision :=
  let sequenceNumber := record.sample.metadata.sequenceNumber
  if sequenceNumber < acknack.readerState.bitmapBase then .ok .deliver
  else
    let offset := sequenceNumber - acknack.readerState.bitmapBase
    if offset < acknack.readerState.numBits then
      if !acknack.readerState.test offset then .ok .deliver
      else if nowNs < record.firstSendNs then .error .timeRegression
      else
        let elapsed := nowNs - record.firstSendNs
        if elapsed ≥ config.repairWindowNs then .ok .failWindow
        else if record.repairAttempts ≥ config.maxRepairAttempts then .ok .failAttempts
        else .ok .repair
    else .ok .keep

/-- One iteration of the first loop of `on_acknack`: the decisions array and the number
of required actions. -/
def decisionStep (w : ReliableWriter H P) (acknack : AckNack) (nowNs : ℕ)
    (s : (Fin H → Decision) × ℕ) (index : ℕ) : Except ReliabilityError ((Fin H → Decision) × ℕ) := do
  let d ← decision w.config acknack nowNs (w.records (wrap index))
  pure (Function.update s.1 (wrap index) d, if d ≠ .keep then s.2 + 1 else s.2)

/-- The record a decision retains. -/
def Decision.retain (record : Record P) : Decision → Option (Record P)
  | keep => some record
  | repair => some { record with repairAttempts := record.repairAttempts + 1 }
  | deliver | failWindow | failAttempts => none

/-- The action a decision emits. -/
def Decision.action (record : Record P) : Decision → Option ReliabilityAction
  | keep => none
  | repair => some (.retransmitData record.sample.metadata.sequenceNumber record.sample.payload)
  | deliver => some (.sampleDelivered record.sample.metadata.sequenceNumber)
  | failWindow => some (.sampleFailed record.sample.metadata.sequenceNumber .repairWindowExpired)
  | failAttempts => some (.sampleFailed record.sample.metadata.sequenceNumber .repairLimitExceeded)

namespace Decision

variable (r : Record P)

@[simp] theorem retain_keep : keep.retain r = some r := rfl
@[simp] theorem retain_repair :
    repair.retain r = some { r with repairAttempts := r.repairAttempts + 1 } := rfl
@[simp] theorem retain_deliver : deliver.retain r = none := rfl
@[simp] theorem retain_failWindow : failWindow.retain r = none := rfl
@[simp] theorem retain_failAttempts : failAttempts.retain r = none := rfl

@[simp] theorem action_keep : keep.action r = none := rfl
@[simp] theorem action_repair :
    repair.action r = some (.retransmitData r.sample.metadata.sequenceNumber r.sample.payload) := rfl
@[simp] theorem action_deliver :
    deliver.action r = some (.sampleDelivered r.sample.metadata.sequenceNumber) := rfl
@[simp] theorem action_failWindow : failWindow.action r =
    some (.sampleFailed r.sample.metadata.sequenceNumber .repairWindowExpired) := rfl
@[simp] theorem action_failAttempts : failAttempts.action r =
    some (.sampleFailed r.sample.metadata.sequenceNumber .repairLimitExceeded) := rfl

end Decision

/-- `ReliableWriter::on_acknack`. -/
def onAcknack (w : ReliableWriter H P) (acknack : AckNack) (nowNs : ℕ) (actions : ActionBuffer cap) :
    Outcome (ReliableWriter H P) cap :=
  if !w.valid then ⟨.invalidConfiguration, w, actions⟩
  else if acknack.readerId ≠ w.config.readerId ∨ acknack.writerId ≠ w.config.writerId then
    ⟨.unexpectedPeer, w, actions⟩
  else if w.acknackCountInitialized && !controlCountIsNewer acknack.count w.lastAcknackCount then
    ⟨.staleControl, w, actions⟩
  else match (List.range w.size).foldlM (decisionStep w acknack nowNs) (fun _ => Decision.keep, 0) with
    | .error e => ⟨e, w, actions⟩
    | .ok (decisions, requiredActions) =>
      if requiredActions > actions.remaining then ⟨.actionCapacityExceeded, w, actions⟩
      else
        let pass := compactLoop (fun index record => (decisions (wrap index)).retain record)
          (fun index record (out : ActionBuffer cap) =>
            out.pushSome ((decisions (wrap index)).action record)) w.records w.size actions
        ⟨.none,
          { w with
            records := pass.1
            size := pass.2.1
            lastAcknackCount := acknack.count
            acknackCountInitialized := true
            size_le := (compact_size_le _ _ _ _ w.size_le).trans w.size_le },
          pass.2.2⟩

/-- One iteration of the first loop of `on_timer`. -/
def expiredStep (w : ReliableWriter H P) (nowNs expired index : ℕ) : Except ReliabilityError ℕ :=
  let record := w.records (wrap index)
  if nowNs < record.firstSendNs then .error .timeRegression
  else .ok (if nowNs - record.firstSendNs ≥ w.config.repairWindowNs then expired + 1 else expired)

/-- `ReliableWriter::on_timer`. -/
def onTimer (w : ReliableWriter H P) (nowNs : ℕ) (actions : ActionBuffer cap) :
    Outcome (ReliableWriter H P) cap :=
  if !w.valid then ⟨.invalidConfiguration, w, actions⟩
  else match (List.range w.size).foldlM (expiredStep w nowNs) 0 with
    | .error e => ⟨e, w, actions⟩
    | .ok expired =>
      if expired > actions.remaining then ⟨.actionCapacityExceeded, w, actions⟩
      else
        let isExpired := fun record : Record P =>
          decide (nowNs - record.firstSendNs ≥ w.config.repairWindowNs)
        let pass := compactLoop (fun _ record => if isExpired record then none else some record)
          (fun _ record (out : ActionBuffer cap) => out.pushSome
            (if isExpired record then
              some (.sampleFailed record.sample.metadata.sequenceNumber .repairWindowExpired)
            else none)) w.records w.size actions
        ⟨.none,
          { w with
            records := pass.1
            size := pass.2.1
            size_le := (compact_size_le _ _ _ _ w.size_le).trans w.size_le },
          pass.2.2⟩

/-- `ReliableWriter::fill_heartbeat`: the error, the writer and the filled heartbeat. -/
def fillHeartbeat (w : ReliableWriter H P) (heartbeat : Heartbeat) :
    ReliabilityError × ReliableWriter H P × Heartbeat :=
  if !w.valid then (.invalidConfiguration, w, heartbeat)
  else
    let count := nextControlCount w.heartbeatCount
    (.none, { w with heartbeatCount := count },
      { heartbeat with
        firstSequenceNumber :=
          if w.size = 0 then w.lastSequenceNumber + 1
          else (w.records (wrap 0)).sample.metadata.sequenceNumber
        lastSequenceNumber := w.lastSequenceNumber
        readerId := w.config.readerId
        writerId := w.config.writerId
        count })

/-- The records that await acknowledgement, oldest first. -/
def retained (w : ReliableWriter H P) : List (Record P) := live w.records w.size

/-- `ReliableWriter::empty`. -/
def empty (w : ReliableWriter H P) : Bool := w.size == 0

end ReliableWriter

end OpenRtdds
