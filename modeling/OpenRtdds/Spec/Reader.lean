import OpenRtdds.Spec.Action

/-!
# ReliableReader

`ReliableReader<WindowBits>` of `rtps/reliability_state.hpp`: a circular array of flags
says which of the numbers from `base` on have arrived. The class requires
`0 < WindowBits ≤ 256`.
-/

namespace OpenRtdds

open Lib

/-- `rtps::ReliableReaderConfig`. -/
structure ReliableReaderConfig where
  readerId : EntityId := .replicate 4 0
  writerId : EntityId := .replicate 4 0
  initialSequenceNumber : ℕ := 1

/-- `rtps::ReliableReader`. -/
structure ReliableReader (W : ℕ) where
  config : ReliableReaderConfig
  received : Fin W → Bool
  base : ℕ
  baseIndex : ℕ
  acknackCount : BitVec 32
  lastHeartbeatCount : BitVec 32
  valid : Bool
  heartbeatCountInitialized : Bool

namespace ReliableReader

variable {W cap : ℕ}

/-- The constructor. -/
def init (config : ReliableReaderConfig) : ReliableReader W where
  config := config
  received := fun _ => false
  base := config.initialSequenceNumber
  baseIndex := 0
  acknackCount := 0
  lastHeartbeatCount := 0
  valid := validStateSequence config.initialSequenceNumber
  heartbeatCountInitialized := false

variable [NeZero W]

/-- The loop `while (received_[base_index_])` of `on_data`, at most `fuel` iterations. -/
def advance : ℕ → ReliableReader W → ReliableReader W
  | 0, r => r
  | fuel + 1, r =>
    if r.received (wrap r.baseIndex) then
      advance fuel { r with
        received := Function.update r.received (wrap r.baseIndex) false
        baseIndex := (r.baseIndex + 1) % W
        base := r.base + 1 }
    else r

/-- `ReliableReader::on_data`. The loop clears a flag in every iteration, so `W`
iterations are all it can make. -/
def onData (r : ReliableReader W) (sequenceNumber : ℕ) (actions : ActionBuffer cap) :
    Outcome (ReliableReader W) cap :=
  if !r.valid then ⟨.invalidConfiguration, r, actions⟩
  else if !validStateSequence sequenceNumber then ⟨.invalidSequenceNumber, r, actions⟩
  else if sequenceNumber < r.base then ⟨.staleData, r, actions⟩
  else
    let offset := sequenceNumber - r.base
    if offset ≥ W then ⟨.receiveWindowExceeded, r, actions⟩
    else
      let slot : Fin W := wrap (r.baseIndex + offset)
      if r.received slot then ⟨.duplicateData, r, actions⟩
      else if actions.remaining = 0 then ⟨.actionCapacityExceeded, r, actions⟩
      else ⟨.none, advance W { r with received := Function.update r.received slot true },
        actions.push (.sampleReceived sequenceNumber)⟩

/-- `valid_heartbeat_range`. -/
def validHeartbeatRange (heartbeat : Heartbeat) : Bool :=
  heartbeat.firstSequenceNumber != 0 && decide (heartbeat.firstSequenceNumber ≤ int64Max) &&
    decide (heartbeat.lastSequenceNumber ≤ int64Max) &&
    decide (heartbeat.lastSequenceNumber ≥ heartbeat.firstSequenceNumber - 1)

/-- The bitmap `on_heartbeat` sends when the writer covers `base`: a set bit asks for a
number that has not arrived. -/
def missing (r : ReliableReader W) (lastSequenceNumber : ℕ) : SequenceNumberSet :=
  let available := lastSequenceNumber - r.base + 1
  let numBits := if available < W then available else W
  (List.range numBits).foldl
    (fun s offset => if !r.received (wrap (r.baseIndex + offset)) then (s.set offset).2 else s)
    (SequenceNumberSet.empty.reset r.base numBits).2

/-- `ReliableReader::on_heartbeat`. -/
def onHeartbeat (r : ReliableReader W) (heartbeat : Heartbeat) (actions : ActionBuffer cap) :
    Outcome (ReliableReader W) cap :=
  if !r.valid then ⟨.invalidConfiguration, r, actions⟩
  else if !validHeartbeatRange heartbeat then ⟨.invalidSequenceNumber, r, actions⟩
  else if heartbeat.readerId ≠ r.config.readerId ∨ heartbeat.writerId ≠ r.config.writerId then
    ⟨.unexpectedPeer, r, actions⟩
  else if r.heartbeatCountInitialized &&
      !controlCountIsNewer heartbeat.count r.lastHeartbeatCount then ⟨.staleControl, r, actions⟩
  else if heartbeat.lastSequenceNumber ≥ r.base ∧ heartbeat.firstSequenceNumber > r.base then
    ⟨.gapNotRepairable, r, actions⟩
  else
    let writerCoversBase := decide (heartbeat.lastSequenceNumber ≥ r.base)
    let responseRequired := writerCoversBase || !heartbeat.finalFlag
    if responseRequired && actions.remaining == 0 then ⟨.actionCapacityExceeded, r, actions⟩
    else
      let seen := { r with lastHeartbeatCount := heartbeat.count, heartbeatCountInitialized := true }
      if responseRequired then
        let count := nextControlCount r.acknackCount
        let readerState := if writerCoversBase then r.missing heartbeat.lastSequenceNumber
          else (SequenceNumberSet.empty.reset r.base 0).2
        ⟨.none, { seen with acknackCount := count },
          actions.push (.sendAcknack r.config.readerId r.config.writerId readerState count
            (!writerCoversBase))⟩
      else ⟨.none, seen, actions⟩

end ReliableReader

end OpenRtdds
