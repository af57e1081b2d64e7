import OpenRtdds.Lib.Window
import OpenRtdds.Spec.Reader

/-!
# What the calls of a ReliableReader do

The flags, `base_index_` and `base_` of a reader are a circular window (`Lib/Window`);
`on_data` marks an offset and settles the window, `on_heartbeat` reads it.

* `advance_window`: the advance loop of the source is the library's `settle`.
* `onData_error`, `onData_cases`: what `on_data` returns and does.
* `missing_spec`: the bitmap of an ACKNACK, bit by bit.
* `onHeartbeat_cases`: what `on_heartbeat` does.
-/

namespace OpenRtdds.ReliableReader

open Lib

variable {W cap : ℕ}

/-- The window of a reader. -/
def window (r : ReliableReader W) : Window W := ⟨r.received, r.baseIndex, r.base⟩

/-- The fields `on_data` leaves alone. -/
structure SameControl (r r' : ReliableReader W) : Prop where
  config : r'.config = r.config
  valid : r'.valid = r.valid
  acknackCount : r'.acknackCount = r.acknackCount
  heartbeat : r'.lastHeartbeatCount = r.lastHeartbeatCount ∧
    r'.heartbeatCountInitialized = r.heartbeatCountInitialized

variable [NeZero W]

theorem advance_window (fuel : ℕ) (r : ReliableReader W) :
    (advance fuel r).window = Window.settle fuel r.window := by
  induction fuel generalizing r with
  | zero => rfl
  | succ fuel ih =>
    unfold advance Window.settle
    have hb : r.window.bitAt 0 = r.received (wrap r.baseIndex) := rfl
    rw [hb]
    split
    · rw [ih]; rfl
    · rfl

theorem advance_control (fuel : ℕ) (r : ReliableReader W) : SameControl r (advance fuel r) := by
  induction fuel generalizing r with
  | zero => exact ⟨rfl, rfl, rfl, rfl, rfl⟩
  | succ fuel ih =>
    unfold advance
    split
    · have h := ih { r with
        received := Function.update r.received (wrap r.baseIndex) false
        baseIndex := (r.baseIndex + 1) % W
        base := r.base + 1 }
      exact ⟨h.config, h.valid, h.acknackCount, h.heartbeat⟩
    · exact ⟨rfl, rfl, rfl, rfl, rfl⟩

/-- **A successful `on_data`** reports the number and marks it in the window. -/
structure Took (r : ReliableReader W) (s : ℕ) (b : ActionBuffer cap)
    (o : Outcome (ReliableReader W) cap) : Prop where
  error : o.error = .none
  valid : r.valid = true
  number : validStateSequence s = true
  low : r.base ≤ s
  high : s < r.base + W
  clear : r.window.bitAt (s - r.base) = false
  window : o.state.window = Window.settle W (r.window.mark (s - r.base))
  control : SameControl r o.state
  actions : o.actions.actions = b.actions ++ [.sampleReceived s]

/-- The error `on_data` returns for a legal number when the buffer has room. -/
theorem onData_error {r : ReliableReader W} (hv : r.valid = true) {s : ℕ}
    (hs : validStateSequence s = true) {b : ActionBuffer cap} (hroom : b.remaining ≠ 0) :
    (r.onData s b).error =
      if s < r.base then .staleData
      else if r.base + W ≤ s then .receiveWindowExceeded
      else if r.window.bitAt (s - r.base) then .duplicateData
      else .none := by
  unfold onData
  rw [if_neg (by simp [hv]), if_neg (by simp [hs])]
  split
  · rfl
  rename_i hlow
  have hiff : s - r.base ≥ W ↔ r.base + W ≤ s := by omega
  have hb : r.received (wrap (r.baseIndex + (s - r.base))) = r.window.bitAt (s - r.base) := rfl
  simp only [hiff, hb]
  split
  · rfl
  split <;> rfl

theorem onData_cases (r : ReliableReader W) (s : ℕ) (b : ActionBuffer cap) :
    Refused r b (r.onData s b) ∨ Took r s b (r.onData s b) := by
  unfold onData
  refine refused_or (by simp) fun hv => refused_or (by simp) fun hs => ?_
  refine refused_or (by simp) fun hlow => refused_or (by simp) fun hhigh => ?_
  refine refused_or (by simp) fun hdup => refused_or (by simp) fun hroom => ?_
  have hc := advance_control W
    { r with received := Function.update r.received (wrap (r.baseIndex + (s - r.base))) true }
  refine .inr ⟨rfl, by simpa using hv, by simpa using hs, by omega, by omega,
    Bool.eq_false_iff.2 hdup, ?_, ⟨hc.config, hc.valid, hc.acknackCount, hc.heartbeat⟩,
    ActionBuffer.push_actions hroom _⟩
  rw [advance_window]
  rfl

/-- **The bitmap of an ACKNACK**: a bit is set exactly for the numbers whose flag is
clear, over the numbers the writer has and the window can hold. -/
theorem missing_spec (hW : W ≤ 256) {r : ReliableReader W} {L : ℕ} (h1 : 1 ≤ r.base)
    (h2 : r.base ≤ L) (h3 : L ≤ int64Max) :
    (r.missing L).bitmapBase = r.base ∧ (r.missing L).numBits = min W (L - r.base + 1) ∧
      ∀ k, k < min W (L - r.base + 1) → (r.missing L).test k = !r.window.bitAt k := by
  have hbits : (if L - r.base + 1 < W then L - r.base + 1 else W) = min W (L - r.base + 1) := by
    split <;> omega
  unfold missing
  simp only [hbits]
  set n := min W (L - r.base + 1) with hn
  obtain ⟨-, hb, hnb, hz⟩ := SequenceNumberSet.reset_ok .empty r.base n h1 (by omega)
    (by omega) (by omega)
  have hclear : ∀ j, (SequenceNumberSet.empty.reset r.base n).2.test j = false := by
    intro j
    unfold SequenceNumberSet.test
    split
    · rfl
    · rw [hz, Bitmap.test_zero]
  obtain ⟨gb, gn, gt⟩ := SequenceNumberSet.foldl_set
    (fun k => !r.received (wrap (r.baseIndex + k))) (List.range n)
    (SequenceNumberSet.empty.reset r.base n).2
  refine ⟨gb.trans hb, gn.trans hnb, fun k hk => ?_⟩
  have hmem : k ∈ List.range n := List.mem_range.2 hk
  rw [gt k (by omega), hclear k]
  simp only [hmem, decide_true, Bool.true_and, Bool.false_or]
  rfl

/-- The state an ACKNACK reports for a heartbeat that ends at `L`. -/
def report (r : ReliableReader W) (L : ℕ) : SequenceNumberSet :=
  if r.base ≤ L then r.missing L else (SequenceNumberSet.empty.reset r.base 0).2

/-- **A successful `on_heartbeat`** answers with the state of the window, or is silent. -/
structure Answered (r : ReliableReader W) (h : Heartbeat) (b : ActionBuffer cap)
    (o : Outcome (ReliableReader W) cap) : Prop where
  error : o.error = .none
  valid : r.valid = true
  range : validHeartbeatRange h = true
  peer : h.readerId = r.config.readerId ∧ h.writerId = r.config.writerId
  covered : r.base ≤ h.lastSequenceNumber → h.firstSequenceNumber ≤ r.base
  window : o.state.window = r.window
  config : o.state.config = r.config
  still : o.state.valid = r.valid
  seen : o.state.lastHeartbeatCount = h.count ∧ o.state.heartbeatCountInitialized = true
  reply : (h.lastSequenceNumber < r.base ∧ h.finalFlag = true ∧ o.actions = b ∧
      o.state.acknackCount = r.acknackCount) ∨
    ((r.base ≤ h.lastSequenceNumber ∨ h.finalFlag = false) ∧
      o.state.acknackCount = nextControlCount r.acknackCount ∧
      o.actions.actions = b.actions ++ [.sendAcknack r.config.readerId r.config.writerId
        (r.report h.lastSequenceNumber) (nextControlCount r.acknackCount)
        (!decide (r.base ≤ h.lastSequenceNumber))])

theorem Answered.last_le {r : ReliableReader W} {h : Heartbeat} {b : ActionBuffer cap}
    {o : Outcome (ReliableReader W) cap} (ha : Answered r h b o) : h.lastSequenceNumber ≤ int64Max := by
  have := ha.range
  simp only [validHeartbeatRange, Bool.and_eq_true, decide_eq_true_eq] at this
  exact this.1.2

theorem onHeartbeat_error (r : ReliableReader W) (h : Heartbeat) (b : ActionBuffer cap) :
    (r.onHeartbeat h b).error =
      if !r.valid then .invalidConfiguration
      else if !validHeartbeatRange h then .invalidSequenceNumber
      else if h.readerId ≠ r.config.readerId ∨ h.writerId ≠ r.config.writerId then .unexpectedPeer
      else if r.heartbeatCountInitialized && !controlCountIsNewer h.count r.lastHeartbeatCount then
        .staleControl
      else if h.lastSequenceNumber ≥ r.base ∧ h.firstSequenceNumber > r.base then .gapNotRepairable
      else if (decide (h.lastSequenceNumber ≥ r.base) || !h.finalFlag) && b.remaining == 0 then
        .actionCapacityExceeded
      else .none := by
  unfold onHeartbeat
  simp only
  repeat' split
  all_goals rfl

theorem onHeartbeat_cases (r : ReliableReader W) (h : Heartbeat) (b : ActionBuffer cap) :
    Refused r b (r.onHeartbeat h b) ∨ Answered r h b (r.onHeartbeat h b) := by
  unfold onHeartbeat
  refine refused_or (by simp) fun hv => refused_or (by simp) fun hrange => ?_
  refine refused_or (by simp) fun hpeer => refused_or (by simp) fun hcount => ?_
  refine refused_or (by simp) fun hgap => refused_or (by simp) fun hroom => ?_
  have hv' : r.valid = true := by simpa using hv
  have hrange' : validHeartbeatRange h = true := by simpa using hrange
  simp only [not_or, ne_eq, not_not] at hpeer
  have hcov : r.base ≤ h.lastSequenceNumber → h.firstSequenceNumber ≤ r.base := by
    intro hl
    by_contra hlt
    exact hgap ⟨hl, by omega⟩
  split
  next hresp =>
    have hroom' : b.remaining ≠ 0 := by
      intro h0
      exact hroom (by rw [hresp, h0]; rfl)
    refine .inr ⟨rfl, hv', hrange', hpeer, hcov, rfl, rfl, rfl, ⟨rfl, rfl⟩, .inr ⟨?_, rfl, ?_⟩⟩
    · simpa using hresp
    · rw [ActionBuffer.push_actions hroom']
      simp [report]
  next hresp =>
    refine .inr ⟨rfl, hv', hrange', hpeer, hcov, rfl, rfl, rfl, ⟨rfl, rfl⟩, .inl ⟨?_, ?_, rfl, rfl⟩⟩
    · simp at hresp; exact hresp.1
    · simp at hresp; exact hresp.2

end OpenRtdds.ReliableReader
