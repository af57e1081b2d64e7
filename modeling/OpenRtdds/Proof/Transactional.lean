import OpenRtdds.Proof.ReaderOps
import OpenRtdds.Proof.WriterOps

/-!
# Reliability operations are transactional

The operations decide everything before they change anything: the first loop counts exactly the
actions that the second one pushes, so no push can fail half-way (`decisionLoop_ok`,
`expiredLoop_ok`).

* `reliability_transactional`: an operation that returns an error has changed neither the state
  machine nor the buffer, from every state and for every buffer.
-/

namespace OpenRtdds

open ReliableWriter ReliableReader

/-- A call changed neither the state nor the buffer. -/
structure Untouched {σ : Type} {cap : ℕ} (state : σ) (actions : ActionBuffer cap)
    (o : Outcome σ cap) : Prop where
  state : o.state = state
  actions : o.actions = actions

variable {H P W : ℕ} [NeZero H] [NeZero W]

/-- **Reliability operations are transactional.** For every state of a writer or a reader, every
argument and every buffer with any contents: if `write`, `on_acknack`, `on_timer`, `on_data` or
`on_heartbeat` returns an error, the state and the buffer are as before the call, and if
`fill_heartbeat` does, the writer and the heartbeat are. -/
theorem reliability_transactional (w : ReliableWriter H P) (r : ReliableReader W) {cap : ℕ}
    (b : ActionBuffer cap) :
    (∀ payload s now, (w.write payload s now b).error ≠ .none →
      Untouched w b (w.write payload s now b)) ∧
    (∀ a now, (w.onAcknack a now b).error ≠ .none → Untouched w b (w.onAcknack a now b)) ∧
    (∀ now, (w.onTimer now b).error ≠ .none → Untouched w b (w.onTimer now b)) ∧
    (∀ t, (w.fillHeartbeat t).1 ≠ .none → (w.fillHeartbeat t).2 = (w, t)) ∧
    (∀ s, (r.onData s b).error ≠ .none → Untouched r b (r.onData s b)) ∧
    (∀ hb, (r.onHeartbeat hb b).error ≠ .none → Untouched r b (r.onHeartbeat hb b)) := by
  refine ⟨fun payload s now herr => ?_, fun a now herr => ?_, fun now herr => ?_, fun t herr => ?_,
    fun s herr => ?_, fun hb herr => ?_⟩
  · rcases write_cases w payload s now b with hr | hw
    · exact ⟨hr.state, hr.actions⟩
    · exact absurd hw.error herr
  · rcases onAcknack_cases w a now b with hr | ⟨hs, -⟩
    · exact ⟨hr.state, hr.actions⟩
    · exact absurd hs.error herr
  · rcases onTimer_cases w now b with hr | ⟨hs, -⟩
    · exact ⟨hr.state, hr.actions⟩
    · exact absurd hs.error herr
  · unfold fillHeartbeat at herr ⊢
    split
    · rfl
    next hvalid =>
      rw [if_neg hvalid] at herr
      exact absurd rfl herr
  · rcases onData_cases r s b with hr | ht
    · exact ⟨hr.state, hr.actions⟩
    · exact absurd ht.error herr
  · rcases onHeartbeat_cases r hb b with hr | ha
    · exact ⟨hr.state, hr.actions⟩
    · exact absurd ha.error herr

/-- A full buffer that already holds an action refuses a repair. -/
theorem full_buffer_untouched :
    let w : ReliableWriter 2 4 := ((ReliableWriter.init {}).write (.bytes [7]) 1 0
      (.empty : ActionBuffer 4)).state
    let full : ActionBuffer 1 := ActionBuffer.empty.push (.sampleReceived 9)
    let a : AckNack := { readerState := ((SequenceNumberSet.empty.reset 1 1).2.set 0).2 }
    (w.onAcknack a 1 full).error = .actionCapacityExceeded ∧
      Untouched w full (w.onAcknack a 1 full) :=
  ⟨by decide, (reliability_transactional (H := 2) (P := 4) (W := 1) _ (.init {}) _).2.1 _ 1
    (by decide)⟩

end OpenRtdds
