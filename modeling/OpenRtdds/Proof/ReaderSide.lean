import OpenRtdds.Proof.AckedQueued
import OpenRtdds.Proof.ReaderRun
import OpenRtdds.Proof.WriterSide

/-!
# The reader link of the network worker

* `ReaderLinkOK`: the link is a reader in a state some run of calls leads to, with
  `heartbeat_ok` and `handleData_link` for the two handlers.
* `handleData_link`, `onData_base`: what the DATA of a number does to the base of the link.
* `handleHeartbeat_fresh`, `handleHeartbeat_silent`: when a HEARTBEAT is answered.
-/

namespace OpenRtdds

open Lib ReliableReader

/-- A reader with these identities after some run of its calls. -/
def IsReaderState (readerId writerId : EntityId) (k : ReliableReader 256) : Prop :=
  ∃ config l, ReaderOK config l ∧ l.reader = k ∧ config.readerId = readerId ∧
    config.writerId = writerId ∧ validStateSequence config.initialSequenceNumber = true

namespace IsReaderState

variable {readerId writerId : EntityId} {k : ReliableReader 256}

theorem init {n : ℕ} (hn : validStateSequence n = true) :
    IsReaderState readerId writerId (.init { readerId, writerId, initialSequenceNumber := n }) :=
  ⟨_, _, ReaderOK.init _, rfl, rfl, rfl, hn⟩

theorem onData (h : IsReaderState readerId writerId k) (n : ℕ) {cap : ℕ} (b : ActionBuffer cap) :
    IsReaderState readerId writerId (k.onData n b).state := by
  obtain ⟨config, l, hl, rfl, hr, hw, hv⟩ := h
  exact ⟨config, _, hl.step (.data n b), rfl, hr, hw, hv⟩

theorem onHeartbeat (h : IsReaderState readerId writerId k) (hb : Heartbeat) {cap : ℕ}
    (b : ActionBuffer cap) : IsReaderState readerId writerId (k.onHeartbeat hb b).state := by
  obtain ⟨config, l, hl, rfl, hr, hw, hv⟩ := h
  exact ⟨config, _, hl.step (.heartbeat hb b), rfl, hr, hw, hv⟩

theorem valid (h : IsReaderState readerId writerId k) : k.valid = true := by
  obtain ⟨config, l, hl, rfl, -, -, hv⟩ := h
  rw [hl.valid, hv]

theorem ids (h : IsReaderState readerId writerId k) :
    k.config.readerId = readerId ∧ k.config.writerId = writerId := by
  obtain ⟨config, l, hl, rfl, hr, hw, -⟩ := h
  rw [hl.config_eq]
  exact ⟨hr, hw⟩

theorem settled (h : IsReaderState readerId writerId k) : k.window.bitAt 0 = false := by
  obtain ⟨config, l, hl, rfl, -, -, -⟩ := h
  exact hl.settled

theorem base_range (h : IsReaderState readerId writerId k) : 1 ≤ k.base ∧ k.base ≤ int64Max := by
  obtain ⟨config, l, hl, rfl, -, -, hv⟩ := h
  exact hl.base_range hv

/-- `on_data` moves the base beyond the next expected number, and only for this number. -/
theorem onData_base (h : IsReaderState readerId writerId k) {n : ℕ}
    (hn : validStateSequence n = true) :
    let k' := (k.onData n (.empty : ActionBuffer 4)).state
    (n ≤ k.base ∧ n < k'.base ∨ k.base < n ∧ k'.base = k.base) ∧ SameControl k k' := by
  intro k'
  rcases onData_cases k n (.empty : ActionBuffer 4) with hr | ht
  · -- a refused call: the number is not the expected one
    have hk' : k' = k := hr.state
    rw [hk']
    refine ⟨?_, rfl, rfl, rfl, rfl, rfl⟩
    have herr := onData_error h.valid hn (b := (.empty : ActionBuffer 4)) (by decide)
    have hne : n ≠ k.base := by
      rintro rfl
      rw [if_neg (lt_irrefl _), if_neg (by omega), Nat.sub_self, h.settled] at herr
      exact hr.error herr
    omega
  · refine ⟨?_, ht.control⟩
    have hwin : k'.base = (Window.settle 256 (k.window.mark (n - k.base))).base :=
      congrArg Window.base ht.window
    have hlow := ht.low
    have hhigh := ht.high
    by_cases heq : n = k.base
    · -- the bit of the base is set, so the window moves
      have hbit : (k.window.mark (n - k.base)).bitAt 0 = true := by
        rw [Window.mark_at _ (by decide) (by omega), if_pos (by omega)]
      have hlt : k.base < _ := Window.base_lt_settle 255 hbit
      left
      rw [hwin]
      exact ⟨by omega, lt_of_le_of_lt heq.le hlt⟩
    · have hbit : (k.window.mark (n - k.base)).bitAt 0 = false := by
        rw [Window.mark_at _ (by decide) (by omega), if_neg (by omega), h.settled]
      right
      rw [hwin, Window.settle_of_clear _ hbit]
      exact ⟨by omega, rfl⟩

/-- A fresh HEARTBEAT that ends below the base is answered with the base. -/
theorem onHeartbeat_fresh (h : IsReaderState readerId writerId k) (hb : Heartbeat) {n : ℕ}
    (hn : validStateSequence n = true) (hf : hb.firstSequenceNumber = n)
    (hl : hb.lastSequenceNumber = n) (hfinal : hb.finalFlag = false) (hr : hb.readerId = readerId)
    (hw : hb.writerId = writerId) (hbase : n < k.base)
    (hcount : k.heartbeatCountInitialized = true →
      controlCountIsNewer hb.count k.lastHeartbeatCount = true) :
    ∃ state final, (k.onHeartbeat hb (.empty : ActionBuffer 4)).actions.actions =
        [.sendAcknack readerId writerId state (nextControlCount k.acknackCount) final] ∧
      state.bitmapBase = k.base := by
  obtain ⟨hkr, hkw⟩ := h.ids
  obtain ⟨h1, h2⟩ := h.base_range
  have hrange : validHeartbeatRange hb = true := by
    have := validStateSequence_iff.1 hn
    simp only [validHeartbeatRange, hf, hl, Bool.and_eq_true, bne_iff_ne, ne_eq, decide_eq_true_eq]
    omega
  refine ⟨(SequenceNumberSet.empty.reset k.base 0).2, true, ?_,
    (SequenceNumberSet.reset_ok .empty k.base 0 h1 h2 (by omega) (by omega)).2.1⟩
  have hlow : ¬ n ≥ k.base := by omega
  unfold ReliableReader.onHeartbeat
  rw [if_neg (by simp [h.valid]), if_neg (by simp [hrange]), if_neg (by simp [hr, hw, hkr, hkw]),
    if_neg (by simpa using hcount), if_neg (by omega)]
  simp only [hl, hlow, hfinal, decide_false, Bool.not_false, Bool.or_true, Bool.true_and]
  rw [if_neg (by decide)]
  simp only [if_true, hkr, hkw]
  rfl

/-- A HEARTBEAT with an old count or behind a gap is not answered. -/
theorem onHeartbeat_silent (k : ReliableReader 256) (hb : Heartbeat)
    (h : (k.heartbeatCountInitialized = true ∧
        controlCountIsNewer hb.count k.lastHeartbeatCount = false) ∨
      (k.base ≤ hb.lastSequenceNumber ∧ k.base < hb.firstSequenceNumber)) :
    (k.onHeartbeat hb (.empty : ActionBuffer 4)).actions.actions = [] := by
  unfold ReliableReader.onHeartbeat
  split
  · rfl
  split
  · rfl
  split
  · rfl
  split
  · rfl
  rename_i hfresh
  rw [if_pos, ActionBuffer.empty_actions]
  rcases h with h | h
  · exact absurd (by simpa using h) hfresh
  · exact ⟨h.1, h.2⟩

end IsReaderState

/-- **The invariant of the receiving context**: identities and link. -/
structure ReaderLinkOK (wg rg : Guid) {S : ℕ} (r : ReaderSide S) : Prop where
  participant : r.subscription.participantPrefix = rg.guidPrefix
  entity : r.subscription.readerId = rg.entityId
  remote : r.writer = wg
  link : ∀ k, r.link = some k → IsReaderState rg.entityId wg.entityId k

namespace ReaderLinkOK

variable {wg rg : Guid} {S : ℕ} {r : ReaderSide S}

/-- The link `reader_link` returns for a legal number: the present one, or a new one that
expects this number. -/
theorem readerLink (h : ReaderLinkOK wg rg r) {n : ℕ} (hn : validStateSequence n = true) :
    ∃ k, r.readerLink n = some k ∧ IsReaderState rg.entityId wg.entityId k ∧
      (r.link = some k ∨ r.link = none ∧ k.base = n ∧ k.heartbeatCountInitialized = false ∧
        k.acknackCount = 0) := by
  have hpos : n ≠ 0 := by have := validStateSequence_iff.1 hn; omega
  unfold ReaderSide.readerLink
  cases hl : r.link with
  | some k => exact ⟨k, rfl, h.link k hl, .inl rfl⟩
  | none =>
    refine ⟨_, if_neg hpos, ?_, .inr ⟨rfl, rfl, rfl, rfl⟩⟩
    rw [h.entity, h.remote]
    exact .init hn

theorem heartbeat_ok (h : ReaderLinkOK wg rg r) {hb : Heartbeat}
    (hn : validStateSequence hb.firstSequenceNumber = true) :
    ReaderLinkOK wg rg (r.handleHeartbeat hb).1 := by
  obtain ⟨k, hk, hstate, -⟩ := h.readerLink hn
  unfold ReaderSide.handleHeartbeat
  split
  · exact h
  split
  · exact h
  rw [hk]
  exact ⟨h.participant, h.entity, h.remote, by rintro k' ⟨⟩; exact hstate.onHeartbeat _ _⟩

/-- A HEARTBEAT of the writer for a number below the base is answered with the base, if its
count is newer. -/
theorem handleHeartbeat_fresh (h : ReaderLinkOK wg rg r) {k : ReliableReader 256}
    (hl : r.link = some k) {hb : Heartbeat} {n : ℕ} (hn : validStateSequence n = true)
    (ha : Announces wg rg n hb) (hbase : n < k.base)
    (hcount : k.heartbeatCountInitialized = true →
      controlCountIsNewer hb.count k.lastHeartbeatCount = true) :
    ∃ a, (r.handleHeartbeat hb).2 = some a ∧ a.header.guidPrefix = rg.guidPrefix ∧
      a.readerId = rg.entityId ∧ a.writerId = wg.entityId ∧ a.readerState.bitmapBase = k.base ∧
      a.count = nextControlCount k.acknackCount := by
  obtain ⟨state, final, hacts, hstate⟩ := (h.link k hl).onHeartbeat_fresh
    { hb with readerId := r.subscription.readerId } hn ha.first ha.last ha.asks h.entity ha.writer
    hbase hcount
  have hlink : r.readerLink hb.firstSequenceNumber = some k := by
    unfold ReaderSide.readerLink
    rw [hl]
  unfold ReaderSide.handleHeartbeat
  rw [if_neg (by simp [h.remote, ha.participant, ha.writer]),
    if_neg (by simp [h.entity, ha.reader]), hlink]
  simp only [hacts]
  exact ⟨_, rfl, h.participant, rfl, rfl, hstate, rfl⟩

theorem handleHeartbeat_silent {k : ReliableReader 256} (hl : r.link = some k) {hb : Heartbeat}
    (hs : (k.heartbeatCountInitialized = true ∧
        controlCountIsNewer hb.count k.lastHeartbeatCount = false) ∨
      (k.base ≤ hb.lastSequenceNumber ∧ k.base < hb.firstSequenceNumber)) :
    (r.handleHeartbeat hb).2 = none := by
  have hlink : r.readerLink hb.firstSequenceNumber = some k := by
    unfold ReaderSide.readerLink
    rw [hl]
  have hacts := IsReaderState.onHeartbeat_silent k
    { hb with readerId := r.subscription.readerId } hs
  unfold ReaderSide.handleHeartbeat
  split
  · rfl
  split
  · rfl
  rw [hlink]
  simp only [hacts]

variable [NeZero S]

theorem networkReceive_ids (s : Subscription S) (packet : Span) (ts : ℕ) :
    (s.networkReceive packet ts).2.participantPrefix = s.participantPrefix ∧
      (s.networkReceive packet ts).2.readerId = s.readerId := by
  have hin := s.networkReceive_outcome packet ts
  generalize s.networkReceive packet ts = out at hin
  cases hin with
  | refused => exact ⟨rfl, rfl⟩
  | accepted => exact ⟨rfl, rfl⟩

/-- **What DATA of the writer does to the link**: `on_data` runs on the link that
`reader_link` returns. -/
theorem handleData_link (h : ReaderLinkOK wg rg r) {packet : List UInt8} {n : ℕ}
    (hn : validStateSequence n = true) (hc : Carries wg packet n) (ts : ℕ) :
    ∃ k, r.readerLink n = some k ∧
      (r.handleData (.bytes packet) ts).1.link = some (k.onData n (.empty : ActionBuffer 4)).state ∧
      ReaderLinkOK wg rg (r.handleData (.bytes packet) ts).1 := by
  obtain ⟨v, hparse, hp, hw, rfl⟩ := hc
  obtain ⟨k, hk, hstate, -⟩ := h.readerLink hn
  obtain ⟨hids1, hids2⟩ := networkReceive_ids r.subscription (.bytes packet) ts
  have hdata : (r.linkData v.sequenceNumber).1 =
      some (k.onData v.sequenceNumber (.empty : ActionBuffer 4)).state := by
    unfold ReaderSide.linkData
    rw [hk]
  have hnew : ∀ k', some (k.onData v.sequenceNumber (.empty : ActionBuffer 4)).state = some k' →
      IsReaderState rg.entityId wg.entityId k' := by
    rintro k' ⟨⟩
    exact hstate.onData _ _
  refine ⟨k, hk, ?_⟩
  unfold ReaderSide.handleData
  rw [hparse]
  simp only
  rw [if_neg (by simp [h.remote, hp, hw])]
  split
  · exact ⟨hdata, h.participant, h.entity, h.remote, hdata ▸ hnew⟩
  · exact ⟨hdata, hids1.trans h.participant, hids2.trans h.entity, h.remote, hdata ▸ hnew⟩

end ReaderLinkOK

end OpenRtdds
