import OpenRtdds.Proof.ReaderOps
import OpenRtdds.Spec.Runs

/-!
# The reliable reader refines a set of numbers

The abstract reader is a set `R` of received numbers. The invariant of the reader over
arbitrary runs of its calls (`ReaderOK`) says that its window represents the set of the
numbers it reported (`Lib.Tracks`).

* `ReaderLog.step_cases`: what a call can do to a log.
* `ReaderOK.step`, `ReaderLog.after_ok`: every call keeps the invariant.
* `report_spec`: what an ACKNACK says about the set.
* `reader_refines_set`: the resulting statement about a reader.
-/

namespace OpenRtdds

open Lib ReliableReader

variable {W : ℕ} [NeZero W]

/-- **What a call can do to a log.** A call that fails changes nothing. -/
inductive ReaderLog.Stepped (l : ReaderLog W) : ReaderEvent → ReaderLog W → Prop where
  | refused (e : ReaderEvent) : Stepped l e l
  | took {cap : ℕ} {s : ℕ} {b : ActionBuffer cap} {o : Outcome (ReliableReader W) cap}
      (h : Took l.reader s b o) : Stepped l (.data s b) (l.record b o)
  | answered {cap : ℕ} {hb : Heartbeat} {b : ActionBuffer cap}
      {o : Outcome (ReliableReader W) cap} (h : Answered l.reader hb b o) :
      Stepped l (.heartbeat hb b) (l.record b o)

namespace ReaderLog

variable {cap : ℕ} {l : ReaderLog W} {o : Outcome (ReliableReader W) cap} {b : ActionBuffer cap}

omit [NeZero W] in
theorem record_refused (h : Refused l.reader b o) : l.record b o = l := by
  unfold record
  rw [h.state, h.actions, ActionBuffer.emitted_self, List.append_nil]

theorem step_cases (l : ReaderLog W) (e : ReaderEvent) : l.Stepped e (l.step e) := by
  cases e with
  | data s b =>
    rcases onData_cases l.reader s b with hr | ht
    · rw [step, record_refused hr]
      exact .refused _
    · exact .took ht
  | heartbeat hb b =>
    rcases onHeartbeat_cases l.reader hb b with hr | ha
    · rw [step, record_refused hr]
      exact .refused _
    · exact .answered ha

theorem received_took {s : ℕ} (h : Took l.reader s b o) :
    (l.record b o).received = l.received ++ [s] := by
  simp only [received, record, ActionBuffer.emitted_of_append h.actions, List.filterMap_append]
  rfl

theorem acknacks_took {s : ℕ} (h : Took l.reader s b o) :
    (l.record b o).acknacks = l.acknacks := by
  simp only [acknacks, record, ActionBuffer.emitted_of_append h.actions, List.filterMap_append]
  exact List.append_nil _

theorem received_answered {hb : Heartbeat} (h : Answered l.reader hb b o) :
    (l.record b o).received = l.received := by
  have hout : (b.emitted o.actions).filterMap ReliabilityAction.receivedNumber? = [] := by
    rcases h.reply with ⟨-, -, hr, -⟩ | ⟨-, -, hr⟩
    · rw [hr, ActionBuffer.emitted_self]; rfl
    · rw [ActionBuffer.emitted_of_append hr]; rfl
  simp only [received, record, List.filterMap_append, hout, List.append_nil]

/-- The ACKNACK that answers a heartbeat. -/
def reply (l : ReaderLog W) (hb : Heartbeat) : AckNack where
  readerId := l.reader.config.readerId
  writerId := l.reader.config.writerId
  readerState := l.reader.report hb.lastSequenceNumber
  count := nextControlCount l.reader.acknackCount
  finalFlag := !decide (l.reader.base ≤ hb.lastSequenceNumber)

theorem acknacks_answered {hb : Heartbeat} (h : Answered l.reader hb b o) :
    (hb.lastSequenceNumber < l.reader.base ∧ hb.finalFlag = true ∧
      (l.record b o).acknacks = l.acknacks ∧ o.state.acknackCount = l.reader.acknackCount) ∨
    ((l.reader.base ≤ hb.lastSequenceNumber ∨ hb.finalFlag = false) ∧
      (l.record b o).acknacks = l.acknacks ++ [l.reply hb] ∧
      o.state.acknackCount = nextControlCount l.reader.acknackCount) := by
  rcases h.reply with ⟨hlast, hfinal, hr, hcount⟩ | ⟨hneed, hcount, hr⟩
  · refine .inl ⟨hlast, hfinal, ?_, hcount⟩
    simp only [acknacks, record, hr, ActionBuffer.emitted_self, List.append_nil]
  · refine .inr ⟨hneed, ?_, hcount⟩
    simp only [acknacks, record, ActionBuffer.emitted_of_append hr, List.filterMap_append]
    rfl

end ReaderLog

/-- **The invariant of a reader and its log.** -/
structure ReaderOK (config : ReliableReaderConfig) (l : ReaderLog W) : Prop where
  config_eq : l.reader.config = config
  valid : l.reader.valid = validStateSequence config.initialSequenceNumber
  tracks : Tracks config.initialSequenceNumber {q | q ∈ l.received} l.reader.window
  settled : l.reader.window.bitAt 0 = false
  once : l.received.Nodup
  legal : ∀ q ∈ l.received, validStateSequence q = true

namespace ReaderOK

variable {config : ReliableReaderConfig} {l : ReaderLog W}

theorem init (config : ReliableReaderConfig) : ReaderOK config (ReaderLog.init config : ReaderLog W) where
  config_eq := rfl
  valid := rfl
  tracks := by
    have he : {q | q ∈ (ReaderLog.init config : ReaderLog W).received} = (∅ : Set ℕ) := by
      ext q; simp [ReaderLog.init, ReaderLog.received]
    rw [he]
    exact Tracks.empty config.initialSequenceNumber 0
  settled := rfl
  once := List.nodup_nil
  legal := by intro q hq; exact absurd hq List.not_mem_nil

theorem bit_iff (h : ReaderOK config l) {k : ℕ} (hk : k < W) :
    l.reader.window.bitAt k = true ↔ l.reader.base + k ∈ l.received :=
  h.tracks.bit k hk

theorem took (h : ReaderOK config l) {cap : ℕ} {s : ℕ} {b : ActionBuffer cap}
    {o : Outcome (ReliableReader W) cap} (ht : Took l.reader s b o) :
    ReaderOK config (l.record b o) := by
  have hk : s - l.reader.base < W := by have := ht.high; have := ht.low; omega
  have hsum : l.reader.window.base + (s - l.reader.base) = s := by
    have := ht.low
    show l.reader.base + (s - l.reader.base) = s
    omega
  have hrec := ReaderLog.received_took ht
  have hset : {q | q ∈ (l.record b o).received} = insert s {q | q ∈ l.received} := by
    ext q
    rw [hrec]
    simp [or_comm]
  have hnew : s ∉ l.received := by
    intro hs
    rw [← hsum] at hs
    have hc := ht.clear
    rw [(h.bit_iff hk).2 hs] at hc
    exact Bool.false_ne_true hc.symm
  have hmark := h.tracks.mark hk
  rw [hsum] at hmark
  refine ⟨ht.control.config.trans h.config_eq, ht.control.valid.trans h.valid, ?_, ?_, ?_, ?_⟩
  · rw [hset]
    show Tracks _ _ o.state.window
    rw [ht.window]
    exact hmark.settle W
  · show o.state.window.bitAt 0 = false
    rw [ht.window]
    exact Window.settle_at_zero (Window.weight_le _)
  · rw [hrec]
    exact List.nodup_append.2 ⟨h.once, List.nodup_singleton s, by
      intro a ha c hc he
      rw [List.mem_singleton] at hc
      exact hnew (hc ▸ he ▸ ha)⟩
  · intro q hq
    rw [hrec] at hq
    rcases List.mem_append.1 hq with hq | hq
    · exact h.legal q hq
    · rw [List.mem_singleton.1 hq]; exact ht.number

theorem answered (h : ReaderOK config l) {cap : ℕ} {hb : Heartbeat} {b : ActionBuffer cap}
    {o : Outcome (ReliableReader W) cap} (ha : Answered l.reader hb b o) :
    ReaderOK config (l.record b o) := by
  have hrec := ReaderLog.received_answered ha
  refine ⟨ha.config.trans h.config_eq, ha.still.trans h.valid, ?_, ?_, hrec ▸ h.once,
    hrec ▸ h.legal⟩
  · rw [hrec]
    show Tracks _ _ o.state.window
    rw [ha.window]
    exact h.tracks
  · show o.state.window.bitAt 0 = false
    rw [ha.window]
    exact h.settled

theorem stepped {e : ReaderEvent} {l' : ReaderLog W} (h : ReaderOK config l) (hs : l.Stepped e l') :
    ReaderOK config l' := by
  cases hs with
  | refused => exact h
  | took ht => exact h.took ht
  | answered ha => exact h.answered ha

theorem step (h : ReaderOK config l) (e : ReaderEvent) : ReaderOK config (l.step e) :=
  h.stepped (l.step_cases e)

/-- The next expected number is the first one missing. -/
theorem isLeast (h : ReaderOK config l) :
    IsLeast {q | config.initialSequenceNumber ≤ q ∧ q ∉ l.received} l.reader.base :=
  h.tracks.isLeast h.settled

theorem base_range (h : ReaderOK config l)
    (hv : validStateSequence config.initialSequenceNumber = true) :
    1 ≤ l.reader.base ∧ l.reader.base ≤ int64Max := by
  have hi := validStateSequence_iff.1 hv
  have hlow : config.initialSequenceNumber ≤ l.reader.base := h.tracks.low
  refine ⟨by omega, ?_⟩
  by_cases he : l.reader.base = config.initialSequenceNumber
  · omega
  · have hm := h.tracks.below (l.reader.base - 1) (by omega)
      (show l.reader.base - 1 < l.reader.base by omega)
    have := validStateSequence_iff.1 (h.legal _ hm)
    omega

/-- **What an ACKNACK says**: its base is the next expected number, and a bit is set
exactly for the numbers that have not been received. -/
theorem report_spec (hW : W ≤ 256) (h : ReaderOK config l)
    (hv : validStateSequence config.initialSequenceNumber = true) {L : ℕ} (hL : L ≤ int64Max) :
    (l.reader.report L).bitmapBase = l.reader.base ∧
    (l.reader.report L).numBits = (if L < l.reader.base then 0 else min W (L - l.reader.base + 1)) ∧
    ∀ k, k < (l.reader.report L).numBits →
      ((l.reader.report L).test k = true ↔ l.reader.base + k ∉ l.received) := by
  obtain ⟨h1, h2⟩ := h.base_range hv
  unfold report
  split
  next hc =>
    obtain ⟨gb, gn, gt⟩ := missing_spec hW h1 hc hL
    rw [if_neg (by omega)]
    refine ⟨gb, gn, fun k hk => ?_⟩
    rw [gn] at hk
    have hb := h.bit_iff (k := k) (by omega)
    rw [gt k hk, ← hb]
    simp
  next hc =>
    obtain ⟨-, gb, gn, -⟩ := SequenceNumberSet.reset_ok .empty l.reader.base 0 h1 h2
      (by omega) (by omega)
    rw [if_pos (by omega)]
    refine ⟨gb, gn, fun k hk => ?_⟩
    rw [gn] at hk
    omega

end ReaderOK

theorem ReaderLog.after_ok (config : ReliableReaderConfig) (es : List ReaderEvent) :
    ReaderOK config (ReaderLog.after config es : ReaderLog W) :=
  run_inv (fun _ e h => h.step e) (ReaderOK.init config) es

/-- **The reliable reader refines a set.** After any run of calls on a reader with a valid
configuration, let `R` be the numbers it reported. None was reported twice; the next
expected number is the least one from the initial number on that is not in `R`, and `R`
lies below it plus `W`. For a legal number and a buffer with room, `on_data` returns
`stale_data` below the window, `receive_window_exceeded` above it, `duplicate_data` for a
number of `R` inside it, and accepts and reports any other. An ACKNACK sent for a heartbeat
that ends at `L` has the next expected number as base, covers the numbers up to `L` that
the window can hold, and its set bits are the numbers not in `R`. -/
theorem reader_refines_set (hW : W ≤ 256) (config : ReliableReaderConfig)
    (hvalid : validStateSequence config.initialSequenceNumber = true) (es : List ReaderEvent) :
    let l : ReaderLog W := ReaderLog.after config es
    let R : Set ℕ := {q | q ∈ l.received}
    let next := l.reader.base
    l.received.Nodup ∧
    IsLeast {q | config.initialSequenceNumber ≤ q ∧ q ∉ R} next ∧
    (∀ q ∈ R, q < next + W) ∧
    (∀ (s cap : ℕ) (b : ActionBuffer cap), 1 ≤ s → s ≤ 2 ^ 63 - 2 → b.remaining ≠ 0 →
      ((l.reader.onData s b).error = .staleData ↔ s < next) ∧
      ((l.reader.onData s b).error = .receiveWindowExceeded ↔ next + W ≤ s) ∧
      ((l.reader.onData s b).error = .duplicateData ↔ s ∈ R ∧ next ≤ s ∧ s < next + W) ∧
      (s ∉ R → next ≤ s → s < next + W → (l.reader.onData s b).error = .none ∧
        b.emitted (l.reader.onData s b).actions = [.sampleReceived s])) ∧
    (∀ (h : Heartbeat) (cap : ℕ) (b : ActionBuffer cap),
      ∀ a ∈ (b.emitted (l.reader.onHeartbeat h b).actions).filterMap ReliabilityAction.acknack?,
        a.readerState.bitmapBase = next ∧
        a.readerState.numBits =
          (if h.lastSequenceNumber < next then 0 else min W (h.lastSequenceNumber - next + 1)) ∧
        ∀ k, k < a.readerState.numBits → (a.readerState.test k = true ↔ next + k ∉ R)) := by
  intro l R next
  have h : ReaderOK config l := ReaderLog.after_ok config es
  have hv : l.reader.valid = true := h.valid.trans hvalid
  refine ⟨h.once, h.isLeast, fun q hq => (h.tracks.inside q hq).2, ?_, ?_⟩
  · intro s cap b h1 h2 hroom
    have hs : validStateSequence s = true :=
      validStateSequence_iff.2 ⟨h1, by unfold int64Max; omega⟩
    have herr := onData_error hv hs hroom
    -- inside the window the flag of a number says whether it is in `R`
    have hbit : next ≤ s → s < next + W → (l.reader.window.bitAt (s - next) = true ↔ s ∈ R) := by
      intro hl hh
      rw [h.bit_iff (k := s - next) (by omega)]
      show next + (s - next) ∈ l.received ↔ s ∈ l.received
      rw [Nat.add_sub_cancel' hl]
    refine ⟨?_, ?_, ?_, ?_⟩
    · rw [herr]; grind
    · rw [herr]; grind
    · rw [herr]; grind
    · intro hn hl hh
      have hok : (l.reader.onData s b).error = .none := by
        rw [herr]; grind
      refine ⟨hok, ?_⟩
      rcases onData_cases l.reader s b with hr | ht
      · exact absurd hok hr.error
      · exact ActionBuffer.emitted_of_append ht.actions
  · intro hb cap b a ha
    rcases onHeartbeat_cases l.reader hb b with hr | hans
    · rw [hr.actions, ActionBuffer.emitted_self] at ha
      exact absurd ha List.not_mem_nil
    · rcases hans.reply with ⟨-, -, hr, -⟩ | ⟨-, -, hr⟩
      · rw [hr, ActionBuffer.emitted_self] at ha
        exact absurd ha List.not_mem_nil
      · rw [ActionBuffer.emitted_of_append hr] at ha
        have ha' : a = l.reply hb := List.mem_singleton.1 ha
        rw [ha']
        exact h.report_spec hW hvalid hans.last_le

/-- A run that leaves a gap at 3: the numbers 2 and 4 arrived, in the wrong order. -/
def readerDemo : List ReaderEvent :=
  [.data 4 (.empty : ActionBuffer 4), .data 2 (.empty : ActionBuffer 4), .data 4 (.empty : ActionBuffer 4),
    .heartbeat { firstSequenceNumber := 2, lastSequenceNumber := 6 } (.empty : ActionBuffer 4)]

theorem readerDemo_refines_set :
    let l : ReaderLog 4 := ReaderLog.after { initialSequenceNumber := 2 } readerDemo
    l.received = [4, 2] ∧ l.reader.base = 3 ∧ l.acknacks.length = 1 ∧
      IsLeast {q | 2 ≤ q ∧ q ∉ l.received} l.reader.base :=
  ⟨by decide, by decide, by decide, (reader_refines_set (W := 4) (by decide)
    { initialSequenceNumber := 2 } (by decide) readerDemo).2.1⟩

end OpenRtdds
