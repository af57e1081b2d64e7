import OpenRtdds.Proof.NoFalseDelivery

/-!
# What a link knows: real gaps and lossless rounds

The joint invariant of a writer and a reader over a network that loses, duplicates and reorders
(`LinkFlow`). Both conclusions need to connect a message with the state of its sender when it was
sent: an accepted number below the first number of a heartbeat has ended (`WriterFlow.covers`),
which stays true, and the counts of control messages are those of their positions.

* `WriterFlow.stepped`, `ReaderCounts.stepped`, `LinkFlow.stepped`: every event keeps the invariant.
* `gap_is_loss`: a reader that reports a gap waits for a number the writer reported failed.
* `lossless_round_empties`: a round without loss delivers everything that is retained.
-/

namespace OpenRtdds

open Lib ReliableWriter

variable {H P W : ℕ} [NeZero H]

/-- An accepted number has ended: it was reported delivered or failed. -/
def WriterLog.Ended (l : WriterLog H P) (q : ℕ) : Prop := q ∈ l.delivered ∨ q ∈ l.failed

/-- **What the messages of a writer say**: its DATA are the accepted numbers, and a heartbeat
starts above numbers that have ended and has the count of its position. -/
structure WriterFlow (config : ReliableWriterConfig) (l : WriterLog H P) : Prop where
  config_eq : l.writer.config = config
  valid : l.writer.valid = (config.repairWindowNs != 0)
  sent : ∀ q, q ∈ l.data ↔ q ∈ l.accepted
  legal : ∀ q ∈ l.accepted, validStateSequence q = true
  covers : ∀ h ∈ l.heartbeats, h.lastSequenceNumber ≤ l.writer.lastSequenceNumber ∧
    ∀ q ∈ l.accepted, q ≤ h.lastSequenceNumber → q < h.firstSequenceNumber → l.Ended q
  count : l.writer.heartbeatCount = .ofNat 32 l.heartbeats.length
  counts : ∀ (i : ℕ) (h : Heartbeat), l.heartbeats[i]? = some h → h.count = .ofNat 32 (i + 1)

/-- The numbers a list of actions sends. -/
abbrev dataIn (as : List ReliabilityAction) : List ℕ := as.filterMap ReliabilityAction.dataNumber?

omit [NeZero H] in
theorem mem_sweep_data {v : Record P → Decision} {l : List (Record P)} {q : ℕ}
    (h : q ∈ dataIn (l.filterMap fun r => (v r).action r)) : q ∈ l.map Record.number := by
  obtain ⟨a, ha, hq⟩ := List.mem_filterMap.1 h
  obtain ⟨r, hr, hra⟩ := List.mem_filterMap.1 ha
  refine List.mem_map.2 ⟨r, hr, ?_⟩
  cases hv : v r <;> rw [hv] at hra <;> simp at hra <;> subst hra <;>
    simp_all [ReliabilityAction.dataNumber?]

omit [NeZero H] in
/-- A list of messages whose counts are their positions, and the next message. -/
theorem counts_snoc {α : Type*} {f : α → BitVec 32} {l : List α} {a : α}
    (h : ∀ i x, l[i]? = some x → f x = .ofNat 32 (i + 1)) (ha : f a = .ofNat 32 (l.length + 1)) :
    ∀ i x, (l ++ [a])[i]? = some x → f x = .ofNat 32 (i + 1) := by
  intro i x hx
  rcases lt_trichotomy i l.length with hi | rfl | hi
  · rw [List.getElem?_append_left hi] at hx
    exact h i x hx
  · rw [List.getElem?_concat_length, Option.some.injEq] at hx
    rw [← hx, ha]
  · rw [List.getElem?_eq_none (by simp; omega)] at hx
    cases hx

theorem nextControlCount_ofNat (n : ℕ) : nextControlCount (.ofNat 32 n) = .ofNat 32 (n + 1) := by
  rw [nextControlCount, BitVec.ofNat_add]; rfl

namespace WriterFlow

variable {config : ReliableWriterConfig} {l : WriterLog H P}

omit [NeZero H] in
theorem init (config : ReliableWriterConfig) :
    WriterFlow config (WriterLog.init config : WriterLog H P) where
  config_eq := rfl
  valid := rfl
  sent := by intro q; rfl
  legal := by intro q hq; exact absurd hq List.not_mem_nil
  covers := by intro h hh; exact absurd hh List.not_mem_nil
  count := rfl
  counts := by intro i h hi; simp [WriterLog.init] at hi

omit [NeZero H] in
theorem record_data (l : WriterLog H P) {cap : ℕ} (b : ActionBuffer cap)
    (o : Outcome (ReliableWriter H P) cap) :
    (l.record b o).data = l.data ++ dataIn (b.emitted o.actions) := List.filterMap_append

omit [NeZero H] in
theorem record_ended {cap : ℕ} {b : ActionBuffer cap} {o : Outcome (ReliableWriter H P) cap} {q : ℕ}
    (h : l.Ended q) : (l.record b o).Ended q := by
  unfold WriterLog.Ended WriterLog.delivered WriterLog.failed WriterLog.record at *
  simp only [List.filterMap_append, List.mem_append]
  tauto

theorem swept (h : WriterFlow config l) (hok : WriterOK l) {cap : ℕ} {b : ActionBuffer cap}
    {v : Record P → Decision} {o : Outcome (ReliableWriter H P) cap} (hs : Swept l.writer v b o) :
    WriterFlow config (l.record b o) where
  config_eq := hs.frame.config.trans h.config_eq
  valid := hs.frame.valid.trans h.valid
  sent := by
    intro q
    rw [record_data, ActionBuffer.emitted_of_append hs.actions, List.mem_append]
    constructor
    · rintro (hq | hq)
      · exact (h.sent q).1 hq
      · exact hok.retained_subset (mem_sweep_data hq)
    · exact fun hq => .inl ((h.sent q).2 hq)
  legal := h.legal
  covers := by
    intro hb hhb
    obtain ⟨h1, h2⟩ := h.covers hb hhb
    refine ⟨h1.trans hs.last.ge, fun q hq hle hlt => record_ended (h2 q hq hle hlt)⟩
  count := hs.frame.heartbeatCount.trans h.count
  counts := h.counts

theorem wrote (h : WriterFlow config l) {cap : ℕ} {payload : Span} {s now : ℕ}
    {b : ActionBuffer cap} {o : Outcome (ReliableWriter H P) cap}
    (hw : Wrote l.writer payload s now b o) :
    WriterFlow config { l.record b o with accepted := l.accepted ++ [s] } where
  config_eq := hw.frame.config.trans h.config_eq
  valid := hw.frame.valid.trans h.valid
  sent := by
    intro q
    have hdata : (l.record b o).data = l.data ++ [s] := by
      rw [record_data, ActionBuffer.emitted_of_append hw.actions]; rfl
    show q ∈ (l.record b o).data ↔ q ∈ l.accepted ++ [s]
    rw [hdata, List.mem_append, List.mem_append, h.sent q]
  legal := by
    intro q hq
    rcases List.mem_append.1 hq with hq | hq
    · exact h.legal q hq
    · rw [List.mem_singleton.1 hq]; exact hw.number
  covers := by
    intro hb hhb
    obtain ⟨h1, h2⟩ := h.covers hb hhb
    have hlast : (l.record b o).writer.lastSequenceNumber = s := hw.last
    have hfresh := hw.fresh
    refine ⟨by show _ ≤ (l.record b o).writer.lastSequenceNumber; omega, fun q hq hle hlt => ?_⟩
    rcases List.mem_append.1 hq with hq | hq
    · exact record_ended (h2 q hq hle hlt)
    · -- a new number is above every earlier heartbeat
      rw [List.mem_singleton.1 hq] at hle
      omega
  count := hw.frame.heartbeatCount.trans h.count
  counts := h.counts

/-- A new heartbeat starts at the least retained number, so what is below it has ended. -/
theorem filled (h : WriterFlow config l) (hok : WriterOK l) (t : Heartbeat)
    (hv : l.writer.valid = true) :
    WriterFlow config { l with
      writer := { l.writer with heartbeatCount := nextControlCount l.writer.heartbeatCount }
      heartbeats := l.heartbeats ++ [(l.writer.fillHeartbeat t).2.2] } where
  config_eq := h.config_eq
  valid := h.valid
  sent := h.sent
  legal := h.legal
  covers := by
    intro hb hhb
    rcases List.mem_append.1 hhb with hhb | hhb
    · exact h.covers hb hhb
    obtain ⟨-, hlast, hfirst⟩ := fillHeartbeat_ok hv t
    rw [List.mem_singleton.1 hhb, hlast, hfirst]
    refine ⟨le_rfl, fun q hq hle hlt => ?_⟩
    have hplaces := hok.places q
    have hpos : 0 < l.accepted.count q := List.count_pos_iff.2 hq
    have hret : q ∉ l.retained := by
      intro hqr
      have hqr' : q ∈ l.writer.retained.map Record.number := hqr
      obtain ⟨x, xs, hx⟩ := List.exists_cons_of_ne_nil (List.ne_nil_of_mem hqr')
      have hs := hok.sorted
      have hx' : l.retained = x :: xs := hx
      rw [hx] at hlt hqr'
      rw [hx'] at hs
      rcases List.mem_cons.1 hqr' with rfl | hmem
      · exact absurd hlt (lt_irrefl _)
      · exact absurd (List.rel_of_pairwise_cons hs hmem) (by simpa using hlt.le)
    rw [List.count_eq_zero_of_not_mem hret] at hplaces
    by_cases hd : q ∈ l.delivered
    · exact .inl hd
    · rw [List.count_eq_zero_of_not_mem hd] at hplaces
      have hf : 0 < l.failed.count q := by omega
      exact .inr (List.count_pos_iff.1 hf)
  count := by
    show nextControlCount l.writer.heartbeatCount = _
    rw [h.count, nextControlCount_ofNat, List.length_append, List.length_singleton]
  counts := by
    refine counts_snoc (f := Heartbeat.count) h.counts ?_
    have hc : (l.writer.fillHeartbeat t).2.2.count = nextControlCount l.writer.heartbeatCount := by
      unfold fillHeartbeat
      rw [if_neg (by simp [hv])]
    rw [hc, h.count, nextControlCount_ofNat]

/-- The range of a new heartbeat is legal, also at the greatest numbers. -/
theorem filled_range (h : WriterFlow config l) (hok : WriterOK l) (hv : l.writer.valid = true)
    (t : Heartbeat) : ReliableReader.validHeartbeatRange (l.writer.fillHeartbeat t).2.2 = true := by
  obtain ⟨-, hlast, hfirst⟩ := fillHeartbeat_ok hv t
  have hle : l.writer.lastSequenceNumber < int64Max := by
    rcases hok.last with hm | ⟨-, hm⟩
    · exact (validStateSequence_iff.1 (h.legal _ hm)).2
    · rw [hm]; decide
  have hhead : ∀ x, (l.writer.retained.map Record.number).head? = some x →
      1 ≤ x ∧ x ≤ l.writer.lastSequenceNumber := by
    intro x hx
    have hmem : x ∈ l.accepted := hok.retained_subset (List.mem_of_mem_head? hx)
    exact ⟨(validStateSequence_iff.1 (h.legal x hmem)).1, hok.bounded x hmem⟩
  simp only [ReliableReader.validHeartbeatRange, hlast, hfirst, Bool.and_eq_true, bne_iff_ne, ne_eq,
    decide_eq_true_eq]
  cases hx : (l.writer.retained.map Record.number).head? with
  | none => simp only [Option.getD_none]; omega
  | some x =>
    have := hhead x hx
    simp only [Option.getD_some]
    omega

theorem stepped (h : WriterFlow config l) (hok : WriterOK l) {e : WriterEvent} {l' : WriterLog H P}
    (hs : l.Stepped e l') : WriterFlow config l' := by
  cases hs with
  | refused => exact h
  | wrote hw => exact h.wrote hw
  | acknowledged hs => exact h.swept hok hs
  | expired hs => exact h.swept hok hs
  | filled t hv => exact h.filled hok t hv

end WriterFlow

variable [NeZero W]

/-- The counts of the ACKNACKs of a reader are their positions. -/
structure ReaderCounts (l : ReaderLog W) : Prop where
  count : l.reader.acknackCount = .ofNat 32 l.acknacks.length
  counts : ∀ (i : ℕ) (a : AckNack), l.acknacks[i]? = some a → a.count = .ofNat 32 (i + 1)

namespace ReaderCounts

variable {l : ReaderLog W}

omit [NeZero W] in
theorem init (config : ReliableReaderConfig) : ReaderCounts (ReaderLog.init config : ReaderLog W) where
  count := rfl
  counts := by intro i a hi; simp [ReaderLog.init, ReaderLog.acknacks] at hi

theorem stepped (h : ReaderCounts l) {e : ReaderEvent} {l' : ReaderLog W} (hs : l.Stepped e l') :
    ReaderCounts l' := by
  cases hs with
  | refused => exact h
  | took ht =>
    have hacks := ReaderLog.acknacks_took ht
    exact ⟨by rw [hacks]; exact ht.control.acknackCount.trans h.count, by rw [hacks]; exact h.counts⟩
  | answered ha =>
    rcases ReaderLog.acknacks_answered ha with ⟨-, -, hacks, hcount⟩ | ⟨-, hacks, hcount⟩
    · exact ⟨by rw [hacks]; exact hcount.trans h.count, by rw [hacks]; exact h.counts⟩
    · rw [h.count, nextControlCount_ofNat] at hcount
      refine ⟨?_, ?_⟩
      · rw [hacks, List.length_append, List.length_singleton]
        exact hcount
      · rw [hacks]
        refine counts_snoc (f := AckNack.count) h.counts ?_
        show nextControlCount l.reader.acknackCount = _
        rw [h.count, nextControlCount_ofNat]

end ReaderCounts

/-- **The joint invariant of a link.** What arrived was accepted, what was reported delivered
arrived, and each side remembers the count of a message the other sent. -/
structure LinkFlow (wc : ReliableWriterConfig) (rc : ReliableReaderConfig) (k : Link H P W) : Prop where
  link : LinkOK rc k
  writer : WriterFlow wc k.writer
  reader : ReaderCounts k.reader
  arrived : ∀ q ∈ k.reader.received, q ∈ k.writer.accepted
  delivered : ∀ q ∈ k.writer.delivered, rc.initialSequenceNumber ≤ q → q ∈ k.reader.received
  heartbeatSeen : k.reader.reader.heartbeatCountInitialized = true →
    ∃ i < k.writer.heartbeats.length, k.reader.reader.lastHeartbeatCount = .ofNat 32 (i + 1)
  acknackSeen : k.writer.writer.acknackCountInitialized = true →
    ∃ i < k.reader.acknacks.length, k.writer.writer.lastAcknackCount = .ofNat 32 (i + 1)

theorem WriterLog.Stepped.grows {l l' : WriterLog H P} {e : WriterEvent} (hs : l.Stepped e l') :
    l.accepted ⊆ l'.accepted ∧ l.delivered <+: l'.delivered ∧
      l.heartbeats.length ≤ l'.heartbeats.length := by
  have hdel : ∀ {cap : ℕ} (b : ActionBuffer cap) (o : Outcome (ReliableWriter H P) cap),
      l.delivered <+: (l.record b o).delivered := by
    intro cap b o
    exact ⟨deliveredIn (b.emitted o.actions), List.filterMap_append.symm⟩
  cases hs with
  | refused => exact ⟨List.Subset.refl _, List.prefix_rfl, le_rfl⟩
  | wrote => exact ⟨List.subset_append_left _ _, hdel _ _, le_rfl⟩
  | acknowledged => exact ⟨List.Subset.refl _, hdel _ _, le_rfl⟩
  | expired => exact ⟨List.Subset.refl _, hdel _ _, le_rfl⟩
  | filled t => exact ⟨List.Subset.refl _, List.prefix_rfl, by simp⟩

/-- A call on a writer keeps the remembered count or takes it from the ACKNACK it handles. -/
theorem WriterLog.Stepped.seen {l l' : WriterLog H P} {e : WriterEvent} (hs : l.Stepped e l') :
    (l'.writer.acknackCountInitialized = l.writer.acknackCountInitialized ∧
      l'.writer.lastAcknackCount = l.writer.lastAcknackCount) ∨
    ∃ (cap : ℕ) (a : AckNack) (now : ℕ) (b : ActionBuffer cap),
      e = .acknack a now b ∧ l'.writer.lastAcknackCount = a.count := by
  cases hs with
  | refused => exact .inl ⟨rfl, rfl⟩
  | wrote hw => exact .inl ⟨hw.acknack.2, hw.acknack.1⟩
  | acknowledged _ _ hcount => exact .inr ⟨_, _, _, _, rfl, hcount⟩
  | expired _ hcount hseen => exact .inl ⟨hseen, hcount⟩
  | filled t => exact .inl ⟨rfl, rfl⟩

namespace LinkFlow

variable {wc : ReliableWriterConfig} {rc : ReliableReaderConfig} {k : Link H P W}

theorem init (wc : ReliableWriterConfig) (rc : ReliableReaderConfig) :
    LinkFlow wc rc (Link.init wc rc : Link H P W) where
  link := LinkOK.init wc rc
  writer := WriterFlow.init wc
  reader := ReaderCounts.init rc
  arrived := by intro q hq; exact absurd hq List.not_mem_nil
  delivered := by intro q hq; exact absurd hq List.not_mem_nil
  heartbeatSeen := by intro h; cases h
  acknackSeen := by intro h; cases h

theorem onWriter (h : LinkFlow wc rc k) {e : WriterEvent} {l : WriterLog H P}
    (hs : k.writer.Stepped e l) (hk : LinkOK rc { k with writer := l })
    (hsent : ∀ {cap : ℕ} (a : AckNack) (now : ℕ) (b : ActionBuffer cap),
      e = .acknack a now b → a ∈ k.reader.acknacks) : LinkFlow wc rc { k with writer := l } := by
  obtain ⟨hacc, hdel, hlen⟩ := hs.grows
  refine ⟨hk, h.writer.stepped h.link.writer hs, h.reader, fun q hq => hacc (h.arrived q hq), ?_, ?_, ?_⟩
  · -- a new delivery is acknowledged by an honest ACKNACK
    intro q hq hinit
    obtain ⟨new, hnew⟩ := hdel
    have hq' : q ∈ l.delivered := hq
    rw [← hnew, List.mem_append] at hq'
    rcases hq' with hq' | hq'
    · exact h.delivered q hq' hinit
    · have hdrop : q ∈ l.delivered.drop k.writer.delivered.length := by
        rw [← hnew, List.drop_left]
        exact hq'
      obtain ⟨-, cap, a, now, b, rfl, hack⟩ := hs.delivered hdrop
      exact h.link.acks a (hsent a now b rfl) q hinit hack
  · intro hi
    obtain ⟨i, hlt, hc⟩ := h.heartbeatSeen hi
    exact ⟨i, hlt.trans_le hlen, hc⟩
  · intro hi
    rcases hs.seen with ⟨hseen, hcount⟩ | ⟨cap, a, now, b, rfl, hcount⟩
    · obtain ⟨i, hlt, hc⟩ := h.acknackSeen (hseen ▸ hi)
      exact ⟨i, hlt, hcount.trans hc⟩
    · obtain ⟨i, hlt, ha⟩ := List.mem_iff_getElem.1 (hsent a now b rfl)
      exact ⟨i, hlt, hcount.trans (h.reader.counts i a (List.getElem?_eq_some_iff.2 ⟨hlt, ha⟩))⟩

theorem onReader (h : LinkFlow wc rc k) {e : ReaderEvent} {l : ReaderLog W}
    (hs : k.reader.Stepped e l) (hk : LinkOK rc { k with reader := l })
    (hdata : ∀ {cap : ℕ} (s : ℕ) (b : ActionBuffer cap), e = .data s b → s ∈ k.writer.data)
    (hhb : ∀ {cap : ℕ} (hb : Heartbeat) (b : ActionBuffer cap),
      e = .heartbeat hb b → hb ∈ k.writer.heartbeats) : LinkFlow wc rc { k with reader := l } := by
  have hmono := hs.received_mono
  refine ⟨hk, h.writer, h.reader.stepped hs, ?_, fun q hq hi => hmono q (h.delivered q hq hi), ?_, ?_⟩
  · intro q hq
    cases hs with
    | refused => exact h.arrived q hq
    | @took _ s b _ ht =>
      have hq' := ReaderLog.received_took ht ▸ hq
      rcases List.mem_append.1 hq' with hq' | hq'
      · exact h.arrived q hq'
      · rw [List.mem_singleton.1 hq']
        exact (h.writer.sent s).1 (hdata s b rfl)
    | answered ha => exact h.arrived q (ReaderLog.received_answered ha ▸ hq)
  · intro hi
    cases hs with
    | refused => exact h.heartbeatSeen hi
    | took ht =>
      obtain ⟨hc, hseen⟩ := ht.control.heartbeat
      obtain ⟨i, hlt, hcount⟩ := h.heartbeatSeen (hseen ▸ hi)
      exact ⟨i, hlt, hc.trans hcount⟩
    | @answered _ hb b _ ha =>
      obtain ⟨i, hlt, hi⟩ := List.mem_iff_getElem.1 (hhb hb b rfl)
      exact ⟨i, hlt, ha.seen.1.trans (h.writer.counts i hb (List.getElem?_eq_some_iff.2 ⟨hlt, hi⟩))⟩
  · intro hi
    obtain ⟨i, hlt, hc⟩ := h.acknackSeen hi
    refine ⟨i, hlt.trans_le ?_, hc⟩
    cases hs with
    | refused => exact le_rfl
    | took ht => exact (congrArg List.length (ReaderLog.acknacks_took ht)).ge
    | answered ha =>
      rcases ReaderLog.acknacks_answered ha with ⟨-, -, hacks, -⟩ | ⟨-, hacks, -⟩
      · exact (congrArg List.length hacks).ge
      · show _ ≤ (k.reader.record _ _).acknacks.length
        rw [hacks, List.length_append]
        exact Nat.le_add_right _ _

theorem stepped (hW : W ≤ 256) (hv : validStateSequence rc.initialSequenceNumber = true)
    (h : LinkFlow wc rc k) {k' : Link H P W} (hs : k.Stepped k') : LinkFlow wc rc k' := by
  have hk := h.link.stepped hW hv hs
  cases hs with
  | idle => exact h
  | writer hw hsent => exact h.onWriter hw hk hsent
  | reader hr hdata hhb => exact h.onReader hr hk hdata hhb

end LinkFlow

theorem Link.after_flow (hW : W ≤ 256) (wc : ReliableWriterConfig) (rc : ReliableReaderConfig)
    (hv : validStateSequence rc.initialSequenceNumber = true) (es : List LinkEvent) :
    LinkFlow wc rc (Link.after wc rc es : Link H P W) :=
  run_inv (fun k e h => h.stepped hW hv (k.step_cases e)) (LinkFlow.init wc rc) es

/-- The writer has accepted the numbers from the initial number of the reader on, without a gap. -/
def Link.Contiguous (rc : ReliableReaderConfig) (k : Link H P W) : Prop :=
  k.writer.accepted = List.range' rc.initialSequenceNumber k.writer.accepted.length

instance (rc : ReliableReaderConfig) (k : Link H P W) : Decidable (k.Contiguous rc) :=
  inferInstanceAs (Decidable (_ = _))

omit [NeZero H] [NeZero W] in
theorem Link.Contiguous.mem_iff {rc : ReliableReaderConfig} {k : Link H P W} (h : k.Contiguous rc)
    {q : ℕ} : q ∈ k.writer.accepted ↔ rc.initialSequenceNumber ≤ q ∧
      q < rc.initialSequenceNumber + k.writer.accepted.length := by
  unfold Contiguous at h
  rw [h, List.length_range']
  simp [List.mem_range']
  constructor
  · rintro ⟨i, hi, rfl⟩
    omega
  · intro hq
    exact ⟨q - rc.initialSequenceNumber, by omega, by omega⟩

/-- The reader of a link is in order, whatever its configuration. -/
theorem Link.after_reader (wc : ReliableWriterConfig) (rc : ReliableReaderConfig)
    (es : List LinkEvent) : ReaderOK rc (Link.after wc rc es : Link H P W).reader := by
  have hstep : ∀ {k k' : Link H P W}, k.Stepped k' → ReaderOK rc k.reader → ReaderOK rc k'.reader := by
    intro k k' hs h
    cases hs with
    | idle => exact h
    | writer => exact h
    | reader hr => exact h.stepped hr
  exact run_inv (P := fun k : Link H P W => ReaderOK rc k.reader)
    (fun k e h => hstep (k.step_cases e) h) (ReaderOK.init rc) es

/-- **A reported gap is a real loss.** In every run of a writer and a reader over a network that
loses, duplicates and reorders, with the writer accepting contiguous numbers from the initial number
of the reader on: if the reader answers `gap_not_repairable` to a heartbeat, however old, then the
writer has reported `sample_failed` for the number the reader expects next. So a run without a
failed sample reports no gap. -/
theorem gap_is_loss (hW : W ≤ 256) (wc : ReliableWriterConfig) (rc : ReliableReaderConfig)
    (es : List LinkEvent) (hcont : (Link.after wc rc es : Link H P W).Contiguous rc) :
    let k : Link H P W := Link.after wc rc es
    (∀ h ∈ k.writer.heartbeats, ∀ (cap : ℕ) (b : ActionBuffer cap),
      (k.reader.reader.onHeartbeat h b).error = .gapNotRepairable →
        k.reader.reader.base ∈ k.writer.failed) ∧
    (k.writer.failed = [] → ∀ h ∈ k.writer.heartbeats, ∀ (cap : ℕ) (b : ActionBuffer cap),
      (k.reader.reader.onHeartbeat h b).error ≠ .gapNotRepairable) := by
  intro k
  have hmain : ∀ h ∈ k.writer.heartbeats, ∀ (cap : ℕ) (b : ActionBuffer cap),
      (k.reader.reader.onHeartbeat h b).error = .gapNotRepairable →
        k.reader.reader.base ∈ k.writer.failed := by
    intro h hh cap b herr
    have hr : ReaderOK rc k.reader := Link.after_reader wc rc es
    -- the error says that the configuration is valid and that the heartbeat starts above the base
    have hgap : k.reader.reader.valid = true ∧ k.reader.reader.base ≤ h.lastSequenceNumber ∧
        k.reader.reader.base < h.firstSequenceNumber := by
      rw [ReliableReader.onHeartbeat_error] at herr
      cases hval : k.reader.reader.valid with
      | false => simp [hval] at herr
      | true =>
        split_ifs at herr with _ _ _ _ hg
        exact ⟨rfl, hg⟩
    obtain ⟨hvalid, hlast, hfirst⟩ := hgap
    have hv : validStateSequence rc.initialSequenceNumber = true := hr.valid ▸ hvalid
    have hflow : LinkFlow wc rc k := Link.after_flow hW wc rc hv es
    obtain ⟨hle, hcov⟩ := hflow.writer.covers h hh
    have hleast := hr.isLeast
    -- numbers are contiguous, so the expected number was accepted
    have hacc : k.reader.reader.base ∈ k.writer.accepted := by
      refine hcont.mem_iff.2 ⟨hleast.1.1, ?_⟩
      rcases hflow.link.writer.last with hm | ⟨-, hm⟩
      · have := (hcont.mem_iff.1 hm).2
        omega
      · have := (validStateSequence_iff.1 hv).1
        have := hleast.1.1
        omega
    rcases hcov _ hacc hlast hfirst with hd | hf
    · exact absurd (hflow.delivered _ hd hleast.1.1) hleast.1.2
    · exact hf
  refine ⟨hmain, fun hnone h hh cap b herr => ?_⟩
  have hbase := hmain h hh cap b herr
  rw [hnone] at hbase
  exact List.not_mem_nil hbase

/-- A sample fails by its window before the reader has it; the next heartbeat starts above it. -/
def gapDemo : List LinkEvent :=
  [.write (.bytes [7]) 1 0 (.empty : ActionBuffer 4), .timer 100000000 (.empty : ActionBuffer 4),
    .write (.bytes [8]) 2 100000000 (.empty : ActionBuffer 4), .heartbeat {}]

theorem gapDemo_is_loss :
    let k : Link 2 4 4 := Link.after {} {} gapDemo
    k.writer.failed = [1] ∧ k.reader.reader.base = 1 ∧ k.writer.heartbeats.length = 1 ∧
      (∀ h ∈ k.writer.heartbeats,
        (k.reader.reader.onHeartbeat h (.empty : ActionBuffer 4)).error = .gapNotRepairable) ∧
      ∀ h ∈ k.writer.heartbeats, ∀ (cap : ℕ) (b : ActionBuffer cap),
        (k.reader.reader.onHeartbeat h b).error = .gapNotRepairable →
          k.reader.reader.base ∈ k.writer.failed :=
  ⟨by decide, by decide, by decide, by decide,
    (gap_is_loss (H := 2) (P := 4) (W := 4) (by decide) {} {} gapDemo (by decide)).1⟩

section Round

variable {wc : ReliableWriterConfig} {rc : ReliableReaderConfig} {k : Link H P W}

/-- A sample at or below the next expected number arrives. -/
theorem LinkFlow.arrives (h : LinkFlow wc rc k)
    (hv : validStateSequence rc.initialSequenceNumber = true) {q : ℕ} (hq : q ∈ k.writer.accepted)
    (hinit : rc.initialSequenceNumber ≤ q) (hbase : q ≤ k.reader.reader.base) {cap : ℕ}
    (b : ActionBuffer cap) (hroom : b.remaining ≠ 0) :
    q ∈ (k.reader.step (.data q b)).received ∧
      (k.reader.step (.data q b)).acknacks = k.reader.acknacks := by
  have hr := h.link.reader
  have hs := k.reader.step_cases (.data q b)
  refine ⟨?_, ?_⟩
  · rcases hbase.lt_or_eq with hlt | heq
    · exact hs.received_mono q (hr.tracks.below q hinit hlt)
    · -- the flag of the base is clear, so `on_data` takes the number
      have hrv : k.reader.reader.valid = true := hr.valid.trans hv
      have herr := ReliableReader.onData_error hrv (h.writer.legal q hq) hroom
      have hW := NeZero.pos W
      rw [if_neg (by omega), if_neg (by omega), heq, Nat.sub_self, hr.settled, ← heq] at herr
      rcases ReliableReader.onData_cases k.reader.reader q b with href | ht
      · exact absurd herr href.error
      · show q ∈ (k.reader.record b _).received
        rw [ReaderLog.received_took ht]
        exact List.mem_append_right _ (List.mem_singleton_self q)
  · rcases ReliableReader.onData_cases k.reader.reader q b with href | ht
    · exact congrArg ReaderLog.acknacks (ReaderLog.record_refused href)
    · exact ReaderLog.acknacks_took ht

/-- **Handing samples in ascending order.** If every accepted number outside `qs` has arrived, then
so has every accepted number after the samples of `qs` were handed over: each of them is at most the
next expected number when its turn comes, whatever the width of the window. -/
theorem LinkFlow.hand (hW : W ≤ 256) (hv : validStateSequence rc.initialSequenceNumber = true)
    {buffers : ℕ → (cap : ℕ) × ActionBuffer cap} (hroom : ∀ q, (buffers q).2.remaining ≠ 0)
    {qs : List ℕ} (hsorted : qs.Pairwise (· < ·)) {k : Link H P W} (h : LinkFlow wc rc k)
    (hcont : k.Contiguous rc) (hqs : ∀ q ∈ qs, q ∈ k.writer.accepted)
    (hrest : ∀ q ∈ k.writer.accepted, q ∉ qs → q ∈ k.reader.received) :
    let k' := run Link.step k
      (qs.map fun q => .deliverData (k.writer.data.idxOf q) (buffers q).2)
    LinkFlow wc rc k' ∧ k'.writer = k.writer ∧ k'.reader.acknacks = k.reader.acknacks ∧
      ∀ q ∈ k.writer.accepted, q ∈ k'.reader.received := by
  induction qs generalizing k with
  | nil => exact ⟨h, rfl, rfl, fun q hq => hrest q hq List.not_mem_nil⟩
  | cons q qs ih =>
    have hacc : q ∈ k.writer.accepted := hqs q List.mem_cons_self
    have hinit := (hcont.mem_iff.1 hacc).1
    have hleast := h.link.reader.isLeast
    -- an expected number below `q` would be accepted and outside `q :: qs`
    have hbase : q ≤ k.reader.reader.base := by
      by_contra hlt
      have hb : k.reader.reader.base ∈ k.writer.accepted :=
        hcont.mem_iff.2 ⟨hleast.1.1, by have := (hcont.mem_iff.1 hacc).2; omega⟩
      refine hleast.1.2 (hrest _ hb fun hmem => ?_)
      rcases List.mem_cons.1 hmem with heq | hmem
      · omega
      · exact absurd (List.rel_of_pairwise_cons hsorted hmem) (by omega)
    have hdata : k.writer.data[k.writer.data.idxOf q]? = some q :=
      List.getElem?_idxOf ((h.writer.sent q).2 hacc)
    set k1 : Link H P W := { k with reader := k.reader.step (.data q (buffers q).2) } with hk1
    have hstep : k.step (.deliverData (k.writer.data.idxOf q) (buffers q).2) = k1 := by
      simp only [Link.step, hdata, hk1]
    obtain ⟨hq, hacks⟩ := h.arrives hv hacc hinit hbase (buffers q).2 (hroom q)
    have hmono := (k.reader.step_cases (.data q (buffers q).2)).received_mono
    have h1 : LinkFlow wc rc k1 := hstep ▸ h.stepped hW hv (k.step_cases _)
    have hrest1 : ∀ p ∈ k.writer.accepted, p ∉ qs → p ∈ k1.reader.received := by
      intro p hp hpq
      by_cases heq : p = q
      · exact heq ▸ hq
      · exact hmono p (hrest p hp (List.not_mem_cons_of_ne_of_not_mem heq hpq))
    have hrun := ih hsorted.of_cons h1 hcont (fun p hp => hqs p (List.mem_cons_of_mem q hp)) hrest1
    simp only [List.map_cons, run_cons, hstep]
    exact ⟨hrun.1, hrun.2.1, hrun.2.2.1.trans hacks, hrun.2.2.2⟩

/-- Once everything has arrived, the next expected number is above every accepted one. -/
theorem LinkFlow.complete (h : LinkFlow wc rc k)
    (hv : validStateSequence rc.initialSequenceNumber = true) (hcont : k.Contiguous rc)
    (hall : ∀ q ∈ k.writer.accepted, q ∈ k.reader.received) :
    (∀ q ∈ k.writer.accepted, q < k.reader.reader.base) ∧
      k.writer.writer.lastSequenceNumber < k.reader.reader.base := by
  have hleast := h.link.reader.isLeast
  have hlt : ∀ q ∈ k.writer.accepted, q < k.reader.reader.base := by
    intro q hq
    by_contra hle
    have hb : k.reader.reader.base ∈ k.writer.accepted :=
      hcont.mem_iff.2 ⟨hleast.1.1, by have := (hcont.mem_iff.1 hq).2; omega⟩
    exact hleast.1.2 (hall _ hb)
  refine ⟨hlt, ?_⟩
  rcases h.link.writer.last with hm | ⟨-, hm⟩
  · exact hlt _ hm
  · have := (validStateSequence_iff.1 hv).1
    have := hleast.1.1
    omega

/-- A new heartbeat that ends below the next expected number and asks for an answer gets one that
acknowledges everything below this number. -/
theorem LinkFlow.answers (h : LinkFlow wc rc k)
    (hv : validStateSequence rc.initialSequenceNumber = true)
    (hpeer : rc.readerId = wc.readerId ∧ rc.writerId = wc.writerId)
    (hvalid : k.writer.writer.valid = true) (hcount : k.writer.heartbeats.length < 2 ^ 31)
    (hlast : k.writer.writer.lastSequenceNumber < k.reader.reader.base) (t : Heartbeat)
    (hfinal : t.finalFlag = false) {cap : ℕ} (b : ActionBuffer cap) (hroom : b.remaining ≠ 0) :
    let hb := (k.writer.writer.fillHeartbeat t).2.2
    (k.reader.step (.heartbeat hb b)).acknacks = k.reader.acknacks ++ [k.reader.reply hb] ∧
      (k.reader.reply hb).readerState.bitmapBase = k.reader.reader.base := by
  intro hb
  have hr := h.link.reader
  have hhb : hb.lastSequenceNumber = k.writer.writer.lastSequenceNumber ∧
      hb.readerId = wc.readerId ∧ hb.writerId = wc.writerId ∧ hb.finalFlag = false ∧
      hb.count = .ofNat 32 (k.writer.heartbeats.length + 1) := by
    have hc := nextControlCount_ofNat k.writer.heartbeats.length
    rw [← h.writer.count] at hc
    have hcfg := h.writer.config_eq
    simp only [hb, fillHeartbeat, hvalid, Bool.not_true, Bool.false_eq_true, if_false, hcfg, true_and]
    exact ⟨hfinal, hc⟩
  obtain ⟨hl, hrid, hwid, hf, hc⟩ := hhb
  have hrange : ReliableReader.validHeartbeatRange hb = true :=
    h.writer.filled_range h.link.writer hvalid t
  have hcfg := hr.config_eq
  have hrv : k.reader.reader.valid = true := hr.valid.trans hv
  have hnew : k.reader.reader.heartbeatCountInitialized = true →
      controlCountIsNewer hb.count k.reader.reader.lastHeartbeatCount = true := by
    intro hi
    obtain ⟨i, hlt, hseen⟩ := h.heartbeatSeen hi
    rw [hseen, hc]
    exact controlCountIsNewer_ofNat (by omega) (by omega)
  have herr : (k.reader.reader.onHeartbeat hb b).error = .none := by
    rw [ReliableReader.onHeartbeat_error, if_neg (by simp [hrv]), if_neg (by simp [hrange]),
      if_neg (by simp [hrid, hwid, hcfg, hpeer]), if_neg (by simpa using hnew), if_neg (by omega),
      if_neg (by simp [hroom])]
  rcases ReliableReader.onHeartbeat_cases k.reader.reader hb b with href | ha
  · exact absurd herr href.error
  obtain ⟨h1, h2⟩ := hr.base_range hv
  refine ⟨?_, ?_⟩
  · rcases ReaderLog.acknacks_answered ha with ⟨-, hfin, -⟩ | ⟨-, hacks, -⟩
    · rw [hf] at hfin
      cases hfin
    · exact hacks
  · show (k.reader.reader.report hb.lastSequenceNumber).bitmapBase = _
    unfold ReliableReader.report
    rw [if_neg (by omega)]
    exact (SequenceNumberSet.reset_ok .empty _ 0 h1 h2 (by omega) (by omega)).2.1

/-- An ACKNACK whose base is above every retained number ends all of them. -/
theorem WriterLog.acknowledged_all {l : WriterLog H P} (hvalid : l.writer.valid = true) {a : AckNack}
    (hr : a.readerId = l.writer.config.readerId) (hw : a.writerId = l.writer.config.writerId)
    (hcount : l.writer.acknackCountInitialized = true →
      controlCountIsNewer a.count l.writer.lastAcknackCount = true)
    (hbase : ∀ q ∈ l.retained, q < a.readerState.bitmapBase) (now : ℕ) {cap : ℕ}
    (b : ActionBuffer cap) (hroom : l.retained.length ≤ b.remaining) :
    (l.step (.acknack a now b)).delivered = l.delivered ++ l.retained ∧
      (l.step (.acknack a now b)).retained = [] := by
  have habove : ∀ r ∈ l.writer.retained, r.number < a.readerState.bitmapBase :=
    fun r hmem => hbase _ (List.mem_map.2 ⟨r, hmem, rfl⟩)
  have hlength : l.retained.length = l.writer.retained.length := List.length_map _
  obtain ⟨hacts, hret⟩ := onAcknack_delivers hvalid hr hw hcount habove now (hlength ▸ hroom)
  refine ⟨?_, List.map_eq_nil_iff.2 hret⟩
  have hd : (l.step (.acknack a now b)).delivered =
      l.delivered ++ deliveredIn (b.emitted (l.writer.onAcknack a now b).actions) :=
    List.filterMap_append
  rw [hd, ActionBuffer.emitted_of_append hacts, deliveredIn, List.filterMap_map]
  exact congrArg _ (congrFun List.filterMap_eq_map _)

/-- Without a failed sample, what is accepted and not retained was delivered, so it arrived. -/
theorem LinkFlow.received_of_not_retained (h : LinkFlow wc rc k) (hcont : k.Contiguous rc)
    (hfailed : k.writer.failed = []) {q : ℕ} (hq : q ∈ k.writer.accepted)
    (hret : q ∉ k.writer.retained) : q ∈ k.reader.received := by
  have hplaces := h.link.writer.places q
  rw [List.count_eq_zero_of_not_mem hret, hfailed, List.count_nil] at hplaces
  have hpos : 0 < k.writer.accepted.count q := List.count_pos_iff.2 hq
  have hdel : 0 < k.writer.delivered.count q := by omega
  exact h.delivered q (List.count_pos_iff.1 hdel) (hcont.mem_iff.1 hq).1

/-- The next ACKNACK of the reader is new to the writer. -/
theorem LinkFlow.reply_newer (h : LinkFlow wc rc k) (hlen : k.reader.acknacks.length < 2 ^ 31)
    (hb : Heartbeat) (hi : k.writer.writer.acknackCountInitialized = true) :
    controlCountIsNewer (k.reader.reply hb).count k.writer.writer.lastAcknackCount = true := by
  obtain ⟨i, hlt, hseen⟩ := h.acknackSeen hi
  have hcount : (k.reader.reply hb).count = .ofNat 32 (k.reader.acknacks.length + 1) := by
    show nextControlCount k.reader.reader.acknackCount = _
    rw [h.reader.count, nextControlCount_ofNat]
  rw [hseen, hcount]
  exact controlCountIsNewer_ofNat (by omega) (by omega)

theorem WriterLog.empty_of_retained {l : WriterLog H P} (h : l.retained = []) :
    l.writer.empty = true := by
  have hsize := retained_length l.writer
  rw [List.map_eq_nil_iff.1 h] at hsize
  simp only [ReliableWriter.empty, beq_iff_eq]
  exact hsize.symm

end Round

/-- **A lossless round empties the writer.** In every run of a writer and a reader over a network
that loses, duplicates and reorders, with matching ids and valid configurations, contiguous numbers
from the initial number of the reader on, no failed sample and fewer than 2 ^ 31 heartbeats and
ACKNACKs so far: handing all retained DATA to the reader in ascending order, then a new non-final
heartbeat, then the ACKNACK that answers it, always sends this ACKNACK, makes the writer report
`sample_delivered` for every retained sample, and leaves nothing retained. -/
theorem lossless_round_empties (hW : W ≤ 256) (wc : ReliableWriterConfig) (rc : ReliableReaderConfig)
    (hwc : wc.repairWindowNs ≠ 0) (hv : validStateSequence rc.initialSequenceNumber = true)
    (hpeer : rc.readerId = wc.readerId ∧ rc.writerId = wc.writerId) (es : List LinkEvent)
    (hcont : (Link.after wc rc es : Link H P W).Contiguous rc)
    (hfailed : (Link.after wc rc es : Link H P W).writer.failed = [])
    (hheartbeats : (Link.after wc rc es : Link H P W).writer.heartbeats.length < 2 ^ 31)
    (hacknacks : (Link.after wc rc es : Link H P W).reader.acknacks.length < 2 ^ 31)
    (dataBuffers : ℕ → (cap : ℕ) × ActionBuffer cap) (hdata : ∀ q, (dataBuffers q).2.remaining ≠ 0)
    (t : Heartbeat) (hfinal : t.finalFlag = false) {cap cap' : ℕ} (bh : ActionBuffer cap)
    (hbh : bh.remaining ≠ 0) (now : ℕ) (ba : ActionBuffer cap')
    (hba : (Link.after wc rc es : Link H P W).writer.retained.length ≤ ba.remaining) :
    let k : Link H P W := Link.after wc rc es
    let k' : Link H P W := Link.after wc rc (es ++ k.round dataBuffers t bh now ba)
    k'.reader.acknacks.length = k.reader.acknacks.length + 1 ∧
      k'.writer.delivered = k.writer.delivered ++ k.writer.retained ∧
      k'.writer.retained = [] ∧ k'.writer.writer.empty = true := by
  intro k k'
  have hk : LinkFlow wc rc k := Link.after_flow hW wc rc hv es
  have hvalid : k.writer.writer.valid = true := by
    rw [hk.writer.valid]; simpa using hwc
  obtain ⟨h1, hw1, hacks1, hall⟩ := hk.hand hW hv hdata hk.link.writer.sorted hcont
    (fun q hq => hk.link.writer.retained_subset hq)
    (fun q hq hret => hk.received_of_not_retained hcont hfailed hq hret)
  set k1 : Link H P W := run Link.step k
    (k.writer.retained.map fun q => .deliverData (k.writer.data.idxOf q) (dataBuffers q).2) with hk1
  obtain ⟨hlt, hlast⟩ := h1.complete hv (by unfold Link.Contiguous; rw [hw1]; exact hcont)
    (by rw [hw1]; exact hall)
  -- the heartbeat of the round and its answer
  have hvalid1 : k1.writer.writer.valid = true := hw1 ▸ hvalid
  obtain ⟨hacks, hbase⟩ := h1.answers hv hpeer hvalid1 (hw1 ▸ hheartbeats) hlast t hfinal bh hbh
  set hb := (k1.writer.writer.fillHeartbeat t).2.2 with hhb
  set reply := k1.reader.reply hb with hreply
  set w2 : WriterLog H P := k1.writer.step (.heartbeat t) with hw2
  set r3 : ReaderLog W := k1.reader.step (.heartbeat hb bh) with hr3
  have hw2eq := WriterLog.step_heartbeat hvalid1 t
  have hget2 : w2.heartbeats[k.writer.heartbeats.length]? = some hb := by
    rw [hw2, hw2eq, ← hw1]
    exact List.getElem?_concat_length
  have hget3 : r3.acknacks[k.reader.acknacks.length]? = some reply := by
    rw [hacks, hacks1]
    exact List.getElem?_concat_length
  have hk' : k' = ⟨w2.step (.acknack reply now ba), r3⟩ := by
    have happ : k' = run Link.step k (k.round dataBuffers t bh now ba) := run_append ..
    rw [happ, Link.round, run_append]
    simp only [run_cons, run_nil, ← hk1]
    simp only [Link.step, ← hw2, hget2, ← hr3, hget3]
  -- the ACKNACK is new to the writer and above everything it retains
  have hnew : w2.writer.acknackCountInitialized = true →
      controlCountIsNewer reply.count w2.writer.lastAcknackCount = true := by
    rw [hw2, hw2eq]
    exact h1.reply_newer (hacks1 ▸ hacknacks) hb
  have hcfg : w2.writer.config = wc := by
    rw [hw2, hw2eq]
    exact h1.writer.config_eq
  have hrcfg : k1.reader.reader.config = rc := h1.link.reader.config_eq
  have hsame : w2.retained = k.writer.retained ∧ w2.delivered = k.writer.delivered ∧
      w2.writer.valid = true := by
    rw [hw2, hw2eq, hw1]
    exact ⟨rfl, rfl, hvalid⟩
  obtain ⟨hret, hdel, hval⟩ := hsame
  obtain ⟨hd, hr⟩ := WriterLog.acknowledged_all (l := w2) hval (a := reply)
    (by show k1.reader.reader.config.readerId = _; rw [hrcfg, hcfg]; exact hpeer.1)
    (by show k1.reader.reader.config.writerId = _; rw [hrcfg, hcfg]; exact hpeer.2) hnew
    (fun q hq => hbase ▸ hlt q (hw1 ▸ hk.link.writer.retained_subset (hret ▸ hq))) now ba
    (hret ▸ hba)
  rw [hk']
  refine ⟨?_, by rw [hd, hret, hdel], hr, WriterLog.empty_of_retained hr⟩
  show r3.acknacks.length = _
  rw [hacks, hacks1, List.length_append, List.length_singleton]

/-- Two samples of which the reader misses the first, with a heartbeat already answered. -/
def roundDemo : List LinkEvent :=
  [.write (.bytes [7]) 3 0 (.empty : ActionBuffer 4), .write (.bytes [8]) 4 0 (.empty : ActionBuffer 4),
    .heartbeat {}, .deliverData 1 (.empty : ActionBuffer 4), .deliverHeartbeat 0 (.empty : ActionBuffer 4)]

theorem roundDemo_empties :
    let rc : ReliableReaderConfig := { initialSequenceNumber := 3 }
    let k : Link 2 4 1 := Link.after {} rc roundDemo
    let k' : Link 2 4 1 := Link.after {} rc (roundDemo ++ k.round (fun _ => ⟨4, .empty⟩) {}
      (.empty : ActionBuffer 4) 200000000 (.empty : ActionBuffer 4))
    k.writer.retained = [3, 4] ∧ k.reader.received = [] ∧
      k'.reader.acknacks.length = k.reader.acknacks.length + 1 ∧
      k'.writer.delivered = k.writer.delivered ++ k.writer.retained ∧ k'.writer.retained = [] ∧
      k'.writer.writer.empty = true :=
  ⟨by decide, by decide, lossless_round_empties (H := 2) (P := 4) (W := 1) (by decide) {}
    { initialSequenceNumber := 3 } (by decide) (by decide) ⟨rfl, rfl⟩ roundDemo (by decide)
    (by decide) (by decide) (by decide) (fun _ => ⟨4, .empty⟩) (fun _ => by decide) {} rfl
    (.empty : ActionBuffer 4) (by decide) 200000000 (.empty : ActionBuffer 4) (by decide)⟩

end OpenRtdds
