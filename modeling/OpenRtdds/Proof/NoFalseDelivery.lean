import OpenRtdds.Proof.ReaderRun
import OpenRtdds.Proof.WriterRun

/-!
# No false delivery

A writer and a reader over a network that loses, duplicates and reorders messages. What
makes an old ACKNACK harmless is that an acknowledgement never becomes false: a number
below its base, or at a clear bit of its set, had been received when it was sent
(`Honest`), and the set of received numbers only grows.

* `Honest.report`: the reader only sends honest acknowledgements.
* `Link.step_cases`: what an event can do to a link.
* `LinkOK.stepped`: every event keeps every message in flight honest.
* `WriterLog.Stepped.delivered`: what the writer reports delivered is what the ACKNACK acknowledges.
* `no_false_delivery`: the writer never reports a sample the reader has not received.
-/

namespace OpenRtdds

open Lib ReliableWriter

variable {H P W : ℕ}

/-- The set `st` acknowledges `q`: it is below the base, or its bit is clear. -/
def Acknowledges (st : SequenceNumberSet) (q : ℕ) : Prop :=
  q < st.bitmapBase ∨ (q - st.bitmapBase < st.numBits ∧ st.test (q - st.bitmapBase) = false)

/-- Everything from `init` on that `st` acknowledges has been received. -/
def Honest (init : ℕ) (received : List ℕ) (st : SequenceNumberSet) : Prop :=
  ∀ q, init ≤ q → Acknowledges st q → q ∈ received

theorem Honest.mono {init : ℕ} {R R' : List ℕ} {st : SequenceNumberSet} (h : Honest init R st)
    (hsub : ∀ q ∈ R, q ∈ R') : Honest init R' st :=
  fun q hq ha => hsub q (h q hq ha)

/-- A record is delivered exactly if the ACKNACK acknowledges its number. -/
theorem decision_deliver_iff {config : ReliableWriterConfig} {a : AckNack} {now : ℕ} {r : Record P} :
    decision config a now r = .ok .deliver ↔ Acknowledges a.readerState r.number := by
  unfold decision Acknowledges
  simp only
  split_ifs with h1 h2 h3 <;> simp_all

/-- What a sweep reports as delivered are retained records with that verdict. -/
theorem mem_sweep_delivered {v : Record P → Decision} {l : List (Record P)} {q : ℕ}
    (h : q ∈ deliveredIn (l.filterMap fun r => (v r).action r)) :
    ∃ r ∈ l, v r = .deliver ∧ r.number = q := by
  obtain ⟨a, ha, hq⟩ := List.mem_filterMap.1 h
  obtain ⟨r, hr, hra⟩ := List.mem_filterMap.1 ha
  refine ⟨r, hr, ?_⟩
  cases hv : v r <;> rw [hv] at hra <;> simp at hra <;> subst hra <;>
    simp_all [ReliabilityAction.deliveredNumber?]

variable [NeZero W]

/-- The reader only acknowledges what it has received. -/
theorem Honest.report (hW : W ≤ 256) {config : ReliableReaderConfig} {l : ReaderLog W}
    (h : ReaderOK config l) (hv : validStateSequence config.initialSequenceNumber = true) {L : ℕ}
    (hL : L ≤ int64Max) : Honest config.initialSequenceNumber l.received (l.reader.report L) := by
  obtain ⟨hb, -, ht⟩ := h.report_spec hW hv hL
  intro q hq ha
  rcases ha with ha | ⟨hk, hclear⟩
  · rw [hb] at ha
    exact h.tracks.below q hq ha
  · by_cases hlt : q < l.reader.base
    · exact h.tracks.below q hq hlt
    · have hiff := ht _ hk
      rw [hclear, hb, Nat.add_sub_cancel' (Nat.le_of_not_lt hlt)] at hiff
      by_contra hn
      exact Bool.false_ne_true (hiff.2 hn)

theorem ReaderLog.Stepped.received_mono {l l' : ReaderLog W} {e : ReaderEvent} (hs : l.Stepped e l') :
    ∀ q ∈ l.received, q ∈ l'.received := by
  intro q hq
  cases hs with
  | refused => exact hq
  | took ht => rw [ReaderLog.received_took ht]; exact List.mem_append_left _ hq
  | answered ha => rw [ReaderLog.received_answered ha]; exact hq

/-- A call on the reader sends at most honest ACKNACKs. -/
theorem ReaderLog.Stepped.honest (hW : W ≤ 256) {config : ReliableReaderConfig} {l l' : ReaderLog W}
    (h : ReaderOK config l) (hv : validStateSequence config.initialSequenceNumber = true)
    (hacks : ∀ a ∈ l.acknacks, Honest config.initialSequenceNumber l.received a.readerState)
    {e : ReaderEvent} (hs : l.Stepped e l') :
    ∀ a ∈ l'.acknacks, Honest config.initialSequenceNumber l'.received a.readerState := by
  have hmono := hs.received_mono
  intro a ha
  cases hs with
  | refused => exact hacks a ha
  | took ht =>
    rw [ReaderLog.acknacks_took ht] at ha
    exact (hacks a ha).mono hmono
  | answered hans =>
    rcases ReaderLog.acknacks_answered hans with ⟨-, -, hsame, -⟩ | ⟨-, hnew, -⟩
    · rw [hsame] at ha
      exact (hacks a ha).mono hmono
    · rw [hnew] at ha
      rcases List.mem_append.1 ha with ha | ha
      · exact (hacks a ha).mono hmono
      · rw [List.mem_singleton.1 ha]
        exact (Honest.report hW h hv hans.last_le).mono hmono

variable [NeZero H]

/-- **What an event can do to a link**: nothing, a call on the writer in which an ACKNACK is one
the reader sent, or a call on the reader with a message the writer sent. -/
inductive Link.Stepped (k : Link H P W) : Link H P W → Prop where
  | idle : Stepped k k
  | writer {e : WriterEvent} {l : WriterLog H P} (h : k.writer.Stepped e l)
      (sent : ∀ {cap : ℕ} (a : AckNack) (now : ℕ) (b : ActionBuffer cap),
        e = .acknack a now b → a ∈ k.reader.acknacks) : Stepped k { k with writer := l }
  | reader {e : ReaderEvent} {l : ReaderLog W} (h : k.reader.Stepped e l)
      (sentData : ∀ {cap : ℕ} (s : ℕ) (b : ActionBuffer cap),
        e = .data s b → s ∈ k.writer.data)
      (sentHeartbeat : ∀ {cap : ℕ} (hb : Heartbeat) (b : ActionBuffer cap),
        e = .heartbeat hb b → hb ∈ k.writer.heartbeats) : Stepped k { k with reader := l }

theorem Link.step_cases (k : Link H P W) (e : LinkEvent) : k.Stepped (k.step e) := by
  cases e with
  | write payload s now b => exact .writer (k.writer.step_cases _) (by intro _ a t c h; cases h)
  | timer now b => exact .writer (k.writer.step_cases _) (by intro _ a t c h; cases h)
  | heartbeat t => exact .writer (k.writer.step_cases _) (by intro _ a t c h; cases h)
  | deliverData index b =>
    unfold step
    simp only
    split
    next s hs =>
      refine .reader (k.reader.step_cases _) ?_ (by intro _ hb c h; cases h)
      intro _ s' c h
      cases h
      exact List.mem_of_getElem? hs
    next => exact .idle
  | deliverHeartbeat index b =>
    unfold step
    simp only
    split
    next hb hhb =>
      refine .reader (k.reader.step_cases _) (by intro _ s c h; cases h) ?_
      intro _ hb' c h
      cases h
      exact List.mem_of_getElem? hhb
    next => exact .idle
  | deliverAcknack index now b =>
    unfold step
    simp only
    split
    next a ha =>
      refine .writer (k.writer.step_cases _) ?_
      intro _ a' t c h
      cases h
      exact List.mem_of_getElem? ha
    next => exact .idle

/-- **The invariant of a link**: both ends are in order and every ACKNACK ever sent is honest. -/
structure LinkOK (config : ReliableReaderConfig) (k : Link H P W) : Prop where
  writer : WriterOK k.writer
  reader : ReaderOK config k.reader
  acks : ∀ a ∈ k.reader.acknacks,
    Honest config.initialSequenceNumber k.reader.received a.readerState

namespace LinkOK

variable {config : ReliableReaderConfig} {k : Link H P W}

theorem init (wc : ReliableWriterConfig) (config : ReliableReaderConfig) :
    LinkOK config (Link.init wc config : Link H P W) where
  writer := WriterOK.init wc
  reader := ReaderOK.init config
  acks := by intro a ha; exact absurd ha List.not_mem_nil

theorem stepped (hW : W ≤ 256) (hv : validStateSequence config.initialSequenceNumber = true)
    (h : LinkOK config k) {k' : Link H P W} (hs : k.Stepped k') : LinkOK config k' := by
  cases hs with
  | idle => exact h
  | writer hw => exact ⟨h.writer.stepped hw, h.reader, h.acks⟩
  | reader hr => exact ⟨h.writer, h.reader.stepped hr, hr.honest hW h.reader hv h.acks⟩

end LinkOK

theorem Link.after_ok (hW : W ≤ 256) (wc : ReliableWriterConfig) (config : ReliableReaderConfig)
    (hv : validStateSequence config.initialSequenceNumber = true) (es : List LinkEvent) :
    LinkOK config (Link.after wc config es : Link H P W) :=
  run_inv (fun k e h => h.stepped hW hv (k.step_cases e)) (LinkOK.init wc config) es

/-- The numbers a writer call newly reports as delivered are acknowledged by the ACKNACK it
handles, and were retained before. -/
theorem WriterLog.Stepped.delivered {l l' : WriterLog H P} {e : WriterEvent} (hs : l.Stepped e l')
    {q : ℕ} (h : q ∈ l'.delivered.drop l.delivered.length) : q ∈ l.retained ∧
      ∃ (cap : ℕ) (a : AckNack) (now : ℕ) (b : ActionBuffer cap),
        e = .acknack a now b ∧ Acknowledges a.readerState q := by
  have hdrop : ∀ {cap : ℕ} (b : ActionBuffer cap) (o : Outcome (ReliableWriter H P) cap),
      (l.record b o).delivered.drop l.delivered.length = deliveredIn (b.emitted o.actions) := by
    intro cap b o
    simp only [WriterLog.delivered, WriterLog.record, List.filterMap_append, List.drop_left]
  cases hs with
  | refused =>
    rw [List.drop_length] at h
    exact absurd h List.not_mem_nil
  | @wrote _ payload s now b hw =>
    have hd : q ∈ deliveredIn (b.emitted (l.writer.write payload s now b).actions) := hdrop b _ ▸ h
    rw [ActionBuffer.emitted_of_append hw.actions] at hd
    exact absurd hd List.not_mem_nil
  | @acknowledged _ a now b o hw hdec =>
    have hd : q ∈ deliveredIn (b.emitted o.actions) := hdrop b o ▸ h
    rw [ActionBuffer.emitted_of_append hw.actions] at hd
    obtain ⟨r, hr, hv, rfl⟩ := mem_sweep_delivered hd
    exact ⟨List.mem_map.2 ⟨r, hr, rfl⟩, _, a, now, b, rfl, decision_deliver_iff.1 (hv ▸ hdec r hr)⟩
  | @expired _ now b o hw =>
    -- the timer only keeps or fails
    have hd : q ∈ deliveredIn (b.emitted o.actions) := hdrop b o ▸ h
    rw [ActionBuffer.emitted_of_append hw.actions] at hd
    obtain ⟨r, -, hv, -⟩ := mem_sweep_delivered hd
    unfold timerVerdict at hv
    split at hv <;> cases hv
  | filled t =>
    have hd : q ∈ l.delivered.drop l.delivered.length := h
    rw [List.drop_length] at hd
    exact absurd hd List.not_mem_nil

/-- **No false delivery.** In every run of a writer and a reader over a network that loses,
duplicates and reorders, with an initial number of the reader not above any number the
writer accepted: whatever the next event is, if it makes the writer report `sample_delivered`
for `q`, the reader has already reported `sample_received` for `q`. -/
theorem no_false_delivery (hW : W ≤ 256) (wc : ReliableWriterConfig) (rc : ReliableReaderConfig)
    (hv : validStateSequence rc.initialSequenceNumber = true) (es : List LinkEvent) (e : LinkEvent)
    (hinit : ∀ q ∈ (Link.after wc rc es : Link H P W).writer.accepted, rc.initialSequenceNumber ≤ q) :
    ∀ q ∈ (Link.after wc rc (es ++ [e]) : Link H P W).writer.delivered.drop
        (Link.after wc rc es : Link H P W).writer.delivered.length,
      q ∈ (Link.after wc rc es : Link H P W).reader.received := by
  intro q hq
  have hk := Link.after_ok (H := H) (P := P) hW wc rc hv es
  have hstep : (Link.after wc rc (es ++ [e]) : Link H P W) = (Link.after wc rc es).step e :=
    run_snoc ..
  rw [hstep] at hq
  set k : Link H P W := Link.after wc rc es
  have hnone : q ∉ k.writer.delivered.drop k.writer.delivered.length := by
    rw [List.drop_length]
    exact List.not_mem_nil
  have hs := k.step_cases e
  generalize k.step e = k' at hq hs
  -- only a delivered ACKNACK makes the writer report, and it is honest
  cases hs with
  | idle => exact absurd hq hnone
  | reader => exact absurd hq hnone
  | writer hw hsent =>
    obtain ⟨hret, cap, a, t, c, rfl, hack⟩ := hw.delivered hq
    exact hk.acks a (hsent a t c rfl) q (hinit q (hk.writer.retained_subset hret)) hack

/-- A run in which a sample is delivered: written, received, announced and acknowledged. -/
def linkDemo : List LinkEvent :=
  [.write (.bytes [7]) 3 0 (.empty : ActionBuffer 4), .deliverData 0 (.empty : ActionBuffer 4), .heartbeat {},
    .deliverHeartbeat 0 (.empty : ActionBuffer 4)]

theorem linkDemo_no_false_delivery :
    let k : Link 2 4 4 := Link.after {} { initialSequenceNumber := 3 } linkDemo
    let k' : Link 2 4 4 := Link.after {} { initialSequenceNumber := 3 }
      (linkDemo ++ [.deliverAcknack 0 1 (.empty : ActionBuffer 4)])
    k'.writer.delivered.drop k.writer.delivered.length = [3] ∧
      ∀ q ∈ k'.writer.delivered.drop k.writer.delivered.length, q ∈ k.reader.received :=
  ⟨by decide, no_false_delivery (H := 2) (P := 4) (W := 4) (by decide) {}
    { initialSequenceNumber := 3 } (by decide) linkDemo (.deliverAcknack 0 1 (.empty : ActionBuffer 4))
    (by decide)⟩

end OpenRtdds
