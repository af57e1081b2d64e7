import OpenRtdds.Proof.SubscriptionOps

/-!
# Acknowledged and queued

`handle_data` passes a DATA message through two filters. The reader link accepts any number
of its window that is new, and counts it as received from then on; then ingress accepts it
only if it is addressed to the reader and above every number accepted before. The second
filter does not undo the first one.

* `ReaderSideOK`: the writer table holds the greatest number accepted so far.
* `acked_queued_iff`: when a number that the link counts as received also enters the history.
* `outOfOrder_acked_not_queued`: DATA 1, 3, 2 and a DATA for another reader.
-/

namespace OpenRtdds

open Lib

namespace ReaderSide

variable {S : ℕ}

/-- The GID under which the subscription keeps the remote writer. -/
abbrev writerGid (r : ReaderSide S) : Gid := makeGid r.writer.guidPrefix r.writer.entityId

theorem handleHeartbeat_frame (r : ReaderSide S) (heartbeat : Heartbeat) :
    (r.handleHeartbeat heartbeat).1.subscription = r.subscription ∧
      (r.handleHeartbeat heartbeat).1.writer = r.writer := by
  unfold handleHeartbeat
  split
  · exact ⟨rfl, rfl⟩
  split
  · exact ⟨rfl, rfl⟩
  cases r.readerLink heartbeat.firstSequenceNumber with
  | none => exact ⟨rfl, rfl⟩
  | some link => exact ⟨rfl, rfl⟩

variable [NeZero S]

/-- What `handle_data` does with a message of the writer that the link takes. -/
theorem handleData_acked {r : ReaderSide S} {packet : Span} {v : DataMessageView} {ts : ℕ}
    (hparse : parseDataMessage packet = .ok v) (hp : v.guidPrefix = r.writer.guidPrefix)
    (hw : v.writerId = r.writer.entityId) (hack : (r.linkData v.sequenceNumber).2 = true) :
    r.handleData packet ts =
      ({ r with link := (r.linkData v.sequenceNumber).1
                subscription := (r.subscription.networkReceive packet ts).2 },
        some (r.subscription.networkReceive packet ts).1) := by
  simp [handleData, hparse, hp, hw, hack]

/-- `handle_data` leaves the subscription alone or hands it a message of the writer. -/
theorem handleData_cases (r : ReaderSide S) (packet : Span) (ts : ℕ) :
    ((r.handleData packet ts).1.subscription = r.subscription ∧
      (r.handleData packet ts).1.writer = r.writer ∧ (r.handleData packet ts).2 = none) ∨
    ∃ v, parseDataMessage packet = .ok v ∧ v.guidPrefix = r.writer.guidPrefix ∧
      v.writerId = r.writer.entityId ∧ (r.linkData v.sequenceNumber).2 = true := by
  unfold handleData
  cases hparse : parseDataMessage packet with
  | error e => exact .inl ⟨rfl, rfl, rfl⟩
  | ok v =>
    simp only
    by_cases hid : v.guidPrefix ≠ r.writer.guidPrefix ∨ v.writerId ≠ r.writer.entityId
    · rw [if_pos hid]
      exact .inl ⟨rfl, rfl, rfl⟩
    · rw [if_neg hid]
      obtain ⟨hp, hw⟩ : v.guidPrefix = r.writer.guidPrefix ∧ v.writerId = r.writer.entityId := by
        simpa only [ne_eq, not_or, not_not] using hid
      cases hack : (r.linkData v.sequenceNumber).2 with
      | false => exact .inl ⟨rfl, rfl, rfl⟩
      | true => exact .inr ⟨v, rfl, hp, hw, hack⟩

end ReaderSide

section

variable {S : ℕ}

/-- **The ingress filter over a run**: the identities stay, and the state of the writer in
the table is the greatest number accepted so far, if there is one. -/
structure ReaderSideOK (side : ReaderSide S) (l : ReaderSideLog S) : Prop where
  writer : l.side.writer = side.writer
  active : l.side.subscription.shutdown = false
  participant : l.side.subscription.participantPrefix = side.subscription.participantPrefix
  reader : l.side.subscription.readerId = side.subscription.readerId
  unseen : l.side.subscription.findWriter side.writerGid = none → l.accepted = []
  last : ∀ i, l.side.subscription.findWriter side.writerGid = some i →
    (l.side.subscription.writers i).lastSequence ∈ l.accepted ∧
      ∀ n ∈ l.accepted, n ≤ (l.side.subscription.writers i).lastSequence

namespace ReaderSideOK

variable {side : ReaderSide S} {l : ReaderSideLog S}

theorem init (hs : side.subscription.shutdown = false)
    (hnew : side.subscription.findWriter side.writerGid = none) :
    ReaderSideOK side { side, accepted := [] } where
  writer := rfl
  active := hs
  participant := rfl
  reader := rfl
  unseen _ := rfl
  last i hi := by rw [hnew] at hi; cases hi

/-- The numbers accepted so far are below `n` exactly if the table lets `n` pass. -/
theorem above_iff (h : ReaderSideOK side l) (n : ℕ) :
    (∀ i, l.side.subscription.findWriter side.writerGid = some i →
      (l.side.subscription.writers i).lastSequence < n) ↔ ∀ m ∈ l.accepted, m < n := by
  cases hw : l.side.subscription.findWriter side.writerGid with
  | none =>
    have hnil := h.unseen hw
    simp [hnil]
  | some i =>
    obtain ⟨hmem, hmax⟩ := h.last i hw
    constructor
    · intro hlt m hm
      exact lt_of_le_of_lt (hmax m hm) (hlt i rfl)
    · rintro hall j hj
      cases hj
      exact hall _ hmem

theorem frame (h : ReaderSideOK side l) {r : ReaderSide S} (hw : r.writer = l.side.writer)
    (hs : r.subscription.shutdown = l.side.subscription.shutdown)
    (hp : r.subscription.participantPrefix = l.side.subscription.participantPrefix)
    (hr : r.subscription.readerId = l.side.subscription.readerId)
    (ht : r.subscription.writers = l.side.subscription.writers) :
    ReaderSideOK side { side := r, accepted := l.accepted } := by
  have hfind : r.subscription.findWriter side.writerGid =
      l.side.subscription.findWriter side.writerGid := by
    simp only [Subscription.findWriter, ht]
  refine ⟨hw.trans h.writer, hs.trans h.active, hp.trans h.participant, hr.trans h.reader, ?_, ?_⟩
  · intro hnone
    exact h.unseen (hfind ▸ hnone)
  · intro i hi
    simp only [ht]
    exact h.last i (hfind ▸ hi)

variable [NeZero S]

theorem accepted (h : ReaderSideOK side l) {sample : StoredSample} {i : Fin 16} (isNew : Bool)
    {link : Option (ReliableReader 256)} (hgid : sample.publisherGid = side.writerGid)
    (hpass : l.side.subscription.findWriter side.writerGid = some i ∧
        (l.side.subscription.writers i).lastSequence < sample.publicationSequenceNumber ∨
      l.side.subscription.findWriter side.writerGid = none ∧ l.side.subscription.freeWriter = some i) :
    ReaderSideOK side
      { side := { l.side with link, subscription := l.side.subscription.commit sample i isNew }
        accepted := l.accepted ++ [sample.publicationSequenceNumber] } := by
  have hfind : (l.side.subscription.commit sample i isNew).findWriter side.writerGid = some i := by
    rw [← hgid]
    refine Subscription.findWriter_commit isNew ?_
    rw [hgid]
    exact hpass.imp And.left And.left
  have hbelow : ∀ n ∈ l.accepted, n < sample.publicationSequenceNumber := by
    rw [← h.above_iff]
    intro j hj
    rcases hpass with ⟨hi, hlt⟩ | ⟨hnone, -⟩
    · rw [hi] at hj
      cases hj
      exact hlt
    · rw [hnone] at hj
      cases hj
  have hlast : ((l.side.subscription.commit sample i isNew).writers i).lastSequence =
      sample.publicationSequenceNumber := by
    simp [Subscription.commit]
  refine ⟨h.writer, h.active, h.participant, h.reader, fun hnone => ?_, fun j hj => ?_⟩
  · rw [hfind] at hnone
    cases hnone
  · rw [hfind] at hj
    cases hj
    simp only
    rw [hlast]
    refine ⟨by simp, fun n hn => ?_⟩
    rcases List.mem_append.1 hn with hn | hn
    · exact le_of_lt (hbelow n hn)
    · exact le_of_eq (List.mem_singleton.1 hn)

theorem step (h : ReaderSideOK side l) (e : ReaderSideEvent) : ReaderSideOK side (l.step e) := by
  cases e with
  | data packet ts =>
    rcases l.side.handleData_cases packet ts with ⟨hsub, hw, hnone⟩ | ⟨v, hparse, hp, hw, hack⟩
    · simp only [ReaderSideLog.step, hnone, acceptedNumber?, Option.toList_none, List.append_nil]
      exact h.frame hw (by rw [hsub]) (by rw [hsub]) (by rw [hsub]) (by rw [hsub])
    · simp only [ReaderSideLog.step, ReaderSide.handleData_acked hparse hp hw hack]
      have hin := l.side.subscription.networkReceive_outcome packet ts
      generalize l.side.subscription.networkReceive packet ts = out at hin
      cases hin with
      | @refused e href _ =>
        rw [href, Option.toList_none, List.append_nil]
        exact h.frame rfl rfl rfl rfl rfl
      | @accepted v' i isNew _ hparse' hpass =>
        obtain rfl : v' = v := by rw [hparse] at hparse'; exact (Except.ok.inj hparse').symm
        rw [h.writer] at hp hw
        have hgid : makeGid v'.guidPrefix v'.writerId = side.writerGid := by rw [hp, hw]
        rw [hgid] at hpass
        exact h.accepted isNew hgid hpass
  | heartbeat hb =>
    obtain ⟨hsub, hw⟩ := l.side.handleHeartbeat_frame hb
    exact h.frame hw (by rw [hsub]) (by rw [hsub]) (by rw [hsub]) (by rw [hsub])
  | take decode =>
    refine h.frame rfl ?_ ?_ ?_ ?_
    all_goals
      simp only [Subscription.takeOne]
      split
      · rfl
      split
      · rfl
      split
      · rfl
      · rfl

end ReaderSideOK

variable [NeZero S]

/-- The filter invariant along every run of a side that has not yet heard of the writer. -/
theorem ReaderSideLog.after_ok {side : ReaderSide S} (hs : side.subscription.shutdown = false)
    (hnew : side.subscription.findWriter side.writerGid = none) (es : List ReaderSideEvent) :
    ReaderSideOK side (after side es) :=
  run_inv (fun _ e h => h.step e) (.init hs hnew) es

/-- **When an acknowledged number is queued.** In every run of datagrams, HEARTBEATs and takes
of a subscription that starts without a state for the discovered writer: a DATA message of
the writer whose number the reader link counts as received, whose payload fits and whose
writer has room in the table, is appended to the history in the same `handle_data` call
exactly if it is addressed to this reader, the receive time is representable, every number
accepted before is smaller, and the reception numbers are not exhausted. -/
theorem acked_queued_iff (side : ReaderSide S) (hs : side.subscription.shutdown = false)
    (hnew : side.subscription.findWriter side.writerGid = none)
    (hd : side.subscription.Discovered side.writer.guidPrefix side.writer.entityId)
    (es : List ReaderSideEvent) (packet : Span) {v : DataMessageView} (ts : ℕ)
    (hparse : parseDataMessage packet = .ok v) (hp : v.guidPrefix = side.writer.guidPrefix)
    (hw : v.writerId = side.writer.entityId)
    (hack : ((ReaderSideLog.after side es).side.linkData v.sequenceNumber).2 = true)
    (hfit : v.payload.length ≤ (ReaderSideLog.after side es).side.subscription.serializedCapacity)
    (hroom : (ReaderSideLog.after side es).side.subscription.HasRoom side.writerGid) :
    let l := ReaderSideLog.after side es
    let r := l.side.handleData packet ts
    ((∃ n d, r.2 = some (.ok (.accepted v.sequenceNumber n d))) ∧
        r.1.subscription.queue.getLast? = some (l.side.subscription.stored v ts)) ↔
      side.subscription.Addressed v ∧ (0 < ts ∧ ts ≤ int64Max) ∧
        (∀ n ∈ l.accepted, n < v.sequenceNumber) ∧
        l.side.subscription.nextReceptionSequence ≠ uint64Max := by
  intro l r
  have hok : ReaderSideOK side l := ReaderSideLog.after_ok hs hnew es
  have hgid : makeGid v.guidPrefix v.writerId = side.writerGid := by rw [hp, hw]
  have hdl : l.side.subscription.Discovered v.guidPrefix v.writerId := by
    rw [hp, hw]
    exact ⟨hd.nonzero, by rw [hok.participant]; exact hd.foreign, hd.user⟩
  have haddr : l.side.subscription.Addressed v ↔ side.subscription.Addressed v := by
    simp only [Subscription.Addressed, hok.participant, hok.reader]
  have hr : r = _ := ReaderSide.handleData_acked hparse (by rw [hok.writer, hp])
    (by rw [hok.writer, hw]) hack
  have haccept := Subscription.networkReceive_accepts ts hparse hok.active hdl hfit
    (by rw [hgid]; exact hroom)
  rw [haddr, hgid, hok.above_iff] at haccept
  rw [← haccept, hr]
  simp only [Option.some.injEq]
  refine and_iff_left_of_imp ?_
  -- an accepted sample is committed, and a committed sample is the last of the ring
  rintro ⟨n, d, hacc⟩
  have hin := l.side.subscription.networkReceive_outcome packet ts
  generalize l.side.subscription.networkReceive packet ts = out at hin hacc
  cases hin with
  | refused href _ =>
    simp only at hacc
    rw [hacc] at href
    cases href
  | @accepted v' i isNew htime hparse' hpass =>
    obtain rfl : v' = v := by rw [hparse] at hparse'; exact (Except.ok.inj hparse').symm
    rw [Subscription.commit_queue, List.getLast?_append, Subscription.storedAt_self _ _ htime]
    rfl

/-- A receiving context whose subscription keeps the last four samples. -/
def readerSideDemo : ReaderSide 4 where
  subscription := .init (.replicate 12 2) (readerId 0) 16 false
  writer := ⟨.replicate 12 1, writerId 0⟩
  link := none

/-- A DATA datagram of the writer of `readerSideDemo`. -/
def demoData (readerId : EntityId) (sequenceNumber : ℕ) : Span :=
  .bytes (dataMessageBytes
    { version := protocolVersion, vendorId, guidPrefix := readerSideDemo.writer.guidPrefix, readerId
      writerId := readerSideDemo.writer.entityId, sequenceNumber } [0, 1, 0, 0])

/-- DATA 1 and 3 arrived. DATA 2 is in the window of the link, which counts it as received
and moves to 4; ingress drops it as stale. A DATA 4 that names another reader is counted as
received and dropped too. -/
theorem outOfOrder_acked_not_queued :
    let es := [.data (demoData unknownReader 1) 5, .data (demoData unknownReader 3) 6]
    let l := ReaderSideLog.after readerSideDemo es
    let stale := l.side.handleData (demoData unknownReader 2) 7
    let foreign := l.side.handleData (demoData #v[0, 0, 9, 4] 4) 7
    (l.side.linkData 2).2 = true ∧ stale.2 = some (.ok (.duplicateOrStale 2)) ∧
      stale.1.link.map ReliableReader.base = some 4 ∧
      stale.1.subscription.queue.map StoredSample.publicationSequenceNumber = [1, 3] ∧
      (l.side.linkData 4).2 = true ∧ foreign.2 = some (.error .wrongReader) := by
  decide

/-- DATA 1 and 2 in order: both conditions hold and DATA 2 is queued. -/
theorem inOrder_acked_queued :
    ∃ n d, ((ReaderSideLog.after readerSideDemo [.data (demoData unknownReader 1) 5]).side.handleData
      (demoData unknownReader 2) 7).2 = some (.ok (.accepted 2 n d)) := by
  have h := (acked_queued_iff readerSideDemo rfl rfl ⟨rfl, by decide, rfl⟩
    [.data (demoData unknownReader 1) 5] (demoData unknownReader 2) 7 rfl rfl rfl rfl
    (by decide) (.inl (by decide))).2
  exact (h ⟨⟨by decide, by decide⟩, by decide, by decide, by decide⟩).1

end

end OpenRtdds
