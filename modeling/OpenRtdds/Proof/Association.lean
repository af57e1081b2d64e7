import OpenRtdds.Proof.ReaderSide

/-!
# When a reliable association acknowledges the sample in flight

A writer link holds one sample at a time. It is acknowledged by one exchange: its DATA, the
next HEARTBEAT of the link, the ACKNACK that answers it. Whether the exchange succeeds is
decided by three things: whether the reader link still waits for a number below the sample
(the link answers no HEARTBEAT that starts above its base), and whether the counts of the
HEARTBEAT and of the ACKNACK are newer than the last ones the other side has seen, which
they need not be after one of the links was re-created.

* `AssociationOK`: the invariant of both sides and of every message in flight.
* `Association.after_ok`: it holds after every run.
* `association_acknowledges_iff`: the exact condition, in every reachable state.
* `association_wedges`: an overwritten sample, a re-created writer link and a
  re-created reader link each stop the exchange.
-/

namespace OpenRtdds

open Lib ReliableWriter ReliableReader

variable {D S : ℕ}

/-- **The invariant of an association** between the writer `wg` and the reader `rg`. -/
structure AssociationOK (wg rg : Guid) (a : Association D S) : Prop where
  writer : WriterSideOK wg rg a.writer
  reader : ReaderLinkOK wg rg a.reader
  data : ∀ d ∈ a.data, IsData wg d
  heartbeats : ∀ hb ∈ a.heartbeats, validStateSequence hb.firstSequenceNumber = true

namespace AssociationOK

variable [NeZero D] [NeZero S] {wg rg : Guid} {a : Association D S}

omit [NeZero D] [NeZero S] in
theorem init (p : Publisher D) (s : Subscription S) :
    AssociationOK ⟨p.participantPrefix, p.writerId⟩ ⟨s.participantPrefix, s.readerId⟩
      (Association.init p s) where
  writer := ⟨rfl, rfl, rfl, fun k hk => by cases hk⟩
  reader := ⟨rfl, rfl, rfl, fun k hk => by cases hk⟩
  data := fun d hd => absurd hd List.not_mem_nil
  heartbeats := fun hb hhb => absurd hhb List.not_mem_nil

theorem step (h : AssociationOK wg rg a) (e : AssociationEvent) : AssociationOK wg rg (a.step e) := by
  cases e with
  | publish serialized clock =>
    unfold Association.step
    simp only
    split
    · exact h
    · rename_i p hp
      exact { h with writer := h.writer.publish hp }
  | sendPending now =>
    obtain ⟨hw, hd⟩ := h.writer.send_ok now
    exact { h with writer := hw, data := List.forall_mem_append.2 ⟨h.data, hd⟩ }
  | service now =>
    obtain ⟨hw, hb⟩ := h.writer.service_ok now
    exact { h with
      writer := hw
      heartbeats := List.forall_mem_append.2
        ⟨h.heartbeats, fun x hx => hb x (Option.mem_toList.1 hx)⟩ }
  | deliverData index ts =>
    unfold Association.step
    simp only
    split
    · exact h
    · rename_i packet hget
      obtain ⟨n, hn, hc⟩ := h.data packet (List.mem_of_getElem? hget)
      obtain ⟨-, -, -, hr⟩ := h.reader.handleData_link hn hc ts
      exact { h with reader := hr }
  | deliverHeartbeat index =>
    unfold Association.step
    simp only
    split
    · exact h
    · rename_i hb hget
      exact { h with reader := h.reader.heartbeat_ok (h.heartbeats hb (List.mem_of_getElem? hget)) }
  | deliverAcknack index now =>
    unfold Association.step
    simp only
    split
    · exact h
    · rename_i acknack hget
      obtain ⟨hw, hd⟩ := h.writer.acknack_ok acknack now
      exact { h with writer := hw, data := List.forall_mem_append.2 ⟨h.data, hd⟩ }
  | pruneWriter => exact { h with writer := h.writer.setLink fun k hk => by cases hk }
  | pruneReader =>
    exact { h with
      reader := ⟨h.reader.participant, h.reader.entity, h.reader.remote, fun k hk => by cases hk⟩ }

end AssociationOK

section

variable [NeZero D] [NeZero S]

theorem Association.after_ok (p : Publisher D) (s : Subscription S) (es : List AssociationEvent) :
    AssociationOK ⟨p.participantPrefix, p.writerId⟩ ⟨s.participantPrefix, s.readerId⟩
      (Association.after p s es) :=
  run_inv (fun _ e h => h.step e) (.init p s) es

/-- The reader link waits for no number below `n`: a link that does not exist yet will start
at `n`. -/
def ReaderSide.Expects (r : ReaderSide S) (n : ℕ) : Prop := ∀ k, r.link = some k → n ≤ k.base

/-- The next HEARTBEAT count of the writer link is newer than the last one the reader link
has seen. -/
def HeartbeatFresh (k : WriterLink) (r : ReaderSide S) : Prop :=
  ∀ x, r.link = some x → x.heartbeatCountInitialized = true →
    controlCountIsNewer (nextControlCount k.state.heartbeatCount) x.lastHeartbeatCount = true

/-- The next ACKNACK count of the reader link is newer than the last one the writer link has
seen. -/
def AcknackFresh (k : WriterLink) (r : ReaderSide S) : Prop :=
  k.state.acknackCountInitialized = true →
    controlCountIsNewer (nextControlCount ((r.link.map ReliableReader.acknackCount).getD 0))
      k.state.lastAcknackCount = true

omit [NeZero S] in
/-- What the three conditions say about the link `k` that handles the DATA. -/
theorem conditions_iff {wg rg : Guid} {r : ReaderSide S} (h : ReaderLinkOK wg rg r) {n : ℕ}
    (hn : validStateSequence n = true) {k : ReliableReader 256} (hk : r.readerLink n = some k)
    (link : WriterLink) :
    IsReaderState rg.entityId wg.entityId k ∧ (r.Expects n ↔ n ≤ k.base) ∧
      (HeartbeatFresh link r ↔ (k.heartbeatCountInitialized = true → controlCountIsNewer
        (nextControlCount link.state.heartbeatCount) k.lastHeartbeatCount = true)) ∧
      (r.link.map ReliableReader.acknackCount).getD 0 = k.acknackCount := by
  obtain ⟨k', hk', hstate, hcases⟩ := h.readerLink hn
  obtain rfl : k' = k := Option.some.inj (hk'.symm.trans hk)
  refine ⟨hstate, ?_⟩
  rcases hcases with hl | ⟨hl, hbase, hinit, hcount⟩
  · simp [ReaderSide.Expects, HeartbeatFresh, hl]
  · simp [ReaderSide.Expects, HeartbeatFresh, hl, hbase, hinit, hcount]

/-- **When the sample in flight is acknowledged.** In every state reached by publishing,
sending, serving, losing, repeating and reordering messages, and pruning links, and for the
sample `x` the writer link holds there: deliver its DATA, then the next due HEARTBEAT of the
link before the repair window ends, then the ACKNACK this causes. The writer reports `x`
delivered and the link becomes empty exactly if the reader link waits for no number below
`x`, the HEARTBEAT's count is newer than the last one the reader link has seen, and the
ACKNACK's count is newer than the last one the writer link has seen. -/
theorem association_acknowledges_iff (p : Publisher D) (s : Subscription S)
    (es : List AssociationEvent) {k : WriterLink} {x : Record maximumDatagramSize}
    (hl : (Association.after p s es).writer.link = some k) (hx : k.state.retained = [x])
    (ts t1 t2 : ℕ) (h1 : x.firstSendNs ≤ t1) (h2 : t1 < x.firstSendNs + repairWindowNs)
    (hdue : k.nextHeartbeatNs ≤ t1) :
    let a := Association.after p s es
    let received := { a with reader := (a.reader.handleData (.bytes x.sample.payload) ts).1 }
    let o := received.acknowledge t1 t2
    (.sampleDelivered x.number ∈ o.2 ∧ ∃ k', o.1.writer.link = some k' ∧ k'.state.empty = true) ↔
      a.reader.Expects x.number ∧ HeartbeatFresh k a.reader ∧ AcknackFresh k a.reader := by
  intro a
  obtain ⟨wg, rg, hok⟩ : ∃ wg rg, AssociationOK wg rg a := ⟨_, _, Association.after_ok p s es⟩
  change a.writer.link = some k at hl
  clear_value a
  intro received o
  obtain ⟨-, hn, hcar⟩ := (hok.writer.link k hl).held x (by rw [hx]; exact List.mem_singleton_self x)
  -- the DATA moves the base of the link `k0` above `x`, unless a smaller number is missing
  obtain ⟨k0, hk0, hlink, hread⟩ := hok.reader.handleData_link hn hcar ts
  obtain ⟨hstate, hexp, hfresh, hack⟩ := conditions_iff hok.reader hn hk0 k
  obtain ⟨hbase, hctl⟩ := hstate.onData_base hn
  -- the HEARTBEAT announces exactly `x`
  obtain ⟨k', hb, hserv, hann, hcount, hret, hlast, hinit⟩ :=
    hok.writer.service_due hl hx h1 h2 hdue
  have hside : WriterSideOK wg rg { a.writer with link := some k' } := by
    have := (hok.writer.service_ok t1).1
    rw [hserv] at this
    exact this
  have ho : o = received.acknowledge t1 t2 := rfl
  unfold Association.acknowledge at ho
  rw [show received.writer = a.writer from rfl, hserv] at ho
  simp only at ho
  rw [hexp, hfresh]
  set k1 := (k0.onData x.number (.empty : ActionBuffer 4)).state with hk1
  rw [← hctl.heartbeat.1, ← hctl.heartbeat.2, ← hcount]
  by_cases hgo : x.number ≤ k0.base ∧ (k1.heartbeatCountInitialized = true →
      controlCountIsNewer hb.count k1.lastHeartbeatCount = true)
  · obtain ⟨hle, hnew⟩ := hgo
    have hlt : x.number < k1.base := by omega
    obtain ⟨acknack, hsome, hp, hr, hw, hb', hc⟩ :=
      hread.handleHeartbeat_fresh hlink hn hann hlt hnew
    obtain ⟨k2, hl2, hres⟩ := hside.handleAcknack_above rfl hret hp hr hw (hb' ▸ hlt) t2
    have hpair : received.reader.handleHeartbeat hb =
        ((received.reader.handleHeartbeat hb).1, some acknack) := Prod.ext rfl hsome
    rw [hpair] at ho
    simp only at ho
    have hfr : AcknackFresh k a.reader ↔ ¬ (k'.state.acknackCountInitialized = true ∧
        controlCountIsNewer acknack.count k'.state.lastAcknackCount = false) := by
      unfold AcknackFresh
      rw [hack, hc, hctl.acknackCount, hlast, hinit]
      simp
    rw [ho, hfr]
    by_cases hstale : k'.state.acknackCountInitialized = true ∧
        controlCountIsNewer acknack.count k'.state.lastAcknackCount = false
    · rw [if_pos hstale] at hres
      simp [hres.1, hstale]
    · rw [if_neg hstale] at hres
      have hempty : k2.state.empty = true := by
        have := retained_length k2.state
        rw [hres.2] at this
        simp [ReliableWriter.empty, ← this]
      simp only [hres.1, List.mem_singleton, true_and, hstale, not_false_eq_true, and_true]
      exact ⟨fun _ => ⟨hle, hnew⟩, fun _ => ⟨k2, hl2, hempty⟩⟩
  · -- the reader link does not answer
    have hquiet : (received.reader.handleHeartbeat hb).2 = none := by
      apply ReaderLinkOK.handleHeartbeat_silent hlink
      rw [hann.first, hann.last]
      by_cases hle : x.number ≤ k0.base
      · left
        simpa [hle] using hgo
      · right
        omega
    have hpair : received.reader.handleHeartbeat hb =
        ((received.reader.handleHeartbeat hb).1, none) := Prod.ext rfl hquiet
    rw [hpair] at ho
    simp only at ho
    rw [ho]
    constructor
    · rintro ⟨hmem, -⟩
      exact absurd hmem List.not_mem_nil
    · rintro ⟨hle, hnew, -⟩
      exact absurd ⟨hle, hnew⟩ hgo

end

/-- The numbers the writer link holds. -/
def Association.held (a : Association D S) : Option (List ℕ) :=
  a.writer.link.map fun k => k.state.retained.map Record.number

/-- A depth-one publisher and subscription after some events. -/
def associationDemo (es : List AssociationEvent) : Association 1 1 :=
  .after (.init (.replicate 12 1) (writerId 0) 16) (.init (.replicate 12 2) (readerId 0) 16 false)
    es

/-- Sample 1 is sent at time 10 and acknowledged. -/
def firstExchange : List AssociationEvent :=
  [.publish [0, 1, 0, 0] (some 5), .sendPending 10, .deliverData 0 20, .service 10,
    .deliverHeartbeat 0, .deliverAcknack 0 11]

/-- The held sample is not acknowledged when (1) sample 2 was overwritten before it was sent, so
that the reader link still waits for it, (2) the writer link was re-created and starts to
count HEARTBEATs anew, (3) the reader link was re-created and starts to count ACKNACKs anew.
Each time a HEARTBEAT is due. -/
theorem association_wedges :
    let exchange := fun a : Association 1 1 =>
      ({ a with reader := (a.reader.handleData (.bytes (a.data.getLast?.getD [])) 30).1 } :
        Association 1 1).acknowledge 30 31
    let stuck := fun (a : Association 1 1) (n : ℕ) =>
      a.held = some [n] ∧ (a.writer.serviceReliableWriters 30).2.isSome ∧
        (exchange a).2.length = 0 ∧ (exchange a).1.held = some [n]
    stuck (associationDemo (firstExchange ++
      [.publish [0, 1, 0, 0] (some 6), .publish [0, 1, 0, 0] (some 7), .sendPending 12])) 3 ∧
    stuck (associationDemo [.publish [0, 1, 0, 0] (some 5), .sendPending 10, .service 10,
      .deliverHeartbeat 0, .pruneWriter, .sendPending 20]) 1 ∧
    stuck (associationDemo (firstExchange ++
      [.publish [0, 1, 0, 0] (some 6), .sendPending 20, .pruneReader])) 2 := by
  decide +kernel

/-- Sample 1, just sent, meets the three conditions and is acknowledged. -/
theorem associationDemo_acknowledges :
    let a := associationDemo (firstExchange.take 2)
    ∃ x : Record maximumDatagramSize, x.number = 1 ∧ a.held = some [1] ∧
      .sampleDelivered 1 ∈ (({ a with reader :=
        (a.reader.handleData (.bytes x.sample.payload) 20).1 } : Association 1 1).acknowledge 15 16).2 := by
  intro a
  obtain ⟨k, hk⟩ : ∃ k, a.writer.link = some k := Option.isSome_iff_exists.1 (by decide +kernel)
  have hfacts : (a.writer.link.map fun k => (k.state.retained.map fun x => (x.number, x.firstSendNs),
      k.nextHeartbeatNs, k.state.acknackCountInitialized)) = some ([(1, 10)], 10, false) := by
    decide +kernel
  have hnone : a.reader.link = none := Option.isNone_iff_eq_none.1 (by decide +kernel)
  rw [hk] at hfacts
  simp only [Option.map_some, Option.some.injEq, Prod.mk.injEq, List.map_eq_singleton_iff] at hfacts
  obtain ⟨⟨x, hx, hnum, hsent⟩, hdue, hinit⟩ := hfacts
  have hexp : a.reader.Expects x.number := by
    intro y hy
    rw [hnone] at hy
    cases hy
  have hheart : HeartbeatFresh k a.reader := by
    intro y hy
    rw [hnone] at hy
    cases hy
  have hack : AcknackFresh k a.reader := by
    intro hy
    rw [hinit] at hy
    cases hy
  have h := (association_acknowledges_iff _ _ (firstExchange.take 2) hk hx 20 15 16 (by omega)
    (by unfold repairWindowNs; omega) (by omega)).2 ⟨hexp, hheart, hack⟩
  rw [hnum] at h
  exact ⟨x, hnum, by decide +kernel, h.1⟩

end OpenRtdds
