import OpenRtdds.Proof.PublisherOps
import OpenRtdds.Proof.WriterOps
import OpenRtdds.Spec.Network

/-!
# The writer link of the network worker

The link keeps at most one sample, whose number is the last one written and whose payload is
a DATA datagram that carries this number.

* `WriterSideOK`: this invariant, with `send_ok`, `service_ok` and `acknack_ok` for the
  three operations and what they put on the network.
* `service_due`: a due HEARTBEAT announces exactly the sample the link holds.
* `handleAcknack_above`: an ACKNACK whose base is above the sample ends it, unless its count
  is stale.
-/

namespace OpenRtdds

open Lib ReliableWriter

/-- The datagram is DATA of the writer `w` with the number `n`. -/
def Carries (w : Guid) (packet : List UInt8) (n : ℕ) : Prop :=
  ∃ v, parseDataMessage (.bytes packet) = .ok v ∧ v.guidPrefix = w.guidPrefix ∧
    v.writerId = w.entityId ∧ v.sequenceNumber = n

/-- A datagram the writer `w` may have sent. -/
def IsData (w : Guid) (packet : List UInt8) : Prop :=
  ∃ n, validStateSequence n = true ∧ Carries w packet n

/-- **The state of a writer link** from `w` to `r`. -/
structure WriterLinkOK (w r : Guid) (s : ReliableWriter 1 maximumDatagramSize) : Prop where
  reader : s.config.readerId = r.entityId
  writer : s.config.writerId = w.entityId
  window : s.config.repairWindowNs = repairWindowNs
  valid : s.valid = true
  held : ∀ x ∈ s.retained, x.number = s.lastSequenceNumber ∧ validStateSequence x.number = true ∧
    Carries w x.sample.payload x.number

namespace WriterLinkOK

variable {w r : Guid} {s : ReliableWriter 1 maximumDatagramSize}

theorem retain_eq {P : ℕ} {x y : Record P} {d : Decision} (h : d.retain x = some y) :
    y.sample = x.sample := by
  cases d <;> simp at h <;> rw [← h]

theorem action_retransmit {P : ℕ} {x : Record P} {d : Decision} {a : ReliabilityAction}
    {packet : List UInt8} (h : d.action x = some a) (ha : a.retransmit? = some packet) :
    packet = x.sample.payload := by
  cases d <;> simp at h
  all_goals
    subst h
    simp [ReliabilityAction.retransmit?] at ha
  exact ha.symm

theorem swept (h : WriterLinkOK w r s) {v : Record maximumDatagramSize → Decision} {cap : ℕ}
    {b : ActionBuffer cap} {o : Outcome (ReliableWriter 1 maximumDatagramSize) cap}
    (hs : Swept s v b o) : WriterLinkOK w r o.state := by
  have hc := hs.frame.config
  refine ⟨by rw [hc]; exact h.reader, by rw [hc]; exact h.writer, by rw [hc]; exact h.window,
    by rw [hs.frame.valid]; exact h.valid, fun y hy => ?_⟩
  rw [hs.retained] at hy
  obtain ⟨x, hx, hxy⟩ := List.mem_filterMap.1 hy
  have hsame : y.sample = x.sample := retain_eq hxy
  unfold Record.number
  rw [hs.last, hsame]
  exact h.held x hx

theorem wrote (h : WriterLinkOK w r s) {packet : List UInt8} {n now cap : ℕ} {b : ActionBuffer cap}
    {o : Outcome (ReliableWriter 1 maximumDatagramSize) cap} (hs : Wrote s (.bytes packet) n now b o)
    (hempty : s.retained = []) (hc : Carries w packet n) : WriterLinkOK w r o.state := by
  have hcfg := hs.frame.config
  refine ⟨by rw [hcfg]; exact h.reader, by rw [hcfg]; exact h.writer, by rw [hcfg]; exact h.window,
    by rw [hs.frame.valid]; exact h.valid, fun y hy => ?_⟩
  obtain ⟨x, hpay, hmeta, -, -, hret⟩ := hs.retained
  rw [hret, hempty, List.nil_append, List.mem_singleton] at hy
  subst hy
  unfold Record.number
  rw [hs.last, hmeta, hpay]
  exact ⟨rfl, hs.number, hc⟩

theorem swept_data (h : WriterLinkOK w r s) {v : Record maximumDatagramSize → Decision} {cap : ℕ}
    {o : Outcome (ReliableWriter 1 maximumDatagramSize) cap} (hs : Swept s v {} o) :
    ∀ d ∈ o.actions.actions.filterMap ReliabilityAction.retransmit?, IsData w d := by
  intro d hd
  obtain ⟨a, ha, had⟩ := List.mem_filterMap.1 hd
  rw [hs.actions, List.nil_append] at ha
  obtain ⟨x, hx, hxa⟩ := List.mem_filterMap.1 ha
  obtain ⟨-, hval, hcar⟩ := h.held x hx
  rw [action_retransmit hxa had]
  exact ⟨x.number, hval, hcar⟩

theorem heartbeat (h : WriterLinkOK w r s) (template : Heartbeat) :
    WriterLinkOK w r (s.fillHeartbeat template).2.1 := by
  unfold fillHeartbeat
  rw [if_neg (by simp [h.valid])]
  exact ⟨h.reader, h.writer, h.window, h.valid, h.held⟩

end WriterLinkOK

/-- **The invariant of the publishing context**: identities and link. -/
structure WriterSideOK (wg rg : Guid) {D : ℕ} (w : WriterSide D) : Prop where
  participant : w.publisher.participantPrefix = wg.guidPrefix
  entity : w.publisher.writerId = wg.entityId
  remote : w.reader = rg
  link : ∀ k, w.link = some k → WriterLinkOK wg rg k.state

namespace WriterSideOK

variable {wg rg : Guid} {D : ℕ} {w : WriterSide D}

theorem setLink (h : WriterSideOK wg rg w) {link : Option WriterLink}
    (hl : ∀ k, link = some k → WriterLinkOK wg rg k.state) : WriterSideOK wg rg { w with link } :=
  ⟨h.participant, h.entity, h.remote, hl⟩

theorem setSome (h : WriterSideOK wg rg w) {k : WriterLink} (hk : WriterLinkOK wg rg k.state) :
    WriterSideOK wg rg { w with link := some k } :=
  h.setLink (by rintro k' ⟨⟩; exact hk)

theorem writerLink (h : WriterSideOK wg rg w) : WriterLinkOK wg rg w.writerLink.state := by
  unfold WriterSide.writerLink
  cases hl : w.link with
  | some k => exact h.link k hl
  | none =>
    refine ⟨?_, h.entity, rfl, rfl, fun x hx => absurd hx List.not_mem_nil⟩
    show w.reader.entityId = rg.entityId
    rw [h.remote]

/-- `on_timer` in a link keeps its invariant unless the link is dropped. -/
theorem service_ok (h : WriterSideOK wg rg w) (now : ℕ) :
    WriterSideOK wg rg (w.serviceReliableWriters now).1 ∧
      ∀ hb, (w.serviceReliableWriters now).2 = some hb →
        validStateSequence hb.firstSequenceNumber = true := by
  unfold WriterSide.serviceReliableWriters
  cases hl : w.link with
  | none => exact ⟨h, by simp⟩
  | some k =>
    simp only
    have hk := h.link k hl
    rcases onTimer_cases k.state now (.empty : ActionBuffer 4) with hr | ⟨hs, -, -, -⟩
    · rw [if_pos hr.error]
      exact ⟨h.setLink (by simp), by simp⟩
    · rw [if_neg (by simp [hs.error])]
      have hk' := hk.swept hs
      split
      · rename_i hdue
        refine ⟨h.setSome (hk'.heartbeat _), ?_⟩
        intro hb hhb
        unfold fillHeartbeat at hhb
        rw [if_neg (by simp [hk'.valid])] at hhb
        simp only [if_true, Option.some.injEq] at hhb
        have hne : (k.state.onTimer now (.empty : ActionBuffer 4)).state.size ≠ 0 := by
          simp only [ReliableWriter.empty, Bool.and_eq_true, Bool.not_eq_true', beq_eq_false_iff_ne] at hdue
          exact hdue.1
        rw [if_neg hne] at hhb
        rw [← hhb]
        -- the first number is that of the sample at index 0
        have hmem : (k.state.onTimer now (.empty : ActionBuffer 4)).state.records (wrap 0) ∈
            (k.state.onTimer now (.empty : ActionBuffer 4)).state.retained := by
          refine List.mem_map.2 ⟨0, List.mem_range.2 (Nat.pos_of_ne_zero hne), rfl⟩
        exact (hk'.held _ hmem).2.1
      · exact ⟨h.setSome hk', by simp⟩

/-- `handle_acknack` keeps the invariant and repeats DATA of this writer. -/
theorem acknack_ok (h : WriterSideOK wg rg w) (acknack : AckNack) (now : ℕ) :
    WriterSideOK wg rg (w.handleAcknack acknack now).1 ∧
      ∀ d ∈ (w.handleAcknack acknack now).2.filterMap ReliabilityAction.retransmit?, IsData wg d := by
  unfold WriterSide.handleAcknack
  split
  · exact ⟨h, by simp⟩
  cases hl : w.link with
  | none => exact ⟨h, by simp⟩
  | some k =>
    simp only
    have hk := h.link k hl
    split
    · exact ⟨h, by simp⟩
    rcases onAcknack_cases k.state acknack now (.empty : ActionBuffer 4) with hr | ⟨hs, -⟩
    · refine ⟨h.setSome ?_, ?_⟩
      · rw [hr.state]
        exact hk
      · rw [hr.actions]
        simp
    · exact ⟨h.setSome (hk.swept hs), hk.swept_data hs⟩

variable [NeZero D]

theorem publish (h : WriterSideOK wg rg w) {serialized : List UInt8} {clock : Option ℕ}
    {p : Publisher D} (hp : w.publisher.publishSerialized serialized clock = .ok p) :
    WriterSideOK wg rg { w with publisher := p } := by
  have hpub := Publisher.publishSerialized_ok hp
  exact ⟨hpub.participantPrefix.trans h.participant, hpub.writerId.trans h.entity, h.remote, h.link⟩

theorem copyNext (h : WriterSideOK wg rg w) {after n : ℕ} {packet : List UInt8}
    (hc : w.publisher.networkCopyNext after maximumDatagramSize = some (n, packet)) :
    Carries wg packet n := by
  unfold Publisher.networkCopyNext at hc
  split_ifs at hc
  split at hc
  · cases hc
  split at hc
  · cases hc
  rename_i sample hsample packet' hbuild
  simp only [Option.some.injEq, Prod.mk.injEq] at hc
  obtain ⟨rfl, rfl⟩ := hc
  exact ⟨_, parse_build hbuild, h.participant, h.entity, rfl⟩

/-- `send_pending_samples` keeps the invariant and sends DATA of this writer. -/
theorem send_ok (h : WriterSideOK wg rg w) (now : ℕ) :
    WriterSideOK wg rg (w.sendPendingSamples now).1 ∧
      ∀ d ∈ (w.sendPendingSamples now).2, IsData wg d := by
  have hlink := h.writerLink
  unfold WriterSide.sendPendingSamples WriterLink.sendNext
  simp only
  by_cases hempty : w.writerLink.state.empty = true
  swap
  · rw [if_pos (by simp [hempty])]
    exact ⟨h.setSome hlink, by simp⟩
  rw [if_neg (by simp [hempty])]
  split
  · exact ⟨h.setSome hlink, by simp⟩
  rename_i n packet hcopy
  have hcarries : Carries wg packet n := h.copyNext hcopy
  have hnil : w.writerLink.state.retained = [] := by
    apply List.eq_nil_of_length_eq_zero
    rw [retained_length]
    simpa [ReliableWriter.empty] using hempty
  rcases write_cases w.writerLink.state (.bytes packet) n now (.empty : ActionBuffer 4) with hr | hw
  · -- a refused write sends nothing
    have hacts : (w.writerLink.state.write (.bytes packet) n now (.empty : ActionBuffer 4)).actions.actions
        = [] := by rw [hr.actions, ActionBuffer.empty_actions]
    rw [hacts]
    split
    · rename_i hnone; cases hnone
    · rw [hr.state]
      exact ⟨h.setSome hlink, by simp⟩
  · rw [hw.error, hw.actions]
    refine ⟨h.setSome (hlink.wrote hw hnil hcarries), fun d hd => ?_⟩
    have hd' : d = packet := List.mem_singleton.1 hd
    rw [hd']
    exact ⟨n, hw.number, hcarries⟩

end WriterSideOK

section OneRecord

variable {P : ℕ} {s : ReliableWriter 1 P} {x : Record P}

theorem retained_one (hx : s.retained = [x]) : s.size = 1 ∧ s.records (wrap 0) = x := by
  have hlen : s.size = 1 := by rw [← retained_length, hx, List.length_singleton]
  refine ⟨hlen, ?_⟩
  rw [retained, hlen] at hx
  exact List.singleton_injective hx

/-- Before its window ends a record survives `on_timer`. -/
theorem onTimer_keeps (hv : s.valid = true) (hx : s.retained = [x]) {now : ℕ}
    (h1 : x.firstSendNs ≤ now) (h2 : now < x.firstSendNs + s.config.repairWindowNs) :
    Swept s (fun _ => .keep) (.empty : ActionBuffer 4) (s.onTimer now .empty) ∧
      (s.onTimer now (.empty : ActionBuffer 4)).state.lastAcknackCount = s.lastAcknackCount ∧
      (s.onTimer now (.empty : ActionBuffer 4)).state.acknackCountInitialized =
        s.acknackCountInitialized := by
  obtain ⟨hsize, hrec⟩ := retained_one hx
  have hloop : (List.range s.size).foldlM (expiredStep s now) 0 = .ok 0 := by
    rw [hsize]
    simp only [List.range_one, List.foldlM_cons, List.foldlM_nil, expiredStep, hrec]
    rw [if_neg (by omega), if_neg (by omega)]
    rfl
  have herr : (s.onTimer now (.empty : ActionBuffer 4)).error = .none := by
    unfold onTimer
    rw [if_neg (by simp [hv]), hloop]
    rfl
  rcases onTimer_cases s now (.empty : ActionBuffer 4) with hr | ⟨hs, -, hcount, hinit⟩
  · exact absurd herr hr.error
  have hkeep : ∀ y ∈ s.retained, timerVerdict s.config now y = .keep := by
    intro y hy
    rw [hx, List.mem_singleton] at hy
    unfold timerVerdict
    rw [hy, if_neg (by omega)]
  refine ⟨⟨hs.error, hs.valid, ?_, ?_, hs.last, hs.frame⟩, hcount, hinit⟩
  · rw [hs.retained]
    exact List.filterMap_congr fun y hy => by rw [hkeep y hy]
  · rw [hs.actions]
    congr 1
    exact List.filterMap_congr fun y hy => by rw [hkeep y hy]

/-- An ACKNACK above the record ends it, unless its count is stale. -/
theorem onAcknack_above (hv : s.valid = true) (hx : s.retained = [x]) {acknack : AckNack}
    (hr : acknack.readerId = s.config.readerId) (hw : acknack.writerId = s.config.writerId)
    (hbase : x.number < acknack.readerState.bitmapBase) (now : ℕ) :
    let o := s.onAcknack acknack now (.empty : ActionBuffer 4)
    if s.acknackCountInitialized = true ∧ controlCountIsNewer acknack.count s.lastAcknackCount = false
    then o.actions.actions = [] ∧ o.state.retained = [x]
    else o.actions.actions = [.sampleDelivered x.number] ∧ o.state.retained = [] := by
  intro o
  by_cases hstale : s.acknackCountInitialized = true ∧
      controlCountIsNewer acknack.count s.lastAcknackCount = false
  · rw [if_pos hstale]
    have ho : o = ⟨.staleControl, s, {}⟩ := by
      show s.onAcknack acknack now {} = _
      unfold onAcknack
      rw [if_neg (by simp [hv]), if_neg (by simp [hr, hw]), if_pos (by simp [hstale])]
    rw [ho]
    exact ⟨rfl, hx⟩
  · rw [if_neg hstale]
    have hcount : s.acknackCountInitialized = true →
        controlCountIsNewer acknack.count s.lastAcknackCount = true := by
      simpa using hstale
    have habove : ∀ r ∈ s.retained, r.number < acknack.readerState.bitmapBase := by
      rw [hx]
      exact List.forall_mem_singleton.2 hbase
    have hroom : s.retained.length ≤ (.empty : ActionBuffer 4).remaining := by
      rw [hx]
      exact Nat.succ_le_succ (Nat.zero_le 3)
    obtain ⟨hacts, hret⟩ := onAcknack_delivers hv hr hw hcount habove now hroom
    rw [hx] at hacts
    exact ⟨hacts, hret⟩

end OneRecord

/-- The HEARTBEAT of a link from `w` to `r` that holds only the number `n`. -/
structure Announces (w r : Guid) (n : ℕ) (hb : Heartbeat) : Prop where
  participant : hb.header.guidPrefix = w.guidPrefix
  writer : hb.writerId = w.entityId
  reader : hb.readerId = r.entityId
  first : hb.firstSequenceNumber = n
  last : hb.lastSequenceNumber = n
  asks : hb.finalFlag = false

namespace WriterSideOK

variable {wg rg : Guid} {D : ℕ} {w : WriterSide D} {k : WriterLink} {x : Record maximumDatagramSize}

/-- **A due HEARTBEAT** announces the sample the link holds, and changes no record. -/
theorem service_due (h : WriterSideOK wg rg w) (hl : w.link = some k) (hx : k.state.retained = [x])
    {now : ℕ} (h1 : x.firstSendNs ≤ now) (h2 : now < x.firstSendNs + repairWindowNs)
    (hdue : k.nextHeartbeatNs ≤ now) :
    ∃ k' hb, w.serviceReliableWriters now = ({ w with link := some k' }, some hb) ∧
      Announces wg rg x.number hb ∧ hb.count = nextControlCount k.state.heartbeatCount ∧
      k'.state.retained = [x] ∧ k'.state.lastAcknackCount = k.state.lastAcknackCount ∧
      k'.state.acknackCountInitialized = k.state.acknackCountInitialized := by
  have hk := h.link k hl
  obtain ⟨hs, hcount, hinit⟩ := onTimer_keeps hk.valid hx h1 (by rw [hk.window]; exact h2)
  have hk' := hk.swept hs
  have hx' : (k.state.onTimer now (.empty : ActionBuffer 4)).state.retained = [x] := by
    rw [hs.retained, hx]
    rfl
  obtain ⟨hsize, hrec⟩ := retained_one hx'
  have hnum : x.number = (k.state.onTimer now (.empty : ActionBuffer 4)).state.lastSequenceNumber :=
    (hk'.held x (by rw [hx']; exact List.mem_singleton_self x)).1
  unfold WriterSide.serviceReliableWriters
  rw [hl]
  simp only
  rw [if_neg (by simp [hs.error]), if_pos (by simp [ReliableWriter.empty, hsize, hdue])]
  unfold fillHeartbeat
  rw [if_neg (by simp [hk'.valid])]
  simp only [if_true]
  refine ⟨_, _, rfl, ⟨h.participant, hk'.writer, hk'.reader, ?_, hnum.symm, rfl⟩, ?_, hx', hcount,
    hinit⟩
  · simp only [hsize, one_ne_zero, if_false, hrec]
  · simp only [hs.frame.heartbeatCount]

/-- **An ACKNACK of the reader above the held sample** ends it, unless its count is stale. -/
theorem handleAcknack_above (h : WriterSideOK wg rg w) (hl : w.link = some k)
    (hx : k.state.retained = [x]) {acknack : AckNack}
    (hp : acknack.header.guidPrefix = rg.guidPrefix) (hr : acknack.readerId = rg.entityId)
    (hw : acknack.writerId = wg.entityId) (hbase : x.number < acknack.readerState.bitmapBase)
    (now : ℕ) :
    let o := w.handleAcknack acknack now
    ∃ k', o.1.link = some k' ∧
      if k.state.acknackCountInitialized = true ∧
          controlCountIsNewer acknack.count k.state.lastAcknackCount = false
      then o.2 = [] ∧ k'.state.retained = [x]
      else o.2 = [.sampleDelivered x.number] ∧ k'.state.retained = [] := by
  have hk := h.link k hl
  have hcall := onAcknack_above hk.valid hx (hr.trans hk.reader.symm) (hw.trans hk.writer.symm)
    hbase now
  have ho : ∃ k', (w.handleAcknack acknack now).1.link = some k' ∧
      k'.state = (k.state.onAcknack acknack now (.empty : ActionBuffer 4)).state ∧
      (w.handleAcknack acknack now).2 =
        (k.state.onAcknack acknack now (.empty : ActionBuffer 4)).actions.actions := by
    unfold WriterSide.handleAcknack
    rw [if_neg (by simp [hp, hr, h.remote]), hl]
    simp only
    rw [if_neg (by simp [hw, h.entity])]
    exact ⟨_, rfl, rfl, rfl⟩
  obtain ⟨k', hl', hstate, hacts⟩ := ho
  refine ⟨k', hl', ?_⟩
  rw [hacts, hstate]
  exact hcall

end WriterSideOK

end OpenRtdds
