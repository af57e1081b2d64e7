import OpenRtdds.Proof.LinkFlow
import OpenRtdds.Proof.ReliabilityMessages

/-!
# The state machines only speak valid RTPS

The range rules of four functions agree: what a writer fills in, `build_heartbeat` accepts and a
reader does not refuse for its numbers or its ids; what a reader asks of a `SequenceNumberSet`, the
set grants, and `build_acknack` accepts the result.

* `ReliableReader.assemble`: the calls on the set of an ACKNACK, with the results that
  `on_heartbeat` discards.
* `assemble_ok`: all of them succeed.
* `ReaderLog.after_replies`: every ACKNACK of a run is the reply to a heartbeat of the run.
* `machines_speak_valid_rtps`: the resulting statement.
-/

namespace OpenRtdds

open Lib ReliableReader

section Assemble

variable {W : ℕ} [NeZero W]

/-- The calls `reset` and `set` that `on_heartbeat` makes for a heartbeat that ends at `L`: the set
they leave, and the results that it discards. -/
def ReliableReader.assemble (r : ReliableReader W) (L : ℕ) : SequenceNumberSet × List Bool :=
  let available := L - r.base + 1
  let numBits := if r.base ≤ L then (if available < W then available else W) else 0
  let fresh := SequenceNumberSet.empty.reset r.base numBits
  (List.range numBits).foldl
    (fun p offset =>
      if !r.received (wrap (r.baseIndex + offset)) then
        ((p.1.set offset).2, p.2 ++ [(p.1.set offset).1])
      else p)
    (fresh.2, [fresh.1])

theorem assemble_fst (r : ReliableReader W) (L : ℕ) : (r.assemble L).1 = r.report L := by
  unfold ReliableReader.assemble report missing
  by_cases hL : r.base ≤ L
  · simp only [if_pos hL]
    refine (List.foldl_hom Prod.fst ?_).symm
    intro p offset
    split <;> rfl
  · simp only [if_neg hL]
    rfl

/-- **Every call on the set succeeds**, up to the largest sequence numbers. -/
theorem assemble_ok (hW : W ≤ 256) {r : ReliableReader W} {L : ℕ} (h1 : 1 ≤ r.base)
    (h2 : r.base ≤ int64Max) (hL : L ≤ int64Max) : ∀ ok ∈ (r.assemble L).2, ok = true := by
  unfold ReliableReader.assemble
  simp only
  set n := if r.base ≤ L then (if L - r.base + 1 < W then L - r.base + 1 else W) else 0 with hn
  have hbound : n ≤ 256 ∧ r.base + n ≤ int64Max + 1 := by
    rw [hn]
    split_ifs <;> omega
  obtain ⟨hok, -, hbits, -⟩ := SequenceNumberSet.reset_ok .empty r.base n h1 h2 hbound.1 hbound.2
  -- every set keeps the size, so the offsets stay below it
  have hloop : ∀ (l : List ℕ) (p : SequenceNumberSet × List Bool), (∀ k ∈ l, k < n) →
      p.1.numBits = n → (∀ ok ∈ p.2, ok = true) →
      ∀ ok ∈ (l.foldl (fun p offset =>
        if !r.received (wrap (r.baseIndex + offset)) then
          ((p.1.set offset).2, p.2 ++ [(p.1.set offset).1])
        else p) p).2, ok = true := by
    intro l
    induction l with
    | nil => exact fun p _ _ hp => hp
    | cons k l ih =>
      intro p hl hp hall
      have hk : k < n := hl k List.mem_cons_self
      have hl' : ∀ j ∈ l, j < n := fun j hj => hl j (List.mem_cons_of_mem _ hj)
      rw [List.foldl_cons]
      split
      · refine ih _ hl' (by rw [SequenceNumberSet.set_numBits, hp]) ?_
        intro ok hmem
        rcases List.mem_append.1 hmem with hmem | hmem
        · exact hall ok hmem
        · rw [List.mem_singleton.1 hmem, SequenceNumberSet.set, dif_neg (by omega)]
      · exact ih p hl' hp hall
  refine hloop _ _ (fun k hk => List.mem_range.1 hk) hbits ?_
  intro ok hmem
  rw [List.mem_singleton.1 hmem]
  exact hok

/-- An ACKNACK is the reply to a heartbeat of a run, which the reader accepted in the state that the
events before it had left. -/
def ReaderLog.RepliesIn (W : ℕ) [NeZero W] (config : ReliableReaderConfig) (es : List ReaderEvent)
    (a : AckNack) : Prop :=
  ∃ (pre : List ReaderEvent) (h : Heartbeat) (cap : ℕ) (b : ActionBuffer cap)
    (post : List ReaderEvent), es = pre ++ .heartbeat h b :: post ∧
    a = (ReaderLog.after config pre : ReaderLog W).reply h ∧
    (ReaderLog.after config pre : ReaderLog W).reader.valid = true ∧
    h.lastSequenceNumber ≤ int64Max

/-- **Every ACKNACK of a run is the reply to a heartbeat of the run.** -/
theorem ReaderLog.after_replies (config : ReliableReaderConfig) (es : List ReaderEvent) :
    ∀ a ∈ (ReaderLog.after config es : ReaderLog W).acknacks, ReaderLog.RepliesIn W config es a := by
  refine run_history (P := fun es (l : ReaderLog W) =>
    ∀ a ∈ l.acknacks, ReaderLog.RepliesIn W config es a) ?_ ?_ es
  · intro es e ih a ha
    set l := run ReaderLog.step (ReaderLog.init config : ReaderLog W) es with hl
    -- an earlier ACKNACK keeps its heartbeat
    have hold : a ∈ l.acknacks → ReaderLog.RepliesIn W config (es ++ [e]) a := by
      intro hmem
      obtain ⟨pre, h, cap, b, post, rfl, hreply⟩ := ih a hmem
      exact ⟨pre, h, cap, b, post ++ [e], by simp, hreply⟩
    have hstep := l.step_cases e
    generalize l.step e = l' at hstep ha
    cases hstep with
    | refused => exact hold ha
    | took ht =>
      rw [ReaderLog.acknacks_took ht] at ha
      exact hold ha
    | @answered cap h b o hans =>
      rcases ReaderLog.acknacks_answered hans with ⟨-, -, hacks, -⟩ | ⟨-, hacks, -⟩
      · rw [hacks] at ha
        exact hold ha
      · rw [hacks] at ha
        rcases List.mem_append.1 ha with hmem | hmem
        · exact hold hmem
        · exact ⟨es, h, cap, b, [], rfl, List.mem_singleton.1 hmem, hans.valid, hans.last_le⟩
  · intro a ha
    exact absurd ha List.not_mem_nil

end Assemble

/-- A header that the builders accept. -/
structure SupportedHeader (header : ReliabilityMessageHeader) : Prop where
  version : supportedVersion header.version = true
  order : header.submessageByteOrder = .bigEndian ∨ header.submessageByteOrder = .littleEndian

theorem SupportedHeader.begins {header : ReliabilityMessageHeader} (h : SupportedHeader header)
    {size capacity : ℕ} (hfit : size ≤ capacity) : Begins false capacity header size :=
  ⟨fun hnull => absurd hnull (by decide), h.version, h.order, hfit⟩

section Writer

variable {H P : ℕ} [NeZero H]

theorem WriterLog.after_flow (config : ReliableWriterConfig) (es : List WriterEvent) :
    WriterFlow config (WriterLog.after config es : WriterLog H P) := by
  have hboth : WriterOK (WriterLog.after config es : WriterLog H P) ∧
      WriterFlow config (WriterLog.after config es : WriterLog H P) := by
    refine run_inv (P := fun l => WriterOK l ∧ WriterFlow config l) ?_
      ⟨WriterOK.init config, WriterFlow.init config⟩ es
    intro l e h
    exact ⟨h.1.stepped (l.step_cases e), h.2.stepped h.1 (l.step_cases e)⟩
  exact hboth.2

/-- What `fill_heartbeat` leaves of a template, and what it fills in. -/
theorem fillHeartbeat_fields {w : ReliableWriter H P} {t : Heartbeat}
    (h : (w.fillHeartbeat t).1 = .none) :
    w.valid = true ∧ (w.fillHeartbeat t).2.2.header = t.header ∧
      (w.fillHeartbeat t).2.2.readerId = w.config.readerId ∧
      (w.fillHeartbeat t).2.2.writerId = w.config.writerId := by
  unfold ReliableWriter.fillHeartbeat at h ⊢
  cases hv : w.valid with
  | false =>
    rw [hv] at h
    cases h
  | true => exact ⟨rfl, rfl, rfl, rfl⟩

end Writer

variable {H P W : ℕ} [NeZero H] [NeZero W]

/-- **The state machines only speak valid RTPS.** After any run of a writer, the heartbeat that
`fill_heartbeat` fills in a template with a supported header is built into 52 bytes and parsed back,
and no valid reader with the same ids refuses it for its sequence numbers or as an unexpected peer.
Every ACKNACK that a reader sends in any run answers a heartbeat of the run: the calls on its set
that `on_heartbeat` made there all succeeded, and with a supported header it is built into 80 bytes
and parsed back. -/
theorem machines_speak_valid_rtps (hW : W ≤ 256) (wc : ReliableWriterConfig)
    (rc : ReliableReaderConfig) :
    (∀ (es : List WriterEvent) (t : Heartbeat),
      let w : ReliableWriter H P := (WriterLog.after wc es : WriterLog H P).writer
      let h := (w.fillHeartbeat t).2.2
      SupportedHeader t.header → (w.fillHeartbeat t).1 = .none →
        (∃ m, buildHeartbeat false 52 h = .ok m ∧ parseHeartbeatMessage (.bytes m) = .ok h) ∧
        ∀ (r : ReliableReader W) (cap : ℕ) (b : ActionBuffer cap), r.valid = true →
          r.config.readerId = wc.readerId → r.config.writerId = wc.writerId →
          (r.onHeartbeat h b).error ≠ .invalidSequenceNumber ∧
          (r.onHeartbeat h b).error ≠ .unexpectedPeer) ∧
    ∀ (es : List ReaderEvent), ∀ a ∈ (ReaderLog.after rc es : ReaderLog W).acknacks,
      (∃ (pre : List ReaderEvent) (h : Heartbeat) (cap : ℕ) (b : ActionBuffer cap)
        (post : List ReaderEvent), es = pre ++ .heartbeat h b :: post ∧
        let calls := (ReaderLog.after rc pre : ReaderLog W).reader.assemble h.lastSequenceNumber
        a.readerState = calls.1 ∧ ∀ ok ∈ calls.2, ok = true) ∧
      ∀ header, SupportedHeader header →
        ∃ m, buildAcknack false 80 { a with header } = .ok m ∧
          parseAcknackMessage (.bytes m) = .ok { a with header } := by
  refine ⟨?_, ?_⟩
  · intro es t w h hheader hfill
    have hok : WriterOK (WriterLog.after wc es : WriterLog H P) := WriterLog.after_ok wc es
    have hflow : WriterFlow wc (WriterLog.after wc es : WriterLog H P) := WriterLog.after_flow wc es
    obtain ⟨hv, hh, hreader, hwriter⟩ := fillHeartbeat_fields hfill
    have hrange : validHeartbeatRange h = true := hflow.filled_range hok hv t
    have hnumbers : 1 ≤ h.firstSequenceNumber ∧ h.firstSequenceNumber ≤ int64Max ∧
        h.lastSequenceNumber ≤ int64Max ∧ h.firstSequenceNumber ≤ h.lastSequenceNumber + 1 := by
      simp only [validHeartbeatRange, Bool.and_eq_true, bne_iff_ne, decide_eq_true_eq] at hrange
      omega
    refine ⟨?_, ?_⟩
    · have hbegin : Begins false 52 h.header 52 := hh ▸ hheader.begins le_rfl
      have hbuild := buildHeartbeat_ok_iff.2 ⟨hnumbers, hbegin, rfl⟩
      exact ⟨_, hbuild, parseHeartbeat_build hbuild⟩
    · intro r cap b hr hrid hwid
      -- neither check applies, so the error comes from a later one
      have hpeer : ¬ (h.readerId ≠ r.config.readerId ∨ h.writerId ≠ r.config.writerId) := by
        rw [hreader, hwriter, hrid, hwid, hflow.config_eq]
        simp
      rw [onHeartbeat_error, if_neg (by simp [hr]), if_neg (by simp [hrange]), if_neg hpeer]
      split_ifs <;> exact ⟨by decide, by decide⟩
  · intro es a ha
    obtain ⟨pre, h, cap, b, post, rfl, rfl, hvalid, hlast⟩ := ReaderLog.after_replies rc es a ha
    refine ⟨⟨pre, h, cap, b, post, rfl, (assemble_fst _ _).symm, ?_⟩, ?_⟩
    · have hreader : ReaderOK rc (ReaderLog.after rc pre : ReaderLog W) := ReaderLog.after_ok rc pre
      obtain ⟨h1, h2⟩ := hreader.base_range (hreader.valid.symm.trans hvalid)
      exact assemble_ok hW h1 h2 hlast
    · intro header hheader
      set a : AckNack := { (ReaderLog.after rc pre : ReaderLog W).reply h with header } with hadef
      have hwords : a.readerState.wordCount ≤ 8 := by
        have hbits := a.readerState.bits_le
        unfold SequenceNumberSet.wordCount
        omega
      have hbegin : Begins false 80 a.header (48 + a.readerState.wordCount * 4) :=
        hheader.begins (by omega)
      have hbuild := buildAcknack_ok_iff.2 ⟨hbegin, rfl⟩
      exact ⟨_, hbuild, parseAcknack_build hbuild⟩

/-- A writer that has lost its first sample, and the reader of `readerDemo`. -/
theorem machinesDemo_speak_valid_rtps :
    (∃ m, buildHeartbeat false 52
      (((WriterLog.after { repairWindowNs := 5 }
        [.write (.bytes [7]) 3 0 (.empty : ActionBuffer 4), .timer 9 (.empty : ActionBuffer 4)] :
          WriterLog 2 8).writer.fillHeartbeat {}).2.2) = .ok m) ∧
    (ReaderLog.after { initialSequenceNumber := 2 } readerDemo : ReaderLog 4).acknacks.length = 1 ∧
    ∀ a ∈ (ReaderLog.after { initialSequenceNumber := 2 } readerDemo : ReaderLog 4).acknacks,
      ∃ m, buildAcknack false 80 { a with header := {} } = .ok m := by
  have hdefault : SupportedHeader {} := ⟨by decide, .inr rfl⟩
  obtain ⟨hwriter, hreader⟩ := machines_speak_valid_rtps (H := 2) (P := 8) (W := 4) (by decide)
    { repairWindowNs := 5 } { initialSequenceNumber := 2 }
  refine ⟨?_, by decide, fun a ha => ?_⟩
  · obtain ⟨⟨m, hm, -⟩, -⟩ := hwriter
      [.write (.bytes [7]) 3 0 (.empty : ActionBuffer 4), .timer 9 (.empty : ActionBuffer 4)] {}
      hdefault (by decide)
    exact ⟨m, hm⟩
  · obtain ⟨m, hm, -⟩ := (hreader readerDemo a ha).2 {} hdefault
    exact ⟨m, hm⟩

end OpenRtdds
