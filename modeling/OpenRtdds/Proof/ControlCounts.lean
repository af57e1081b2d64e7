import OpenRtdds.Proof.ReaderOps
import OpenRtdds.Proof.WriterOps
import OpenRtdds.Spec.Runs

/-!
# The serial order of control counts

A sender numbers its HEARTBEAT or ACKNACK messages by `next_control_count`, and a receiver processes one
only if it is newer than the last one that it has processed.

* `newer_iterate_iff`: the counts of a sender are ordered as its messages, while less than half of the range
  of a count lies between them.
* `Filtered`: what a call does to a receiver that filters. `heartbeatStep_filtered`,
  `acknackStep_filtered`: the reader and the writer do.
* `Delivery.processed_increasing`: the run lemma, for every such receiver.
* `control_counts_serial_order`.
-/

namespace OpenRtdds

open Lib

section Counts

variable (first : BitVec 32)

/-- The count of the message `n` of a sender. -/
def countOf (n : ℕ) : BitVec 32 := nextControlCount^[n] first

theorem countOf_eq (n : ℕ) : countOf first n = first + BitVec.ofNat 32 n := by
  induction n with
  | zero => exact (BitVec.add_zero first).symm
  | succ n ih =>
    have hstep : countOf first (n + 1) = countOf first n + 1 := Function.iterate_succ_apply' _ _ _
    rw [hstep, ih, BitVec.ofNat_add, BitVec.add_assoc]
    rfl

/-- **Counts are ordered as the messages**, also across the wrap. -/
theorem newer_iterate_iff {m n : ℕ} (hmn : m < n + 2 ^ 31) (hnm : n < m + 2 ^ 31) :
    controlCountIsNewer (countOf first n) (countOf first m) = true ↔ m < n := by
  have hbits : (countOf first n - countOf first m).toNat = (n + (2 ^ 32 - m % 2 ^ 32)) % 2 ^ 32 := by
    rw [countOf_eq, countOf_eq]
    simp only [BitVec.toNat_sub, BitVec.toNat_add, BitVec.toNat_ofNat]
    omega
  have hzero : countOf first n - countOf first m ≠ 0 ↔ (countOf first n - countOf first m).toNat ≠ 0 :=
    not_congr BitVec.toNat_eq
  simp only [controlCountIsNewer, Bool.and_eq_true, bne_iff_ne, decide_eq_true_eq, hzero, hbits]
  omega

end Counts

section Filter

variable {σ ε : Type*}

/-- What a call does to a receiver that remembers the last count it has processed: it leaves that count, or
it processes its message, the number of which it puts out. -/
inductive Filtered (last : σ → Option (BitVec 32)) (count? : ε → Option (BitVec 32)) (s : σ) (e : ℕ × ε) :
    σ × List ℕ → Prop
  | passed {s' : σ} (hlast : last s' = last s) : Filtered last count? s e (s', [])
  | processed {s' : σ} {c : BitVec 32} (hcount : count? e.2 = some c) (hlast : last s' = some c)
      (hnewer : ∀ c', last s = some c' → controlCountIsNewer c c' = true) :
    Filtered last count? s e (s', [e.1])

/-- The calls of a receiver, each with the number of its message if it has one: messages of one sender in
any order, some of them repeated or left out, and any two fewer than `2 ^ 31` apart. -/
structure Delivery (first : BitVec 32) (count? : ε → Option (BitVec 32)) (es : List (ℕ × ε)) : Prop where
  numbered : ∀ x ∈ es, ∀ c, count? x.2 = some c → c = countOf first x.1
  apart : ∀ x ∈ es, ∀ y ∈ es, (count? x.2).isSome → (count? y.2).isSome → x.1 < y.1 + 2 ^ 31

variable {first : BitVec 32} {last : σ → Option (BitVec 32)} {count? : ε → Option (BitVec 32)}
  {step : σ → ℕ × ε → σ × List ℕ} {s : σ}

/-- **A receiver that filters processes the messages in the order of the sender.** -/
theorem Delivery.processed_increasing (hstep : ∀ s e, Filtered last count? s e (step s e))
    (hnone : last s = none) {es : List (ℕ × ε)} (h : Delivery first count? es) :
    (collect step s es).2.Pairwise (· < ·) := by
  -- what is remembered is the count of the last message that was processed
  suffices hinv : (collect step s es).2.Pairwise (· < ·) ∧
      (∀ n ∈ (collect step s es).2, ∃ x ∈ es, x.1 = n ∧ (count? x.2).isSome) ∧
      last (collect step s es).1 = (collect step s es).2.getLast?.map (countOf first) from hinv.1
  induction es using List.reverseRecOn with
  | nil => exact ⟨.nil, fun n hn => absurd hn List.not_mem_nil, hnone⟩
  | append_singleton es e ih =>
    have hold : ∀ x ∈ es, x ∈ es ++ [e] := fun x hx => List.mem_append_left _ hx
    have hnew : e ∈ es ++ [e] := List.mem_append_right _ List.mem_cons_self
    obtain ⟨hincreasing, hdelivered, hlast⟩ := ih
      ⟨fun x hx => h.numbered x (hold x hx), fun x hx y hy => h.apart x (hold x hx) y (hold y hy)⟩
    rw [collect_snoc]
    generalize collect step s es = r at hincreasing hdelivered hlast ⊢
    have hcall := hstep r.1 e
    generalize step r.1 e = d at hcall ⊢
    cases hcall with
    | passed hsame =>
      rw [List.append_nil]
      refine ⟨hincreasing, fun n hn => ?_, hsame.trans hlast⟩
      obtain ⟨x, hx, hxn⟩ := hdelivered n hn
      exact ⟨x, hold x hx, hxn⟩
    | processed hcount hafter hnewer =>
      have hsome : (count? e.2).isSome := Option.isSome_of_eq_some hcount
      have hnumber := h.numbered e hnew _ hcount
      -- the messages before are not newer than the last of them
      have hbelow : ∀ n ∈ r.2, n < e.1 := by
        intro n hn
        obtain ⟨before, m, hout⟩ := (List.eq_nil_or_concat r.2).resolve_left (List.ne_nil_of_mem hn)
        rw [hout, List.concat_eq_append] at hincreasing hdelivered hlast hn
        obtain ⟨x, hx, rfl, hxsome⟩ := hdelivered m (List.mem_append_right _ List.mem_cons_self)
        rw [List.getLast?_concat] at hlast
        have hlt : x.1 < e.1 := by
          refine (newer_iterate_iff first (h.apart x (hold x hx) e hnew hxsome hsome)
            (h.apart e hnew x (hold x hx) hsome hxsome)).1 ?_
          rw [← hnumber]
          exact hnewer _ hlast
        rcases List.mem_append.1 hn with hn | hn
        · exact ((List.pairwise_append.1 hincreasing).2.2 n hn _ List.mem_cons_self).trans hlt
        · rw [List.mem_singleton.1 hn]
          exact hlt
      refine ⟨?_, fun n hn => ?_, ?_⟩
      · refine List.pairwise_append.2 ⟨hincreasing, List.pairwise_singleton _ _, fun n hn m hm => ?_⟩
        rw [List.mem_singleton.1 hm]
        exact hbelow n hn
      · rcases List.mem_append.1 hn with hn | hn
        · obtain ⟨x, hx, hxn⟩ := hdelivered n hn
          exact ⟨x, hold x hx, hxn⟩
        · exact ⟨e, hnew, (List.mem_singleton.1 hn).symm, hsome⟩
      · rw [hafter, List.getLast?_concat, hnumber]
        rfl

end Filter

section Reader

variable {W : ℕ}

/-- The count that a reader remembers. -/
def ReliableReader.lastCount? (r : ReliableReader W) : Option (BitVec 32) :=
  if r.heartbeatCountInitialized then some r.lastHeartbeatCount else none

/-- The count of the HEARTBEAT that a call hands over. -/
def ReaderEvent.count? : ReaderEvent → Option (BitVec 32)
  | .data _ _ => none
  | .heartbeat h _ => some h.count

variable [NeZero W]

/-- A call of a reader; it puts out the number of a HEARTBEAT that was processed. -/
def heartbeatStep (r : ReliableReader W) : ℕ × ReaderEvent → ReliableReader W × List ℕ
  | (_, .data s b) => ((r.onData s b).state, [])
  | (n, .heartbeat h b) =>
    ((r.onHeartbeat h b).state, if (r.onHeartbeat h b).error = .none then [n] else [])

theorem ReliableReader.onHeartbeat_newer {r : ReliableReader W} {h : Heartbeat} {cap : ℕ}
    {b : ActionBuffer cap} (hok : (r.onHeartbeat h b).error = .none) {c : BitVec 32}
    (hlast : r.lastCount? = some c) : controlCountIsNewer h.count c = true := by
  unfold lastCount? at hlast
  obtain ⟨hseen, hlast⟩ := Option.ite_none_right_eq_some.1 hlast
  cases hlast
  by_contra hstale
  rw [onHeartbeat_error] at hok
  simp only [hseen, Bool.eq_false_iff.2 hstale, Bool.not_false, Bool.and_self, if_true] at hok
  split_ifs at hok

theorem heartbeatStep_filtered (r : ReliableReader W) (e : ℕ × ReaderEvent) :
    Filtered ReliableReader.lastCount? ReaderEvent.count? r e (heartbeatStep r e) := by
  obtain ⟨n, e⟩ := e
  cases e with
  | data s b =>
    refine .passed ?_
    rcases r.onData_cases s b with hrefused | htook
    · rw [hrefused.state]
    · unfold ReliableReader.lastCount?
      rw [htook.control.heartbeat.1, htook.control.heartbeat.2]
  | heartbeat h b =>
    dsimp only [heartbeatStep]
    rcases r.onHeartbeat_cases h b with hrefused | hanswered
    · rw [if_neg hrefused.error, hrefused.state]
      exact .passed rfl
    · rw [if_pos hanswered.error]
      refine .processed rfl ?_ fun c => ReliableReader.onHeartbeat_newer hanswered.error
      unfold ReliableReader.lastCount?
      rw [if_pos hanswered.seen.2, hanswered.seen.1]

end Reader

section Writer

variable {H P : ℕ}

/-- The count that a writer remembers. -/
def ReliableWriter.lastCount? (w : ReliableWriter H P) : Option (BitVec 32) :=
  if w.acknackCountInitialized then some w.lastAcknackCount else none

/-- The count of the ACKNACK that a call hands over. -/
def WriterEvent.count? : WriterEvent → Option (BitVec 32)
  | .acknack a _ _ => some a.count
  | _ => none

variable [NeZero H]

/-- A call of a writer; it puts out the number of an ACKNACK that was processed. -/
def acknackStep (w : ReliableWriter H P) : ℕ × WriterEvent → ReliableWriter H P × List ℕ
  | (_, .write payload s now b) => ((w.write payload s now b).state, [])
  | (n, .acknack a now b) =>
    ((w.onAcknack a now b).state, if (w.onAcknack a now b).error = .none then [n] else [])
  | (_, .timer now b) => ((w.onTimer now b).state, [])
  | (_, .heartbeat template) => ((w.fillHeartbeat template).2.1, [])

theorem ReliableWriter.onAcknack_newer {w : ReliableWriter H P} {a : AckNack} {now cap : ℕ}
    {b : ActionBuffer cap} (hok : (w.onAcknack a now b).error = .none) {c : BitVec 32}
    (hlast : w.lastCount? = some c) : controlCountIsNewer a.count c = true := by
  unfold lastCount? at hlast
  obtain ⟨hseen, hlast⟩ := Option.ite_none_right_eq_some.1 hlast
  cases hlast
  by_contra hstale
  unfold onAcknack at hok
  simp only [hseen, Bool.eq_false_iff.2 hstale, Bool.not_false, Bool.and_self, if_true] at hok
  split_ifs at hok

theorem acknackStep_filtered (w : ReliableWriter H P) (e : ℕ × WriterEvent) :
    Filtered ReliableWriter.lastCount? WriterEvent.count? w e (acknackStep w e) := by
  obtain ⟨n, e⟩ := e
  cases e with
  | write payload s now b =>
    refine .passed ?_
    rcases w.write_cases payload s now b with hrefused | hwrote
    · rw [hrefused.state]
    · unfold ReliableWriter.lastCount?
      rw [hwrote.acknack.1, hwrote.acknack.2]
  | acknack a now b =>
    dsimp only [acknackStep]
    rcases w.onAcknack_cases a now b with hrefused | ⟨hswept, -, -, -, hcount, hseen⟩
    · rw [if_neg hrefused.error, hrefused.state]
      exact .passed rfl
    · rw [if_pos hswept.error]
      refine .processed rfl ?_ fun c => ReliableWriter.onAcknack_newer hswept.error
      unfold ReliableWriter.lastCount?
      rw [if_pos hseen, hcount]
  | timer now b =>
    refine .passed ?_
    rcases w.onTimer_cases now b with hrefused | ⟨-, -, hcount, hseen⟩
    · rw [hrefused.state]
    · unfold ReliableWriter.lastCount?
      rw [hcount, hseen]
  | heartbeat template =>
    refine .passed ?_
    unfold ReliableWriter.fillHeartbeat
    split <;> rfl

end Writer

/-- **Control counts form a wrap-safe serial order.** A count that was advanced fewer than `2 ^ 31` times is
newer than it was, and not the other way round. A reader that is handed the HEARTBEAT messages of a sender,
in any delivery where two of them are fewer than `2 ^ 31` apart and with any other calls in between, processes
them in strictly increasing order; so does a writer with ACKNACK messages. -/
theorem control_counts_serial_order (first : BitVec 32) :
    (∀ k, 1 ≤ k → k < 2 ^ 31 → controlCountIsNewer (nextControlCount^[k] first) first = true ∧
      controlCountIsNewer first (nextControlCount^[k] first) = false) ∧
    (∀ (W : ℕ) [NeZero W] (config : ReliableReaderConfig) (es : List (ℕ × ReaderEvent)),
      Delivery first ReaderEvent.count? es →
      (collect heartbeatStep (.init config : ReliableReader W) es).2.Pairwise (· < ·)) ∧
    ∀ (H P : ℕ) [NeZero H] (config : ReliableWriterConfig) (es : List (ℕ × WriterEvent)),
      Delivery first WriterEvent.count? es →
      (collect acknackStep (.init config : ReliableWriter H P) es).2.Pairwise (· < ·) := by
  refine ⟨fun k hpos hk => ⟨?_, ?_⟩, fun W _ config es h => ?_, fun H P _ config es h => ?_⟩
  · have hnewer := newer_iterate_iff first (show 0 < k + 2 ^ 31 by omega) (by omega)
    exact hnewer.2 (by omega)
  · have holder := newer_iterate_iff first (show k < 0 + 2 ^ 31 by omega) (by omega)
    exact Bool.eq_false_iff.2 fun h => by have := holder.1 h; omega
  · exact h.processed_increasing heartbeatStep_filtered rfl
  · exact h.processed_increasing acknackStep_filtered rfl

/-- Messages of one sender, by their numbers. -/
theorem Delivery.of_numbers {ε : Type*} {first : BitVec 32} {count? : ε → Option (BitVec 32)} {f : ℕ → ε}
    (hf : ∀ n, count? (f n) = some (countOf first n)) {numbers : List ℕ} (h : ∀ n ∈ numbers, n < 2 ^ 31) :
    Delivery first count? (numbers.map fun n => (n, f n)) where
  numbered x hx c hc := by
    obtain ⟨n, -, rfl⟩ := List.mem_map.1 hx
    exact Option.some.inj (hc.symm.trans (hf n))
  apart x hx y _ _ _ := by
    obtain ⟨n, hn, rfl⟩ := List.mem_map.1 hx
    exact Nat.lt_add_left _ (h n hn)

/-- Four messages across the wrap, the second late and the third twice: the late one and the repeated one
are not processed. -/
theorem wrapped_counts_in_order :
    let readerId : EntityId := #v[0, 0, 1, 4]
    let writerId : EntityId := #v[0, 0, 1, 3]
    let heartbeats := [0, 2, 1, 2, 3].map fun n => (n, ReaderEvent.heartbeat
      { readerId, writerId, count := countOf 0xFFFFFFFE#32 n } (.empty : ActionBuffer 4))
    let acknacks := [0, 2, 1, 2, 3].map fun n => (n, WriterEvent.acknack
      { readerId, writerId, count := countOf 0xFFFFFFFE#32 n } 0 (.empty : ActionBuffer 4))
    let heard := (collect heartbeatStep (.init { readerId, writerId } : ReliableReader 4) heartbeats).2
    let answered := (collect acknackStep (.init { readerId, writerId } : ReliableWriter 4 8) acknacks).2
    heard = [0, 2, 3] ∧ heard.Pairwise (· < ·) ∧ answered = [0, 2, 3] ∧ answered.Pairwise (· < ·) := by
  intro readerId writerId heartbeats acknacks heard answered
  obtain ⟨-, hreader, hwriter⟩ := control_counts_serial_order 0xFFFFFFFE#32
  have hnear : ∀ n ∈ [0, 2, 1, 2, 3], n < 2 ^ 31 := by decide
  have hheartbeats : Delivery 0xFFFFFFFE#32 ReaderEvent.count? heartbeats :=
    .of_numbers (fun _ => by rfl) hnear
  have hacknacks : Delivery 0xFFFFFFFE#32 WriterEvent.count? acknacks :=
    .of_numbers (fun _ => by rfl) hnear
  exact ⟨by decide +kernel, hreader 4 _ _ hheartbeats, by decide +kernel, hwriter 4 8 _ _ hacknacks⟩

end OpenRtdds
