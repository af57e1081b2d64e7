import OpenRtdds.Proof.WriterOps
import OpenRtdds.Spec.Runs

/-!
# Every reliable sample ends exactly once

The invariant of a writer over arbitrary runs of its calls (`WriterOK`): each accepted
number is retained, reported delivered or reported failed, and only one of these once;
retained numbers increase; the last number is the greatest accepted one.

* `WriterLog.step_cases`: what a call can do to a log.
* `sweep_count`: a sweep moves every retained number to exactly one of the three places.
* `WriterLog.after_ok`: the invariant holds after every run.
* `writer_sample_ends_once`: the resulting statement about a writer.
-/

namespace OpenRtdds

open Lib ReliableWriter

variable {H P : ℕ}

/-- The numbers a list of actions reports as delivered, and as failed. -/
abbrev deliveredIn (as : List ReliabilityAction) : List ℕ :=
  as.filterMap ReliabilityAction.deliveredNumber?

abbrev failedIn (as : List ReliabilityAction) : List ℕ :=
  as.filterMap ReliabilityAction.failedNumber?

/-- **A sweep loses and duplicates nothing.** -/
theorem sweep_count (v : Record P → Decision) (l : List (Record P)) (q : ℕ) :
    ((l.filterMap fun r => (v r).retain r).map Record.number).count q +
      (deliveredIn (l.filterMap fun r => (v r).action r)).count q +
      (failedIn (l.filterMap fun r => (v r).action r)).count q = (l.map Record.number).count q := by
  induction l with
  | nil => rfl
  | cons r l ih =>
    -- each verdict puts the head in one of the three lists
    cases hv : v r <;>
      simp [List.filterMap_cons, hv, ReliabilityAction.deliveredNumber?, deliveredIn, failedIn,
        ReliabilityAction.failedNumber?, List.count_cons, Record.number] at ih ⊢ <;>
      omega

theorem sweep_sublist (v : Record P → Decision) (l : List (Record P)) :
    ((l.filterMap fun r => (v r).retain r).map Record.number).Sublist (l.map Record.number) := by
  induction l with
  | nil => exact List.Sublist.refl _
  | cons r l ih =>
    cases hv : v r <;> simp only [List.filterMap_cons, List.map_cons, hv, Decision.retain_keep,
      Decision.retain_repair, Decision.retain_deliver, Decision.retain_failWindow,
      Decision.retain_failAttempts]
    case keep => exact ih.cons_cons _
    case repair => exact ih.cons_cons _
    all_goals exact ih.cons _

variable [NeZero H]

/-- **What a call can do to a log.** A call that fails changes nothing. -/
inductive WriterLog.Stepped (l : WriterLog H P) : WriterEvent → WriterLog H P → Prop where
  | refused (e : WriterEvent) : Stepped l e l
  | wrote {cap : ℕ} {payload : Span} {s now : ℕ} {b : ActionBuffer cap}
      (h : Wrote l.writer payload s now b (l.writer.write payload s now b)) :
      Stepped l (.write payload s now b)
        { l.record b (l.writer.write payload s now b) with accepted := l.accepted ++ [s] }
  | acknowledged {cap : ℕ} {a : AckNack} {now : ℕ} {b : ActionBuffer cap}
      {o : Outcome (ReliableWriter H P) cap} (h : Swept l.writer (verdict l.writer.config a now) b o)
      (decided : ∀ r ∈ l.writer.retained,
        decision l.writer.config a now r = .ok (verdict l.writer.config a now r))
      (count : o.state.lastAcknackCount = a.count) (seen : o.state.acknackCountInitialized = true) :
      Stepped l (.acknack a now b) (l.record b o)
  | expired {cap : ℕ} {now : ℕ} {b : ActionBuffer cap} {o : Outcome (ReliableWriter H P) cap}
      (h : Swept l.writer (timerVerdict l.writer.config now) b o)
      (count : o.state.lastAcknackCount = l.writer.lastAcknackCount)
      (seen : o.state.acknackCountInitialized = l.writer.acknackCountInitialized) :
      Stepped l (.timer now b) (l.record b o)
  | filled (t : Heartbeat) (valid : l.writer.valid = true) :
      Stepped l (.heartbeat t)
        { l with
          writer := { l.writer with heartbeatCount := nextControlCount l.writer.heartbeatCount }
          heartbeats := l.heartbeats ++ [(l.writer.fillHeartbeat t).2.2] }

namespace WriterLog

omit [NeZero H] in
theorem record_refused {l : WriterLog H P} {cap : ℕ} {b : ActionBuffer cap}
    {o : Outcome (ReliableWriter H P) cap} (h : Refused l.writer b o) : l.record b o = l := by
  unfold record
  rw [h.state, h.actions, ActionBuffer.emitted_self, List.append_nil]

/-- A valid writer fills the heartbeat, and only its counter moves. -/
theorem step_heartbeat {l : WriterLog H P} (hv : l.writer.valid = true) (t : Heartbeat) :
    l.step (.heartbeat t) =
      { l with
        writer := { l.writer with heartbeatCount := nextControlCount l.writer.heartbeatCount }
        heartbeats := l.heartbeats ++ [(l.writer.fillHeartbeat t).2.2] } := by
  have hf : (l.writer.fillHeartbeat t).1 = .none ∧ (l.writer.fillHeartbeat t).2.1 =
      { l.writer with heartbeatCount := nextControlCount l.writer.heartbeatCount } := by
    unfold fillHeartbeat
    rw [if_neg (by simp [hv])]
    exact ⟨rfl, rfl⟩
  simp only [step, hf.1, hf.2, if_true]

theorem step_cases (l : WriterLog H P) (e : WriterEvent) : l.Stepped e (l.step e) := by
  cases e with
  | write payload s now b =>
    rcases write_cases l.writer payload s now b with hr | hw
    · have hl : l.step (.write payload s now b) = l := by
        simp only [step, hr.error, if_false]
        exact record_refused hr
      rw [hl]
      exact .refused _
    · simp only [step, hw.error, if_true]
      exact .wrote hw
  | acknack a now b =>
    rcases onAcknack_cases l.writer a now b with hr | ⟨hs, -, -, hdec, hcount, hseen⟩
    · rw [step, record_refused hr]
      exact .refused _
    · exact .acknowledged hs hdec hcount hseen
  | timer now b =>
    rcases onTimer_cases l.writer now b with hr | ⟨hs, -, hcount, hseen⟩
    · rw [step, record_refused hr]
      exact .refused _
    · exact .expired hs hcount hseen
  | heartbeat t =>
    cases hv : l.writer.valid with
    | false =>
      have hl : l.step (.heartbeat t) = l := by simp [step, fillHeartbeat, hv]
      rw [hl]
      exact .refused _
    | true =>
      rw [step_heartbeat hv]
      exact .filled t hv

end WriterLog

/-- **The invariant of a writer and its log.** -/
structure WriterOK (l : WriterLog H P) : Prop where
  /-- A number is in as many places as `write` accepted it. -/
  places : ∀ q, l.retained.count q + l.delivered.count q + l.failed.count q = l.accepted.count q
  fresh : l.accepted.Nodup
  bounded : ∀ q ∈ l.accepted, q ≤ l.writer.lastSequenceNumber
  last : l.writer.lastSequenceNumber ∈ l.accepted ∨
    l.accepted = [] ∧ l.writer.lastSequenceNumber = 0
  sorted : l.retained.Pairwise (· < ·)

namespace WriterOK

theorem init (config : ReliableWriterConfig) : WriterOK (WriterLog.init config : WriterLog H P) where
  places := by intro q; rfl
  fresh := List.nodup_nil
  bounded := by intro q hq; exact absurd hq List.not_mem_nil
  last := .inr ⟨rfl, rfl⟩
  sorted := List.Pairwise.nil

variable {l : WriterLog H P}

/-- Only accepted numbers are retained. -/
theorem retained_subset (h : WriterOK l) {q : ℕ} (hq : q ∈ l.retained) : q ∈ l.accepted := by
  have h1 : 0 < l.retained.count q := List.count_pos_iff.2 hq
  have h2 := h.places q
  exact List.count_pos_iff.1 (by omega)

theorem swept (h : WriterOK l) {cap : ℕ} {b : ActionBuffer cap} {v : Record P → Decision}
    {o : Outcome (ReliableWriter H P) cap} (hs : Swept l.writer v b o) : WriterOK (l.record b o) := by
  have hr : (l.record b o).retained =
      (l.writer.retained.filterMap fun r => (v r).retain r).map Record.number := by
    rw [← hs.retained]; rfl
  have he : b.emitted o.actions = l.writer.retained.filterMap fun r => (v r).action r :=
    ActionBuffer.emitted_of_append hs.actions
  refine ⟨fun q => ?_, h.fresh, ?_, ?_, ?_⟩
  · have h1 := h.places q
    have h2 := sweep_count v l.writer.retained q
    have hd : (l.record b o).delivered = l.delivered ++ deliveredIn (b.emitted o.actions) :=
      List.filterMap_append
    have hf : (l.record b o).failed = l.failed ++ failedIn (b.emitted o.actions) :=
      List.filterMap_append
    rw [hr, hd, hf, he, List.count_append, List.count_append]
    have h3 : (l.record b o).accepted = l.accepted := rfl
    have h4 : l.retained = l.writer.retained.map Record.number := rfl
    rw [h3]
    rw [h4] at h1
    omega
  · exact hs.last ▸ h.bounded
  · exact hs.last ▸ h.last
  · rw [hr]
    exact h.sorted.sublist (sweep_sublist v l.writer.retained)

theorem wrote (h : WriterOK l) {cap : ℕ} {payload : Span} {s now : ℕ} {b : ActionBuffer cap}
    {o : Outcome (ReliableWriter H P) cap} (hw : Wrote l.writer payload s now b o) :
    WriterOK { l.record b o with accepted := l.accepted ++ [s] } := by
  obtain ⟨r, -, hm, -, -, hret⟩ := hw.retained
  have hnew : s ∉ l.accepted := fun hs => absurd (h.bounded s hs) (by have := hw.fresh; omega)
  have hret' : o.state.retained.map Record.number = l.retained ++ [s] := by
    rw [hret, List.map_append, List.map_singleton, Record.number, hm]; rfl
  have he := ActionBuffer.emitted_of_append hw.actions
  refine ⟨fun q => ?_, ?_, ?_, .inl ?_, ?_⟩
  · have h1 := h.places q
    simp only [WriterLog.delivered, WriterLog.failed, WriterLog.retained, WriterLog.record, he,
      List.filterMap_append, List.count_append] at h1 ⊢
    rw [hret', List.count_append]
    simp only [List.filterMap_cons, List.filterMap_nil, ReliabilityAction.deliveredNumber?,
      ReliabilityAction.failedNumber?, List.count_nil]
    simp only [WriterLog.retained] at h1 ⊢
    omega
  · exact List.nodup_append.2 ⟨h.fresh, List.nodup_singleton s, by
      intro a ha b hb he
      rw [List.mem_singleton] at hb
      exact hnew (hb ▸ he ▸ ha)⟩
  · intro q hq
    have hf := hw.fresh
    rcases List.mem_append.1 hq with hq | hq
    · have := h.bounded q hq
      simp only [WriterLog.record, hw.last]
      omega
    · rw [List.mem_singleton.1 hq]
      exact hw.last.ge
  · simp only [WriterLog.record, hw.last]
    exact List.mem_append_right _ (List.mem_singleton_self s)
  · show (o.state.retained.map Record.number).Pairwise (· < ·)
    rw [hret']
    refine List.pairwise_append.2 ⟨h.sorted, List.pairwise_singleton _ _, ?_⟩
    intro a ha c hc
    have := h.bounded a (h.retained_subset ha)
    have := hw.fresh
    rw [List.mem_singleton.1 hc]
    omega

theorem stepped {e : WriterEvent} {l' : WriterLog H P} (h : WriterOK l) (hs : l.Stepped e l') :
    WriterOK l' := by
  cases hs with
  | refused => exact h
  | wrote hw => exact h.wrote hw
  | acknowledged hs => exact h.swept hs
  | expired hs => exact h.swept hs
  | filled t => exact ⟨h.places, h.fresh, h.bounded, h.last, h.sorted⟩

theorem step (h : WriterOK l) (e : WriterEvent) : WriterOK (l.step e) := h.stepped (l.step_cases e)

end WriterOK

namespace WriterLog

theorem after_ok (config : ReliableWriterConfig) (es : List WriterEvent) :
    WriterOK (after config es : WriterLog H P) :=
  run_inv (fun _ e h => h.step e) (WriterOK.init config) es

theorem Stepped.frame {l l' : WriterLog H P} {e : WriterEvent} (hs : l.Stepped e l') :
    l'.writer.config = l.writer.config ∧ l'.writer.valid = l.writer.valid := by
  cases hs with
  | refused => exact ⟨rfl, rfl⟩
  | wrote h => exact ⟨h.frame.config, h.frame.valid⟩
  | acknowledged h => exact ⟨h.frame.config, h.frame.valid⟩
  | expired h => exact ⟨h.frame.config, h.frame.valid⟩
  | filled t => exact ⟨rfl, rfl⟩

theorem after_frame (config : ReliableWriterConfig) (es : List WriterEvent) :
    (after config es : WriterLog H P).writer.config = config ∧
      (after config es : WriterLog H P).writer.valid = (config.repairWindowNs != 0) := by
  refine run_inv (P := fun l : WriterLog H P =>
    l.writer.config = config ∧ l.writer.valid = (config.repairWindowNs != 0)) ?_ ⟨rfl, rfl⟩ es
  intro l e h
  have hf := (step_cases l e).frame
  exact ⟨hf.1.trans h.1, hf.2.trans h.2⟩

theorem step_actions (l : WriterLog H P) (e : WriterEvent) : l.actions <+: (l.step e).actions := by
  cases e with
  | heartbeat t => exact List.prefix_rfl
  | _ => exact List.prefix_append _ _

theorem after_actions (config : ReliableWriterConfig) (es fs : List WriterEvent) :
    (after config es : WriterLog H P).actions <+: (after config (es ++ fs) : WriterLog H P).actions := by
  have hstep : ∀ (l : WriterLog H P) (e : WriterEvent),
      (after config es : WriterLog H P).actions <+: l.actions →
      (after config es : WriterLog H P).actions <+: (l.step e).actions :=
    fun l e h => h.trans (step_actions l e)
  have hr : (after config (es ++ fs) : WriterLog H P) = run step (after config es) fs := run_append ..
  rw [hr]
  exact run_inv hstep List.prefix_rfl fs

end WriterLog

/-- A writer whose configuration is valid fills every heartbeat, with the first retained
number and the last accepted one. -/
theorem fillHeartbeat_ok {w : ReliableWriter H P} (hv : w.valid = true) (t : Heartbeat) :
    (w.fillHeartbeat t).1 = .none ∧
    (w.fillHeartbeat t).2.2.lastSequenceNumber = w.lastSequenceNumber ∧
    (w.fillHeartbeat t).2.2.firstSequenceNumber =
      ((w.retained.map Record.number).head?).getD (w.lastSequenceNumber + 1) := by
  unfold fillHeartbeat
  rw [if_neg (by simp [hv])]
  refine ⟨rfl, rfl, ?_⟩
  simp only
  split
  next h => simp [retained, h, live_zero]
  next h => rw [List.head?_map, retained, live_head? _ h]; rfl

/-- **Every reliable sample ends exactly once.** After any run of calls on a writer with a
valid configuration, every accepted number is in exactly one of three places (retained,
reported delivered once, reported failed once) and no other number is in any of them; it
never leaves the last two. Retained numbers increase strictly and are at most `H`. A
heartbeat reports the greatest accepted number (zero if there is none) and the least
retained one, or the next number if nothing is retained. -/
theorem writer_sample_ends_once (config : ReliableWriterConfig) (hvalid : config.repairWindowNs ≠ 0)
    (es : List WriterEvent) :
    let l : WriterLog H P := WriterLog.after config es
    (∀ q, l.retained.count q + l.delivered.count q + l.failed.count q =
      if q ∈ l.accepted then 1 else 0) ∧
    (∀ fs q, (q ∈ l.delivered → q ∈ (WriterLog.after config (es ++ fs) : WriterLog H P).delivered) ∧
      (q ∈ l.failed → q ∈ (WriterLog.after config (es ++ fs) : WriterLog H P).failed)) ∧
    l.retained.Pairwise (· < ·) ∧ l.retained.length ≤ H ∧
    (∀ t, (l.writer.fillHeartbeat t).1 = .none ∧
      (l.accepted = [] → (l.writer.fillHeartbeat t).2.2.lastSequenceNumber = 0) ∧
      (l.accepted ≠ [] → IsGreatest {q | q ∈ l.accepted}
        (l.writer.fillHeartbeat t).2.2.lastSequenceNumber) ∧
      (l.retained = [] → (l.writer.fillHeartbeat t).2.2.firstSequenceNumber =
        (l.writer.fillHeartbeat t).2.2.lastSequenceNumber + 1) ∧
      (l.retained ≠ [] → IsLeast {q | q ∈ l.retained}
        (l.writer.fillHeartbeat t).2.2.firstSequenceNumber)) := by
  intro l
  have h : WriterOK l := WriterLog.after_ok config es
  have hv : l.writer.valid = true := by
    rw [(WriterLog.after_frame config es).2]; simpa using hvalid
  refine ⟨fun q => ?_, fun fs q => ?_, h.sorted, ?_, fun t => ?_⟩
  · rw [h.places q]
    split
    next hq => exact List.count_eq_one_of_mem h.fresh hq
    next hq => exact List.count_eq_zero_of_not_mem hq
  · have hp := (WriterLog.after_actions (H := H) (P := P) config es fs).subset
    refine ⟨fun hq => ?_, fun hq => ?_⟩
    · obtain ⟨a, ha, hd⟩ := List.mem_filterMap.1 hq
      exact List.mem_filterMap.2 ⟨a, hp ha, hd⟩
    · obtain ⟨a, ha, hd⟩ := List.mem_filterMap.1 hq
      exact List.mem_filterMap.2 ⟨a, hp ha, hd⟩
  · rw [WriterLog.retained, List.length_map, retained_length]
    exact l.writer.size_le
  · obtain ⟨h0, hlast, hfirst⟩ := fillHeartbeat_ok hv t
    refine ⟨h0, fun he => ?_, fun hne => ⟨?_, fun q hq => ?_⟩, fun he => ?_, fun hne => ?_⟩
    · rcases h.last with hm | hm
      · rw [he] at hm; exact absurd hm List.not_mem_nil
      · rw [hlast, hm.2]
    · rcases h.last with hm | hm
      · rw [hlast]; exact hm
      · exact absurd hm.1 hne
    · rw [hlast]; exact h.bounded q hq
    · have he' : l.writer.retained.map Record.number = [] := he
      rw [hfirst, he', hlast]; rfl
    · -- the retained numbers are sorted, so the head is the least
      obtain ⟨x, xs, hx⟩ := List.exists_cons_of_ne_nil hne
      have hx' : l.writer.retained.map Record.number = x :: xs := hx
      have hs := h.sorted
      rw [hx] at hs
      rw [hfirst, hx']
      refine ⟨by rw [Set.mem_ofPred_eq, hx]; exact List.mem_cons_self, fun q hq => ?_⟩
      rw [Set.mem_ofPred_eq, hx] at hq
      rcases List.mem_cons.1 hq with rfl | hq
      · exact le_rfl
      · exact (List.rel_of_pairwise_cons hs hq).le

/-- A run that ends with one number delivered and one retained. -/
def writerDemo : List WriterEvent :=
  [.write (.bytes [7]) 1 0 (.empty : ActionBuffer 4), .write (.bytes [8]) 5 1 (.empty : ActionBuffer 4),
    .acknack { readerState := ((SequenceNumberSet.empty.reset 3 3).2.set 2).2 } 2 (.empty : ActionBuffer 4)]

theorem writerDemo_ends_once :
    let l : WriterLog 2 4 := WriterLog.after {} writerDemo
    l.accepted = [1, 5] ∧ l.delivered = [1] ∧ l.retained = [5] ∧
      ∀ q, l.retained.count q + l.delivered.count q + l.failed.count q =
        if q ∈ l.accepted then 1 else 0 :=
  ⟨by decide, by decide, by decide,
    (writer_sample_ends_once (H := 2) (P := 4) {} (by decide) writerDemo).1⟩

end OpenRtdds
