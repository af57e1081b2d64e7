import OpenRtdds.Proof.WriterRun

/-!
# Repair is bounded and faithful

A record moves between the slots of the history whenever others are removed, so its attempt counter,
its first-send time and its bytes are followed by number (`RepairsOK`): the counter is the number of
repairs the writer asked for under this number, and time and bytes are those of the `write` that
accepted it (`WroteIn`).

* `wroteIn_unique`: a number is accepted at most once in a run.
* `sweep_repairs`: the repairs a sweep asks for.
* `RepairsOK.stepped`: every call keeps the invariant.
* `repair_bounded_faithful`: the resulting statement about a writer.
-/

namespace OpenRtdds

open Lib ReliableWriter

variable {H P : ℕ}

/-- The numbers a list of actions repairs. -/
abbrev repairsIn (as : List ReliabilityAction) : List (ℕ × List UInt8) :=
  as.filterMap ReliabilityAction.repair?

theorem sweep_repairs (v : Record P → Decision) (l : List (Record P)) :
    repairsIn (l.filterMap fun r => (v r).action r) =
      (l.filter fun r => v r = .repair).map fun r => (r.number, r.sample.payload) := by
  induction l with
  | nil => rfl
  | cons r l ih =>
    cases hv : v r <;>
      simpa [List.filterMap_cons, List.filter_cons, hv, ReliabilityAction.repair?] using ih

variable [NeZero H]

/-- In the run `es` a `write` at time `t` accepted `data` under the number `q`. -/
def WroteIn (H P : ℕ) [NeZero H] (config : ReliableWriterConfig) (es : List WriterEvent) (q t : ℕ)
    (data : List UInt8) : Prop :=
  ∃ (pre : List WriterEvent) (cap : ℕ) (payload : Span) (b : ActionBuffer cap),
    pre ++ [.write payload q t b] <+: es ∧ payload.data = data ∧
      ((WriterLog.after config pre : WriterLog H P).writer.write payload q t b).error = .none

variable {config : ReliableWriterConfig} {es : List WriterEvent}

theorem WroteIn.mono {fs : List WriterEvent} {q t : ℕ}
    {data : List UInt8} (h : WroteIn H P config es q t data) : WroteIn H P config (es ++ fs) q t data := by
  obtain ⟨pre, cap, payload, b, hpre, hdata, herr⟩ := h
  exact ⟨pre, cap, payload, b, hpre.trans (List.prefix_append _ _), hdata, herr⟩

theorem accepted_mono (config : ReliableWriterConfig) {pre : List WriterEvent} (h : pre <+: es)
    {q : ℕ} (hq : q ∈ (WriterLog.after config pre : WriterLog H P).accepted) :
    q ∈ (WriterLog.after config es : WriterLog H P).accepted := by
  obtain ⟨fs, rfl⟩ := h
  have hr : (WriterLog.after config (pre ++ fs) : WriterLog H P) =
      run WriterLog.step (WriterLog.after config pre) fs := run_append ..
  rw [hr]
  refine run_inv (P := fun l : WriterLog H P => q ∈ l.accepted) (fun l e hl => ?_) hq fs
  have hs := l.step_cases e
  generalize l.step e = l' at hs ⊢
  cases hs with
  | wrote => exact List.mem_append_left _ hl
  | _ => exact hl

/-- A successful `write` accepts its number, which no earlier one had. -/
theorem write_accepts {pre : List WriterEvent} {cap : ℕ}
    {payload : Span} {q t : ℕ} {b : ActionBuffer cap}
    (h : ((WriterLog.after config pre : WriterLog H P).writer.write payload q t b).error = .none) :
    q ∉ (WriterLog.after config pre : WriterLog H P).accepted ∧
      q ∈ (WriterLog.after config (pre ++ [.write payload q t b]) : WriterLog H P).accepted := by
  have hok := WriterLog.after_ok (H := H) (P := P) config pre
  refine ⟨fun hq => ?_, ?_⟩
  · rcases write_cases (WriterLog.after config pre : WriterLog H P).writer payload q t b with hr | hw
    · exact hr.error h
    · exact absurd (hok.bounded q hq) (by have := hw.fresh; omega)
  · have hstep : (WriterLog.after config (pre ++ [.write payload q t b]) : WriterLog H P) =
        (WriterLog.after config pre).step (.write payload q t b) := run_snoc ..
    rw [hstep]
    simp only [WriterLog.step, h, if_true]
    exact List.mem_append_right _ (List.mem_singleton_self q)

/-- **A number is accepted once**, so its bytes and its first-send time are determined. -/
theorem wroteIn_unique {q t t' : ℕ} {data data' : List UInt8} (h : WroteIn H P config es q t data)
    (h' : WroteIn H P config es q t' data') : t = t' ∧ data = data' := by
  obtain ⟨pre, cap, payload, b, hpre, rfl, herr⟩ := h
  obtain ⟨pre', cap', payload', b', hpre', rfl, herr'⟩ := h'
  -- of two different accepting writes, the later one would find its number taken
  have hlt : ∀ {p p' : List WriterEvent} {c c' : ℕ} {y y' : Span} {u u' : ℕ} {d : ActionBuffer c}
      {d' : ActionBuffer c'}, p ++ [.write y q u d] <+: es → p' ++ [.write y' q u' d'] <+: es →
      ((WriterLog.after config p : WriterLog H P).writer.write y q u d).error = .none →
      ((WriterLog.after config p' : WriterLog H P).writer.write y' q u' d').error = .none →
      ¬ p.length < p'.length := by
    intro p p' c c' y y' u u' d d' hp hp' he he' hlen
    have hsub : p ++ [.write y q u d] <+: p' :=
      List.prefix_of_prefix_length_le hp ((List.prefix_append _ _).trans hp') (by simp; omega)
    exact (write_accepts he').1 (accepted_mono config hsub (write_accepts he).2)
  have heq : pre.length = pre'.length :=
    le_antisymm (Nat.le_of_not_lt (hlt hpre' hpre herr' herr)) (Nat.le_of_not_lt (hlt hpre hpre' herr herr'))
  have hsame : pre ++ [.write payload q t b] = pre' ++ [.write payload' q t' b'] :=
    List.IsPrefix.eq_of_length (List.prefix_of_prefix_length_le hpre hpre' (by simp [heq]))
      (by simp [heq])
  have hev := (List.append_inj hsame heq).2
  simp only [List.cons.injEq, and_true, WriterEvent.write.injEq] at hev
  exact ⟨hev.2.2.2.1, by rw [hev.2.1]⟩

/-- **The invariant of repairs** after the events `es`. -/
structure RepairsOK (config : ReliableWriterConfig) (es : List WriterEvent) (l : WriterLog H P) :
    Prop where
  wrote : ∀ r ∈ l.writer.retained,
    WroteIn H P config es r.number r.firstSendNs r.sample.payload
  attempts : ∀ r ∈ l.writer.retained, r.repairAttempts.toNat = (l.repairs.map Prod.fst).count r.number
  bound : ∀ q, (l.repairs.map Prod.fst).count q ≤ config.maxRepairAttempts.toNat
  accepted : ∀ q ∈ l.repairs.map Prod.fst, q ∈ l.accepted

/-- How often a sweep repairs a record: its numbers are distinct. -/
theorem count_sweep_repairs {v : Record P → Decision} {l : List (Record P)}
    (hl : (l.map Record.number).Nodup) {r : Record P} (hr : r ∈ l) :
    ((repairsIn (l.filterMap fun r => (v r).action r)).map Prod.fst).count r.number =
      if v r = .repair then 1 else 0 := by
  rw [sweep_repairs, List.map_map]
  show ((l.filter fun r => v r = .repair).map Record.number).count r.number = _
  have hnd : ((l.filter fun r => v r = .repair).map Record.number).Nodup :=
    hl.sublist (List.filter_sublist.map _)
  split
  next hv =>
    refine List.count_eq_one_of_mem hnd (List.mem_map.2 ⟨r, List.mem_filter.2 ⟨hr, ?_⟩, rfl⟩)
    simpa using hv
  next hv =>
    refine List.count_eq_zero_of_not_mem fun hmem => hv ?_
    obtain ⟨r', hr', hnum⟩ := List.mem_map.1 hmem
    obtain ⟨hr', hv'⟩ := List.mem_filter.1 hr'
    rw [List.inj_on_of_nodup_map hl hr' hr hnum] at hv'
    simpa using hv'

namespace RepairsOK

variable {config : ReliableWriterConfig} {es : List WriterEvent} {l : WriterLog H P}

theorem init (config : ReliableWriterConfig) : RepairsOK config [] (WriterLog.init config : WriterLog H P) where
  wrote := by intro r hr; exact absurd hr List.not_mem_nil
  attempts := by intro r hr; exact absurd hr List.not_mem_nil
  bound := by intro q; exact Nat.zero_le _
  accepted := by intro q hq; exact absurd hq List.not_mem_nil

omit [NeZero H] in
theorem record_repairs (l : WriterLog H P) {cap : ℕ} (b : ActionBuffer cap)
    (o : Outcome (ReliableWriter H P) cap) :
    (l.record b o).repairs = l.repairs ++ repairsIn (b.emitted o.actions) := List.filterMap_append

/-- A sweep that repairs only records with attempts left keeps the invariant: the counter of a
repaired record and the number of its repairs both grow by one, and the counter does not wrap. -/
theorem swept (h : RepairsOK config es l) (hok : WriterOK l) (e : WriterEvent) {cap : ℕ}
    {b : ActionBuffer cap} {v : Record P → Decision} {o : Outcome (ReliableWriter H P) cap}
    (hs : Swept l.writer v b o) (hleft : ∀ r ∈ l.writer.retained, v r = .repair →
      r.repairAttempts < config.maxRepairAttempts) :
    RepairsOK config (es ++ [e]) (l.record b o) := by
  have hnd : (l.writer.retained.map Record.number).Nodup := hok.sorted.imp fun h => h.ne
  have hreps : (l.record b o).repairs =
      l.repairs ++ repairsIn (l.writer.retained.filterMap fun r => (v r).action r) := by
    rw [record_repairs, ActionBuffer.emitted_of_append hs.actions]
  have hcount : ∀ r ∈ l.writer.retained, ((l.record b o).repairs.map Prod.fst).count r.number =
      r.repairAttempts.toNat + if v r = .repair then 1 else 0 := by
    intro r hr
    rw [hreps, List.map_append, List.count_append, count_sweep_repairs hnd hr, h.attempts r hr]
  -- a record of the new history is an old one, whose counter moved if it was repaired
  have hold : ∀ r' ∈ o.state.retained, ∃ r ∈ l.writer.retained, r'.sample = r.sample ∧
      r'.firstSendNs = r.firstSendNs ∧
      r'.repairAttempts = r.repairAttempts + if v r = .repair then 1 else 0 := by
    intro r' hr'
    rw [hs.retained] at hr'
    obtain ⟨r, hr, hret⟩ := List.mem_filterMap.1 hr'
    refine ⟨r, hr, ?_⟩
    cases hv : v r <;> rw [hv] at hret <;> simp at hret <;> subst hret <;> simp
  refine ⟨fun r' hr' => ?_, fun r' hr' => ?_, fun q => ?_, fun q hq => ?_⟩
  · obtain ⟨r, hr, hsample, hfirst, -⟩ := hold r' hr'
    rw [Record.number, hsample, hfirst]
    exact (h.wrote r hr).mono
  · obtain ⟨r, hr, hsample, -, hattempts⟩ := hold r' hr'
    rw [Record.number, hsample, hcount r hr, hattempts]
    split
    next hv =>
      have hlt := UInt8.lt_iff_toNat_lt.1 (hleft r hr hv)
      have hmax := config.maxRepairAttempts.toNat_lt
      rw [UInt8.toNat_add]
      exact Nat.mod_eq_of_lt (by show r.repairAttempts.toNat + 1 < 2 ^ 8; omega)
    next => simp
  · by_cases hq : ∃ r ∈ l.writer.retained, v r = .repair ∧ r.number = q
    · obtain ⟨r, hr, hv, rfl⟩ := hq
      rw [hcount r hr, if_pos hv]
      exact UInt8.lt_iff_toNat_lt.1 (hleft r hr hv)
    · have hnew : q ∉ (repairsIn (l.writer.retained.filterMap fun r => (v r).action r)).map Prod.fst := by
        rw [sweep_repairs, List.map_map]
        intro hmem
        obtain ⟨r, hr, hnum⟩ := List.mem_map.1 hmem
        obtain ⟨hr, hv⟩ := List.mem_filter.1 hr
        exact hq ⟨r, hr, by simpa using hv, hnum⟩
      rw [hreps, List.map_append, List.count_append, List.count_eq_zero_of_not_mem hnew]
      exact h.bound q
  · rw [hreps, sweep_repairs, List.map_append, List.mem_append, List.map_map] at hq
    rcases hq with hq | hq
    · exact h.accepted q hq
    · obtain ⟨r, hr, rfl⟩ := List.mem_map.1 hq
      exact hok.retained_subset (List.mem_map.2 ⟨r, (List.mem_filter.1 hr).1, rfl⟩)

theorem wrote_step (h : RepairsOK config es l) (hok : WriterOK l) (hl : l = WriterLog.after config es)
    {cap : ℕ} {payload : Span} {s now : ℕ} {b : ActionBuffer cap}
    (hw : Wrote l.writer payload s now b (l.writer.write payload s now b)) :
    RepairsOK config (es ++ [.write payload s now b])
      { l.record b (l.writer.write payload s now b) with accepted := l.accepted ++ [s] } := by
  obtain ⟨x, hpay, hmeta, hfirst, hzero, hret⟩ := hw.retained
  have hreps : (l.record b (l.writer.write payload s now b)).repairs = l.repairs := by
    rw [record_repairs, ActionBuffer.emitted_of_append hw.actions]
    exact List.append_nil _
  have hnum : x.number = s := by rw [Record.number, hmeta]
  have hcases : ∀ r ∈ (l.writer.write payload s now b).state.retained,
      r ∈ l.writer.retained ∨ r = x := by
    intro r hr
    rw [hret, List.mem_append, List.mem_singleton] at hr
    exact hr
  refine ⟨fun r hr => ?_, fun r hr => ?_, fun q => ?_, fun q hq => ?_⟩
  · rcases hcases r hr with hr | rfl
    · exact (h.wrote r hr).mono
    · rw [hnum, hfirst, hpay]
      exact ⟨es, cap, payload, b, List.prefix_rfl, rfl, hl ▸ hw.error⟩
  · show r.repairAttempts.toNat = ((l.record b _).repairs.map Prod.fst).count r.number
    rw [hreps]
    rcases hcases r hr with hr | rfl
    · exact h.attempts r hr
    · -- no repair was asked for under a number that was not accepted before
      rw [hzero, hnum, List.count_eq_zero_of_not_mem]
      · rfl
      · intro hs
        exact absurd (hok.bounded s (h.accepted s hs)) (by have := hw.fresh; omega)
  · show ((l.record b _).repairs.map Prod.fst).count q ≤ _
    rw [hreps]
    exact h.bound q
  · have hq' : q ∈ (l.record b (l.writer.write payload s now b)).repairs.map Prod.fst := hq
    rw [hreps] at hq'
    exact List.mem_append_left _ (h.accepted q hq')

/-- `on_acknack` repairs only records with attempts left, inside their repair window. -/
theorem decision_repair {config : ReliableWriterConfig} {a : AckNack} {now : ℕ} {r : Record P}
    (h : decision config a now r = .ok .repair) : r.repairAttempts < config.maxRepairAttempts ∧
      r.firstSendNs ≤ now ∧ now - r.firstSendNs < config.repairWindowNs := by
  unfold decision at h
  simp only at h
  split_ifs at h with _ _ _ htime hwindow hattempts <;> cases h
  exact ⟨by simpa using hattempts, by omega, by omega⟩

theorem stepped (h : RepairsOK config es l) (hok : WriterOK l) (hl : l = WriterLog.after config es)
    {e : WriterEvent} {l' : WriterLog H P} (hs : l.Stepped e l') : RepairsOK config (es ++ [e]) l' := by
  have hcfg : l.writer.config = config := hl ▸ (WriterLog.after_frame config es).1
  cases hs with
  | refused =>
    exact ⟨fun r hr => (h.wrote r hr).mono, h.attempts, h.bound, h.accepted⟩
  | wrote hw => exact h.wrote_step hok hl hw
  | acknowledged hs hdec =>
    refine h.swept hok _ hs fun r hr hv => ?_
    have hd := hdec r hr
    rw [hv, hcfg] at hd
    exact (decision_repair hd).1
  | expired hs =>
    refine h.swept hok _ hs fun r hr hv => ?_
    unfold timerVerdict at hv
    split at hv <;> cases hv
  | filled t =>
    exact ⟨fun r hr => (h.wrote r hr).mono, h.attempts, h.bound, h.accepted⟩

end RepairsOK

theorem WriterLog.after_repairs (config : ReliableWriterConfig) (es : List WriterEvent) :
    RepairsOK config es (after config es : WriterLog H P) := by
  refine run_history (P := RepairsOK config) (fun es e h => ?_) (RepairsOK.init config) es
  exact h.stepped (after_ok config es) rfl (step_cases _ e)

/-- **Repair is bounded and faithful.** After any run of calls on a writer, with arbitrary ACKNACKs
and times: the repairs asked for under each number are at most `max_repair_attempts`, and the
counter of a retained record is their number, so it never wraps. Whatever the next call is, a repair
it asks for is one of an ACKNACK handled at a time `now`; its number was accepted by a `write` of
exactly these bytes at a time `t`, which is the only one to accept it, with `t ≤ now` and
`now - t` below the repair window. -/
theorem repair_bounded_faithful (config : ReliableWriterConfig) (es : List WriterEvent)
    (e : WriterEvent) :
    let l : WriterLog H P := WriterLog.after config es
    (∀ q, (l.repairs.map Prod.fst).count q ≤ config.maxRepairAttempts.toNat) ∧
    (∀ r ∈ l.writer.retained,
      r.repairAttempts.toNat = (l.repairs.map Prod.fst).count r.number) ∧
    (∀ q data, (q, data) ∈ (WriterLog.after config (es ++ [e]) : WriterLog H P).repairs.drop
        l.repairs.length →
      ∃ (cap : ℕ) (a : AckNack) (now : ℕ) (b : ActionBuffer cap) (t : ℕ), e = .acknack a now b ∧
        WroteIn H P config es q t data ∧
        (∀ t' data', WroteIn H P config es q t' data' → t' = t ∧ data' = data) ∧
        t ≤ now ∧ now - t < config.repairWindowNs) := by
  intro l
  have h : RepairsOK config es l := WriterLog.after_repairs config es
  refine ⟨h.bound, h.attempts, fun q data hq => ?_⟩
  have hstep : (WriterLog.after config (es ++ [e]) : WriterLog H P) = l.step e := run_snoc ..
  have hcfg : l.writer.config = config := (WriterLog.after_frame config es).1
  have hnone : (q, data) ∉ l.repairs.drop l.repairs.length := by
    rw [List.drop_length]
    exact List.not_mem_nil
  have hdrop : ∀ {cap : ℕ} (b : ActionBuffer cap) (o : Outcome (ReliableWriter H P) cap),
      (l.record b o).repairs.drop l.repairs.length = repairsIn (b.emitted o.actions) := by
    intro cap b o
    rw [RepairsOK.record_repairs, List.drop_left]
  rw [hstep] at hq
  have hs := l.step_cases e
  generalize l.step e = l' at hq hs
  cases hs with
  | refused => exact absurd hq hnone
  | @wrote _ payload s now b hw =>
    have hq' : (q, data) ∈ repairsIn (b.emitted (l.writer.write payload s now b).actions) :=
      hdrop b _ ▸ hq
    rw [ActionBuffer.emitted_of_append hw.actions] at hq'
    exact absurd hq' List.not_mem_nil
  | @acknowledged cap a now b o hw hdec =>
    rw [hdrop b o, ActionBuffer.emitted_of_append hw.actions, sweep_repairs] at hq
    obtain ⟨r, hr, heq⟩ := List.mem_map.1 hq
    obtain ⟨hr, hv⟩ := List.mem_filter.1 hr
    have hd := hdec r hr
    rw [show verdict l.writer.config a now r = .repair by simpa using hv, hcfg] at hd
    obtain ⟨-, hle, hlt⟩ := RepairsOK.decision_repair hd
    cases heq
    have hwrote := h.wrote r hr
    exact ⟨cap, a, now, b, r.firstSendNs, rfl, hwrote,
      fun t' data' h' => wroteIn_unique h' hwrote, hle, hlt⟩
  | @expired _ now b o hw =>
    rw [hdrop b o, ActionBuffer.emitted_of_append hw.actions, sweep_repairs] at hq
    obtain ⟨r, hr, -⟩ := List.mem_map.1 hq
    have hv := (List.mem_filter.1 hr).2
    simp only [decide_eq_true_eq] at hv
    unfold timerVerdict at hv
    split at hv <;> cases hv
  | filled t => exact absurd hq hnone

/-- Two samples are retained; the ACKNACK ends the first, which moves the second to its slot, and
asks for the second. -/
def repairDemo : List WriterEvent :=
  [.write (.bytes [7]) 1 0 (.empty : ActionBuffer 4), .write (.bytes [8, 9]) 2 5 (.empty : ActionBuffer 4)]

def repairRequest : WriterEvent :=
  .acknack { readerState := ((SequenceNumberSet.empty.reset 2 1).2.set 0).2 } 7 (.empty : ActionBuffer 4)

theorem repairDemo_bounded_faithful :
    let l : WriterLog 2 4 := WriterLog.after {} repairDemo
    let l' : WriterLog 2 4 := WriterLog.after {} (repairDemo ++ [repairRequest])
    l'.retained = [2] ∧ (2, [8, 9]) ∈ l'.repairs.drop l.repairs.length ∧
      ∃ (cap : ℕ) (a : AckNack) (now : ℕ) (b : ActionBuffer cap) (t : ℕ),
        repairRequest = .acknack a now b ∧ WroteIn 2 4 {} repairDemo 2 t [8, 9] ∧
        (∀ t' data', WroteIn 2 4 {} repairDemo 2 t' data' → t' = t ∧ data' = [8, 9]) ∧
        t ≤ now ∧ now - t < 100000000 :=
  ⟨by decide, by decide,
    (repair_bounded_faithful (H := 2) (P := 4) {} repairDemo repairRequest).2.2 2 [8, 9] (by decide)⟩

end OpenRtdds
