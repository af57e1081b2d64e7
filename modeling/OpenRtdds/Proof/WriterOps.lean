import OpenRtdds.Spec.Writer

/-!
# What the calls of a ReliableWriter do

One lemma for each call, as a statement about the list `retained` of awaiting records.
A call that returns an error leaves the writer and the buffer as they were; a
successful `write` appends a record (`Wrote`), and a successful `on_acknack` or
`on_timer` gives every record a verdict and keeps or reports it accordingly (`Swept`).

* `write_cases`, `onAcknack_cases`, `onTimer_cases`: the two outcomes of each call.
* `onAcknack_accepts`, `onAcknack_delivers`: when an ACKNACK is accepted, and one that ends all records.
-/

namespace OpenRtdds.ReliableWriter

open Lib

variable {H P cap : ℕ} [NeZero H]

/-- The sequence number of a record. -/
abbrev Record.number (r : Record P) : ℕ := r.sample.metadata.sequenceNumber

/-- The fields no call changes, and the ones only `on_acknack` and `fill_heartbeat` change. -/
structure SameFrame (w w' : ReliableWriter H P) : Prop where
  config : w'.config = w.config
  valid : w'.valid = w.valid
  heartbeatCount : w'.heartbeatCount = w.heartbeatCount

/-- **A successful `write`** appends a fresh record and asks to send it. -/
structure Wrote (w : ReliableWriter H P) (payload : Span) (s now : ℕ) (b : ActionBuffer cap)
    (o : Outcome (ReliableWriter H P) cap) : Prop where
  error : o.error = .none
  valid : w.valid = true
  number : validStateSequence s = true
  fresh : w.lastSequenceNumber < s
  retained : ∃ r : Record P, r.sample.payload = payload.data ∧ r.sample.metadata = ⟨s, now⟩ ∧
    r.firstSendNs = now ∧ r.repairAttempts = 0 ∧ o.state.retained = w.retained ++ [r]
  last : o.state.lastSequenceNumber = s
  actions : o.actions.actions = b.actions ++ [.sendData s payload.data]
  frame : SameFrame w o.state
  acknack : o.state.lastAcknackCount = w.lastAcknackCount ∧
    o.state.acknackCountInitialized = w.acknackCountInitialized

/-- **A successful sweep**: every record gets a verdict, which retains or reports it. -/
structure Swept (w : ReliableWriter H P) (verdict : Record P → Decision) (b : ActionBuffer cap)
    (o : Outcome (ReliableWriter H P) cap) : Prop where
  error : o.error = .none
  valid : w.valid = true
  retained : o.state.retained = w.retained.filterMap fun r => (verdict r).retain r
  actions : o.actions.actions = b.actions ++ w.retained.filterMap fun r => (verdict r).action r
  last : o.state.lastSequenceNumber = w.lastSequenceNumber
  frame : SameFrame w o.state

theorem retained_length (w : ReliableWriter H P) : w.retained.length = w.size := live_length _ _

theorem assign_ok {payload : Span} {m : SampleMetadata} (h1 : ¬ (payload.isNull && payload.size != 0))
    (h2 : ¬ payload.size > P) : ∃ x : BoundedSample P, BoundedSample.assign payload m = .ok x ∧
      x.payload = payload.data ∧ x.metadata = m := by
  unfold BoundedSample.assign
  rw [if_neg h1, dif_neg h2]
  exact ⟨_, rfl, rfl, rfl⟩

theorem write_cases (w : ReliableWriter H P) (payload : Span) (s now : ℕ) (b : ActionBuffer cap) :
    Refused w b (w.write payload s now b) ∨ Wrote w payload s now b (w.write payload s now b) := by
  unfold write
  refine refused_or (by simp) fun hvalid => refused_or (by simp) fun hnull => ?_
  refine refused_or (by simp) fun hsize => refused_or (by simp) fun hseq => ?_
  refine refused_or (by simp) fun hmono => ?_
  split
  · exact .inl ⟨by simp, rfl, rfl⟩
  rename_i hfull
  refine refused_or (by simp) fun hroom => ?_
  obtain ⟨x, hx, hp, hm⟩ := assign_ok (m := ⟨s, now⟩) hnull hsize
  rw [hx]
  have hseq' : validStateSequence s = true := by simpa using hseq
  have hs := validStateSequence_iff.1 hseq'
  refine .inr ⟨rfl, by simpa using hvalid, hseq', ?_,
    ⟨{ sample := x, firstSendNs := now, repairAttempts := 0 }, hp, hm, rfl, rfl, ?_⟩, rfl, ?_,
    ⟨rfl, rfl, rfl⟩, rfl, rfl⟩
  · simp only [bne_iff_ne, ne_eq, Bool.and_eq_true, decide_eq_true_eq, not_and, not_le] at hmono
    by_cases h0 : w.lastSequenceNumber = 0
    · omega
    · exact hmono h0
  · exact live_push w.records (lt_of_le_of_ne w.size_le hfull) _
  · simp only [hp]
    exact ActionBuffer.push_actions hroom _

/-- The verdict of an ACKNACK on a record. -/
def verdict (config : ReliableWriterConfig) (acknack : AckNack) (now : ℕ) (r : Record P) : Decision :=
  match decision config acknack now r with
  | .ok d => d
  | .error _ => .keep

variable {acknack : AckNack} {w : ReliableWriter H P}

/-- The first loop of `on_acknack`, if it ends: every record has its decision, and the
number of required actions is the number of actions the decisions emit. -/
theorem decisionLoop_ok {now : ℕ} :
    ∀ {n : ℕ} {ds : Fin H → Decision} {req : ℕ}, n ≤ H →
      (List.range n).foldlM (decisionStep w acknack now) (fun _ => Decision.keep, 0) = .ok (ds, req) →
      (∀ i, i < n → decision w.config acknack now (w.records (wrap i)) = .ok (ds (wrap i))) ∧
      req = ((List.range n).filterMap fun i => (ds (wrap i)).action (w.records (wrap i))).length := by
  intro n
  induction n with
  | zero =>
    intro ds req _ h
    simp only [List.range_zero, List.foldlM_nil, pure, Except.pure, Except.ok.injEq,
      Prod.mk.injEq] at h
    exact ⟨fun i hi => absurd hi (Nat.not_lt_zero i), by simp [h.2.symm]⟩
  | succ n ih =>
    intro ds req hn h
    obtain ⟨⟨ds0, req0⟩, h0, hstep⟩ := foldlM_range_succ h
    obtain ⟨hd0, hr0⟩ := ih (by omega) h0
    cases hd : decision w.config acknack now (w.records (wrap n)) with
    | error e => simp [decisionStep, hd, bind, Except.bind] at hstep
    | ok d =>
      simp only [decisionStep, hd, bind, Except.bind, pure, Except.pure, Except.ok.injEq,
        Prod.mk.injEq] at hstep
      obtain ⟨rfl, rfl⟩ := hstep
      -- the earlier decisions are untouched by the write at `n`
      have hold : ∀ i, i < n → Function.update ds0 (wrap n) d (wrap i) = ds0 (wrap i) := by
        intro i hi
        rw [Function.update_of_ne (wrap_ne (by omega) (by omega) (by omega))]
      refine ⟨fun i hi => ?_, ?_⟩
      · rcases Nat.lt_succ_iff_lt_or_eq.1 hi with hi | rfl
        · rw [hold i hi]; exact hd0 i hi
        · rw [Function.update_self]; exact hd
      · rw [List.range_succ, List.filterMap_append, List.length_append]
        have hpre : (List.range n).filterMap (fun i =>
            (Function.update ds0 (wrap n) d (wrap i)).action (w.records (wrap i))) =
            (List.range n).filterMap fun i => (ds0 (wrap i)).action (w.records (wrap i)) :=
          List.filterMap_congr fun i hi => by rw [hold i (List.mem_range.1 hi)]
        rw [hpre, ← hr0]
        cases d <;> simp [Decision.action]

theorem decisionStep_error {now : ℕ} {s : (Fin H → Decision) × ℕ} {i : ℕ} {e : ReliabilityError}
    (h : decisionStep w acknack now s i = .error e) : e ≠ .none := by
  unfold decisionStep at h
  cases hd : decision w.config acknack now (w.records (wrap i)) with
  | ok d => rw [hd] at h; simp [bind, Except.bind, pure, Except.pure] at h
  | error e' =>
    rw [hd] at h
    simp only [bind, Except.bind, Except.error.injEq] at h
    rw [← h]
    unfold decision at hd
    simp only at hd
    split_ifs at hd
    cases hd
    simp

theorem range_actions {ds : Fin H → Decision} {v : Record P → Decision}
    (h : ∀ i, i < w.size → ds (wrap i) = v (w.records (wrap i))) :
    (List.range w.size).filterMap (fun i => (ds (wrap i)).action (w.records (wrap i))) =
      w.retained.filterMap fun r => (v r).action r := by
  rw [retained, ← range_filterMap_live]
  exact List.filterMap_congr fun i hi => by rw [h i (List.mem_range.1 hi)]

theorem onAcknack_cases (w : ReliableWriter H P) (acknack : AckNack) (now : ℕ) (b : ActionBuffer cap) :
    Refused w b (w.onAcknack acknack now b) ∨
    (Swept w (verdict w.config acknack now) b (w.onAcknack acknack now b) ∧
      acknack.readerId = w.config.readerId ∧ acknack.writerId = w.config.writerId ∧
      (∀ r ∈ w.retained, decision w.config acknack now r = .ok (verdict w.config acknack now r)) ∧
      (w.onAcknack acknack now b).state.lastAcknackCount = acknack.count ∧
      (w.onAcknack acknack now b).state.acknackCountInitialized = true) := by
  unfold onAcknack
  split
  · exact .inl ⟨by simp, rfl, rfl⟩
  split
  · exact .inl ⟨by simp, rfl, rfl⟩
  split
  · exact .inl ⟨by simp, rfl, rfl⟩
  rename_i hvalid hpeer _
  split
  · rename_i e he
    obtain ⟨s', i, _, hi⟩ := foldlM_error he
    exact .inl ⟨decisionStep_error hi, rfl, rfl⟩
  rename_i ds req hloop
  split
  · exact .inl ⟨by simp, rfl, rfl⟩
  rename_i hcap
  obtain ⟨hds, hreq⟩ := decisionLoop_ok w.size_le hloop
  have hv : ∀ i, i < w.size → ds (wrap i) = verdict w.config acknack now (w.records (wrap i)) := by
    intro i hi
    rw [verdict, hds i hi]
  have hout := range_actions hv
  simp only [not_or, ne_eq, not_not] at hpeer
  refine .inr ⟨⟨rfl, by simpa using hvalid, ?_, ?_, rfl, rfl, rfl, rfl⟩, hpeer.1, hpeer.2, ?_, rfl, rfl⟩
  · refine (compact_live _ _ _ _ w.size_le).trans ?_
    rw [retained, ← range_filterMap_live]
    exact List.filterMap_congr fun i hi => by rw [hv i (List.mem_range.1 hi)]
  · simp only
    rw [compact_acc _ _ _ _ w.size_le, ← hout]
    exact ActionBuffer.foldl_pushSome _ _ _ (by omega)
  · intro r hr
    obtain ⟨i, hi, rfl⟩ := List.mem_map.1 hr
    rw [hds i (List.mem_range.1 hi), ← hv i (List.mem_range.1 hi)]

/-- `on_acknack` succeeds if the message is from the peer, new, means something for every record
and its actions fit. -/
theorem onAcknack_accepts (hv : w.valid = true)
    (hr : acknack.readerId = w.config.readerId) (hw : acknack.writerId = w.config.writerId)
    (hcount : w.acknackCountInitialized = true →
      controlCountIsNewer acknack.count w.lastAcknackCount = true) {now : ℕ} {b : ActionBuffer cap}
    (hdec : ∀ r ∈ w.retained,
      decision w.config acknack now r = .ok (verdict w.config acknack now r))
    (hroom : (w.retained.filterMap fun r => (verdict w.config acknack now r).action r).length ≤
      b.remaining) : (w.onAcknack acknack now b).error = .none := by
  unfold onAcknack
  rw [if_neg (by simp [hv]), if_neg (by simp [hr, hw]), if_neg (by simpa using hcount)]
  have hmem : ∀ i, i < w.size → w.records (wrap i) ∈ w.retained :=
    fun i hi => List.mem_map.2 ⟨i, List.mem_range.2 hi, rfl⟩
  split
  next e he =>
    -- the first loop stops only where a record has no verdict
    obtain ⟨s, i, hi, hstep⟩ := foldlM_error he
    have hd := hdec _ (hmem i (List.mem_range.1 hi))
    simp [decisionStep, hd, bind, Except.bind, pure, Except.pure] at hstep
  next ds req hloop =>
    obtain ⟨hds, hreq⟩ := decisionLoop_ok w.size_le hloop
    have hver : ∀ i, i < w.size → ds (wrap i) = verdict w.config acknack now (w.records (wrap i)) := by
      intro i hi
      rw [verdict, hds i hi]
    rw [range_actions hver] at hreq
    rw [if_neg (by omega)]

/-- **An ACKNACK above every record** reports all of them as delivered and retains none. -/
theorem onAcknack_delivers (hv : w.valid = true)
    (hr : acknack.readerId = w.config.readerId) (hw : acknack.writerId = w.config.writerId)
    (hcount : w.acknackCountInitialized = true →
      controlCountIsNewer acknack.count w.lastAcknackCount = true)
    (hbase : ∀ r ∈ w.retained, r.number < acknack.readerState.bitmapBase) (now : ℕ)
    {b : ActionBuffer cap} (hroom : w.retained.length ≤ b.remaining) :
    let o := w.onAcknack acknack now b
    o.actions.actions = b.actions ++ w.retained.map (fun r => .sampleDelivered r.number) ∧
      o.state.retained = [] := by
  have hdec : ∀ r ∈ w.retained, decision w.config acknack now r = .ok .deliver := by
    intro r hmem
    unfold decision
    exact if_pos (hbase r hmem)
  have hver : ∀ r ∈ w.retained, verdict w.config acknack now r = .deliver := by
    intro r hmem
    rw [verdict, hdec r hmem]
  have hacts : (w.retained.filterMap fun r => (verdict w.config acknack now r).action r) =
      w.retained.map fun r => .sampleDelivered r.number := by
    rw [← List.filterMap_eq_map]
    refine List.filterMap_congr fun r hmem => ?_
    rw [hver r hmem]
    rfl
  have herr : (w.onAcknack acknack now b).error = .none := by
    refine onAcknack_accepts hv hr hw hcount (fun r hmem => ?_) ?_
    · rw [hver r hmem, hdec r hmem]
    · rw [hacts, List.length_map]
      exact hroom
  rcases onAcknack_cases w acknack now b with href | ⟨hs, -⟩
  · exact absurd herr href.error
  refine ⟨hs.actions.trans (congrArg _ hacts), ?_⟩
  rw [hs.retained, List.filterMap_eq_nil_iff]
  intro r hmem
  rw [hver r hmem]
  rfl

/-- `on_timer` fails the records whose repair window has ended. -/
def timerVerdict (config : ReliableWriterConfig) (now : ℕ) (r : Record P) : Decision :=
  if now - r.firstSendNs ≥ config.repairWindowNs then .failWindow else .keep

/-- The first loop of `on_timer`, if it ends, counts the actions of the second. -/
theorem expiredLoop_ok {now : ℕ} :
    ∀ {n expired : ℕ}, (List.range n).foldlM (expiredStep w now) 0 = .ok expired →
      (∀ i, i < n → (w.records (wrap i)).firstSendNs ≤ now) ∧
      expired = ((List.range n).filterMap fun i =>
        (timerVerdict w.config now (w.records (wrap i))).action (w.records (wrap i))).length := by
  intro n
  induction n with
  | zero =>
    intro expired h
    simp only [List.range_zero, List.foldlM_nil, pure, Except.pure, Except.ok.injEq] at h
    exact ⟨fun i hi => absurd hi (Nat.not_lt_zero i), by simp [h.symm]⟩
  | succ n ih =>
    intro expired h
    obtain ⟨e0, h0, hstep⟩ := foldlM_range_succ h
    obtain ⟨ht, hc⟩ := ih h0
    simp only [expiredStep] at hstep
    split at hstep
    next => cases hstep
    next hlt =>
      rw [Except.ok.injEq] at hstep
      refine ⟨fun i hi => ?_, ?_⟩
      · rcases Nat.lt_succ_iff_lt_or_eq.1 hi with hi | rfl
        · exact ht i hi
        · exact Nat.le_of_not_lt hlt
      · rw [List.range_succ, List.filterMap_append, List.length_append, ← hc, ← hstep]
        unfold timerVerdict
        split
        next hx => simp [hx, Decision.action]
        next hx => simp [hx, Decision.action]

theorem onTimer_cases (w : ReliableWriter H P) (now : ℕ) (b : ActionBuffer cap) :
    Refused w b (w.onTimer now b) ∨
    (Swept w (timerVerdict w.config now) b (w.onTimer now b) ∧
      (∀ r ∈ w.retained, r.firstSendNs ≤ now) ∧
      (w.onTimer now b).state.lastAcknackCount = w.lastAcknackCount ∧
      (w.onTimer now b).state.acknackCountInitialized = w.acknackCountInitialized) := by
  unfold onTimer
  split
  · exact .inl ⟨by simp, rfl, rfl⟩
  rename_i hvalid
  split
  · rename_i e he
    obtain ⟨s', i, _, hi⟩ := foldlM_error he
    refine .inl ⟨?_, rfl, rfl⟩
    simp only [expiredStep] at hi
    split at hi
    next => cases hi; simp
    next => cases hi
  rename_i expired hloop
  split
  · exact .inl ⟨by simp, rfl, rfl⟩
  rename_i hcap
  obtain ⟨htime, hexp⟩ := expiredLoop_ok hloop
  have hkeep : ∀ r : Record P, (timerVerdict w.config now r).retain r =
      if decide (now - r.firstSendNs ≥ w.config.repairWindowNs) = true then none else some r := by
    intro r
    unfold timerVerdict
    split <;> simp_all [Decision.retain]
  have hact : ∀ r : Record P, (timerVerdict w.config now r).action r =
      if decide (now - r.firstSendNs ≥ w.config.repairWindowNs) = true then
        some (.sampleFailed r.sample.metadata.sequenceNumber .repairWindowExpired) else none := by
    intro r
    unfold timerVerdict
    split <;> simp_all [Decision.action]
  refine .inr ⟨⟨rfl, by simpa using hvalid, ?_, ?_, rfl, rfl, rfl, rfl⟩, ?_, rfl, rfl⟩
  · simp only [hkeep]
    refine (compact_live _ _ _ _ w.size_le).trans ?_
    rw [retained, ← range_filterMap_live]
  · simp only [hact] at hexp ⊢
    rw [compact_acc _ _ _ _ w.size_le, retained, ← range_filterMap_live]
    exact ActionBuffer.foldl_pushSome _ _ _ (by omega)
  · intro r hr
    obtain ⟨i, hi, rfl⟩ := List.mem_map.1 hr
    exact htime i (List.mem_range.1 hi)

end OpenRtdds.ReliableWriter
