import OpenRtdds.Proof.TopicSample

/-!
# The queue of a subscription

The queue is what has been accepted and has not left, in the order of acceptance. A sample leaves at the
head, when a take returns it or when a full queue makes room; the writer table keeps the numbers of each
writer increasing.

* `findWriter_commit_of_ne`: the table keeps the other writers.
* `takeSequence_effect`, `takeOne_effect`: what the takes do to the queue.
* `QueueInv`: the invariant, over the log of the calls. `QueueEffect.inv`, `topicRun_inv`.
* `subscription_queue_fifo`.
-/

namespace OpenRtdds

open Lib

namespace Subscription

variable {D : ℕ} [NeZero D] {s : Subscription D}

omit [NeZero D] in
theorem findWriter_some {guid : Gid} {i : Fin 16} (h : s.findWriter guid = some i) :
    (s.writers i).occupied = true ∧ (s.writers i).guid = guid := by
  have hfound := List.find?_some h
  rw [Bool.and_eq_true, beq_iff_eq] at hfound
  exact hfound

/-- **The table keeps the other writers** when one of them is stored in its own state or in a free
one. -/
theorem findWriter_commit_of_ne {sample : StoredSample} {i : Fin 16} {isNew : Bool} {guid : Gid}
    (hslot : s.findWriter sample.publisherGid = some i ∨ s.freeWriter = some i)
    (hne : sample.publisherGid ≠ guid) :
    (s.commit sample i isNew).findWriter guid = s.findWriter guid ∧
      ∀ j, s.findWriter guid = some j → (s.commit sample i isNew).writers j = s.writers j := by
  have hbefore : ((s.writers i).occupied && (s.writers i).guid == guid) = false := by
    rcases hslot with hfound | hfree
    · rw [(findWriter_some hfound).2, beq_eq_false_iff_ne.2 hne, Bool.and_false]
    · have hoccupied := List.find?_some hfree
      rw [Bool.not_eq_true'] at hoccupied
      rw [hoccupied, Bool.false_and]
  have hsame : ∀ j, (((s.commit sample i isNew).writers j).occupied &&
      ((s.commit sample i isNew).writers j).guid == guid) =
      ((s.writers j).occupied && (s.writers j).guid == guid) := by
    intro j
    rw [commit_writers]
    by_cases hj : j = i
    · rw [hj, Function.update_self, hbefore]
      exact beq_eq_false_iff_ne.2 hne
    · rw [Function.update_of_ne hj]
  refine ⟨?_, fun j hj => ?_⟩
  · unfold findWriter
    simp only [hsame]
  · have hji : j ≠ i := by
      rintro rfl
      have hfound := List.find?_some hj
      rw [hbefore] at hfound
      cases hfound
    rw [commit_writers, Function.update_of_ne hji]

end Subscription

section Effects

variable {language : TypeSupportLanguage} {D : ℕ} [NeZero D] {s : Subscription D}

/-- **What a call does to the queue**, with the sample it accepts and the metadata it returns. -/
inductive QueueEffect (s : Subscription D) :
    Subscription D → Option StoredSample → List MessageInfo → Prop where
  | kept : QueueEffect s s none []
  | shutDown : QueueEffect s { s with shutdown := true } none []
  | accepted {sample : StoredSample} {i : Fin 16} (isNew : Bool)
      (hreception : sample.receptionSequenceNumber = s.nextReceptionSequence)
      (hwriter : s.findWriter sample.publisherGid = some i ∧
          (s.writers i).lastSequence < sample.publicationSequenceNumber ∨
        s.findWriter sample.publisherGid = none ∧ s.freeWriter = some i) :
      QueueEffect s (s.commit sample i isNew) (some sample) []
  | taken {n : ℕ} (hn : n ≤ s.historySize) :
      QueueEffect s (s.dropMany n) none ((s.queue.take n).map StoredSample.messageInfo)

theorem Subscription.queue_take (s : Subscription D) {n : ℕ} (hn : n ≤ s.historySize) :
    s.queue.take n = (List.range n).map s.sampleAt := by
  have hqueue : s.queue = (List.range s.historySize).map s.sampleAt := rfl
  rw [hqueue, ← List.map_take, List.take_range, Nat.min_eq_left hn]

theorem receive_effect (s : Subscription D) (packet : Span) (source received : ℕ) :
    let out := s.receiveDataMessage packet source received
    QueueEffect s out.2
      (@acceptedSample language (.receive packet source received, .received out.1)) [] := by
  intro out
  have houtcome : Subscription.Outcome s packet source received out := s.receive_outcome packet source received
  generalize out = out at houtcome ⊢
  cases houtcome with
  | @refused e h hduplicate =>
    cases e with
    | error _ => exact .kept
    | ok result =>
      cases result with
      | accepted _ _ _ => cases h
      | ignoredLocal _ => exact .kept
      | duplicateOrStale _ => exact .kept
  | @accepted v i isNew htime hparse h =>
    have hsample : sampleOf packet source received s.nextReceptionSequence =
        some (s.storedAt v source received) := by
      unfold sampleOf
      rw [hparse]
      rfl
    unfold acceptedSample
    dsimp only
    rw [hsample]
    exact .accepted isNew rfl h

namespace Endpoint

variable {e : Endpoint language}

/-- **What a take returns of a sample**: its metadata, and the message that its payload decodes to. -/
structure Returned (e : Endpoint language) (sample : StoredSample) (message : Sample language)
    (info : MessageInfo) (message' : Sample language) : Prop where
  info : info = sample.messageInfo
  message : ∃ read, e.decode sample.payload message = (.ok read, message')

theorem takeOne_effect (e : Endpoint language) (s : Subscription D) (message : Sample language) :
    let out := e.takeOne s message
    QueueEffect s out.2.1 none (takenInfos (.takeOne message, .took out.1 out.2.2)) := by
  intro out
  have htook : TookOne e s message out := e.takeOne_took s message
  generalize out = out at htook ⊢
  cases htook with
  | @taken sample rest read message' _ hqueue =>
    have hinfos : [sample.messageInfo] = (s.queue.take 1).map StoredSample.messageInfo := by
      rw [hqueue]
      rfl
    change QueueEffect s (s.dropMany 1) none [sample.messageInfo]
    rw [hinfos]
    exact .taken (Nat.one_le_iff_ne_zero.2 (Subscription.queue_head hqueue).1)
  | _ => exact .kept

theorem takeLoop_returns {remaining : ℕ} : ∀ {offset : ℕ} {batch batch' : Batch language},
    e.takeLoop s remaining offset batch = (none, batch') →
    (∀ k < offset, batch'.infos k = batch.infos k ∧ batch'.messages k = batch.messages k) ∧
      ∀ k, offset ≤ k → k < offset + remaining → ∃ message message', batch.messages k = some message ∧
        batch'.messages k = some message' ∧ e.Returned (s.sampleAt k) message (batch'.infos k) message' := by
  induction remaining with
  | zero =>
    intro offset batch batch' hloop
    cases hloop
    exact ⟨fun k _ => ⟨rfl, rfl⟩, fun k hge hlt => absurd hlt (by omega)⟩
  | succ remaining ih =>
    intro offset batch batch' hloop
    unfold takeLoop at hloop
    split at hloop
    · cases hloop
    next message hmessage =>
      dsimp only at hloop
      split at hloop
      · cases hloop
      next read message' hdecode =>
        obtain ⟨hbefore, hbehind⟩ := ih hloop
        dsimp only at hbefore hbehind
        refine ⟨fun k hk => ?_, fun k hge hlt => ?_⟩
        · obtain ⟨hinfo, hkept⟩ := hbefore k (by omega)
          have hne : k ≠ offset := hk.ne
          rw [Function.update_of_ne hne] at hinfo hkept
          exact ⟨hinfo, hkept⟩
        · by_cases hk : k = offset
          · obtain ⟨hinfo, hkept⟩ := hbefore k (by omega)
            rw [hk, Function.update_self] at hinfo hkept
            rw [hk]
            exact ⟨message, message', hmessage, hkept, hinfo, read, hdecode⟩
          · obtain ⟨message, message', hdest, hreturned⟩ := hbehind k (by omega) (by omega)
            rw [Function.update_of_ne hk] at hdest
            exact ⟨message, message', hdest, hreturned⟩

/-- **What a batch take does**: it takes the oldest samples or changes nothing. -/
inductive TookBatch (e : Endpoint language) (s : Subscription D) (args : TakeSequenceArguments language) :
    Except TakeSequenceError ℕ × Subscription D × Option (MessageSequence language) ×
      Option MessageInfoSequence → Prop where
  | refused (error : TakeSequenceError) (messages : Option (MessageSequence language))
      (infos : Option MessageInfoSequence) : TookBatch e s args (.error error, s, messages, infos)
  | empty (hempty : min args.count s.historySize = 0) (messages : Option (MessageSequence language))
      (infos : Option MessageInfoSequence) : TookBatch e s args (.ok 0, s, messages, infos)
  | taken {n : ℕ} (hn : n = min args.count s.historySize) {messages : MessageSequence language}
      {infos : MessageInfoSequence} {pointers : ℕ → Option (Sample language)} {batch : Batch language}
      (hpointers : args.messages.bind (·.data) = some pointers)
      (hreturned : ∀ k < n, ∃ message message', pointers k = some message ∧
        batch.messages k = some message' ∧ e.Returned (s.sampleAt k) message (batch.infos k) message') :
      TookBatch e s args (.ok n, s.dropMany n, some { messages with data := some batch.messages, size := n },
        some { infos with data := some batch.infos, size := n })

theorem takeSequence_took (e : Endpoint language) (s : Subscription D) (args : TakeSequenceArguments language) :
    TookBatch e s args (e.takeSequence s args) := by
  unfold takeSequence
  split
  next messages infos hmessages hinfos =>
    by_cases hchecks : (!args.taken || (args.count != 0 && (messages.data.isNone || infos.data.isNone)) ||
        decide (messages.capacity < args.count) || decide (infos.capacity < args.count)) = true
    · rw [if_pos hchecks]
      exact .refused _ _ _
    rw [if_neg hchecks]
    split
    · exact .refused _ _ _
    split
    · exact .refused _ _ _
    dsimp only
    split
    next pointers entries hpointers hentries =>
      split
      next hnone => exact .empty hnone _ _
      split
      · exact .refused _ _ _
      next batch hloop =>
        refine .taken rfl (by rw [hmessages]; exact hpointers) fun k hk => ?_
        exact (takeLoop_returns hloop).2 k (Nat.zero_le k) (by omega)
    next hnull =>
      refine .empty ?_ _ _
      have hcount : args.count = 0 := by
        by_contra hne
        refine hchecks ?_
        have hmissing : (messages.data.isNone || infos.data.isNone) = true := by
          cases hm : messages.data with
          | none => rfl
          | some pointers =>
            cases hi : infos.data with
            | none => rfl
            | some entries => exact absurd hi (hnull pointers entries hm)
        rw [bne_iff_ne.2 hne, hmissing]
        simp
      rw [hcount, Nat.zero_min]
  next => exact .refused _ _ _

theorem takeSequence_effect (e : Endpoint language) (s : Subscription D)
    (args : TakeSequenceArguments language) :
    let out := e.takeSequence s args
    QueueEffect s out.2.1 none (takenInfos (.takeSequence args, .tookSequence out.1 out.2.2.1 out.2.2.2)) := by
  intro out
  have htook : TookBatch e s args out := e.takeSequence_took s args
  generalize out = out at htook ⊢
  cases htook with
  | refused => exact .kept
  | empty _ _ infos =>
    have hnone : ∀ messages, takenInfos (.takeSequence args, .tookSequence (.ok 0) messages infos) = [] := by
      intro messages
      cases infos with
      | none => rfl
      | some infos => cases hdata : infos.data <;> simp only [takenInfos, hdata] <;> rfl
    rw [hnone]
    exact .kept
  | @taken n hn messages infos pointers batch _ hreturned =>
    have hle : n ≤ s.historySize := hn.trans_le (Nat.min_le_right _ _)
    have hread : (List.range n).map batch.infos = (s.queue.take n).map StoredSample.messageInfo := by
      rw [s.queue_take hle, List.map_map]
      refine List.map_congr_left fun k hk => ?_
      obtain ⟨message, message', -, -, hinfo⟩ := hreturned k (List.mem_range.1 hk)
      exact hinfo.info
    change QueueEffect s (s.dropMany n) none ((List.range n).map batch.infos)
    rw [hread]
    exact .taken hle

/-- **What a call does to the queue.** -/
theorem topicCall_effect (e : Endpoint language) (s : Subscription D) (call : TopicCall language) :
    QueueEffect s (e.topicCall s call).2 (acceptedSample (call, (e.topicCall s call).1))
      (takenInfos (call, (e.topicCall s call).1)) := by
  cases call with
  | receive packet source received => exact receive_effect s packet source received
  | takeOne message => exact e.takeOne_effect s message
  | takeSequence args => exact e.takeSequence_effect s args
  | shutdown => exact .shutDown

end Endpoint

end Effects

section Invariant

variable {language : TypeSupportLanguage} {D : ℕ} [NeZero D] {s s' : Subscription D}
  {accepted : List StoredSample} {taken : List MessageInfo}

/-- **The queue is what has been accepted and has not left.** The samples leave in the order of
acceptance, those that were taken among them in the order of their takes. -/
structure QueueInv (s : Subscription D) (accepted : List StoredSample) (taken : List MessageInfo) :
    Prop where
  order : ∃ removed, accepted = removed ++ s.queue ∧
    taken.Sublist (removed.map StoredSample.messageInfo) ∧
    removed.length = taken.length + s.droppedSamples
  count : s.acceptedSamples = accepted.length
  reception : accepted.Pairwise fun a b => a.receptionSequenceNumber < b.receptionSequenceNumber
  next : ∀ a ∈ accepted, a.receptionSequenceNumber < s.nextReceptionSequence
  increasing : accepted.Pairwise fun a b =>
    a.publisherGid = b.publisherGid → a.publicationSequenceNumber < b.publicationSequenceNumber
  last : ∀ a ∈ accepted, ∃ i, s.findWriter a.publisherGid = some i ∧
    a.publicationSequenceNumber ≤ (s.writers i).lastSequence

/-- The samples of the queue, and a removed one, when a sample is accepted. -/
theorem QueueInv.order_accepted (h : QueueInv s accepted taken) (sample : StoredSample) (i : Fin 16)
    (isNew : Bool) : ∃ removed, accepted ++ [sample] = removed ++ (s.commit sample i isNew).queue ∧
      taken.Sublist (removed.map StoredSample.messageInfo) ∧
      removed.length = taken.length + (s.commit sample i isNew).droppedSamples := by
  obtain ⟨removed, horder, hsublist, hlength⟩ := h.order
  have hdropped : (s.commit sample i isNew).droppedSamples =
      if s.historySize = D then s.droppedSamples + 1 else s.droppedSamples := by
    unfold Subscription.commit
    simp only [decide_eq_true_eq]
  rw [s.commit_queue, hdropped, horder]
  by_cases hfull : s.historySize = D
  · -- the oldest sample leaves a full queue
    have hne : s.queue ≠ [] := by
      intro hnil
      have hsize := s.queue_length
      rw [hnil, hfull] at hsize
      exact NeZero.ne D hsize.symm
    obtain ⟨oldest, rest, hqueue⟩ := List.exists_cons_of_ne_nil hne
    refine ⟨removed ++ [oldest], ?_, ?_, ?_⟩
    · rw [if_pos hfull, hqueue, List.tail_cons]
      simp only [List.append_assoc, List.cons_append, List.nil_append]
    · rw [List.map_append]
      exact hsublist.trans (List.sublist_append_left _ _)
    · rw [if_pos hfull, List.length_append, List.length_singleton, hlength, Nat.add_assoc]
  · refine ⟨removed, ?_, hsublist, ?_⟩
    · rw [if_neg hfull, List.append_assoc]
    · rw [if_neg hfull, hlength]

section Accepted

variable {sample : StoredSample} {i : Fin 16}
  (hwriter : s.findWriter sample.publisherGid = some i ∧
      (s.writers i).lastSequence < sample.publicationSequenceNumber ∨
    s.findWriter sample.publisherGid = none ∧ s.freeWriter = some i)

include hwriter

/-- The number of an accepted sample is above all that were accepted from its writer. -/
theorem QueueInv.number_lt (h : QueueInv s accepted taken) :
    ∀ a ∈ accepted, a.publisherGid = sample.publisherGid →
      a.publicationSequenceNumber < sample.publicationSequenceNumber := by
  intro a ha hgid
  obtain ⟨j, hfound, hlast⟩ := h.last a ha
  rw [hgid] at hfound
  rcases hwriter with ⟨hi, hlt⟩ | ⟨hnone, -⟩
  · obtain rfl := Option.some.inj (hfound.symm.trans hi)
    exact lt_of_le_of_lt hlast hlt
  · rw [hnone] at hfound
    cases hfound

/-- The writer table after an acceptance. -/
theorem QueueInv.last_accepted (h : QueueInv s accepted taken) (isNew : Bool) :
    ∀ a ∈ accepted ++ [sample], ∃ j, (s.commit sample i isNew).findWriter a.publisherGid = some j ∧
      a.publicationSequenceNumber ≤ ((s.commit sample i isNew).writers j).lastSequence := by
  have hself : (s.commit sample i isNew).findWriter sample.publisherGid = some i :=
    Subscription.findWriter_commit isNew (hwriter.imp And.left And.left)
  have hlastOf : ((s.commit sample i isNew).writers i).lastSequence = sample.publicationSequenceNumber := by
    rw [Subscription.commit_writers, Function.update_self]
  intro a ha
  rcases List.mem_append.1 ha with ha | ha
  · by_cases hgid : a.publisherGid = sample.publisherGid
    · refine ⟨i, hgid ▸ hself, ?_⟩
      rw [hlastOf]
      exact (h.number_lt hwriter a ha hgid).le
    · obtain ⟨j, hfound, hlast⟩ := h.last a ha
      obtain ⟨hfind, hkept⟩ := Subscription.findWriter_commit_of_ne
        (hwriter.imp And.left And.right) fun heq => hgid heq.symm
      exact ⟨j, hfind.trans hfound, by rw [hkept j hfound]; exact hlast⟩
  · rw [List.mem_singleton.1 ha]
    exact ⟨i, hself, hlastOf.ge⟩

end Accepted

/-- **Every call keeps the invariant.** -/
theorem QueueEffect.inv {sample : Option StoredSample} {infos : List MessageInfo}
    (heffect : QueueEffect s s' sample infos) (h : QueueInv s accepted taken) :
    QueueInv s' (accepted ++ sample.toList) (taken ++ infos) := by
  cases heffect with
  | kept =>
    rw [Option.toList_none, List.append_nil, List.append_nil]
    exact h
  | shutDown =>
    rw [Option.toList_none, List.append_nil, List.append_nil]
    exact ⟨h.order, h.count, h.reception, h.next, h.increasing, h.last⟩
  | @accepted sample i isNew hreception hwriter =>
    -- the sample is the last one received, and the last one of its writer
    have hbelow : ∀ a ∈ accepted, ∀ b ∈ [sample],
        a.receptionSequenceNumber < b.receptionSequenceNumber := by
      intro a ha b hb
      rw [List.mem_singleton.1 hb, hreception]
      exact h.next a ha
    have hnumbers : ∀ a ∈ accepted, ∀ b ∈ [sample], a.publisherGid = b.publisherGid →
        a.publicationSequenceNumber < b.publicationSequenceNumber := by
      intro a ha b hb
      rw [List.mem_singleton.1 hb]
      exact h.number_lt hwriter a ha
    rw [Option.toList_some, List.append_nil]
    refine ⟨h.order_accepted sample i isNew, ?_, ?_, fun a ha => ?_, ?_, h.last_accepted hwriter isNew⟩
    · rw [List.length_append, List.length_singleton, ← h.count]
      rfl
    · exact List.pairwise_append.2 ⟨h.reception, List.pairwise_singleton _ _, hbelow⟩
    · change a.receptionSequenceNumber < s.nextReceptionSequence + 1
      rcases List.mem_append.1 ha with ha | ha
      · exact (h.next a ha).trans (Nat.lt_succ_self _)
      · rw [List.mem_singleton.1 ha, hreception]
        exact Nat.lt_succ_self _
    · exact List.pairwise_append.2 ⟨h.increasing, List.pairwise_singleton _ _, hnumbers⟩
  | @taken n hn =>
    rw [Option.toList_none, List.append_nil]
    refine ⟨?_, h.count, h.reception, h.next, h.increasing, h.last⟩
    obtain ⟨removed, horder, hsublist, hlength⟩ := h.order
    refine ⟨removed ++ s.queue.take n, ?_, ?_, ?_⟩
    · rw [horder, s.dropMany_queue, List.append_assoc, List.take_append_drop]
    · rw [List.map_append]
      exact hsublist.append (List.Sublist.refl _)
    · have hdropped : (s.dropMany n).droppedSamples = s.droppedSamples := rfl
      rw [List.length_append, List.length_append, List.length_map, List.length_take, s.queue_length,
        Nat.min_eq_left hn, hlength, hdropped]
      omega

theorem queueInv_init (guidPrefix readerId capacity ignoreLocal) :
    QueueInv (Subscription.init guidPrefix readerId capacity ignoreLocal : Subscription D) [] [] :=
  ⟨⟨[], rfl, List.Sublist.slnil, rfl⟩, rfl, .nil, fun _ ha => absurd ha List.not_mem_nil, .nil,
    fun _ ha => absurd ha List.not_mem_nil⟩

/-- **It holds after every run.** -/
theorem Endpoint.topicRun_inv (e : Endpoint language) (h : QueueInv s [] []) (calls : List (TopicCall language)) :
    QueueInv (e.topicRun s calls).1 (acceptedLog (e.topicRun s calls).2) (takenLog (e.topicRun s calls).2) := by
  refine collect_history (P := fun trace (s : Subscription D) =>
    QueueInv s (acceptedLog trace) (takenLog trace)) (fun trace s call hinv => ?_) h calls
  have hstep := (e.topicCall_effect s call).inv hinv
  have haccepted : acceptedLog (trace ++ [(call, (e.topicCall s call).1)]) =
      acceptedLog trace ++ (acceptedSample (call, (e.topicCall s call).1)).toList :=
    filterMap_snoc acceptedSample trace _
  have htaken : takenLog (trace ++ [(call, (e.topicCall s call).1)]) =
      takenLog trace ++ takenInfos (call, (e.topicCall s call).1) := by
    unfold takenLog
    rw [List.flatMap_append, List.flatMap_singleton]
  rw [haccepted, htaken]
  exact hstep

end Invariant

section Calls

variable {language : TypeSupportLanguage} {D : ℕ} [NeZero D]

/-- An accepted datagram is appended, and a full queue drops exactly its oldest sample; another datagram
changes nothing. -/
theorem Subscription.Outcome.appends {s : Subscription D} {packet : Span} {source received : ℕ}
    {out : Except SubscriptionReceiveError SubscriptionReceiveResult × Subscription D}
    (h : Subscription.Outcome s packet source received out) :
    (∀ n k d, out.1 = .ok (.accepted n k d) → ∃ sample, sampleOf packet source received k = some sample ∧
      sample.publicationSequenceNumber = n ∧ d = decide (s.historySize = D) ∧
      out.2.queue = (if d then s.queue.tail else s.queue) ++ [sample] ∧
      out.2.droppedSamples = s.droppedSamples + if d then 1 else 0) ∧
      ((∀ n k d, out.1 ≠ .ok (.accepted n k d)) → out.2 = s) := by
  cases h with
  | refused hno _ =>
    refine ⟨fun n k d hok => ?_, fun _ => rfl⟩
    dsimp only at hok
    subst hok
    cases hno
  | @accepted v i isNew _ hparse _ =>
    refine ⟨fun n k d hok => ?_, fun hno => absurd rfl (hno _ _ _)⟩
    cases hok
    refine ⟨s.storedAt v source received, ?_, rfl, rfl, ?_, ?_⟩
    · unfold sampleOf
      rw [hparse]
      rfl
    · rw [s.commit_queue]
      simp only [decide_eq_true_eq]
    · unfold Subscription.commit
      simp only [decide_eq_true_eq]
      split
      · rfl
      · rfl

/-- **The queue of a subscription is a bounded FIFO without duplicates.** After every run of calls the
queue holds at most `D` samples in strictly increasing order of reception. What was accepted is what left
followed by the queue, what was taken is part of what left in the same order, and the counters add up. The
numbers accepted from each writer increase. An accepted datagram is appended and a full queue drops exactly
its oldest sample; which datagrams are accepted is said by `Acceptable`. A take returns the oldest samples
as they were received, whenever there are any and they decode (`TookOne` for a single take); and a datagram
that is not accepted and a take that fails change nothing. -/
theorem subscription_queue_fifo (e : Endpoint language) (participantPrefix : GuidPrefix)
    (readerId : EntityId) (serializedCapacity : ℕ) (ignoreLocalPublications : Bool)
    (calls : List (TopicCall language)) :
    let r : Subscription D × _ := e.topicRun
      (.init participantPrefix readerId serializedCapacity ignoreLocalPublications) calls
    r.1.queue.length ≤ D ∧
      (r.1.queue.Pairwise fun a b => a.receptionSequenceNumber < b.receptionSequenceNumber) ∧
      r.1.acceptedSamples = (acceptedLog r.2).length ∧
      r.1.acceptedSamples = (takenLog r.2).length + r.1.droppedSamples + r.1.queue.length ∧
      (∃ removed, acceptedLog r.2 = removed ++ r.1.queue ∧
        (takenLog r.2).Sublist (removed.map StoredSample.messageInfo)) ∧
      ((acceptedLog r.2).Pairwise fun a b => a.publisherGid = b.publisherGid →
        a.publicationSequenceNumber < b.publicationSequenceNumber) ∧
      (∀ packet source received,
        ((∃ n k d, (r.1.receiveDataMessage packet source received).1 = .ok (.accepted n k d)) ↔
          ∃ v, parseDataMessage packet = .ok v ∧ r.1.Acceptable v source received) ∧
        (∀ n k d, (r.1.receiveDataMessage packet source received).1 = .ok (.accepted n k d) →
          ∃ sample, sampleOf packet source received k = some sample ∧
            sample.publicationSequenceNumber = n ∧ d = decide (r.1.historySize = D) ∧
            (r.1.receiveDataMessage packet source received).2.queue =
              (if d then r.1.queue.tail else r.1.queue) ++ [sample] ∧
            (r.1.receiveDataMessage packet source received).2.droppedSamples =
              r.1.droppedSamples + if d then 1 else 0) ∧
          ((∀ n k d, (r.1.receiveDataMessage packet source received).1 ≠ .ok (.accepted n k d)) →
            (r.1.receiveDataMessage packet source received).2 = r.1)) ∧
      (∀ message, e.TookOne r.1 message (e.takeOne r.1 message)) ∧
      ∀ args, (∀ messages infos pointers entries dests,
          Endpoint.BatchCall args messages infos pointers entries → r.1.shutdown = false →
          (∀ k < min args.count r.1.historySize, pointers k = some (dests k) ∧ e.Decodes r.1 dests k) →
          (e.takeSequence r.1 args).1 = .ok (min args.count r.1.historySize)) ∧
        (∀ n, (e.takeSequence r.1 args).1 = .ok n →
          n = min args.count r.1.historySize ∧
          (e.takeSequence r.1 args).2.1.queue = r.1.queue.drop n ∧
          ∀ k < n, ∃ sample messages messages' infos', r.1.queue[k]? = some sample ∧
            args.messages.bind (·.data) = some messages ∧
            (e.takeSequence r.1 args).2.2.1.bind (·.data) = some messages' ∧
            (e.takeSequence r.1 args).2.2.2.bind (·.data) = some infos' ∧
            ∃ message message', messages k = some message ∧ messages' k = some message' ∧
              e.Returned sample message (infos' k) message') ∧
        ∀ error, (e.takeSequence r.1 args).1 = .error error → (e.takeSequence r.1 args).2.1 = r.1 := by
  intro r
  have hinv : QueueInv r.1 (acceptedLog r.2) (takenLog r.2) :=
    e.topicRun_inv (queueInv_init _ _ _ _) calls
  obtain ⟨removed, horder, hsublist, hlength⟩ := hinv.order
  have hreception := hinv.reception
  rw [horder] at hreception
  refine ⟨?_, (List.pairwise_append.1 hreception).2.1, hinv.count, ?_, ⟨removed, horder, hsublist⟩,
    hinv.increasing, fun packet source received => ⟨Subscription.receive_accepts_iff,
      (r.1.receive_outcome packet source received).appends⟩, e.takeOne_took r.1, fun args => ⟨?_, ?_⟩⟩
  · rw [r.1.queue_length]
    exact r.1.size_le
  · rw [hinv.count, horder, List.length_append, hlength]
  · intro messages infos pointers entries dests hcall hactive hdests
    have hloop : (e.takeLoop r.1 (min args.count r.1.historySize) 0 ⟨pointers, entries⟩).1 = none := by
      rw [Endpoint.takeLoop_decoded fun k _ hk => hdests k (by omega)]
    rw [hcall.takeSequence_eq, hactive, if_neg Bool.false_ne_true]
    split
    next hnone => rw [hnone]
    · dsimp only
      rw [hloop]
      rfl
  · have htook := e.takeSequence_took r.1 args
    generalize e.takeSequence r.1 args = out at htook ⊢
    cases htook with
    | refused => exact ⟨fun n h => (by cases h), fun _ _ => rfl⟩
    | empty hempty =>
      refine ⟨fun n h => ?_, fun _ h => (by cases h)⟩
      cases h
      exact ⟨hempty.symm, List.drop_zero.symm, fun k hk => absurd hk (Nat.not_lt_zero k)⟩
    | taken hn hpointers hreturned =>
      refine ⟨fun n h => ?_, fun _ h => (by cases h)⟩
      cases h
      refine ⟨hn, r.1.dropMany_queue _, fun k hk => ?_⟩
      obtain ⟨message, message', hmessages⟩ := hreturned k hk
      exact ⟨_, _, _, _, r.1.queue_getElem? (by omega), hpointers, rfl, rfl, message, message', hmessages⟩

/-- A DATA datagram of a remote writer with a byte. -/
def byteDatagram (sequenceNumber : ℕ) (byte : UInt8) : Span :=
  remoteDatagram sequenceNumber [0, 1, 0, 0, byte]

/-- Two samples are accepted by a subscription of depth one, and the second one overwrites the first. -/
def overwrittenCalls : List (TopicCall .introspectionC) :=
  [.receive (byteDatagram 1 7) 3 4, .receive (byteDatagram 2 8) 5 6]

def overwrittenRun : Subscription 1 × List (TopicCall .introspectionC × TopicReply .introspectionC) :=
  byteTopic.topicRun (.init (.replicate 12 1) (readerId 0) 5 false) overwrittenCalls

/-- The counters add up, the take that follows returns the second sample, and a third datagram would be
accepted. -/
theorem byteTopic_overwrites :
    (acceptedLog overwrittenRun.2).length = 2 ∧ overwrittenRun.1.droppedSamples = 1 ∧
      overwrittenRun.1.acceptedSamples = (takenLog overwrittenRun.2).length +
        overwrittenRun.1.droppedSamples + overwrittenRun.1.queue.length ∧
      (∃ info s', byteTopic.takeOne overwrittenRun.1 (byteMessage 0) = (.ok (some info), s', byteMessage 8) ∧
        info.publicationSequenceNumber = 2 ∧ s'.queue = []) ∧
      ∃ v, parseDataMessage (byteDatagram 3 9) = .ok v ∧ overwrittenRun.1.Acceptable v 7 8 := by
  obtain ⟨-, -, -, hcounters, -, -, hreceive, htake, -⟩ := @subscription_queue_fifo _ 1 _ byteTopic
    (.replicate 12 1) (readerId 0) 5 false overwrittenCalls
  have hqueue : overwrittenRun.1.queue.map (fun a => (a.publicationSequenceNumber, a.payload)) =
      [(2, [0, 1, 0, 0, 8])] := by decide +kernel
  have hactive : overwrittenRun.1.shutdown = false := by decide +kernel
  have hthird : (overwrittenRun.1.receiveDataMessage (byteDatagram 3 9) 7 8).1 = .ok (.accepted 3 3 true) := by
    decide +kernel
  obtain ⟨sample, hsample, hfields⟩ := List.map_eq_singleton_iff.1 hqueue
  obtain ⟨hnumber, hpayload⟩ := Prod.mk.inj hfields
  refine ⟨by decide +kernel, by decide +kernel, hcounters, ?_, (hreceive _ _ _).1.1 ?_⟩
  · have htook : byteTopic.TookOne overwrittenRun.1 (byteMessage 0)
        (byteTopic.takeOne overwrittenRun.1 (byteMessage 0)) := htake (byteMessage 0)
    generalize byteTopic.takeOne overwrittenRun.1 (byteMessage 0) = out at htook ⊢
    generalize overwrittenRun.1 = s at hsample hactive htook
    -- the context is active, the queue holds one sample, and its payload decodes
    cases htook with
    | shutDown h => cases hactive.symm.trans h
    | empty _ h => cases hsample.symm.trans h
    | failed _ h hdecode =>
      cases hsample.symm.trans h
      rw [hpayload] at hdecode
      cases hdecode
    | taken _ h hdecode hrest =>
      cases hsample.symm.trans h
      rw [hpayload] at hdecode
      cases hdecode
      exact ⟨_, _, rfl, hnumber, hrest⟩
  · exact ⟨_, _, _, hthird⟩

end Calls

end OpenRtdds
