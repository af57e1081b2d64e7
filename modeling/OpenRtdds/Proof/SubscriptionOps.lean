import OpenRtdds.Lib.Ring
import OpenRtdds.Spec.Network

/-!
# What a subscription does with a datagram

* `parse_ok`: what a successful parse guarantees.
* `Outcome`, `receive_outcome`: what it does to the state.
* `Acceptable`, `receive_accepts`, `networkReceive_accepts`: the exact condition under which a datagram is
  accepted.
* `receive_commits`, `commit_queue`: an accepted sample is the last one of the history.
* `findWriter_commit`: the writer table after an acceptance.
-/

namespace OpenRtdds

open Lib

theorem parse_ok {m : Span} {v : DataMessageView} (h : parseDataMessage m = .ok v) :
    m.isNull = false ∧ m.size ≠ 0 ∧ v.payload.length ≠ 0 ∧ v.sequenceNumber ≠ 0 := by
  unfold parseDataMessage at h
  cases hf : findSubmessage m submessageIdData 0 with
  | error e => rw [hf] at h; cases h
  | ok routed =>
    have hlen : 20 ≤ m.data.length := by
      unfold findSubmessage at hf
      dsimp only at hf
      obtain ⟨-, hf⟩ := ite_error_ok hf
      exact Nat.le_of_not_lt (ite_error_ok hf).1
    have hbytes : m.isNull = false ∧ m.size ≠ 0 := by
      cases m with
      | null n => simp [Span.data] at hlen
      | bytes d =>
        simp only [Span.data] at hlen
        exact ⟨rfl, by simp only [Span.size]; omega⟩
    rw [hf] at h
    dsimp only at h
    -- flags, sizes and extra flags, then the place of the payload and the sequence number
    obtain ⟨-, h⟩ := ite_error_ok h
    obtain ⟨-, h⟩ := ite_error_ok h
    obtain ⟨-, h⟩ := ite_error_ok h
    obtain ⟨-, h⟩ := ite_error_ok h
    obtain ⟨-, h⟩ := ite_error_ok h
    obtain ⟨hplace, h⟩ := ite_error_ok h
    obtain ⟨-, h⟩ := ite_error_ok h
    obtain ⟨hnumber, h⟩ := ite_error_ok h
    obtain ⟨-, h⟩ := ite_error_ok h
    cases h
    refine ⟨hbytes.1, hbytes.2, ?_, hnumber⟩
    rw [List.length_drop]
    omega

namespace Subscription

variable {D : ℕ}

/-- The datagram is addressed to this reader: by INFO_DST and by its reader id. -/
def Addressed (s : Subscription D) (v : DataMessageView) : Prop :=
  (v.context.hasDestination = true → v.context.destination = s.participantPrefix) ∧
    (v.readerId = unknownReader ∨ v.readerId = s.readerId)

/-- The writer table has a state for the writer of a message, or room for one. -/
def HasRoom (s : Subscription D) (guid : Gid) : Prop := s.findWriter guid ≠ none ∨ s.freeWriter ≠ none

/-- What discovery guarantees of a remote writer: its participant has a nonzero prefix that
is not the local one, and its id is a user writer's. -/
structure Discovered (s : Subscription D) (guidPrefix : GuidPrefix) (writerId : EntityId) : Prop where
  nonzero : nonzeroPrefix guidPrefix = true
  foreign : guidPrefix ≠ s.participantPrefix
  user : validWriterId writerId = true

variable [NeZero D]

theorem commit_ring (s : Subscription D) (sample : StoredSample) (i : Fin 16) (isNew : Bool) :
    (s.commit sample i isNew).queue =
      if s.historySize = D then
        contents (Function.update s.history (wrap s.historyHead) sample) ((s.historyHead + 1) % D)
          s.historySize
      else
        contents (Function.update s.history (wrap (s.historyHead + s.historySize)) sample)
          s.historyHead (s.historySize + 1) := by
  have hring : (s.commit sample i isNew).queue =
      contents
        (Function.update s.history (if decide (s.historySize = D) then wrap s.historyHead
          else wrap (s.historyHead + s.historySize)) sample)
        (if decide (s.historySize = D) then (s.historyHead + 1) % D else s.historyHead)
        (if decide (s.historySize = D) then s.historySize else s.historySize + 1) := rfl
  rw [hring]
  by_cases hfull : s.historySize = D
  · rw [decide_eq_true hfull, if_pos hfull]
    rfl
  · rw [decide_eq_false hfull, if_neg hfull]
    rfl

theorem commit_writers (s : Subscription D) (sample : StoredSample) (i : Fin 16) (isNew : Bool) :
    (s.commit sample i isNew).writers = Function.update s.writers i
      { guid := sample.publisherGid
        lastSequence := sample.publicationSequenceNumber
        occupied := true } := rfl

/-- An accepted sample is appended to the history, which loses its oldest sample if it is full. -/
theorem commit_queue (s : Subscription D) (sample : StoredSample) (i : Fin 16) (isNew : Bool) :
    (s.commit sample i isNew).queue =
      (if s.historySize = D then s.queue.tail else s.queue) ++ [sample] := by
  have hq : s.queue = contents s.history s.historyHead s.historySize := rfl
  rw [commit_ring, hq]
  by_cases hfull : s.historySize = D
  · rw [if_pos hfull, if_pos hfull, hfull]
    exact contents_overwrite s.history s.historyHead sample
  · have hlt : s.historySize < D := lt_of_le_of_ne s.size_le hfull
    rw [if_neg hfull, if_neg hfull]
    exact contents_push s.history s.historyHead hlt sample

theorem queue_head {s : Subscription D} {sample : StoredSample} {rest : List StoredSample}
    (h : s.queue = sample :: rest) :
    s.historySize ≠ 0 ∧ s.history (wrap s.historyHead) = sample := by
  have hq : contents s.history s.historyHead s.historySize = sample :: rest := h
  have hsize : s.historySize ≠ 0 := by
    rw [← contents_length s.history s.historyHead s.historySize, hq]
    exact Nat.succ_ne_zero _
  obtain ⟨k, hk⟩ := Nat.exists_eq_succ_of_ne_zero hsize
  rw [hk, Nat.succ_eq_add_one, contents_cons, List.cons.injEq] at hq
  exact ⟨hsize, hq.1⟩

theorem queue_length (s : Subscription D) : s.queue.length = s.historySize :=
  contents_length s.history s.historyHead s.historySize

theorem dropHead_queue {s : Subscription D} (h : s.historySize ≠ 0) :
    s.dropHead.queue = s.queue.tail :=
  contents_pop s.history s.historyHead h

/-- Changing one entry so that it satisfies the predicate, where no earlier one did. -/
theorem find?_change {ι : Type*} {p p' : ι → Bool} {l : List ι} {i : ι} (hi : i ∈ l)
    (h : l.find? p = some i ∨ l.find? p = none) (hp : p' i = true) (hrest : ∀ j, j ≠ i → p' j = p j) :
    l.find? p' = some i := by
  induction l with
  | nil => exact absurd hi List.not_mem_nil
  | cons a l ih =>
    by_cases ha : a = i
    · rw [List.find?_cons, ha, hp]
    · have hal : i ∈ l := by
        rcases List.mem_cons.1 hi with h' | h'
        · exact absurd h'.symm ha
        · exact h'
      rw [List.find?_cons, hrest a ha]
      cases hpa : p a with
      | true =>
        rw [List.find?_cons, hpa] at h
        rcases h with h | h
        · exact absurd (Option.some.inj h) ha
        · cases h
      | false =>
        rw [List.find?_cons, hpa] at h
        exact ih hal h

theorem findWriter_commit {s : Subscription D} {sample : StoredSample} {i : Fin 16} (isNew : Bool)
    (h : s.findWriter sample.publisherGid = some i ∨ s.findWriter sample.publisherGid = none) :
    (s.commit sample i isNew).findWriter sample.publisherGid = some i := by
  refine find?_change (List.mem_finRange i) h ?_ ?_
  · rw [commit_writers, Function.update_self]
    simp
  · intro j hj
    rw [commit_writers, Function.update_of_ne hj]

/-- The stored form of a message that `receive_data_message` accepts. -/
def storedAt (s : Subscription D) (v : DataMessageView) (source received : ℕ) : StoredSample where
  publisherGid := makeGid v.guidPrefix v.writerId
  publicationSequenceNumber := v.sequenceNumber
  receptionSequenceNumber := s.nextReceptionSequence
  sourceTimestampNs := if source = 0 then rtpsTimestampNs v else source
  receivedTimestampNs := received
  payload := v.payload

/-- The stored form of a message that `subscription_network_receive` accepts. -/
def stored (s : Subscription D) (v : DataMessageView) (ts : ℕ) : StoredSample :=
  { s.storedAt v ts ts with sourceTimestampNs := ts }

omit [NeZero D] in
theorem storedAt_self (s : Subscription D) (v : DataMessageView) {ts : ℕ} (h : 0 < ts) :
    s.storedAt v ts ts = s.stored v ts := by
  simp only [stored, storedAt, if_neg h.ne']

/-- **What `receive_data_message` can do with a datagram**: refuse it and change nothing, as a duplicate
only if the writer has that number behind it; or commit its sample for a known writer with a higher number,
or for a new writer in the first free state. -/
inductive Outcome (s : Subscription D) (packet : Span) (source received : ℕ) :
    Except SubscriptionReceiveError SubscriptionReceiveResult × Subscription D → Prop
  | refused {e} (h : acceptedNumber? (some e) = none)
      (hduplicate : ∀ n, e = .ok (.duplicateOrStale n) → ∃ v i, parseDataMessage packet = .ok v ∧
        s.findWriter (makeGid v.guidPrefix v.writerId) = some i ∧
        v.sequenceNumber ≤ (s.writers i).lastSequence) : Outcome s packet source received (e, s)
  | accepted {v i} (isNew : Bool) (htime : 0 < received) (hparse : parseDataMessage packet = .ok v)
      (h : s.findWriter (makeGid v.guidPrefix v.writerId) = some i ∧
          (s.writers i).lastSequence < v.sequenceNumber ∨
        s.findWriter (makeGid v.guidPrefix v.writerId) = none ∧ s.freeWriter = some i) :
      Outcome s packet source received
        (.ok (.accepted v.sequenceNumber s.nextReceptionSequence (decide (s.historySize = D))),
          s.commit (s.storedAt v source received) i isNew)

theorem receive_outcome (s : Subscription D) (packet : Span) (source received : ℕ) :
    Outcome s packet source received (s.receiveDataMessage packet source received) := by
  unfold receiveDataMessage
  refine iteInduction (fun _ => .refused rfl nofun) fun _ => ?_
  refine iteInduction (fun _ => .refused rfl nofun) fun _ => ?_
  refine iteInduction (fun _ => .refused rfl nofun) fun hts => ?_
  have htime : 0 < received := by omega
  cases hparse : parseDataMessage packet with
  | error e => exact .refused rfl nofun
  | ok v =>
    simp only
    refine iteInduction (fun _ => .refused rfl nofun) fun _ => ?_
    refine iteInduction (fun _ => .refused rfl nofun) fun _ => ?_
    refine iteInduction (fun _ => .refused rfl nofun) fun _ => ?_
    refine iteInduction (fun _ => .refused rfl nofun) fun _ => ?_
    refine iteInduction (fun _ => .refused rfl nofun) fun _ => ?_
    -- the writer table decides between a known writer, a new one and none
    cases hw : s.findWriter (makeGid v.guidPrefix v.writerId) with
    | some i =>
      refine iteInduction (fun hle => .refused rfl fun _ _ => ⟨v, i, hparse, hw, hle⟩) fun hlast => ?_
      refine iteInduction (fun _ => .refused rfl nofun) fun _ => ?_
      exact .accepted false htime hparse (.inl ⟨hw, by omega⟩)
    | none =>
      cases hfree : s.freeWriter with
      | none => exact .refused rfl nofun
      | some i =>
        refine iteInduction (fun _ => .refused rfl nofun) fun _ => ?_
        exact .accepted true htime hparse (.inr ⟨hw, hfree⟩)

theorem networkReceive_outcome (s : Subscription D) (packet : Span) (ts : ℕ) :
    Outcome s packet ts ts (s.networkReceive packet ts) :=
  s.receive_outcome packet ts ts

/-- The call accepts the number `n`. -/
def Accepts (n : ℕ) (out : Except SubscriptionReceiveError SubscriptionReceiveResult × Subscription D) :
    Prop := ∃ k d, out.1 = .ok (.accepted n k d)

omit [NeZero D] in
theorem not_accepts {n : ℕ} {e : Except SubscriptionReceiveError SubscriptionReceiveResult}
    {t : Subscription D} (h : acceptedNumber? (some e) = none) : ¬ Accepts n (e, t) := by
  rintro ⟨k, d, he⟩
  dsimp only at he
  subst he
  cases h

omit [NeZero D] in
/-- A check that refuses is one more condition. -/
theorem accepts_ite {n : ℕ} {c : Prop} [Decidable c]
    {e : Except SubscriptionReceiveError SubscriptionReceiveResult} {t : Subscription D}
    {out : Except SubscriptionReceiveError SubscriptionReceiveResult × Subscription D}
    (h : acceptedNumber? (some e) = none) :
    Accepts n (if c then (e, t) else out) ↔ ¬ c ∧ Accepts n out := by
  by_cases hc : c
  · rw [if_pos hc]
    exact iff_of_false (not_accepts h) fun h' => h'.1 hc
  · rw [if_neg hc]
    exact (and_iff_right hc).symm

omit [NeZero D] in
theorem addressed_iff {s : Subscription D} {v : DataMessageView} :
    s.Addressed v ↔ ¬ (v.context.hasDestination && v.context.destination != s.participantPrefix ||
      v.readerId != unknownReader && v.readerId != s.readerId) = true := by
  unfold Addressed
  simp only [Bool.or_eq_true, Bool.and_eq_true, bne_iff_ne, ne_eq]
  tauto

/-- **What a datagram must be like to be accepted.** The subscription is active and the datagram is
addressed to it; it comes from a user writer and is not ignored as local; its payload fits and its
timestamps are representable; its number is above the last one accepted from the writer, or the writer finds
room in the table; and the reception numbers are not exhausted. -/
structure Acceptable (s : Subscription D) (v : DataMessageView) (source received : ℕ) : Prop where
  active : s.shutdown = false
  addressed : s.Addressed v
  nonzero : nonzeroPrefix v.guidPrefix = true
  user : validWriterId v.writerId = true
  remote : s.ignoreLocalPublications = true → v.guidPrefix ≠ s.participantPrefix
  fits : v.payload.length ≤ s.serializedCapacity
  times : 0 < received ∧ received ≤ int64Max ∧ source ≤ int64Max ∧
    (if source = 0 then rtpsTimestampNs v else source) ≤ int64Max
  newer : ∀ i, s.findWriter (makeGid v.guidPrefix v.writerId) = some i →
    (s.writers i).lastSequence < v.sequenceNumber
  room : s.HasRoom (makeGid v.guidPrefix v.writerId)
  reception : s.nextReceptionSequence ≠ uint64Max

/-- **When a datagram is accepted.** -/
theorem receive_accepts {s : Subscription D} {packet : Span} {v : DataMessageView} {source received : ℕ}
    (hparse : parseDataMessage packet = .ok v) :
    (∃ n d, (s.receiveDataMessage packet source received).1 = .ok (.accepted v.sequenceNumber n d)) ↔
      s.Acceptable v source received := by
  obtain ⟨hnull, hsize, hpay, -⟩ := parse_ok hparse
  have hbytes : ¬ (packet.isNull || packet.size == 0) = true := by simp [hnull, hsize]
  have hactive : ¬ s.shutdown = true ↔ s.shutdown = false := Bool.not_eq_true _ ▸ Iff.rfl
  have hwriter : ¬ (!nonzeroPrefix v.guidPrefix || !validWriterId v.writerId) = true ↔
      nonzeroPrefix v.guidPrefix = true ∧ validWriterId v.writerId = true := by
    simp
  have hforeign : ¬ (s.ignoreLocalPublications && v.guidPrefix == s.participantPrefix) = true ↔
      (s.ignoreLocalPublications = true → v.guidPrefix ≠ s.participantPrefix) := by
    simp
  have hlength : ¬ (v.payload.length = 0 ∨ v.payload.length > s.serializedCapacity) ↔
      v.payload.length ≤ s.serializedCapacity := by omega
  change Accepts v.sequenceNumber _ ↔ _
  unfold receiveDataMessage
  rw [accepts_ite rfl, accepts_ite rfl, accepts_ite rfl, hparse]
  dsimp only
  rw [accepts_ite rfl, accepts_ite rfl, accepts_ite rfl, accepts_ite rfl, accepts_ite rfl,
    ← addressed_iff, and_iff_right hbytes, hactive, hwriter, hlength, hforeign]
  -- what remains is decided by the writer table
  cases hw : s.findWriter (makeGid v.guidPrefix v.writerId) with
  | some i =>
    dsimp only
    rw [accepts_ite rfl, accepts_ite rfl]
    constructor
    · rintro ⟨ha, ht, hto, ⟨hn, hu⟩, hf, hr, hl, hlast, hnext, -⟩
      refine ⟨ha, hto, hn, hu, hl, hf, by omega, ?_, .inl (hw ▸ Option.some_ne_none i), hnext⟩
      rw [hw]
      rintro _ ⟨⟩
      exact Nat.lt_of_not_le hlast
    · rintro ⟨ha, hto, hn, hu, hl, hf, ht, hlast, -, hnext⟩
      exact ⟨ha, by omega, hto, ⟨hn, hu⟩, hf, by omega, hl, Nat.not_le_of_lt (hlast i hw), hnext, _, _, rfl⟩
  | none =>
    cases hfree : s.freeWriter with
    | none =>
      refine iff_of_false (fun h => not_accepts rfl h.2.2.2.2.2.2.2) fun h => ?_
      exact h.room.elim (fun hfound => hfound hw) fun hroom => hroom hfree
    | some i =>
      dsimp only
      rw [accepts_ite rfl]
      constructor
      · rintro ⟨ha, ht, hto, ⟨hn, hu⟩, hf, hr, hl, hnext, -⟩
        refine ⟨ha, hto, hn, hu, hl, hf, by omega, ?_, .inr (hfree ▸ Option.some_ne_none i), hnext⟩
        rw [hw]
        exact nofun
      · rintro ⟨ha, hto, hn, hu, hl, hf, ht, -, -, hnext⟩
        exact ⟨ha, by omega, hto, ⟨hn, hu⟩, hf, by omega, hl, hnext, _, _, rfl⟩

theorem receive_accepts_iff {s : Subscription D} {packet : Span} {source received : ℕ} :
    (∃ n k d, (s.receiveDataMessage packet source received).1 = .ok (.accepted n k d)) ↔
      ∃ v, parseDataMessage packet = .ok v ∧ s.Acceptable v source received := by
  constructor
  · rintro ⟨n, k, d, hok⟩
    have houtcome := s.receive_outcome packet source received
    generalize hout : s.receiveDataMessage packet source received = out at houtcome hok
    cases houtcome with
    | refused hno _ => exact absurd ⟨k, d, hok⟩ (not_accepts hno)
    | @accepted v i isNew htime hparse h =>
      exact ⟨v, hparse, (receive_accepts hparse).1 ⟨_, _, congrArg Prod.fst hout⟩⟩
  · rintro ⟨v, hparse, h⟩
    exact ⟨_, (receive_accepts hparse).2 h⟩

/-- A datagram that is accepted is committed under its number. -/
theorem receive_commits {s : Subscription D} {packet : Span} {v : DataMessageView}
    {source received : ℕ} (hparse : parseDataMessage packet = .ok v)
    (h : ∃ n d, (s.receiveDataMessage packet source received).1 =
      .ok (.accepted v.sequenceNumber n d)) :
    ∃ i isNew, s.receiveDataMessage packet source received =
      (.ok (.accepted v.sequenceNumber s.nextReceptionSequence (decide (s.historySize = D))),
        s.commit (s.storedAt v source received) i isNew) := by
  obtain ⟨n, d, hok⟩ := h
  have houtcome := s.receive_outcome packet source received
  generalize s.receiveDataMessage packet source received = out at houtcome hok ⊢
  cases houtcome with
  | refused hno _ =>
    simp only at hok
    subst hok
    cases hno
  | @accepted v' i isNew _ hparse' _ =>
    cases hparse'.symm.trans hparse
    exact ⟨i, isNew, rfl⟩

/-- **When ingress accepts.** For a datagram of a discovered writer that fits and finds room
in the writer table, `subscription_network_receive` accepts exactly if the datagram is
addressed to the reader, its receive time is representable, its number is above the last
one accepted from the writer, and the reception numbers are not exhausted. -/
theorem networkReceive_accepts {s : Subscription D} {packet : Span} {v : DataMessageView} (ts : ℕ)
    (hparse : parseDataMessage packet = .ok v) (hs : s.shutdown = false)
    (hd : s.Discovered v.guidPrefix v.writerId) (hfit : v.payload.length ≤ s.serializedCapacity)
    (hroom : s.HasRoom (makeGid v.guidPrefix v.writerId)) :
    (∃ n d, (s.networkReceive packet ts).1 = .ok (.accepted v.sequenceNumber n d)) ↔
      s.Addressed v ∧ (0 < ts ∧ ts ≤ int64Max) ∧
      (∀ i, s.findWriter (makeGid v.guidPrefix v.writerId) = some i →
        (s.writers i).lastSequence < v.sequenceNumber) ∧
      s.nextReceptionSequence ≠ uint64Max := by
  refine (receive_accepts hparse).trans ⟨fun h => ?_, fun ⟨hto, ht, hlast, hnext⟩ => ?_⟩
  · exact ⟨h.addressed, ⟨h.times.1, h.times.2.1⟩, h.newer, h.reception⟩
  · refine ⟨hs, hto, hd.nonzero, hd.user, fun _ => hd.foreign, hfit, ⟨ht.1, ht.2, ht.2, ?_⟩, hlast, hroom, hnext⟩
    rw [if_neg ht.1.ne']
    exact ht.2

end Subscription

end OpenRtdds
