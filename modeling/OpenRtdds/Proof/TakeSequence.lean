import OpenRtdds.Proof.SubscriptionOps
import OpenRtdds.Spec.TakeSequence

/-!
# A batch take is a sequence of single takes

`rmw_take_sequence` looks at the samples through offsets from the head and moves the head once;
`take_one` removes its sample and looks at the new head.

* `sampleAt`: the sample at an offset from the head. `afterTakes_head`: after so many takes it is the head.
* `takeLoop_decoded`, `takeLoop_failed`: the loop of the batch, if every sample decodes and if one does not.
* `TookOne`, `takeOne_took`, `takeOne_codec`: a single take, exactly and in terms of its codec.
  `topicRun_decoded`: single takes one after the other.
* `take_sequence_eq_repeated_take`: both compared.
-/

namespace OpenRtdds

open Lib

namespace Subscription

variable {D : ℕ} [NeZero D] (s : Subscription D)

/-- The sample at an offset from the head. -/
def sampleAt (offset : ℕ) : StoredSample := s.history (wrap (s.historyHead + offset))

theorem queue_getElem? {k : ℕ} (hk : k < s.historySize) : s.queue[k]? = some (s.sampleAt k) :=
  contents_getElem? s.history s.historyHead hk

theorem queue_cons (h : s.historySize ≠ 0) : s.queue = s.sampleAt 0 :: s.queue.tail := by
  refine (List.cons_head?_tail ?_).symm
  rw [List.head?_eq_getElem?]
  exact s.queue_getElem? (Nat.pos_of_ne_zero h)

theorem dropMany_queue (count : ℕ) : (s.dropMany count).queue = s.queue.drop count :=
  contents_popMany s.history s.historyHead s.historySize count

omit [NeZero D] in
theorem dropHead_eq_dropMany : s.dropHead = s.dropMany 1 := rfl

omit [NeZero D] in
theorem dropMany_dropHead (count : ℕ) : (s.dropMany count).dropHead = s.dropMany (count + 1) := by
  have hhead : ((s.historyHead + count) % D + 1) % D = (s.historyHead + (count + 1)) % D := by
    rw [Nat.mod_add_mod, Nat.add_assoc]
  unfold dropHead dropMany
  congr 1

/-- The state after `count` single takes. -/
def afterTakes (count : ℕ) : Subscription D := if count = 0 then s else s.dropMany count

omit [NeZero D] in
theorem afterTakes_dropHead (count : ℕ) : (s.afterTakes count).dropHead = s.afterTakes (count + 1) := by
  unfold afterTakes
  rw [if_neg (Nat.succ_ne_zero count)]
  split
  next hzero => rw [hzero, Nat.zero_add, dropHead_eq_dropMany]
  · exact s.dropMany_dropHead count

omit [NeZero D] in
theorem afterTakes_historySize (count : ℕ) : (s.afterTakes count).historySize = s.historySize - count := by
  unfold afterTakes
  split
  next hzero => rw [hzero, Nat.sub_zero]
  · rfl

omit [NeZero D] in
theorem afterTakes_shutdown (count : ℕ) : (s.afterTakes count).shutdown = s.shutdown := by
  unfold afterTakes
  split
  · rfl
  · rfl

theorem afterTakes_head (count : ℕ) : (s.afterTakes count).sampleAt 0 = s.sampleAt count := by
  unfold afterTakes
  split
  next hzero => rw [hzero]
  · unfold sampleAt dropMany
    dsimp only
    rw [Window.wrap_mod_add, Nat.add_zero]

end Subscription

namespace Endpoint

variable {language : TypeSupportLanguage} {D : ℕ} [NeZero D] {e : Endpoint language} {s : Subscription D}
  {dests : ℕ → Sample language}

/-- The sample at an offset decodes into its destination. -/
def Decodes (e : Endpoint language) (s : Subscription D) (dests : ℕ → Sample language) (k : ℕ) : Prop :=
  ∃ read, (e.decode (s.sampleAt k).payload (dests k)).1 = .ok read

/-- What decoding leaves of the destination at an offset. -/
def decoded (e : Endpoint language) (s : Subscription D) (dests : ℕ → Sample language) (k : ℕ) :
    Sample language :=
  (e.decode (s.sampleAt k).payload (dests k)).2

/-- The arrays with the samples of the offsets from `first` to `last`. -/
def filled (e : Endpoint language) (s : Subscription D) (dests : ℕ → Sample language) (first last : ℕ)
    (batch : Batch language) : Batch language where
  messages k := if first ≤ k ∧ k < last then some (e.decoded s dests k) else batch.messages k
  infos k := if first ≤ k ∧ k < last then (s.sampleAt k).messageInfo else batch.infos k

theorem fill_cons {α : Type} {first last : ℕ} (h : first < last) (g f : ℕ → α) :
    (fun k => if first + 1 ≤ k ∧ k < last then g k else Function.update f first (g first) k) =
      fun k => if first ≤ k ∧ k < last then g k else f k := by
  funext k
  by_cases hk : k = first
  · rw [hk, if_neg (by omega), if_pos ⟨le_rfl, h⟩, Function.update_self]
  · rw [Function.update_of_ne hk]
    exact if_congr (by omega) rfl rfl

theorem filled_cons {first last : ℕ} (h : first < last) (batch : Batch language) :
    e.filled s dests (first + 1) last
      { messages := Function.update batch.messages first (some (e.decoded s dests first))
        infos := Function.update batch.infos first (s.sampleAt first).messageInfo } =
      e.filled s dests first last batch :=
  congrArg₂ Batch.mk (fill_cons h (fun k => some (e.decoded s dests k)) _)
    (fill_cons h (fun k => (s.sampleAt k).messageInfo) _)

/-- **The loop, if every sample decodes.** -/
theorem takeLoop_decoded {remaining : ℕ} : ∀ {offset : ℕ} {batch : Batch language},
    (∀ k, offset ≤ k → k < offset + remaining →
      batch.messages k = some (dests k) ∧ e.Decodes s dests k) →
    e.takeLoop s remaining offset batch = (none, e.filled s dests offset (offset + remaining) batch) := by
  induction remaining with
  | zero =>
    intro offset batch _
    have hnone : ∀ k, ¬ (offset ≤ k ∧ k < offset + 0) := by omega
    unfold takeLoop filled
    simp only [hnone, if_false]
  | succ remaining ih =>
    intro offset batch hbatch
    obtain ⟨hmessage, read, hread⟩ := hbatch offset le_rfl (by omega)
    have hdecode : e.decode (s.history (wrap (s.historyHead + offset))).payload (dests offset) =
        (.ok read, e.decoded s dests offset) := Prod.ext hread rfl
    unfold takeLoop
    rw [hmessage]
    dsimp only
    rw [hdecode]
    dsimp only
    -- the destinations behind this one have not been touched
    rw [ih]
    · have hlast : offset + 1 + remaining = offset + (remaining + 1) := by omega
      rw [hlast]
      exact congrArg (Prod.mk none) (filled_cons (by omega) batch)
    · intro k hk hlt
      obtain ⟨hdest, hdecodes⟩ := hbatch k (by omega) (by omega)
      refine ⟨?_, hdecodes⟩
      dsimp only
      rw [Function.update_of_ne (by omega), hdest]

/-- **The loop, if one sample does not.** -/
theorem takeLoop_failed {remaining : ℕ} : ∀ {offset : ℕ} {batch : Batch language},
    (∀ k, offset ≤ k → k < offset + remaining → batch.messages k = some (dests k)) →
    (∃ k, offset ≤ k ∧ k < offset + remaining ∧ ¬ e.Decodes s dests k) →
    ∃ error batch', e.takeLoop s remaining offset batch = (some error, batch') := by
  induction remaining with
  | zero =>
    rintro offset batch - ⟨k, hk, hlt, -⟩
    omega
  | succ remaining ih =>
    rintro offset batch hbatch ⟨k, hk, hlt, hfails⟩
    have hmessage := hbatch offset le_rfl (by omega)
    unfold takeLoop
    rw [hmessage]
    dsimp only
    split
    next failure message' hdecode => exact ⟨_, _, rfl⟩
    next read message' hdecode =>
      -- this one decodes, so it is one behind it
      have hne : k ≠ offset := by
        rintro rfl
        exact hfails ⟨read, congrArg Prod.fst hdecode⟩
      refine ih (fun j hj hlt => ?_) ⟨k, by omega, by omega, hfails⟩
      dsimp only
      rw [Function.update_of_ne (by omega), hbatch j (by omega) (by omega)]

/-- **What a single take answers.** A context that is shut down refuses it, an empty queue has nothing to
take, and of the oldest sample it depends on whether its payload decodes: then its metadata and the message
are returned and the sample is removed. Every take but the last changes nothing. -/
inductive TookOne (e : Endpoint language) (s : Subscription D) (message : Sample language) :
    Except TakeError (Option MessageInfo) × Subscription D × Sample language → Prop where
  | shutDown (h : s.shutdown = true) : TookOne e s message (.error .contextShutdown, s, message)
  | empty (hactive : s.shutdown = false) (hqueue : s.queue = []) : TookOne e s message (.ok none, s, message)
  | failed {sample : StoredSample} {rest : List StoredSample} {failure : CodecFailure}
      {message' : Sample language} (hactive : s.shutdown = false) (hqueue : s.queue = sample :: rest)
      (hdecode : e.decode sample.payload message = (.error failure, message')) :
      TookOne e s message (.error (.deserializationFailed failure), s, message')
  | taken {sample : StoredSample} {rest : List StoredSample} {read : ℕ} {message' : Sample language}
      (hactive : s.shutdown = false) (hqueue : s.queue = sample :: rest)
      (hdecode : e.decode sample.payload message = (.ok read, message'))
      (hrest : s.dropHead.queue = rest) :
      TookOne e s message (.ok (some sample.messageInfo), s.dropHead, message')

theorem takeOne_took (e : Endpoint language) (s : Subscription D) (message : Sample language) :
    TookOne e s message (e.takeOne s message) := by
  unfold takeOne
  by_cases hshutdown : s.shutdown = true
  · rw [if_pos hshutdown]
    exact .shutDown hshutdown
  rw [if_neg hshutdown]
  rw [Bool.not_eq_true] at hshutdown
  by_cases hsize : s.historySize = 0
  · rw [if_pos hsize]
    exact .empty hshutdown (List.eq_nil_of_length_eq_zero (s.queue_length.trans hsize))
  rw [if_neg hsize]
  have hqueue := s.queue_cons hsize
  dsimp only
  split
  next failure message' hdecode => exact .failed hshutdown hqueue hdecode
  next read message' hdecode => exact .taken hshutdown hqueue hdecode (Subscription.dropHead_queue hsize)

theorem takeOne_head {sample : StoredSample} {rest : List StoredSample} {read : ℕ}
    {dest dest' : Sample language} (hactive : s.shutdown = false) (hqueue : s.queue = sample :: rest)
    (hdecode : e.decode sample.payload dest = (.ok read, dest')) :
    e.takeOne s dest = (.ok (some sample.messageInfo), s.dropHead, dest') := by
  obtain ⟨hsize, rfl⟩ := Subscription.queue_head hqueue
  unfold decode at hdecode
  unfold takeOne
  rw [if_neg (by rw [hactive]; exact Bool.false_ne_true), if_neg hsize]
  dsimp only
  rw [hdecode]

/-- The codec of a take into a message, as a function of the payload. -/
def decoder (e : Endpoint language) (message : Sample language) (payload : List UInt8) :
    Option (Sample language) :=
  match e.decode payload message with
  | (.ok _, message') => some message'
  | (.error _, _) => none

/-- **The take of the ring is that of the endpoint**, with the codec of the endpoint. -/
theorem takeOne_codec (e : Endpoint language) (s : Subscription D) (message : Sample language) :
    (e.takeOne s message).2.1 = (s.takeOne (e.decoder message)).2 ∧
      ∀ info, (e.takeOne s message).1 = .ok (some info) ↔ ∃ sample,
        (s.takeOne (e.decoder message)).1 = some ((e.takeOne s message).2.2, sample) ∧
          info = sample.messageInfo := by
  unfold takeOne Subscription.takeOne decoder decode
  split
  · simp
  split
  · simp
  dsimp only
  split
  next hdecode => simp [hdecode]
  next hdecode => simp [hdecode, eq_comm]

/-- **Single takes, if every sample decodes.** -/
theorem topicRun_decoded (hactive : s.shutdown = false) {count : ℕ} (hcount : count ≤ s.historySize)
    (hdecodes : ∀ k < count, e.Decodes s dests k) :
    e.topicRun s ((List.range count).map fun k => .takeOne (dests k)) =
      (s.afterTakes count, (List.range count).map fun k =>
        (.takeOne (dests k), .took (.ok (some (s.sampleAt k).messageInfo)) (e.decoded s dests k))) := by
  induction count with
  | zero => rfl
  | succ count ih =>
    have hprev := ih (by omega) fun k hk => hdecodes k (by omega)
    obtain ⟨read, hread⟩ := hdecodes count (by omega)
    have htake : e.takeOne (s.afterTakes count) (dests count) =
        (.ok (some (s.sampleAt count).messageInfo), s.afterTakes (count + 1), e.decoded s dests count) := by
      have hqueue := (s.afterTakes count).queue_cons (by rw [s.afterTakes_historySize]; omega)
      rw [s.afterTakes_head] at hqueue
      rw [takeOne_head ((s.afterTakes_shutdown count).trans hactive) hqueue (Prod.ext hread rfl),
        s.afterTakes_dropHead]
      rfl
    unfold topicRun at hprev ⊢
    rw [List.range_succ, List.map_append, List.map_singleton, collect_snoc, hprev, List.map_append,
      List.map_singleton]
    unfold topicCall
    dsimp only
    rw [htake]

theorem topicRun_shutdown (hshutdown : s.shutdown = true) (messages : List (Sample language)) :
    e.topicRun s (messages.map .takeOne) =
      (s, messages.map fun message => (.takeOne message, .took (.error .contextShutdown) message)) := by
  induction messages with
  | nil => rfl
  | cons message messages ih =>
    have htake : e.takeOne s message = (.error .contextShutdown, s, message) := by
      unfold takeOne
      rw [if_pos hshutdown]
    have hcall : e.topicCall s (.takeOne message) = (.took (.error .contextShutdown) message, s) := by
      unfold topicCall
      dsimp only
      rw [htake]
    unfold topicRun at ih ⊢
    rw [List.map_cons, List.map_cons]
    unfold collect
    rw [hcall, ih]
    rfl

/-- **The arguments of a batch take**: both sequences are there, with room for `count` entries. -/
structure BatchCall (args : TakeSequenceArguments language) (messages : MessageSequence language)
    (infos : MessageInfoSequence) (pointers : ℕ → Option (Sample language)) (entries : ℕ → MessageInfo) :
    Prop where
  hasMessages : args.messages = some messages
  hasInfos : args.infos = some infos
  hasPointers : messages.data = some pointers
  hasEntries : infos.data = some entries
  taken : args.taken = true
  allocation : args.allocation = false
  messageCapacity : args.count ≤ messages.capacity
  infoCapacity : args.count ≤ infos.capacity

variable {args : TakeSequenceArguments language} {messages : MessageSequence language}
  {infos : MessageInfoSequence} {pointers : ℕ → Option (Sample language)} {entries : ℕ → MessageInfo}

theorem BatchCall.checked (h : BatchCall args messages infos pointers entries) :
    ¬ (!args.taken || (args.count != 0 && (messages.data.isNone || infos.data.isNone)) ||
      decide (messages.capacity < args.count) || decide (infos.capacity < args.count)) = true := by
  have hmessages := decide_eq_false (not_lt.2 h.messageCapacity)
  have hinfos := decide_eq_false (not_lt.2 h.infoCapacity)
  rw [h.taken, h.hasPointers, h.hasEntries, hmessages, hinfos]
  simp

/-- **A batch take with valid arguments.** -/
theorem BatchCall.takeSequence_eq (h : BatchCall args messages infos pointers entries) :
    e.takeSequence s args =
      if s.shutdown then (.error .contextShutdown, s, some messages, some infos)
      else if min args.count s.historySize = 0 then
        (.ok 0, s, some { messages with size := 0 }, some { infos with size := 0 })
      else
        let r := e.takeLoop s (min args.count s.historySize) 0 ⟨pointers, entries⟩
        r.1.elim
          (.ok (min args.count s.historySize), s.dropMany (min args.count s.historySize),
            some { messages with data := some r.2.messages, size := min args.count s.historySize },
            some { infos with data := some r.2.infos, size := min args.count s.historySize })
          fun error => (.error error, s, some { messages with data := some r.2.messages },
            some { infos with data := some r.2.infos }) := by
  unfold takeSequence
  rw [h.hasMessages, h.hasInfos]
  dsimp only
  rw [if_neg h.checked, h.allocation, if_neg Bool.false_ne_true, h.hasPointers, h.hasEntries]
  dsimp only
  rw [← h.hasPointers, ← h.hasEntries]
  refine if_congr Iff.rfl rfl (if_congr Iff.rfl rfl ?_)
  rcases e.takeLoop s (min args.count s.historySize) 0 ⟨pointers, entries⟩ with ⟨error, batch⟩
  cases error with
  | none => rfl
  | some error => rfl

/-- **A batch take is a sequence of single takes.** With valid arguments and different destinations, let
`n` be the lesser of the count and the number of queued samples. If the first `n` samples decode, the
batch returns the messages and the metadata of `n` single takes in their order, leaves the entries behind
them alone, and the subscription is the same. If one of them does not, the batch reports an error, and the
subscription and the sizes of the sequences are what they were. After a shutdown both refuse and change
nothing. -/
theorem take_sequence_eq_repeated_take (e : Endpoint language) (s : Subscription D)
    (h : BatchCall args messages infos pointers entries) (dests : ℕ → Sample language)
    (hdests : ∀ k < min args.count s.historySize, pointers k = some (dests k)) :
    let n := min args.count s.historySize
    let singles := e.topicRun s ((List.range n).map fun k => .takeOne (dests k))
    (s.shutdown = false → (∀ k < n, e.Decodes s dests k) →
      ∃ taken : ℕ → MessageInfo × Sample language,
        singles.2 = (List.range n).map (fun k =>
          (.takeOne (dests k), .took (.ok (some (taken k).1)) (taken k).2)) ∧
        e.takeSequence s args = (.ok n, singles.1,
          some { messages with
            data := some fun k => if k < n then some (taken k).2 else pointers k, size := n },
          some { infos with data := some fun k => if k < n then (taken k).1 else entries k, size := n })) ∧
      (s.shutdown = false → (∃ k < n, ¬ e.Decodes s dests k) →
        ∃ error messages' infos', e.takeSequence s args = (.error error, s, some messages', some infos') ∧
          messages'.size = messages.size ∧ infos'.size = infos.size) ∧
      (s.shutdown = true → e.takeSequence s args = (.error .contextShutdown, s, some messages, some infos) ∧
        singles = (s, (List.range n).map fun k =>
          (.takeOne (dests k), .took (.error .contextShutdown) (dests k)))) := by
  intro n singles
  refine ⟨fun hactive hdecodes => ?_, fun hactive hfails => ?_, fun hshutdown => ?_⟩
  · have hsingles : singles = _ := topicRun_decoded hactive (Nat.min_le_right _ _) hdecodes
    refine ⟨fun k => ((s.sampleAt k).messageInfo, e.decoded s dests k), congrArg Prod.snd hsingles, ?_⟩
    rw [congrArg Prod.fst hsingles]
    rw [h.takeSequence_eq, hactive, if_neg Bool.false_ne_true]
    by_cases hnone : n = 0
    · have hzero : ∀ k, ¬ k < 0 := Nat.not_lt_zero
      rw [if_pos hnone, hnone]
      simp only [hzero, if_false]
      rw [← h.hasPointers, ← h.hasEntries]
      rfl
    · have hloop : e.takeLoop s n 0 ⟨pointers, entries⟩ = (none, e.filled s dests 0 (0 + n) ⟨pointers, entries⟩) :=
        takeLoop_decoded fun k _ hk => ⟨hdests k (by omega), hdecodes k (by omega)⟩
      rw [if_neg hnone, hloop]
      unfold filled Subscription.afterTakes
      simp only [Nat.zero_le, true_and, Nat.zero_add]
      rw [if_neg hnone]
      rfl
  · obtain ⟨k, hk, hfails⟩ := hfails
    obtain ⟨error, batch, hloop⟩ := @takeLoop_failed _ _ _ e s dests n 0 ⟨pointers, entries⟩
      (fun k _ hk => hdests k (by omega)) ⟨k, Nat.zero_le k, by omega, hfails⟩
    rw [h.takeSequence_eq, hactive, if_neg Bool.false_ne_true, if_neg (by omega), hloop]
    exact ⟨error, _, _, rfl, rfl, rfl⟩
  · refine ⟨by rw [h.takeSequence_eq, if_pos hshutdown], ?_⟩
    have hsingles := @topicRun_shutdown _ _ _ e s hshutdown ((List.range n).map dests)
    rw [List.map_map, List.map_map] at hsingles
    exact hsingles

end Endpoint

section OneByte

/-- A topic of messages of one byte. -/
def byteTopic : Endpoint .introspectionC where
  type :=
    { memory := fun _ => {
        messageNamespace := some ['p'], messageName := some ['B'], sizeOf := 1, memberCount := 1
        members := some #v[{ typeId := .uint8 }] }
      handle := ⟨some .introspectionC, some 0⟩
      limit := maximumSampleSize
      info := ⟨.introspectionC, 5, 1, 1, ['p', ':', ':', 'd', 'd', 's', '_', ':', ':', 'B', '_']⟩
      accepted := rfl
      introspection := rfl
      machine := maximumSampleSize_le }
  channel := .topic
  limit := rfl

/-- A sample with a byte. -/
def byteSample (number : ℕ) (byte : UInt8) : StoredSample where
  publicationSequenceNumber := number
  receptionSequenceNumber := number
  payload := [0, 1, 0, 0, byte]

/-- A DATA datagram of a remote writer. -/
def remoteDatagram (sequenceNumber : ℕ) (payload : List UInt8) : Span :=
  .bytes (dataMessageBytes
    { version := protocolVersion, vendorId, guidPrefix := .replicate 12 2, readerId := unknownReader
      writerId := writerId 0, sequenceNumber } payload)

/-- A subscription with two samples, the older one in the last cell of the ring and the newer one in the
first. -/
def wrappedQueue : Subscription 2 :=
  { (Subscription.init (.replicate 12 1) (readerId 0) 5 false : Subscription 2) with
    history := fun i => if i = 1 then byteSample 1 7 else byteSample 2 8
    historyHead := 1
    historySize := 2
    size_le := Nat.le_refl 2 }

def emptyInfo : MessageInfo := StoredSample.messageInfo {}

/-- A message with a byte. -/
def byteMessage (byte : ℕ) : Sample .introspectionC := [.single (.scalar byte)]

/-- Room for three messages. -/
def threeMessages : TakeSequenceArguments .introspectionC where
  count := 3
  messages := some { data := some fun _ => some (byteMessage 0), size := 0, capacity := 3 }
  infos := some { data := some fun _ => emptyInfo, size := 0, capacity := 3 }
  taken := true
  allocation := false

/-- Both samples are taken across the end of the ring, at once and one after the other. -/
theorem batch_take_across_wrap :
    let singles := byteTopic.topicRun wrappedQueue [.takeOne (byteMessage 0), .takeOne (byteMessage 0)]
    singles.2 =
      [(.takeOne (byteMessage 0), .took (.ok (some (byteSample 1 7).messageInfo)) (byteMessage 7)),
       (.takeOne (byteMessage 0), .took (.ok (some (byteSample 2 8).messageInfo)) (byteMessage 8))] ∧
      ∃ messages infos, byteTopic.takeSequence wrappedQueue threeMessages =
          (.ok 2, singles.1, some messages, some infos) ∧
        messages.data.map (fun data => [data 0, data 1]) =
          some [some (byteMessage 7), some (byteMessage 8)] ∧
        infos.data.map (fun data => [data 0, data 1]) =
          some [(byteSample 1 7).messageInfo, (byteSample 2 8).messageInfo] := by
  intro singles
  have hcall : Endpoint.BatchCall threeMessages _ _ _ _ := ⟨rfl, rfl, rfl, rfl, rfl, rfl, le_rfl, le_rfl⟩
  have hdecodes : ∀ k < 2, byteTopic.Decodes wrappedQueue (fun _ => byteMessage 0) k := by
    intro k hk
    interval_cases k
    · exact ⟨5, rfl⟩
    · exact ⟨5, rfl⟩
  obtain ⟨taken, hsingles, htake⟩ := (Endpoint.take_sequence_eq_repeated_take byteTopic wrappedQueue hcall
    (fun _ => byteMessage 0) fun _ _ => rfl).1 rfl hdecodes
  have hanswers : singles.2 =
      [(.takeOne (byteMessage 0), .took (.ok (some (byteSample 1 7).messageInfo)) (byteMessage 7)),
       (.takeOne (byteMessage 0), .took (.ok (some (byteSample 2 8).messageInfo)) (byteMessage 8))] := rfl
  obtain ⟨hfirst, hrest⟩ := List.cons.inj (hanswers.symm.trans hsingles)
  obtain ⟨hinfo, hmessage⟩ := TopicReply.took.inj (Prod.mk.inj hfirst).2
  obtain ⟨hinfo', hmessage'⟩ := TopicReply.took.inj (Prod.mk.inj (List.cons.inj hrest).1).2
  have htaken : taken 0 = ((byteSample 1 7).messageInfo, byteMessage 7) :=
    Prod.ext (Option.some.inj (Except.ok.inj hinfo)).symm hmessage.symm
  have htaken' : taken 1 = ((byteSample 2 8).messageInfo, byteMessage 8) :=
    Prod.ext (Option.some.inj (Except.ok.inj hinfo')).symm hmessage'.symm
  refine ⟨hanswers, _, _, htake, ?_, ?_⟩ <;>
    simp only [Option.map_some, htaken, htaken'] <;> rfl

end OneByte

end OpenRtdds
