import OpenRtdds.Proof.ServiceSample
import OpenRtdds.Proof.TakeSequence

/-!
# Topic samples

A message of a topic on its way from `publish_sample` over the history of the publisher, the DATA
datagram and the history of a subscription to `take_one`.

* `networkCopyNext_retained`: what the network worker sends under the number of a sample.
* `stays_until_left`: a stored sample stays until it is taken or overwritten at the head.
* `topic_publish_take`: the message that `take_one` returns is the one that was published.
-/

namespace OpenRtdds

open Lib

/-- The prefix of a participant that `configure_sockets` named is not zero. -/
theorem nonzeroPrefix_configured (domain participant : ℕ) (process : BitVec 32) :
    nonzeroPrefix (configuredPrefix domain participant process) = true := rfl

theorem validWriterId_writerId : ∀ slot, validWriterId (writerId slot) = true := by decide

section Sending

variable {D : ℕ} [NeZero D] {p : Publisher D}

/-- **What the network worker sends** under the number of a retained sample is the DATA message of
this sample. -/
theorem networkCopyNext_retained (hp : p.Numbered) {x : PublishedSample}
    (hx : p.nextSequence ≤ x.sequenceNumber + D → x ∈ p.retained) {after capacity : ℕ}
    {packet : List UInt8} (h : p.networkCopyNext after capacity = some (x.sequenceNumber, packet)) :
    buildDataMessage false capacity (p.dataConfig x.sequenceNumber) (.bytes x.payload) =
      .ok packet := by
  unfold Publisher.networkCopyNext at h
  split at h
  · cases h
  cases hselect : p.selectNext after with
  | none =>
    rw [hselect] at h
    cases h
  | some y =>
    rw [hselect] at h
    simp only at h
    cases hbuild : buildDataMessage false capacity (p.dataConfig y.sequenceNumber)
        (.bytes y.payload) with
    | error e =>
      rw [hbuild] at h
      cases h
    | ok packet' =>
      rw [hbuild, Option.some.injEq, Prod.mk.injEq] at h
      obtain ⟨hnumber, rfl⟩ := h
      -- the number is one of the history, so the sample has not been overwritten
      have hmem := ((Publisher.selectNext_spec hp after).1 y hselect).1
      have hrange := (hp.range hmem).1
      have hsize := p.size_le
      have hsame : y = x := hp.unique hmem (hx (by omega)) hnumber
      rw [← hsame]
      exact hbuild

/-- The network worker sends a retained sample if its message fits into the buffer. -/
theorem networkCopyNext_sends (hp : p.Numbered) {x : PublishedSample} (hx : x ∈ p.retained)
    {capacity : ℕ} {packet : List UInt8}
    (hbuild : buildDataMessage false capacity (p.dataConfig x.sequenceNumber) (.bytes x.payload) =
      .ok packet) :
    p.networkCopyNext (x.sequenceNumber - 1) capacity = some (x.sequenceNumber, packet) := by
  have hrange := hp.range hx
  have hpositive := hp.positive
  have hsize : p.historySize ≠ 0 := by omega
  have hselect := Publisher.selectNext_retained hp hx (by omega)
  unfold Publisher.networkCopyNext
  rw [if_neg hsize, hselect]
  simp only [hbuild]

end Sending

namespace Endpoint

variable {language : TypeSupportLanguage} {D : ℕ} [NeZero D]

/-- `take_one` leaves the history alone or takes its head. -/
theorem takeOne_cases (e : Endpoint language) (s : Subscription D) (dest : Sample language) :
    (e.takeOne s dest).2.1 = s ∨ (∃ info, (e.takeOne s dest).1 = .ok (some info)) ∧
      s.historySize ≠ 0 ∧ (e.takeOne s dest).2.1 = s.dropHead := by
  have htook := e.takeOne_took s dest
  generalize e.takeOne s dest = out at htook ⊢
  cases htook with
  | taken _ hqueue => exact .inr ⟨⟨_, rfl⟩, (Subscription.queue_head hqueue).1, rfl⟩
  | _ => exact .inl rfl

/-- The call takes the oldest sample, or stores another one in its place. -/
def RemovesHead (e : Endpoint language) (s : Subscription D) : SubscriptionCall language → Prop
  | .receive packet source received =>
    ∃ n k, (s.receiveDataMessage packet source received).1 = .ok (.accepted n k true)
  | .take dest => ∃ info, (e.takeOne s dest).1 = .ok (some info)

/-- The history after a call: what it held, without its head if the call removes it, and perhaps a
new sample. -/
theorem called_queue (e : Endpoint language) (s : Subscription D)
    (call : SubscriptionCall language) :
    ∃ added, (e.called s call).queue = s.queue ++ added ∨
      e.RemovesHead s call ∧ (e.called s call).queue = s.queue.tail ++ added := by
  cases call with
  | take dest =>
    refine ⟨[], ?_⟩
    simp only [called, RemovesHead, List.append_nil]
    rcases e.takeOne_cases s dest with hsame | ⟨htaken, hsize, hdrop⟩
    · exact .inl (by rw [hsame])
    · exact .inr ⟨htaken, by rw [hdrop, Subscription.dropHead_queue hsize]⟩
  | receive packet source received =>
    simp only [called, RemovesHead]
    have houtcome := s.receive_outcome packet source received
    generalize s.receiveDataMessage packet source received = out at houtcome ⊢
    cases houtcome with
    | refused _ _ => exact ⟨[], .inl (List.append_nil _).symm⟩
    | @accepted v i isNew _ _ _ =>
      refine ⟨[s.storedAt v source received], ?_⟩
      rw [Subscription.commit_queue]
      by_cases hfull : s.historySize = D
      · rw [if_pos hfull]
        exact .inr ⟨⟨_, _, by rw [hfull, decide_eq_true rfl]⟩, rfl⟩
      · rw [if_neg hfull]
        exact .inl rfl

theorem called_shutdown (e : Endpoint language) (s : Subscription D)
    (call : SubscriptionCall language) : (e.called s call).shutdown = s.shutdown := by
  cases call with
  | take dest =>
    simp only [called]
    rcases e.takeOne_cases s dest with hsame | ⟨-, -, hdrop⟩
    · rw [hsame]
    · rw [hdrop]
      rfl
  | receive packet source received =>
    simp only [called]
    have houtcome := s.receive_outcome packet source received
    generalize s.receiveDataMessage packet source received = out at houtcome ⊢
    cases houtcome <;> rfl

/-- In a run of calls, one of them found the sample at the head and removed it. -/
def Left (e : Endpoint language) (s : Subscription D) (calls : List (SubscriptionCall language))
    (sample : StoredSample) : Prop :=
  ∃ before call after, calls = before ++ call :: after ∧
    (run e.called s before).queue.head? = some sample ∧ e.RemovesHead (run e.called s before) call

/-- **A stored sample stays** until a call takes it or stores another one in its place. -/
theorem stays_until_left (e : Endpoint language) {s : Subscription D} {sample : StoredSample}
    (h : sample ∈ s.queue) (calls : List (SubscriptionCall language)) :
    sample ∈ (run e.called s calls).queue ∨ e.Left s calls sample := by
  let stays (calls : List (SubscriptionCall language)) (t : Subscription D) : Prop :=
    sample ∈ t.queue ∨ e.Left s calls sample
  refine run_history (P := stays) ?_ (.inl h) calls
  intro calls call hinv
  rcases hinv with hmem | ⟨before, other, after, rfl, hleft⟩
  swap
  · exact .inr ⟨before, other, after ++ [call], by simp, hleft⟩
  obtain ⟨added, hqueue | ⟨hremoves, hqueue⟩⟩ := e.called_queue (run e.called s calls) call
  · exact .inl (hqueue ▸ List.mem_append_left _ hmem)
  · cases hq : (run e.called s calls).queue with
    | nil =>
      rw [hq] at hmem
      exact absurd hmem List.not_mem_nil
    | cons head tail =>
      rw [hq] at hmem hqueue
      rcases List.mem_cons.1 hmem with rfl | hmem
      · -- the sample is the head that the call removes
        exact .inr ⟨calls, call, [], rfl, by rw [hq, List.head?_cons], hremoves⟩
      · exact .inl (hqueue ▸ List.mem_append_left _ hmem)

end Endpoint

section PublishTake

variable {language language' : TypeSupportLanguage} {D D' : ℕ} [NeZero D] [NeZero D']

/-- The subscription is ready for the sample `number` of a writer: its context is active, it does
not ignore the participant of the writer, it knows the writer or has room for it, it has accepted
smaller numbers only, and its reception numbers are not exhausted. -/
structure Endpoint.Awaits (e : Endpoint language) (s : Subscription D) (guidPrefix : GuidPrefix)
    (writerId : EntityId) (number : ℕ) : Prop where
  active : s.shutdown = false
  capacity : s.serializedCapacity = e.serializedCapacity
  remote : s.ignoreLocalPublications = true → guidPrefix ≠ s.participantPrefix
  room : s.HasRoom (makeGid guidPrefix writerId)
  fresh : ∀ i, s.findWriter (makeGid guidPrefix writerId) = some i →
    (s.writers i).lastSequence < number
  reception : s.nextReceptionSequence ≠ uint64Max

omit [NeZero D] in
/-- A built datagram of a user writer is stored by a subscription that is ready for it. -/
theorem receive_built {e : Endpoint language} {s : Subscription D'} {p : Publisher D} {n : ℕ}
    {payload packet : List UInt8} {capacity source received : ℕ}
    (hs : e.Awaits s p.participantPrefix p.writerId n)
    (hnonzero : nonzeroPrefix p.participantPrefix = true) (huser : validWriterId p.writerId = true)
    (hfit : payload.length ≤ e.serializedCapacity)
    (hbuild : buildDataMessage false capacity (p.dataConfig n) (.bytes payload) = .ok packet)
    (htimes : 0 < received ∧ received ≤ int64Max ∧ source ≤ int64Max) :
    ∃ k d s' sample,
      s.receiveDataMessage (.bytes packet) source received = (.ok (.accepted n k d), s') ∧
      s'.shutdown = false ∧
      s'.queue = (if s.historySize = D' then s.queue.tail else s.queue) ++ [sample] ∧
      sample.payload = payload ∧
      sample.publicationSequenceNumber = n ∧
      sample.publisherGid = makeGid p.participantPrefix p.writerId := by
  have hparse := parse_build hbuild
  -- the datagram has no INFO_TS, so the source time is the one of the caller or zero
  have hresolved : (if source = 0 then 0 else source) ≤ int64Max := by
    split
    · exact Nat.zero_le _
    · exact htimes.2.2
  obtain ⟨i, isNew, hcommit⟩ := Subscription.receive_commits hparse
    ((Subscription.receive_accepts hparse).2 ⟨hs.active, ⟨fun h => absurd h Bool.false_ne_true, .inl rfl⟩,
      hnonzero, huser, hs.remote, hs.capacity ▸ hfit, ⟨htimes.1, htimes.2.1, htimes.2.2, hresolved⟩, hs.fresh,
      hs.room, hs.reception⟩)
  exact ⟨_, _, _, _, hcommit, hs.active, Subscription.commit_queue s _ i isNew, rfl, rfl, rfl⟩

/-- The bytes of a message of a topic never fail in the DATA builder. -/
theorem publishSample_builds {e : Endpoint language} {e' : Endpoint language'} {v : Sample language}
    {body : List UInt8} {p : Publisher D} (hc : e.channel = .topic) (hbody : SharedBytes e e' v body)
    (hnumber : 1 ≤ p.nextSequence) (hcapacity : p.serializedCapacity = e.serializedCapacity)
    (shutdown : Bool) (clock : Option ℕ) (error : RtpsError) :
    e.publishSample shutdown p v none clock ≠
      .error (.publishFailed (.dataConstructionFailed error)) := by
  intro herror
  have hlength := hbody.length_le
  have hmax := hbody.maximum_le
  have hcap : e.serializedCapacity = e.type.info.maximumSerializedSize := by
    rw [Endpoint.serializedCapacity, if_pos hc, Nat.add_zero]
  rw [Endpoint.publishSample_topic hc shutdown clock hbody.serialize] at herror
  split at herror
  · cases herror
  unfold Publisher.publishSerialized at herror
  by_cases hn : p.nextSequence ≥ int64Max
  · rw [if_pos hn] at herror
    cases herror
  · rw [if_neg hn, build_accepts (c := p.dataConfig p.nextSequence) rfl (.inr rfl)
      ⟨hnumber, by simp only [Publisher.dataConfig]; omega⟩ hbody.supported (by omega)
      (by omega)] at herror
    cases clock <;> cases herror

/-- A stored sample with the bytes of a message is kept until it leaves, and read at the head. -/
theorem stored_take {e : Endpoint language} {e' : Endpoint language'} {v : Sample language}
    {body : List UInt8} (hbody : SharedBytes e e' v body) {s : Subscription D'}
    (hactive : s.shutdown = false) {sample : StoredSample} (hmem : sample ∈ s.queue)
    (hpayload : sample.payload = body) (calls : List (SubscriptionCall language')) :
    (sample ∈ (run e'.called s calls).queue ∨ e'.Left s calls sample) ∧
    ((run e'.called s calls).queue.head? = some sample → ∀ dest,
      Accommodates (stringsOf language') _ dest (Descriptor.value v) →
      ∃ dest', e'.takeOne (run e'.called s calls) dest =
          (.ok (some sample.messageInfo), (run e'.called s calls).dropHead, dest') ∧
        Represents (stringsOf language') _ dest' (Descriptor.value v)) := by
  refine ⟨e'.stays_until_left hmem calls, fun hhead dest hdest => ?_⟩
  have hactive' : (run e'.called s calls).shutdown = false := by
    refine run_inv (P := fun t : Subscription D' => t.shutdown = false) ?_ hactive calls
    exact fun t call ht => (e'.called_shutdown t call).trans ht
  obtain ⟨rest, hrest⟩ := List.head?_eq_some_iff.1 hhead
  obtain ⟨dest', hread, hrep⟩ := hbody.deserialize dest hdest
  rw [← hpayload] at hread
  exact ⟨dest', Endpoint.takeOne_head hactive' hrest hread, hrep⟩

/-- **From publish to take.** Between a publisher and a subscription of one schema with the
callbacks that rosidl generates, a message that serializes never fails in the DATA builder. While the
numbers last it is published, and then, for every run of later calls:

* while it is retained, the network worker sends it under its number;
* a packet that is sent under its number parses, and a subscription that is ready stores it;
* it stays stored until it is taken or overwritten at the head of the history;
* the `take_one` that finds it at the head returns its value, its number and the publisher's GID. -/
theorem topic_publish_take (e : Endpoint language) (e' : Endpoint language')
    (hc : e.channel = .topic) (hc' : e'.channel = .topic)
    (hschema : SameSchema e.type.memory e'.type.memory maximumTypeNestingDepth e.type.root e'.type.root)
    (hgen : e'.type.Generated) {v : Sample language} (hv : e.type.Typed v)
    (hserializes : ∃ capacity order bytes, capacity ≤ uint64Max ∧
      e.type.serialize v capacity order = .ok bytes)
    (domain participant : ℕ) (process : BitVec 32) (slot : Fin 8)
    (earlier : List (PublishCall language)) :
    let guidPrefix := configuredPrefix domain participant process
    let p : Publisher D := run e.published
      (.init guidPrefix (writerId slot) e.serializedCapacity) earlier
    (∀ shutdown clock error, e.publishSample shutdown p v none clock ≠
      .error (.publishFailed (.dataConstructionFailed error))) ∧
    (p.nextSequence < int64Max → ∀ t, ∃ p', e.publishSample false p v none (some t) = .ok p' ∧
      ∀ later, let q := run e.published p' later
      let n := p.nextSequence
      (q.nextSequence ≤ n + D → ∀ capacity, 44 + e.serializedCapacity ≤ capacity →
        ∃ packet, q.networkCopyNext (n - 1) capacity = some (n, packet)) ∧
      ∀ after capacity packet, q.networkCopyNext after capacity = some (n, packet) →
        (∃ view, parseDataMessage (.bytes packet) = .ok view) ∧
        ∀ (s : Subscription D') source received, e'.Awaits s guidPrefix (writerId slot) n →
          0 < received ∧ received ≤ int64Max ∧ source ≤ int64Max →
          ∃ k d s' sample,
            s.receiveDataMessage (.bytes packet) source received = (.ok (.accepted n k d), s') ∧
            s'.queue = (if s.historySize = D' then s.queue.tail else s.queue) ++ [sample] ∧
            ∀ calls, let s'' := run e'.called s' calls
            (sample ∈ s''.queue ∨ e'.Left s' calls sample) ∧
            (s''.queue.head? = some sample → ∀ dest,
              Accommodates (stringsOf language') _ dest (Descriptor.value v) →
              ∃ info dest', e'.takeOne s'' dest = (.ok (some info), s''.dropHead, dest') ∧
                Represents (stringsOf language') _ dest' (Descriptor.value v) ∧
                info.publicationSequenceNumber = n ∧
                info.publisherGid = makeGid guidPrefix (writerId slot))) := by
  intro guidPrefix p
  obtain ⟨capacity, order, bytes, hcapacity, hbytes⟩ := hserializes
  obtain ⟨hin, hready⟩ := e.type.serialize_ready hv hcapacity hbytes
  set body := e.type.encoding .littleEndian (Descriptor.value v)
  have hbody : SharedBytes e e' v body := sharedBytes hschema hgen hin hready
  have hlength := hbody.length_le
  have hlength' := hbody.length_le'
  have hmax := hbody.maximum_le
  have hcap : e.serializedCapacity = e.type.info.maximumSerializedSize := by
    rw [Endpoint.serializedCapacity, if_pos hc, Nat.add_zero]
  have hcap' : e'.serializedCapacity = e'.type.info.maximumSerializedSize := by
    rw [Endpoint.serializedCapacity, if_pos hc', Nat.add_zero]
  have hp : Endpoint.Publishing _ p := Endpoint.run_published (.init _ _ _) earlier
  have hpcap : p.serializedCapacity = e.serializedCapacity := hp.capacity
  have hpositive := hp.numbered.positive
  have hfirst : 1 ≤ p.nextSequence := by omega
  refine ⟨publishSample_builds hc hbody hfirst hpcap, fun hnumber t => ?_⟩
  obtain ⟨p', hp'⟩ := Publisher.publishSerialized_accepts t ⟨hfirst, hnumber⟩ hbody.supported
    (by omega) (by omega)
  have hok := Publisher.publishSerialized_ok hp'
  have hnumbered' := hp.numbered.published hp'
  set x : PublishedSample := ⟨p.nextSequence, t, body⟩ with hx
  have hretained : x ∈ p'.retained := by
    rw [Publisher.retained_published hp']
    exact List.mem_append_right _ List.mem_cons_self
  refine ⟨p', ?_, fun later => ?_⟩
  · rw [Endpoint.publishSample_topic hc false (some t) hbody.serialize, hp']
    rfl
  intro q n
  -- what the later calls leave of the publisher and of the sample
  have hq : Endpoint.Publishing p' q := Endpoint.run_published hnumbered' later
  have hkeeps : q.nextSequence ≤ x.sequenceNumber + D → x ∈ q.retained :=
    Endpoint.run_keeps hnumbered' hretained later
  have hparticipant : q.participantPrefix = guidPrefix :=
    hq.participantPrefix.trans (hok.participantPrefix.trans hp.participantPrefix)
  have hwriter : q.writerId = writerId slot := hq.writerId.trans (hok.writerId.trans hp.writerId)
  refine ⟨fun hroom capacity hbuffer => ?_, fun after capacity packet hsent => ?_⟩
  · have hbuild := build_accepts (c := q.dataConfig n) rfl (.inr rfl)
      ⟨hfirst, hnumber.le⟩ hbody.supported (by omega)
      (show 44 + body.length ≤ capacity by omega)
    exact ⟨_, networkCopyNext_sends hq.numbered (hkeeps hroom) hbuild⟩
  have hbuild := networkCopyNext_retained (x := x) hq.numbered hkeeps hsent
  refine ⟨⟨_, parse_build hbuild⟩, fun s source received hs htimes => ?_⟩
  obtain ⟨k, d, s', sample, hreceive, hactive, hqueue, hpayload, hn, hgid⟩ :=
    receive_built (e := e') (p := q) (by rw [hparticipant, hwriter]; exact hs)
      (by rw [hparticipant]; exact nonzeroPrefix_configured _ _ _)
      (by rw [hwriter]; exact validWriterId_writerId slot) (by rw [hcap']; exact hlength') hbuild
      htimes
  rw [hparticipant, hwriter] at hgid
  refine ⟨k, d, s', sample, hreceive, hqueue, fun calls => ?_⟩
  obtain ⟨hstays, htakes⟩ := stored_take hbody hactive
    (hqueue ▸ List.mem_append_right _ List.mem_cons_self) hpayload calls
  refine ⟨hstays, fun hhead dest hdest => ?_⟩
  obtain ⟨dest', htake, hrep⟩ := htakes hhead dest hdest
  exact ⟨sample.messageInfo, dest', htake, hrep, hn, hgid⟩

end PublishTake

/-- The topic of `sampleTopic` in C. -/
def sampleTopicC : Endpoint .introspectionC := { requestEndpointC with channel := .topic }

/-- A subscription of the topic in another participant. -/
def topicSubscription : Subscription 1 :=
  .init (configuredPrefix 0 2 4661) (readerId 0) sampleTopicC.serializedCapacity false

theorem sampleTopicC_generated : sampleTopicC.type.Generated := sampleMemory_all (by decide) rfl

theorem fullSample_typed : sampleTopic.type.Typed fullSample := by
  refine .cons (.array rfl trivial ?_) (.cons (.single rfl (.text rfl trivial))
    (.cons (.array rfl trivial ?_) .nil))
  · refine List.forall_mem_cons.2 ⟨?_, List.forall_mem_singleton.2 ?_⟩ <;>
      exact .scalar 1 rfl (by simp [typed, bounded, scalarLayout])
  · refine List.forall_mem_cons.2 ⟨?_, List.forall_mem_singleton.2 ?_⟩ <;>
      exact .nested rfl rfl
        (.cons (.single rfl (.scalar 2 rfl (by simp [typed, bounded, scalarLayout]))) .nil)

/-- The message goes from a publisher in C++ to a subscription in C. -/
theorem fullSample_taken :
    ∃ (p' : Publisher 1) (packet : List UInt8) (k : ℕ) (d : Bool) (s' : Subscription 1),
      sampleTopic.publishSample false (.init (configuredPrefix 0 1 4660) (writerId 0) 24) fullSample
        none (some 1) = .ok p' ∧
      p'.networkCopyNext 0 65507 = some (1, packet) ∧
      topicSubscription.receiveDataMessage (.bytes packet) 0 1 = (.ok (.accepted 1 k d), s') ∧
      ∀ dest, Accommodates cStrings _ dest (Descriptor.value fullSample) →
        ∃ info dest', sampleTopicC.takeOne s' dest = (.ok (some info), s'.dropHead, dest') ∧
          Represents cStrings _ dest' (Descriptor.value fullSample) ∧
          info.publicationSequenceNumber = 1 ∧
          info.publisherGid = makeGid (configuredPrefix 0 1 4660) (writerId 0) := by
  have hserializes : ∃ capacity order bytes, capacity ≤ uint64Max ∧
      sampleTopic.type.serialize fullSample capacity order = .ok bytes :=
    have hbytes : SharedBytes sampleTopic sampleTopicC fullSample _ :=
      sharedBytes sampleDescriptors_sameSchema sampleTopicC_generated
        fullSample_atBounds.inBounds fullSample_ready
    ⟨24, .littleEndian, _, by decide, hbytes.serialize⟩
  have hnew : topicSubscription.findWriter (makeGid (configuredPrefix 0 1 4660) (writerId 0)) = none :=
    rfl
  obtain ⟨-, hpublish⟩ := @topic_publish_take _ _ 1 1 _ _ sampleTopic sampleTopicC rfl rfl
    sampleDescriptors_sameSchema sampleTopicC_generated _ fullSample_typed hserializes 0 1 4660 0 []
  obtain ⟨p', hp', hlater⟩ := hpublish (by decide) 1
  obtain ⟨hsend, hreceive⟩ := hlater []
  have hnext : p'.nextSequence = 2 := by
    obtain ⟨body, -, hserialized⟩ := Endpoint.publishSample_serialized hp'
    exact (Publisher.publishSerialized_ok hserialized).next
  obtain ⟨packet, hpacket⟩ := hsend hnext.le 65507 (by decide)
  obtain ⟨k, d, s', sample, haccepted, hqueue, htake⟩ := (hreceive 0 65507 packet hpacket).2
    topicSubscription 0 1
    ⟨rfl, rfl, fun h => absurd h Bool.false_ne_true, .inr (by decide),
      fun i hi => absurd (hnew.symm.trans hi) (Option.some_ne_none i).symm, by decide⟩ (by decide)
  exact ⟨p', packet, k, d, s', hp', hpacket, haccepted, (htake []).2 (by rw [run_nil, hqueue]; rfl)⟩

/-- A topic of the type of `readOnlyDescriptor`. -/
def readOnlyEndpoint : Endpoint .introspectionC where
  type := { readOnlyDescriptor with
    limit := maximumSampleSize, accepted := rfl, machine := maximumSampleSize_le }
  channel := .topic
  limit := rfl

/-- **A sample that is never taken**: the message of a type whose array can be read in place but not
written is published and stored, and its `take_one` fails. A subscription that has used up its
reception numbers does not even store it. -/
theorem readOnly_never_taken :
    let v : Sample .introspectionC := [.single (.scalar 7), .array [.scalar 9]]
    let s : Subscription 1 := .init (configuredPrefix 0 2 4661) (readerId 0) 6 false
    readOnlyEndpoint.type.serialize v 6 .littleEndian = .ok [0, 1, 0, 0, 7, 9] ∧
    ∃ (p' : Publisher 1) (packet : List UInt8) (s' : Subscription 1),
      readOnlyEndpoint.publishSample false (.init (configuredPrefix 0 1 4660) (writerId 0) 6) v none
        (some 1) = .ok p' ∧
      p'.networkCopyNext 0 65507 = some (1, packet) ∧
      s.receiveDataMessage (.bytes packet) 0 1 = (.ok (.accepted 1 1 false), s') ∧
      (readOnlyEndpoint.takeOne s' v).1 =
        .error (.deserializationFailed { error := .callbackMissing, bytesProcessed := 5 }) ∧
      (({ s with nextReceptionSequence := uint64Max } : Subscription 1).receiveDataMessage
        (.bytes packet) 0 1).1 = .error .receptionSequenceExhausted :=
  ⟨rfl, _, _, _, rfl, rfl, rfl, rfl, rfl⟩

end OpenRtdds
