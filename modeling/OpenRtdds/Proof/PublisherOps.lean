import OpenRtdds.Lib.Ring
import OpenRtdds.Lib.Run
import OpenRtdds.Proof.DataMessage
import OpenRtdds.Spec.Endpoint

/-!
# What a publication does to a publisher

* `Published`: what a publication leaves of the publisher and what its datagram is.
* `publishSerialized_accepts`: when the serialized bytes of a sample are published.
* `publishSerialized_refuses`: bytes without an encapsulation are never published.
* `publishSample_serialized`: a message that is published was serialized.
* `retained_published`, `Numbered`: the history holds the last samples, under consecutive numbers.
* `selectNext_retained`: the network worker finds every sample that is retained.
-/

namespace OpenRtdds

open Lib

/-- The builder refuses a payload that does not begin with a CDR encapsulation. -/
theorem build_refuses {capacity : ℕ} {c : DataMessageConfig} {payload : Span}
    (hv : supportedVersion c.version = true)
    (ho : c.submessageByteOrder = .bigEndian ∨ c.submessageByteOrder = .littleEndian)
    (hn : 1 ≤ c.sequenceNumber ∧ c.sequenceNumber ≤ int64Max)
    (hp : supportedSerializedPayload payload = false) :
    buildDataMessage false capacity c payload = .error .invalidSerializedPayload := by
  have horder : supportedByteOrder c.submessageByteOrder = true := by
    rcases ho with ho | ho <;> rw [ho] <;> rfl
  unfold buildDataMessage
  rw [if_neg (by simp), if_neg (by simp [hv]), if_neg (by simp [horder]), if_neg (by omega),
    if_pos (by simp [hp])]

namespace Publisher

variable {D : ℕ} [NeZero D]

/-- What a publication leaves of the publisher, and its datagram. -/
structure Published (p p' : Publisher D) (serialized : List UInt8) : Prop where
  participantPrefix : p'.participantPrefix = p.participantPrefix
  writerId : p'.writerId = p.writerId
  capacity : p'.serializedCapacity = p.serializedCapacity
  number : p.nextSequence < int64Max
  next : p'.nextSequence = p.nextSequence + 1
  datagram : buildDataMessage false (p.serializedCapacity + 44) (p.dataConfig p.nextSequence)
    (.bytes serialized) = .ok p'.dataMessage

variable {p p' : Publisher D} {serialized : List UInt8}

/-- What a publication leaves, and the cell that it writes. -/
theorem publishSerialized_result {clock : Option ℕ}
    (h : p.publishSerialized serialized clock = .ok p') : Published p p' serialized ∧
      ∃ t, clock = some t ∧
        p'.history = Function.update p.history (wrap p.historyNext) ⟨p.nextSequence, t, serialized⟩ ∧
        p'.historyNext = (p.historyNext + 1) % D ∧
        p'.historySize = if p.historySize < D then p.historySize + 1 else p.historySize := by
  unfold publishSerialized at h
  by_cases hn : p.nextSequence ≥ int64Max
  · rw [if_pos hn] at h
    cases h
  rw [if_neg hn] at h
  cases hb : buildDataMessage false (p.serializedCapacity + 44) (p.dataConfig p.nextSequence)
      (.bytes serialized) with
  | error e => rw [hb] at h; cases h
  | ok message =>
    rw [hb] at h
    cases clock with
    | none => cases h
    | some timestamp =>
      cases h
      exact ⟨⟨rfl, rfl, rfl, by omega, rfl, hb⟩, timestamp, rfl, rfl, rfl, rfl⟩

theorem publishSerialized_ok {clock : Option ℕ}
    (h : p.publishSerialized serialized clock = .ok p') : Published p p' serialized :=
  (publishSerialized_result h).1

theorem publishSerialized_clock {clock : Option ℕ}
    (h : p.publishSerialized serialized clock = .ok p') : ∃ t, clock = some t :=
  (publishSerialized_result h).2.imp fun _ ht => ht.1

/-- Bytes with an encapsulation that fit are published while there are numbers and a clock. -/
theorem publishSerialized_accepts (t : ℕ) (hn : 1 ≤ p.nextSequence ∧ p.nextSequence < int64Max)
    (hp : supportedSerializedPayload (.bytes serialized) = true)
    (hsize : 44 + serialized.length ≤ 65507) (hcap : serialized.length ≤ p.serializedCapacity) :
    ∃ p', p.publishSerialized serialized (some t) = .ok p' := by
  have hb : buildDataMessage false (p.serializedCapacity + 44) (p.dataConfig p.nextSequence)
      (.bytes serialized) = .ok _ :=
    build_accepts rfl (.inr rfl) ⟨hn.1, hn.2.le⟩ hp hsize (by omega)
  unfold publishSerialized
  rw [if_neg (by omega), hb]
  exact ⟨_, rfl⟩

/-- The samples of the history, oldest first. -/
def retained (p : Publisher D) : List PublishedSample :=
  contents p.history ((p.historyNext + D - p.historySize) % D) p.historySize

theorem publishSerialized_history {t : ℕ} (h : p.publishSerialized serialized (some t) = .ok p') :
    p'.history = Function.update p.history (wrap p.historyNext) ⟨p.nextSequence, t, serialized⟩ ∧
      p'.historyNext = (p.historyNext + 1) % D ∧
      p'.historySize = if p.historySize < D then p.historySize + 1 else p.historySize := by
  obtain ⟨-, t', ht, hhistory⟩ := publishSerialized_result h
  obtain rfl := Option.some.inj ht
  exact hhistory

/-- **The history after a publication**: the sample is the last one, and a full history loses its
oldest one. -/
theorem retained_published {t : ℕ} (h : p.publishSerialized serialized (some t) = .ok p') :
    p'.retained = (if p.historySize = D then p.retained.tail else p.retained) ++
      [⟨p.nextSequence, t, serialized⟩] := by
  have hle := p.size_le
  have hlt := p.next_lt
  obtain ⟨hhistory, hnext, hsize⟩ := publishSerialized_history h
  unfold retained
  rw [hhistory, hnext, hsize, contents_mod, contents_mod]
  by_cases hfull : p.historySize = D
  · -- the oldest sample is in the cell that is written
    have hover := contents_overwrite p.history p.historyNext ⟨p.nextSequence, t, serialized⟩
    rw [if_pos hfull, hfull, if_neg (lt_irrefl D), Nat.add_sub_cancel, Nat.add_sub_cancel]
    exact hover
  · have hroom : p.historySize < D := lt_of_le_of_ne hle hfull
    have hpush := contents_push p.history (p.historyNext + D - p.historySize) hroom
      ⟨p.nextSequence, t, serialized⟩
    have hcell : (wrap (p.historyNext + D - p.historySize + p.historySize) : Fin D) =
        wrap p.historyNext := by
      apply Fin.ext
      rw [wrap_val, wrap_val, Nat.sub_add_cancel (by omega), Nat.add_mod_right]
    have hhead : ((p.historyNext + 1) % D + D - (p.historySize + 1)) % D =
        (p.historyNext + D - p.historySize) % D := by
      rcases Nat.lt_or_ge (p.historyNext + 1) D with hin | hend
      · rw [Nat.mod_eq_of_lt hin]
        congr 1
        omega
      · have hwrap : p.historyNext + 1 = D := by omega
        rw [hwrap, Nat.mod_self]
        have hsum : p.historyNext + D - p.historySize = 0 + D - (p.historySize + 1) + D := by omega
        rw [hsum, Nat.add_mod_right]
    rw [if_neg hfull, if_pos hroom, ← contents_mod, hhead, contents_mod, ← hcell]
    exact hpush

/-- **The numbers of the history** are consecutive and end below the next one. -/
structure Numbered (p : Publisher D) : Prop where
  positive : p.historySize < p.nextSequence
  limit : p.nextSequence ≤ int64Max
  numbers : p.retained.map PublishedSample.sequenceNumber =
    List.range' (p.nextSequence - p.historySize) p.historySize

namespace Numbered

theorem init (participantPrefix : GuidPrefix) (writerId : EntityId) (capacity : ℕ) :
    Numbered (Publisher.init participantPrefix writerId capacity : Publisher D) :=
  ⟨Nat.zero_lt_one, show 1 ≤ int64Max by decide, rfl⟩

variable {p : Publisher D} {x : PublishedSample}

theorem published {p' : Publisher D} (hp : Numbered p) {serialized : List UInt8} {t : ℕ}
    (h : p.publishSerialized serialized (some t) = .ok p') : Numbered p' := by
  have hle := p.size_le
  have hpos := hp.positive
  have hretained := retained_published h
  have hnext := (publishSerialized_ok h).next
  have hlimit : p.nextSequence + 1 ≤ int64Max := (publishSerialized_ok h).number
  have hlen : p'.historySize = p'.retained.length := (contents_length _ _ _).symm
  have hlen' : p.historySize = p.retained.length := (contents_length _ _ _).symm
  by_cases hfull : p.historySize = D
  · rw [if_pos hfull] at hretained
    obtain ⟨k, hk⟩ : ∃ k, p.historySize = k + 1 :=
      ⟨p.historySize - 1, by have := Nat.pos_of_neZero D; omega⟩
    have hsize : p'.historySize = p.historySize := by
      rw [hlen, hretained, List.length_append, List.length_tail, ← hlen', List.length_singleton]
      omega
    refine ⟨by omega, by omega, ?_⟩
    rw [hretained, List.map_append, List.map_tail, hp.numbers, hsize, hnext, hk,
      List.range'_succ, List.tail_cons, List.range'_concat]
    simp only [List.map_cons, List.map_nil, Nat.one_mul]
    congr 1
    · congr 1
      omega
    · congr 1
      omega
  · rw [if_neg hfull] at hretained
    have hsize : p'.historySize = p.historySize + 1 := by
      rw [hlen, hretained, List.length_append, ← hlen', List.length_singleton]
    refine ⟨by omega, by omega, ?_⟩
    rw [hretained, List.map_append, hp.numbers, hsize, hnext, List.range'_concat]
    simp only [List.map_cons, List.map_nil, Nat.one_mul]
    congr 1
    · congr 1
      omega
    · congr 1
      omega

theorem unique (hp : Numbered p) {y : PublishedSample} (hx : x ∈ p.retained)
    (hy : y ∈ p.retained) (h : x.sequenceNumber = y.sequenceNumber) : x = y := by
  have hnodup : (p.retained.map PublishedSample.sequenceNumber).Nodup := by
    rw [hp.numbers]
    exact List.nodup_range'
  exact List.inj_on_of_nodup_map hnodup hx hy h

theorem range (hp : Numbered p) (hx : x ∈ p.retained) :
    p.nextSequence - p.historySize ≤ x.sequenceNumber ∧ x.sequenceNumber < p.nextSequence := by
  have hmem : x.sequenceNumber ∈ p.retained.map PublishedSample.sequenceNumber :=
    List.mem_map_of_mem hx
  have hpos := hp.positive
  rw [hp.numbers, List.mem_range'_1] at hmem
  omega

/-- A sample stays until as many as the history holds have been published after it. -/
theorem keeps {p' : Publisher D} (hp : Numbered p) {serialized : List UInt8} {t : ℕ}
    (h : p.publishSerialized serialized (some t) = .ok p')
    (hx : x ∈ p.retained) (hroom : p'.nextSequence ≤ x.sequenceNumber + D) : x ∈ p'.retained := by
  rw [retained_published h]
  refine List.mem_append_left _ ?_
  split
  next hfull =>
    -- the sample that is lost has a smaller number
    have hnext := (publishSerialized_ok h).next
    have hhead : ∀ y ys, p.retained = y :: ys → y.sequenceNumber = p.nextSequence - D := by
      intro y ys hy
      have hnumbers := hp.numbers
      obtain ⟨k, hk⟩ : ∃ k, p.historySize = k + 1 :=
        ⟨p.historySize - 1, by have := Nat.pos_of_neZero D; omega⟩
      rw [hy, hk, List.range'_succ, List.map_cons, List.cons.injEq] at hnumbers
      rw [hnumbers.1]
      omega
    have hpos := hp.positive
    cases hr : p.retained with
    | nil =>
      rw [hr] at hx
      exact absurd hx List.not_mem_nil
    | cons y ys =>
      have hy := hhead y ys hr
      rw [hr] at hx
      rcases List.mem_cons.1 hx with rfl | hx
      · omega
      · exact hx
  next => exact hx

end Numbered

/-- The loop of `publisher_network_copy_next` keeps the least number above the bound. -/
theorem select_spec (after : ℕ) : ∀ (l : List PublishedSample) (start : Option PublishedSample),
    (∀ x ∈ l, x.sequenceNumber < uint64Max) → (∀ x ∈ start, after < x.sequenceNumber) →
    let selected := l.foldl (fun selected sample =>
      if after < sample.sequenceNumber ∧
          sample.sequenceNumber < (selected.map PublishedSample.sequenceNumber).getD uint64Max
      then some sample else selected) start
    (∀ x ∈ selected, (x ∈ l ∨ some x = start) ∧ after < x.sequenceNumber) ∧
    ∀ y, y ∈ l ∨ some y = start → after < y.sequenceNumber →
      ∃ x, selected = some x ∧ x.sequenceNumber ≤ y.sequenceNumber := by
  intro l
  induction l with
  | nil =>
    intro start _ hstart
    refine ⟨fun x hx => ⟨.inr hx.symm, hstart x hx⟩, fun y hy _ => ?_⟩
    rcases hy with hy | hy
    · exact absurd hy List.not_mem_nil
    · exact ⟨y, hy.symm, le_rfl⟩
  | cons a l ih =>
    intro start hl hstart
    have hl' : ∀ x ∈ l, x.sequenceNumber < uint64Max := fun x hx => hl x (List.mem_cons_of_mem _ hx)
    rw [List.foldl_cons]
    split
    next hcase =>
      obtain ⟨hfrom, hleast⟩ := ih (some a) hl' (by rintro x ⟨⟩; exact hcase.1)
      refine ⟨fun x hx => ?_, fun y hy hafter => ?_⟩
      · obtain ⟨hx | hx, hlow⟩ := hfrom x hx
        · exact ⟨.inl (List.mem_cons_of_mem _ hx), hlow⟩
        · cases hx
          exact ⟨.inl List.mem_cons_self, hlow⟩
      · rcases hy with hy | rfl
        · rcases List.mem_cons.1 hy with rfl | hy
          · exact hleast y (.inr rfl) hafter
          · exact hleast y (.inl hy) hafter
        · -- the sample that was selected so far is not below the new one
          obtain ⟨x, hx, hle⟩ := hleast a (.inr rfl) hcase.1
          have hlt : a.sequenceNumber < y.sequenceNumber := hcase.2
          exact ⟨x, hx, by omega⟩
    next hcase =>
      obtain ⟨hfrom, hleast⟩ := ih start hl' hstart
      refine ⟨fun x hx => ?_, fun y hy hafter => ?_⟩
      · obtain ⟨hx | hx, hlow⟩ := hfrom x hx
        · exact ⟨.inl (List.mem_cons_of_mem _ hx), hlow⟩
        · exact ⟨.inr hx, hlow⟩
      · rcases hy with hy | hy
        · rcases List.mem_cons.1 hy with rfl | hy
          · -- the new sample was passed over for one that is not above it
            cases hs : start with
            | none =>
              have hmax := hl y List.mem_cons_self
              rw [hs] at hcase
              exact absurd ⟨hafter, hmax⟩ hcase
            | some z =>
              obtain ⟨x, hx, hle⟩ := hleast z (.inr hs.symm) (hstart z hs)
              rw [hs] at hcase hx
              have hge : ¬ y.sequenceNumber < z.sequenceNumber := fun hlt => hcase ⟨hafter, hlt⟩
              exact ⟨x, hx, by omega⟩
          · exact hleast y (.inl hy) hafter
        · exact hleast y (.inr hy) hafter

/-- **What the network worker selects** is a retained sample with the least number above the bound. -/
theorem selectNext_spec (hp : Numbered p) (after : ℕ) :
    (∀ x, p.selectNext after = some x → x ∈ p.retained ∧ after < x.sequenceNumber) ∧
      ∀ y ∈ p.retained, after < y.sequenceNumber →
        ∃ x, p.selectNext after = some x ∧ x.sequenceNumber ≤ y.sequenceNumber := by
  have hbound : ∀ y ∈ p.retained, y.sequenceNumber < uint64Max := by
    intro y hy
    have hlt := (hp.range hy).2
    exact lt_of_lt_of_le hlt (hp.limit.trans (by decide))
  have hspec := select_spec after p.retained none hbound nofun
  -- the loop over the offsets is a loop over the retained samples
  unfold retained contents at hspec
  rw [List.foldl_map] at hspec
  refine ⟨fun x hx => ?_, fun y hy hafter => hspec.2 y (.inl hy) hafter⟩
  obtain ⟨hmem | hmem, hlow⟩ := hspec.1 x hx
  · exact ⟨hmem, hlow⟩
  · cases hmem

/-- **A retained sample is found** behind the number before it. -/
theorem selectNext_retained (hp : Numbered p) {x : PublishedSample}
    (hx : x ∈ p.retained) (hpos : 0 < x.sequenceNumber) :
    p.selectNext (x.sequenceNumber - 1) = some x := by
  obtain ⟨hfrom, hleast⟩ := selectNext_spec hp (x.sequenceNumber - 1)
  obtain ⟨y, hy, hle⟩ := hleast x hx (by omega)
  obtain ⟨hmem, hlow⟩ := hfrom y hy
  have hsame : y = x := hp.unique hmem hx (by omega)
  rw [hy, hsame]

theorem publishSerialized_refuses (clock : Option ℕ)
    (hn : 1 ≤ p.nextSequence ∧ p.nextSequence < int64Max)
    (hp : supportedSerializedPayload (.bytes serialized) = false) :
    p.publishSerialized serialized clock =
      .error (.dataConstructionFailed .invalidSerializedPayload) := by
  have hb : buildDataMessage false (p.serializedCapacity + 44) (p.dataConfig p.nextSequence)
      (.bytes serialized) = .error _ :=
    build_refuses rfl (.inr rfl) ⟨hn.1, hn.2.le⟩ hp
  unfold publishSerialized
  rw [if_neg (by omega), hb]

end Publisher

namespace Endpoint

variable {language : TypeSupportLanguage} {D : ℕ} [NeZero D] {e : Endpoint language}
  {p : Publisher D} {v : Sample language}

/-- A message that is published was serialized, and its bytes go behind the envelope. -/
theorem publishSample_serialized {shutdown : Bool} {p' : Publisher D} {requestId : Option RequestId}
    {clock : Option ℕ} (h : e.publishSample shutdown p v requestId clock = .ok p') :
    ∃ body, e.type.serialize v e.type.info.maximumSerializedSize .littleEndian = .ok body ∧
      p.publishSerialized ((requestId.map correlationEnvelope).getD [] ++ body) clock = .ok p' := by
  unfold publishSample at h
  split_ifs at h
  split at h
  · cases h
  rename_i body hbody
  simp only at h
  split at h
  · cases h
  rename_i hp
  cases h
  exact ⟨body, hbody, hp⟩

/-- Behind the serialization, a sample of a topic is published as it is. -/
theorem publishSample_topic (hc : e.channel = .topic) (shutdown : Bool) (clock : Option ℕ)
    {body : List UInt8}
    (hbody : e.type.serialize v e.type.info.maximumSerializedSize .littleEndian = .ok body) :
    e.publishSample shutdown p v none clock = if shutdown then .error .contextShutdown
      else (p.publishSerialized body clock).mapError .publishFailed := by
  unfold publishSample
  rw [if_neg (by simp [hc]), hbody]
  split
  · rfl
  · simp only [Option.map_none, Option.getD_none, List.nil_append]
    cases p.publishSerialized body clock <;> rfl

theorem published_cases (e : Endpoint language) (p : Publisher D) (call : PublishCall language) :
    e.published p call = p ∨
      ∃ body t, p.publishSerialized body (some t) = .ok (e.published p call) := by
  unfold published
  cases hcall : e.publishSample call.shutdown p call.message none call.clock with
  | error _ => exact .inl rfl
  | ok p' =>
    obtain ⟨body, _, hpub⟩ := publishSample_serialized hcall
    obtain ⟨t, ht⟩ := Publisher.publishSerialized_clock hpub
    rw [ht] at hpub
    exact .inr ⟨_, t, hpub⟩

/-- **A publisher in a run of calls**: its identity stays and its numbers stay consecutive. -/
structure Publishing (p q : Publisher D) : Prop where
  participantPrefix : q.participantPrefix = p.participantPrefix
  writerId : q.writerId = p.writerId
  capacity : q.serializedCapacity = p.serializedCapacity
  numbered : q.Numbered

theorem run_published (hp : p.Numbered) (calls : List (PublishCall language)) :
    Publishing p (run e.published p calls) := by
  refine run_inv (P := Publishing p) ?_ ⟨rfl, rfl, rfl, hp⟩ calls
  intro q call h
  rcases e.published_cases q call with hsame | ⟨body, t, hpub⟩
  · rw [hsame]
    exact h
  · have hok := Publisher.publishSerialized_ok hpub
    exact ⟨hok.participantPrefix.trans h.participantPrefix, hok.writerId.trans h.writerId,
      hok.capacity.trans h.capacity, h.numbered.published hpub⟩

/-- **A sample is retained** until as many as the history holds have been published after it. -/
theorem run_keeps (hp : p.Numbered) {x : PublishedSample} (hx : x ∈ p.retained)
    (calls : List (PublishCall language)) :
    (run e.published p calls).nextSequence ≤ x.sequenceNumber + D →
      x ∈ (run e.published p calls).retained := by
  let kept (q : Publisher D) : Prop :=
    q.Numbered ∧ (q.nextSequence ≤ x.sequenceNumber + D → x ∈ q.retained)
  have hrun : kept (run e.published p calls) := by
    refine run_inv (P := kept) ?_ ⟨hp, fun _ => hx⟩ calls
    intro q call h
    rcases e.published_cases q call with hsame | ⟨body, t, hpub⟩
    · rw [hsame]
      exact h
    · have hnext := (Publisher.publishSerialized_ok hpub).next
      exact ⟨h.1.published hpub, fun hroom => h.1.keeps hpub (h.2 (by omega)) hroom⟩
  exact hrun.2

end Endpoint

end OpenRtdds
