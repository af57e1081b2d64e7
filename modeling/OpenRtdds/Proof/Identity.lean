import OpenRtdds.Proof.ServiceSample
import OpenRtdds.Spec.Context

/-!
# The identities of published samples

A publisher numbers its samples from one on, and its GUID is made of its slot. So two samples have
one identity only if their publishers had the same slot, one after the other; and a remote
subscription, which keeps the last number of a GUID, takes a sample for a duplicate only if it
has accepted one of that slot with the number or a larger one.

* `ContextOK`: what the live publishers and the samples sent so far know of each other.
* `ContextOK.step`: every call keeps it.
* `BroadcastOK`: the writer table of the remote subscription speaks of samples it has accepted.
* `sample_identities`: the three facts, after every run.
* `recreated_publisher_suppressed`: a publisher re-created in a slot repeats its identities.
-/

namespace OpenRtdds

open Lib

theorem writerId_injective : ∀ {slot slot' : Fin 8}, writerId slot = writerId slot' → slot = slot' := by
  decide

theorem makeGid_injective {p p' : GuidPrefix} {e e' : EntityId} (h : makeGid p e = makeGid p' e') :
    p = p' ∧ e = e' := by
  obtain ⟨hp, he⟩ := Array.append_inj (congrArg Vector.toArray h) (by simp)
  exact ⟨Vector.toArray_inj.1 hp, Vector.toArray_inj.1 he⟩

/-- What is true of a sample that a context with the prefix `p` and `n` publishers has sent. -/
structure PublicationOK (p : GuidPrefix) (n : ℕ) (x : Publication) : Prop where
  guid : x.guid = makeGid p (writerId x.slot)
  datagram : ∃ v, parseDataMessage (.bytes x.datagram) = .ok v ∧
    v.guidPrefix = p ∧ v.writerId = writerId x.slot ∧ v.sequenceNumber = x.number
  request : ∀ id, x.request = some id → id.writerGuid = x.guid
  serial : x.serial < n

/-- What is true of the publisher in a slot: it will use no number again. -/
structure PublisherOK (p : GuidPrefix) (n : ℕ) (sent : List Publication) (slot : Fin 8)
    (d : PublisherData) : Prop where
  participant : d.publisher.participantPrefix = p
  entity : d.publisher.writerId = writerId slot
  serial : d.serial < n
  slots : ∀ x ∈ sent, x.serial = d.serial → x.slot = slot
  numbers : ∀ x ∈ sent, x.serial = d.serial → x.number < d.publisher.nextSequence
  gid : ∀ client, d.client = some client → client.gid = makeGid p (writerId slot)
  requests : ∀ client, d.client = some client → ∀ x ∈ sent, x.serial = d.serial →
    ∀ id, x.request = some id → id.sequenceNumber < client.nextSequence

/-- Two samples in the order they were sent: one publisher numbers them upwards. -/
def Ordered (x y : Publication) : Prop :=
  x.serial = y.serial → x.slot = y.slot ∧ x.number < y.number ∧
    ∀ id id', x.request = some id → y.request = some id' → id.sequenceNumber < id'.sequenceNumber

/-- **The invariant of a context** that has sent `sent`. -/
structure ContextOK (c : Context) (sent : List Publication) : Prop where
  publishers : ∀ slot d, (c.publishers slot).data = some d →
    PublisherOK c.participantPrefix c.created sent slot d
  distinct : ∀ slot slot' d d', (c.publishers slot).data = some d →
    (c.publishers slot').data = some d' → d.serial = d'.serial → slot = slot'
  publications : ∀ x ∈ sent, PublicationOK c.participantPrefix c.created x
  ordered : sent.Pairwise Ordered

section Extend

variable {p : GuidPrefix} {n n' : ℕ} {sent : List Publication} {slot : Fin 8} {d : PublisherData}

theorem PublicationOK.mono {x : Publication} (h : PublicationOK p n x) (hn : n ≤ n') :
    PublicationOK p n' x :=
  ⟨h.guid, h.datagram, h.request, h.serial.trans_le hn⟩

theorem PublisherOK.mono (h : PublisherOK p n sent slot d) (hn : n ≤ n') :
    PublisherOK p n' sent slot d :=
  ⟨h.participant, h.entity, h.serial.trans_le hn, h.slots, h.numbers, h.gid, h.requests⟩

theorem PublisherOK.others (h : PublisherOK p n sent slot d) {news : List Publication}
    (hnews : ∀ x ∈ news, x.serial ≠ d.serial) : PublisherOK p n (sent ++ news) slot d where
  participant := h.participant
  entity := h.entity
  serial := h.serial
  gid := h.gid
  slots := List.forall_mem_append.2 ⟨h.slots, fun x hx hs => absurd hs (hnews x hx)⟩
  numbers := List.forall_mem_append.2 ⟨h.numbers, fun x hx hs => absurd hs (hnews x hx)⟩
  requests := fun client hc =>
    List.forall_mem_append.2 ⟨h.requests client hc, fun x hx hs => absurd hs (hnews x hx)⟩

end Extend

theorem Context.store_data {c : Context} {slot k : Fin 8} {d e : PublisherData}
    (hk : ((c.store slot d).publishers k).data = some e) :
    k = slot ∧ e = d ∨ k ≠ slot ∧ (c.publishers k).data = some e := by
  by_cases hks : k = slot
  · subst hks
    simp only [Context.store, Function.update_self, Option.some.injEq] at hk
    exact .inl ⟨rfl, hk.symm⟩
  · simp only [Context.store, Function.update_of_ne hks] at hk
    exact .inr ⟨hks, hk⟩

namespace ContextOK

variable {c : Context} {sent : List Publication}

theorem init (p : GuidPrefix) : ContextOK (.init p) [] where
  publishers := fun _ _ h => by cases h
  distinct := fun _ _ _ _ h => by cases h
  publications := fun _ h => absurd h List.not_mem_nil
  ordered := .nil

variable {d : PublisherData} {slot : Fin 8}

/-- The publisher of a slot is replaced by its next state, which may have sent more. -/
theorem store (h : ContextOK c sent) {d' : PublisherData}
    (hd : (c.publishers slot).data = some d) {news : List Publication}
    (hd' : PublisherOK c.participantPrefix c.created (sent ++ news) slot d')
    (hserial : d'.serial = d.serial)
    (hnews : ∀ x ∈ news, PublicationOK c.participantPrefix c.created x ∧ x.serial = d.serial)
    (hordered : (sent ++ news).Pairwise Ordered) : ContextOK (c.store slot d') (sent ++ news) := by
  refine ⟨fun k e hk => ?_, fun k k' e e' hk hk' hs => ?_, ?_, hordered⟩
  · rcases Context.store_data hk with ⟨rfl, rfl⟩ | ⟨hne, hk⟩
    · exact hd'
    · refine (h.publishers k e hk).others fun x hx hs => hne ?_
      exact h.distinct k slot e d hk hd (hs.symm.trans (hnews x hx).2)
  · rcases Context.store_data hk with ⟨rfl, rfl⟩ | ⟨-, hold⟩ <;>
      rcases Context.store_data hk' with ⟨rfl, rfl⟩ | ⟨-, hold'⟩
    · rfl
    · exact h.distinct _ _ _ _ hd hold' (hserial.symm.trans hs)
    · exact h.distinct _ _ _ _ hold hd (hs.trans hserial)
    · exact h.distinct _ _ _ _ hold hold' hs
  · exact List.forall_mem_append.2 ⟨h.publications, fun x hx => (hnews x hx).1⟩

/-- A publication through the publisher of a slot keeps the invariant, if the request id it logs
belongs to the slot and is above those the publisher logged before. -/
theorem publishThrough (h : ContextOK c sent)
    (hd : (c.publishers slot).data = some d) {client : Option ClientData} (message : RosMessage)
    {requestId request : Option RequestId} (clock : Option ℕ)
    (hgid : ∀ k, client = some k → k.gid = makeGid c.participantPrefix (writerId slot))
    (hold : ∀ k, client = some k → ∀ x ∈ sent, x.serial = d.serial →
      ∀ id, x.request = some id → id.sequenceNumber < k.nextSequence)
    (hnew : ∀ id, request = some id → id.writerGuid = makeGid c.participantPrefix (writerId slot) ∧
      (∀ k, client = some k → id.sequenceNumber < k.nextSequence) ∧
      ∀ x ∈ sent, x.serial = d.serial →
        ∀ id', x.request = some id' → id'.sequenceNumber < id.sequenceNumber) :
    ContextOK (c.publishThrough slot d client message requestId request clock).1
      (sent ++ (c.publishThrough slot d client message requestId request clock).2.toList) := by
  unfold Context.publishThrough
  cases hpub : d.endpoint.publishSample c.shutdown d.publisher (message d.language) requestId clock with
  | error e =>
    rw [Option.toList_none, List.append_nil]
    exact h
  | ok p' =>
    obtain ⟨body, -, hserialized⟩ := Endpoint.publishSample_serialized hpub
    have hp := Publisher.publishSerialized_ok hserialized
    have hok := h.publishers slot d hd
    have hguid : makeGid d.publisher.participantPrefix d.publisher.writerId =
        makeGid c.participantPrefix (writerId slot) := by rw [hok.participant, hok.entity]
    simp only [Option.toList_some]
    refine h.store hd ?_ ?_ ?_ ?_
    · exact {
        participant := hp.participantPrefix.trans hok.participant
        entity := hp.writerId.trans hok.entity
        serial := hok.serial
        slots := List.forall_mem_append.2 ⟨hok.slots, List.forall_mem_singleton.2 fun _ => rfl⟩
        numbers := List.forall_mem_append.2
          ⟨fun x hx hs => hp.next ▸ Nat.lt_succ_of_lt (hok.numbers x hx hs),
            List.forall_mem_singleton.2 fun _ => hp.next ▸ Nat.lt_succ_self _⟩
        gid := hgid
        requests := fun k hk => List.forall_mem_append.2
          ⟨hold k hk, List.forall_mem_singleton.2 fun _ id hid => (hnew id hid).2.1 k hk⟩ }
    · rfl
    · refine List.forall_mem_singleton.2 ⟨⟨hguid, ⟨_, parse_build hp.datagram, hok.participant,
        hok.entity, rfl⟩, fun id hid => (hnew id hid).1.trans hguid.symm, hok.serial⟩, rfl⟩
    · refine List.pairwise_append.2 ⟨h.ordered, List.pairwise_singleton _ _, fun x hx => ?_⟩
      refine List.forall_mem_singleton.2 fun hs => ⟨hok.slots x hx hs, hok.numbers x hx hs, ?_⟩
      intro id id' hid hid'
      exact (hnew id' hid').2.2 x hx hs id hid

/-- A client may change what is not its GID and its next number. -/
theorem updateClient (h : ContextOK c sent)
    (hd : (c.publishers slot).data = some d) {client : Option ClientData}
    (hclient : ∀ k, client = some k → ∃ k₀, d.client = some k₀ ∧ k.gid = k₀.gid ∧
      k.nextSequence = k₀.nextSequence) : ContextOK (c.store slot { d with client }) sent := by
  have hok := h.publishers slot d hd
  have hnext : PublisherOK c.participantPrefix c.created (sent ++ []) slot { d with client } := by
    rw [List.append_nil]
    refine ⟨hok.participant, hok.entity, hok.serial, hok.slots, hok.numbers, ?_, ?_⟩
    · intro k hk
      obtain ⟨k₀, hk₀, hgid, -⟩ := hclient k hk
      exact hgid.trans (hok.gid k₀ hk₀)
    · intro k hk x hx hs id hid
      obtain ⟨k₀, hk₀, -, hnumber⟩ := hclient k hk
      exact hnumber ▸ hok.requests k₀ hk₀ x hx hs id hid
  have hstore := h.store hd hnext rfl (fun x hx => absurd hx List.not_mem_nil)
    ((List.append_nil sent).symm ▸ h.ordered)
  rwa [List.append_nil] at hstore

theorem createPublisher (h : ContextOK c sent) {language : TypeSupportLanguage}
    (endpoint : Endpoint language) (depth : ℕ+) (isClient : Bool) :
    ContextOK (c.createPublisher endpoint depth isClient) sent := by
  unfold Context.createPublisher
  split
  · exact h
  split
  · exact h
  rename_i slot _
  have hnone : ∀ x ∈ sent, x.serial ≠ c.created := fun x hx => (h.publications x hx).serial.ne
  have hlive : ∀ {k e}, (c.publishers k).data = some e → e.serial ≠ c.created :=
    fun hk => (h.publishers _ _ hk).serial.ne
  refine ⟨fun k e hk => ?_, fun k k' e e' hk hk' hserial => ?_,
    fun x hx => (h.publications x hx).mono (Nat.le_succ _), h.ordered⟩
  · rcases Context.store_data hk with ⟨rfl, rfl⟩ | ⟨-, hk⟩
    · exact {
        participant := rfl
        entity := rfl
        serial := Nat.lt_succ_self _
        slots := fun x hx hx' => absurd hx' (hnone x hx)
        numbers := fun x hx hx' => absurd hx' (hnone x hx)
        gid := fun client hc => by
          simp only [Option.ite_none_right_eq_some] at hc
          obtain ⟨-, ⟨⟩⟩ := hc
          rfl
        requests := fun client _ x hx hx' => absurd hx' (hnone x hx) }
    · exact (h.publishers k e hk).mono (Nat.le_succ _)
  · rcases Context.store_data hk with ⟨rfl, rfl⟩ | ⟨-, hold⟩ <;>
      rcases Context.store_data hk' with ⟨rfl, rfl⟩ | ⟨-, hold'⟩
    · rfl
    · exact absurd hserial.symm (hlive hold')
    · exact absurd hserial (hlive hold)
    · exact h.distinct _ _ _ _ hold hold' hserial

/-- A destruction frees a slot and forgets nothing that was sent. -/
theorem release (h : ContextOK c sent) (slot : Fin 8) :
    ContextOK { c with
      publishers := Function.update c.publishers slot (c.publishers slot).release } sent := by
  have hdata : ∀ {k e}, (Function.update c.publishers slot (c.publishers slot).release k).data =
      some e → (c.publishers k).data = some e := by
    intro k e hk
    by_cases hks : k = slot
    · subst hks
      rw [Function.update_self] at hk
      cases hk
    · rwa [Function.update_of_ne hks] at hk
  exact ⟨fun k e hk => h.publishers k e (hdata hk),
    fun k k' e e' hk hk' => h.distinct k k' e e' (hdata hk) (hdata hk'), h.publications, h.ordered⟩

theorem validPublisher_data {handle : PublisherHandle}
    (hd : c.validPublisher handle = some d) : (c.publishers handle.slot).data = some d := by
  unfold Context.validPublisher at hd
  split_ifs at hd
  exact hd

/-- A client gives every request the next number. -/
theorem sendRequest (h : ContextOK c sent)
    (hd : (c.publishers slot).data = some d) {client : ClientData} (hc : d.client = some client)
    (message : RosMessage) (clock : Option ℕ) :
    ContextOK (c.sendRequest slot d client message clock).1
      (sent ++ (c.sendRequest slot d client message clock).2.toList) := by
  have hok := h.publishers _ d hd
  have hkeep : ContextOK c (sent ++ (none : Option Publication).toList) := by
    rwa [Option.toList_none, List.append_nil]
  unfold Context.sendRequest
  split
  · exact hkeep
  next client' hrequest =>
  obtain ⟨-, -, rfl⟩ := ClientData.request_ok hrequest
  refine h.publishThrough hd message clock ?_ ?_ ?_
  · rintro _ ⟨⟩
    exact hok.gid client hc
  · rintro _ ⟨⟩ x hx hs id hid
    exact Nat.lt_succ_of_lt (hok.requests client hc x hx hs id hid)
  · rintro _ ⟨⟩
    refine ⟨hok.gid client hc, ?_, hok.requests client hc⟩
    rintro _ ⟨⟩
    exact Nat.lt_succ_self _

/-- **Every call keeps the invariant.** -/
theorem step (h : ContextOK c sent) (e : ContextEvent) :
    ContextOK (c.step e).1 (sent ++ (c.step e).2.toList) := by
  have hkeep : ∀ {c'}, ContextOK c' sent → ContextOK c' (sent ++ (none : Option Publication).toList) := by
    intro c' hc
    rwa [Option.toList_none, List.append_nil]
  cases e with
  | createPublisher endpoint depth => exact hkeep (h.createPublisher endpoint depth false)
  | createClient endpoint depth => exact hkeep (h.createPublisher endpoint depth true)
  | shutdown => exact hkeep ⟨h.publishers, h.distinct, h.publications, h.ordered⟩
  | destroy handle =>
    unfold Context.step
    simp only
    cases hd : c.validPublisher handle with
    | none => exact hkeep h
    | some d => exact hkeep (h.release handle.slot)
  | publish handle message clock =>
    unfold Context.step
    simp only
    cases hd : c.validPublisher handle with
    | none => exact hkeep h
    | some d =>
      have hdata := validPublisher_data hd
      have hok := h.publishers _ d hdata
      exact h.publishThrough hdata message clock hok.gid hok.requests fun id hid => by cases hid
  | sendResponse handle requestId message clock =>
    unfold Context.step
    simp only
    cases hd : c.validPublisher handle with
    | none => exact hkeep h
    | some d =>
      have hdata := validPublisher_data hd
      have hok := h.publishers _ d hdata
      exact h.publishThrough hdata message clock hok.gid hok.requests fun id hid => by cases hid
  | sendRequest handle message clock =>
    unfold Context.step
    simp only
    cases hd : c.validPublisher handle with
    | none => exact hkeep h
    | some d =>
      simp only
      cases hc : d.client with
      | none => exact hkeep h
      | some client => exact h.sendRequest (validPublisher_data hd) hc message clock
  | takeResponse handle entry =>
    unfold Context.step
    simp only
    cases hd : c.validPublisher handle with
    | none => exact hkeep h
    | some d =>
      refine hkeep (h.updateClient (validPublisher_data hd) fun k hk => ?_)
      obtain ⟨k₀, hk₀, rfl⟩ := Option.map_eq_some_iff.1 hk
      exact ⟨k₀, hk₀, rfl, rfl⟩

end ContextOK

theorem Context.step_participantPrefix (c : Context) (e : ContextEvent) :
    (c.step e).1.participantPrefix = c.participantPrefix := by
  have hpublish : ∀ slot d client message requestId request clock,
      (c.publishThrough slot d client message requestId request clock).1.participantPrefix =
        c.participantPrefix := by
    intros
    unfold Context.publishThrough
    split <;> rfl
  have hcreate : ∀ {language} (endpoint : Endpoint language) depth isClient,
      (c.createPublisher endpoint depth isClient).participantPrefix = c.participantPrefix := by
    intros
    unfold Context.createPublisher
    split
    · rfl
    split <;> rfl
  cases e with
  | createPublisher endpoint depth => exact hcreate endpoint depth false
  | createClient endpoint depth => exact hcreate endpoint depth true
  | shutdown => rfl
  | destroy handle | takeResponse handle entry =>
    unfold Context.step
    simp only
    split <;> rfl
  | publish handle message clock | sendResponse handle requestId message clock =>
    unfold Context.step
    simp only
    split
    · rfl
    · exact hpublish ..
  | sendRequest handle message clock =>
    unfold Context.step
    simp only
    split
    · rfl
    split
    · rfl
    unfold Context.sendRequest
    split
    · rfl
    · exact hpublish ..

/-- **The invariant of both sides**: the writer table speaks of samples that were accepted. -/
structure BroadcastOK {D : ℕ} (s : Broadcast D) : Prop where
  context : ContextOK s.context s.sent
  accepted : ∀ y ∈ s.accepted, y ∈ s.sent
  table : ∀ i, (s.remote.writers i).occupied = true → ∀ slot,
    (s.remote.writers i).guid = makeGid s.context.participantPrefix (writerId slot) →
    ∃ y ∈ s.accepted, y.slot = slot ∧ y.number = (s.remote.writers i).lastSequence

namespace BroadcastOK

variable {D : ℕ} [NeZero D] {s : Broadcast D}

theorem deliver (h : BroadcastOK s) (index ts : ℕ) : BroadcastOK (s.step (.deliver index ts)) := by
  unfold Broadcast.step
  simp only
  cases hx : s.sent[index]? with
  | none => exact h
  | some x =>
    have hmem : x ∈ s.sent := List.mem_of_getElem? hx
    have hin := s.remote.networkReceive_outcome (.bytes x.datagram) ts
    simp only
    generalize s.remote.networkReceive (.bytes x.datagram) ts = out at hin
    cases hin with
    | refused href _ =>
      simp only [href, Option.isSome_none, Bool.false_eq_true, if_false]
      exact ⟨h.context, h.accepted, h.table⟩
    | @accepted v i isNew _ hparse _ =>
      simp only [acceptedNumber?, Option.isSome_some, if_true]
      refine ⟨h.context, List.forall_mem_append.2 ⟨h.accepted, List.forall_mem_singleton.2 hmem⟩, ?_⟩
      intro j hj slot hguid
      by_cases hji : j = i
      · -- the writer of the sample
        subst hji
        simp only [Subscription.commit, Function.update_self] at hguid ⊢
        obtain ⟨v', hparse', hp, hw, hn⟩ := (h.context.publications x hmem).datagram
        cases hparse.symm.trans hparse'
        refine ⟨x, List.mem_append_right _ (List.mem_singleton_self x), ?_, hn.symm⟩
        have hslot := (makeGid_injective hguid).2
        rw [hw] at hslot
        exact writerId_injective hslot
      · simp only [Subscription.commit, Function.update_of_ne hji] at hj hguid ⊢
        obtain ⟨y, hy, hys⟩ := h.table j hj slot hguid
        exact ⟨y, List.mem_append_left _ hy, hys⟩

theorem foreign (h : BroadcastOK s) (packet : Span) (ts : ℕ) :
    BroadcastOK (s.step (.foreign packet ts)) := by
  unfold Broadcast.step
  simp only
  cases hparse : parseDataMessage packet with
  | error e => exact h
  | ok v =>
    simp only
    split
    · exact h
    rename_i hforeign
    have hin := s.remote.networkReceive_outcome packet ts
    generalize s.remote.networkReceive packet ts = out at hin
    cases hin with
    | refused _ _ => exact ⟨h.context, h.accepted, h.table⟩
    | @accepted v' i isNew _ hparse' _ =>
      cases hparse'.symm.trans hparse
      refine ⟨h.context, h.accepted, fun j hj slot hguid => ?_⟩
      by_cases hji : j = i
      · subst hji
        simp only [Subscription.commit, Function.update_self] at hguid
        exact absurd (makeGid_injective hguid).1 hforeign
      · simp only [Subscription.commit, Function.update_of_ne hji] at hj hguid ⊢
        exact h.table j hj slot hguid

theorem step (h : BroadcastOK s) (e : BroadcastEvent) : BroadcastOK (s.step e) := by
  cases e with
  | call event =>
    refine ⟨h.context.step event, fun y hy => List.mem_append_left _ (h.accepted y hy), ?_⟩
    intro i hi slot hguid
    refine h.table i hi slot ?_
    rwa [← s.context.step_participantPrefix event]
  | deliver index ts => exact h.deliver index ts
  | foreign packet ts => exact h.foreign packet ts
  | take decode =>
    have hwriters : (s.remote.takeOne decode).2.writers = s.remote.writers := by
      simp only [Subscription.takeOne]
      split
      · rfl
      split
      · rfl
      split <;> rfl
    refine ⟨h.context, h.accepted, fun i hi slot hguid => ?_⟩
    simp only [Broadcast.step, hwriters] at hi hguid ⊢
    exact h.table i hi slot hguid

end BroadcastOK

/-- **The identities of samples and requests**, after every run of a context. Two samples with one
writer GUID and one number, and two requests with one request id, come from different publishers
that had the same slot. And if a remote subscription takes a sample for a duplicate, it has accepted
before a sample with that number or a larger one of a publisher in the same slot. -/
theorem sample_identities {D : ℕ} [NeZero D] (participantPrefix remotePrefix : GuidPrefix)
    (readerId : EntityId) (serializedCapacity : ℕ) (ignoreLocalPublications : Bool)
    (es : List BroadcastEvent) :
    let s : Broadcast D := .after participantPrefix remotePrefix readerId serializedCapacity
      ignoreLocalPublications es
    s.sent.Pairwise (fun x y => x.guid = y.guid → x.number = y.number →
      x.slot = y.slot ∧ x.serial ≠ y.serial) ∧
    s.sent.Pairwise (fun x y => ∀ id, x.request = some id → y.request = some id →
      x.slot = y.slot ∧ x.serial ≠ y.serial) ∧
    ∀ x ∈ s.sent, ∀ ts n,
      (s.remote.networkReceive (.bytes x.datagram) ts).1 = .ok (.duplicateOrStale n) →
      ∃ y ∈ s.accepted, y ∈ s.sent ∧ y.slot = x.slot ∧ x.number ≤ y.number := by
  intro s
  have h : BroadcastOK s := run_inv (fun _ e h => h.step e)
    ⟨.init participantPrefix, fun y hy => absurd hy List.not_mem_nil, fun i hi => by cases hi⟩ es
  -- the GUID of a sample determines its slot
  have hslot : ∀ {x y}, x ∈ s.sent → y ∈ s.sent → x.guid = y.guid → x.slot = y.slot := by
    intro x y hx hy hguid
    rw [(h.context.publications x hx).guid, (h.context.publications y hy).guid] at hguid
    exact writerId_injective (makeGid_injective hguid).2
  refine ⟨?_, ?_, ?_⟩
  · refine h.context.ordered.imp_of_mem fun hx hy hxy hguid hnumber => ⟨hslot hx hy hguid, ?_⟩
    exact fun hserial => absurd hnumber (hxy hserial).2.1.ne
  · refine h.context.ordered.imp_of_mem fun {x y} hx hy hxy id hid hid' => ⟨hslot hx hy ?_, ?_⟩
    · rw [← (h.context.publications x hx).request id hid,
        (h.context.publications y hy).request id hid']
    · exact fun hserial => absurd ((hxy hserial).2.2 id id hid hid') (lt_irrefl _)
  · intro x hx ts n hdup
    have hin := s.remote.networkReceive_outcome (.bytes x.datagram) ts
    generalize s.remote.networkReceive (.bytes x.datagram) ts = out at hin hdup
    cases hin with
    | accepted => cases hdup
    | refused _ hduplicate =>
      obtain ⟨v, i, hparse, hfind, hle⟩ := hduplicate n hdup
      obtain ⟨v', hparse', hp, hw, hn⟩ := (h.context.publications x hx).datagram
      cases hparse.symm.trans hparse'
      have hfound := List.find?_some hfind
      simp only [Bool.and_eq_true, beq_iff_eq] at hfound
      obtain ⟨y, hy, hys, hyn⟩ := h.table i hfound.1 x.slot (hfound.2.trans (by rw [hp, hw]))
      exact ⟨y, hy, h.accepted y hy, hys, by omega⟩

/-- The message `fullSample` in each language. -/
def fullMessage : RosMessage
  | .introspectionC => fullSampleC
  | .introspectionCpp => fullSample

/-- A publisher publishes and is destroyed, and another one takes its slot and publishes. The remote
subscription receives the first sample when it is sent. -/
def recreationEvents : List BroadcastEvent :=
  [.call (.createPublisher sampleTopic 1), .call (.publish ⟨0, 1⟩ fullMessage (some 1)),
    .deliver 0 1, .call (.destroy ⟨0, 1⟩), .call (.createPublisher sampleTopic 1),
    .call (.publish ⟨0, 2⟩ fullMessage (some 2))]

def recreation : Broadcast 1 :=
  .after (configuredPrefix 0 1 4660) (configuredPrefix 0 2 4661) (readerId 0) 24 false
    recreationEvents

/-- **A re-created publisher repeats an identity**: the two samples have one GUID and the number 1,
and the second one is a duplicate for the remote subscription. -/
theorem recreated_publisher_suppressed :
    recreation.sent.map (fun x => (x.serial, x.guid, x.number)) =
      [(0, makeGid (configuredPrefix 0 1 4660) (writerId 0), 1),
        (1, makeGid (configuredPrefix 0 1 4660) (writerId 0), 1)] ∧
    recreation.sent.map (fun x => (recreation.remote.networkReceive (.bytes x.datagram) 2).1) =
      [.ok (.duplicateOrStale 1), .ok (.duplicateOrStale 1)] := by
  decide +kernel

/-- The two samples with one identity come from different publishers in one slot. -/
theorem recreation_identities : recreation.sent.length = 2 ∧
    recreation.sent.Pairwise (fun x y => x.guid = y.guid → x.number = y.number →
      x.slot = y.slot ∧ x.serial ≠ y.serial) :=
  ⟨by decide +kernel, (sample_identities (configuredPrefix 0 1 4660) (configuredPrefix 0 2 4661)
    (readerId 0) 24 false recreationEvents).1⟩

end OpenRtdds
