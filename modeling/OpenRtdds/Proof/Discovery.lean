import OpenRtdds.Proof.GraphCapacity
import OpenRtdds.Proof.ParserSafety
import OpenRtdds.Spec.Discovery

/-!
# The discovery state is closed

Three tables of different sizes are filled by datagrams that anybody can send, and emptied on two
timers. The table of participants is the one that the others hang on: an endpoint and a snapshot of the
graph are taken only from a participant that is in it, and go when it goes.

* `NetworkRuntime.participantsOf`: the entries of a prefix.
* `NetworkRuntime.Inv`, `step_inv`: the invariant, one lemma for each thing a step can do.
* `generationSlot_of_known`: there is always an entry for the snapshots of a participant, because the
  participants with an entry are among the sixteen that are known.
* `recomputeMatches_matched`, `step_matched`: the counts after a change of the endpoints.
* `discovery_closed`.
-/

namespace OpenRtdds

open Lib Guarded

namespace NetworkRuntime

section Tables

/-- The identity of a remote endpoint. -/
def endpointKey (e : RemoteEndpoint) : GuidPrefix × EntityId :=
  (e.data.participantGuidPrefix, e.data.endpointId)

/-- The prefix of a remote participant. -/
def participantKey (p : RemoteParticipant) : GuidPrefix := p.data.guidPrefix

/-- The entries of the participants with a prefix. -/
def participantsOf (s : NetworkRuntime) (guidPrefix : GuidPrefix) : List RemoteParticipant :=
  recordsOf RemoteParticipant.occupied participantKey s.participants.toList guidPrefix

theorem findParticipant_some {s : NetworkRuntime} {guidPrefix : GuidPrefix} {i : Fin 16}
    (h : s.findParticipant guidPrefix = some i) : s.participantsOf guidPrefix ≠ [] := by
  obtain ⟨before, after, hslots, -, hmatch, -⟩ := findFinIdx?_split h {}
  obtain ⟨hocc, howner⟩ := Bool.and_eq_true_iff.1 hmatch
  refine List.ne_nil_of_mem (mem_recordsOf.2 ⟨?_, hocc, beq_iff_eq.1 howner⟩)
  rw [hslots]
  exact List.mem_append_right _ List.mem_cons_self

end Tables

section Invariant

/-- **The invariant of the discovery state.** -/
structure Inv (s : NetworkRuntime) : Prop where
  participants : Keyed RemoteParticipant.occupied participantKey s.participants.toList
  notLocal : s.participantsOf s.participantPrefix = []
  endpoints : Keyed RemoteEndpoint.occupied endpointKey s.endpoints.toList
  parsed : ∀ e ∈ s.endpoints.toList, e.occupied = true → e.data.Parsed e.data.participantGuidPrefix
  owned : ∀ e ∈ s.endpoints.toList, e.occupied = true →
    s.participantsOf e.data.participantGuidPrefix ≠ []
  graph : s.graph.Inv
  known : ∀ q, s.graph.entriesOf q ≠ [] → s.participantsOf q ≠ []

variable {s : NetworkRuntime}

theorem mem_replicate_free {α : Type} {n : ℕ} {record x : α} (hx : x ∈ (Vector.replicate n record).toList) :
    x = record := by
  rw [Vector.toList_replicate] at hx
  exact List.eq_of_mem_replicate hx

theorem inv_initial (participantPrefix : GuidPrefix) (domainId : ℕ) :
    Inv { participantPrefix, domainId } := by
  refine ⟨keyed_replicate rfl 16, recordsOf_replicate rfl 16 _, keyed_replicate rfl 32,
    fun e he hocc => ?_, fun e he hocc => ?_, GraphCache.inv_initial, fun q hq => absurd (GraphCache.entriesOf_initial q) hq⟩
  · rw [mem_replicate_free he] at hocc
    cases hocc
  · rw [mem_replicate_free he] at hocc
    cases hocc

/-- A participant that is announced: nobody loses an entry. -/
theorem announceParticipant_inv (h : s.Inv) (data : SpdpParticipantData) (nowNs : UInt64) :
    (s.announceParticipant data nowNs).Inv := by
  unfold announceParticipant
  split
  · exact h
  next hforeign =>
    dsimp only
    cases hupsert : upsert RemoteParticipant.occupied
        (fun p => decide (p.data.guidPrefix = data.guidPrefix)) s.participants
        { data, lastSeenNs := nowNs, occupied := true } with
    | none => exact h
    | some participants =>
      have hrecords := @recordsOf_upsert _ _ _ _ participantKey { data, lastSeenNs := nowNs, occupied := true }
        _ s.participants participants rfl hupsert
      obtain ⟨hmine, hothers⟩ := hrecords
      have hkept : ∀ q, s.participantsOf q ≠ [] →
          ({ s with participants } : NetworkRuntime).participantsOf q ≠ [] := by
        intro q hq
        by_cases howner : q = data.guidPrefix
        · rw [howner]
          exact fun hnil => List.cons_ne_nil _ _ (hmine.symm.trans hnil)
        · unfold participantsOf at hq ⊢
          rwa [hothers q howner]
      refine ⟨h.participants.upsert rfl hupsert, ?_, h.endpoints, h.parsed,
        fun e he hocc => hkept _ (h.owned e he hocc), h.graph, fun q hq => hkept q (h.known q hq)⟩
      -- the own announcement has been skipped
      exact (hothers _ (Ne.symm hforeign)).trans h.notLocal

/-- A snapshot of a participant that is known. -/
theorem announceGraph_inv (h : s.Inv) {guidPrefix : GuidPrefix} (hknown : s.participantsOf guidPrefix ≠ [])
    (view : DataMessageView) : (s.announceGraph guidPrefix view).Inv := by
  refine ⟨h.participants, h.notLocal, h.endpoints, h.parsed, h.owned, GraphCache.step_inv _ _ h.graph,
    fun q hq => ?_⟩
  by_cases howner : q = guidPrefix
  · rw [howner]
    exact hknown
  · have hapart : (GraphOp.applyRemote guidPrefix (.bytes view.payload) view.sequenceNumber).participant? ≠
        some q := fun heq => howner (Option.some.inj heq).symm
    refine h.known q ?_
    rwa [← (s.graph.step_apart hapart).2]

/-- `recompute_matches` works on the local side only. -/
theorem recomputeMatches_inv (h : s.Inv) : s.recomputeMatches.Inv :=
  ⟨h.participants, h.notLocal, h.endpoints, h.parsed, h.owned, h.graph, h.known⟩

/-- An endpoint of a participant that is known. -/
theorem announceEndpoint_inv (h : s.Inv) {data : SedpEndpointData}
    (hparsed : data.Parsed data.participantGuidPrefix)
    (hknown : s.participantsOf data.participantGuidPrefix ≠ []) (nowNs : UInt64) :
    (s.announceEndpoint data nowNs).Inv := by
  unfold announceEndpoint
  split
  · exact h
  next endpoints hupsert =>
    have hmem : ∀ e ∈ endpoints.toList, e = { data, lastSeenNs := nowNs, occupied := true } ∨
        e ∈ s.endpoints.toList := fun e he => upsert_mem hupsert he
    refine recomputeMatches_inv ⟨h.participants, h.notLocal, h.endpoints.upsert rfl hupsert,
      fun e he hocc => ?_, fun e he hocc => ?_, h.graph, h.known⟩
    · rcases hmem e he with rfl | he
      · exact hparsed
      · exact h.parsed e he hocc
    · rcases hmem e he with rfl | he
      · exact hknown
      · exact h.owned e he hocc

/-- **A datagram keeps the invariant**, whatever is in it. -/
theorem receiveDiscovery_inv (h : s.Inv) (packet : Datagram) (nowNs : UInt64) :
    (s.receiveDiscovery packet nowNs).Inv := by
  have hsize : (Span.bytes packet.1).size ≤ uint64Max := packet.2.trans (by decide)
  unfold receiveDiscovery
  split
  · exact announceParticipant_inv h _ nowNs
  split
  · exact h
  next i hfound =>
    have hknown := findParticipant_some hfound
    unfold receiveFrom
    split
    · exact announceGraph_inv h hknown _
    split
    next view size hview =>
      -- the parser takes the prefix of the header as the prefix of the endpoint
      have hsafe := parseSedpMessage_safe hsize (packetPrefix packet.1)
      rw [hview] at hsafe
      cases hsafe with
      | ok hparsed =>
        refine announceEndpoint_inv h ?_ ?_ nowNs
        · rw [hparsed.participant]
          exact hparsed
        · rw [hparsed.participant]
          exact hknown
    · exact h

/-- **A participant goes with all that hangs on it.** -/
theorem removeParticipant_inv (h : s.Inv) {i : Fin 16} (hocc : (s.participants.get i).occupied = true) :
    (s.removeParticipant i).Inv := by
  set q := (s.participants.get i).data.guidPrefix with hq
  have hgone : (s.removeParticipant i).participantsOf q = [] := h.participants.freed rfl i hocc
  have hothers : ∀ p, p ≠ q → (s.removeParticipant i).participantsOf p = s.participantsOf p :=
    (@recordsOf_freed _ _ _ _ participantKey _ _ s.participants rfl i hocc).2
  have hgraph := s.graph.removeRemoteParticipant_spec q
  have hendpoints : ∀ e ∈ (s.removeParticipant i).endpoints.toList, e.occupied = true →
      e ∈ s.endpoints.toList ∧ e.data.participantGuidPrefix ≠ q := by
    intro e he hocce
    change e ∈ (s.endpoints.map _).toList at he
    rw [Vector.toList_map] at he
    obtain ⟨x, hx, rfl⟩ := List.mem_map.1 he
    split at hocce
    · cases hocce
    next hother =>
      rw [if_neg hother]
      refine ⟨hx, fun hsame => hother ?_⟩
      rw [hocce, hsame]
      exact beq_self_eq_true q
  have hentry : (s.removeParticipant i).graph.entriesOf q = [] := by
    have hone := h.graph.entries q
    refine hgraph.entry.trans (List.eq_nil_of_length_eq_zero ?_)
    rw [List.length_tail]
    omega
  refine ⟨fun p => ?_, ?_, ?_, fun e he hocce => ?_, fun e he hocce => ?_,
    GraphCache.step_inv _ _ h.graph, fun p hp => ?_⟩
  · by_cases hp : p = q
    · rw [hp]
      exact (congrArg List.length hgone).trans_le (Nat.zero_le 1)
    · exact (congrArg List.length (hothers p hp)).trans_le (h.participants p)
  · by_cases hp : s.participantPrefix = q
    · exact hp ▸ hgone
    · exact (hothers _ hp).trans h.notLocal
  · change Keyed _ _ (s.endpoints.map _).toList
    rw [Vector.toList_map]
    refine h.endpoints.map fun e hocce => ?_
    split at hocce
    · cases hocce
    next hother => rw [if_neg hother]
  · exact h.parsed e (hendpoints e he hocce).1 hocce
  · rw [hothers _ (hendpoints e he hocce).2]
    exact h.owned e (hendpoints e he hocce).1 hocce
  · have hne : p ≠ q := fun heq => hp (heq ▸ hentry)
    rw [hothers p hne]
    refine h.known p ?_
    rwa [← hgraph.entries p hne]

/-- The loop over the participants; without the flag nothing has happened. -/
theorem expireParticipants_inv (h : s.Inv) (nowNs : UInt64) (slots : List (Fin 16)) :
    let after := slots.foldl (expireParticipant nowNs) (s, false)
    after.1.Inv ∧ (after.2 = false → after.1 = s) := by
  refine List.foldlRecOn (motive := fun after : NetworkRuntime × Bool =>
    after.1.Inv ∧ (after.2 = false → after.1 = s)) slots _ ⟨h, fun _ => rfl⟩ ?_
  rintro after ⟨hinv, hsame⟩ i -
  unfold expireParticipant
  dsimp only
  split
  next hexpired =>
    refine ⟨removeParticipant_inv hinv (Bool.and_eq_true_iff.1 hexpired).1, fun hflag => ?_⟩
    cases hflag
  next => exact ⟨hinv, hsame⟩

theorem expireEndpoints_inv (h : s.Inv) (nowNs : UInt64) :
    Inv { s with endpoints := s.endpoints.map fun e => if expiredEndpoint nowNs e then {} else e } := by
  have hmem : ∀ e ∈ (s.endpoints.map fun e => if expiredEndpoint nowNs e then {} else e).toList,
      e.occupied = true → e ∈ s.endpoints.toList := by
    intro e he hocc
    rw [Vector.toList_map] at he
    obtain ⟨x, hx, rfl⟩ := List.mem_map.1 he
    split at hocc
    · cases hocc
    next hlive =>
      rw [if_neg hlive]
      exact hx
  refine ⟨h.participants, h.notLocal, ?_, fun e he hocc => h.parsed e (hmem e he hocc) hocc,
    fun e he hocc => h.owned e (hmem e he hocc) hocc, h.graph, h.known⟩
  change Keyed _ _ (s.endpoints.map _).toList
  rw [Vector.toList_map]
  refine h.endpoints.map fun e hocc => ?_
  split at hocc
  · cases hocc
  next hlive => rw [if_neg hlive]

theorem expireRemoteState_inv (h : s.Inv) (nowNs : UInt64) : (s.expireRemoteState nowNs).Inv := by
  have hafter := expireEndpoints_inv (expireParticipants_inv h nowNs (List.finRange 16)).1 nowNs
  unfold expireRemoteState
  dsimp only
  split
  · exact recomputeMatches_inv hafter
  · exact hafter

/-- **Every step keeps the invariant.** -/
theorem step_inv (s : NetworkRuntime) (event : DiscoveryEvent) (h : s.Inv) : (s.step event).Inv := by
  cases event with
  | datagram packet nowNs => exact receiveDiscovery_inv h packet nowNs
  | expire nowNs => exact expireRemoteState_inv h nowNs
  | graph op =>
    change Inv (if op.isLocal then { s with graph := s.graph.step op } else s)
    split
    next hlocal =>
      refine ⟨h.participants, h.notLocal, h.endpoints, h.parsed, h.owned,
        GraphCache.step_inv _ _ h.graph, fun q hq => h.known q ?_⟩
      have hapart : op.participant? ≠ some q := by
        rw [op.participant?_of_isLocal hlocal]
        exact Option.some_ne_none q ∘ Eq.symm
      rwa [← (s.graph.step_apart hapart).2]
    · exact h
  | registries publishers subscriptions =>
    exact ⟨h.participants, h.notLocal, h.endpoints, h.parsed, h.owned, h.graph, h.known⟩

/-- **The invariant holds after every run.** -/
theorem after_inv (participantPrefix : GuidPrefix) (domainId : ℕ) (events : List DiscoveryEvent) :
    (after participantPrefix domainId events).Inv :=
  run_inv step_inv (inv_initial participantPrefix domainId) events

end Invariant

section Entries

variable {s : NetworkRuntime}

/-- A participant is known. -/
def Known (s : NetworkRuntime) (guidPrefix : GuidPrefix) : Prop :=
  ∃ p ∈ s.participants.toList, p.occupied = true ∧ p.data.guidPrefix = guidPrefix

theorem known_iff {guidPrefix : GuidPrefix} : s.Known guidPrefix ↔ s.participantsOf guidPrefix ≠ [] := by
  constructor
  · rintro ⟨p, hp, hocc, howner⟩
    exact List.ne_nil_of_mem (mem_recordsOf.2 ⟨hp, hocc, howner⟩)
  · intro hne
    obtain ⟨p, hp⟩ := List.exists_mem_of_ne_nil _ hne
    obtain ⟨hin, hocc, howner⟩ := mem_recordsOf.1 hp
    exact ⟨p, hin, hocc, howner⟩

/-- **There is an entry for the snapshots of every participant that is known.** -/
theorem generationSlot_of_known (h : s.Inv) {guidPrefix : GuidPrefix} (hknown : s.Known guidPrefix)
    (generation : ℕ) :
    s.graph.generationSlot guidPrefix generation ≠ .error (.rejected, .capacityExceeded) := by
  intro hfull
  have hslot := s.graph.generationSlot_cases guidPrefix generation
  rw [hfull] at hslot
  obtain ⟨⟩ | ⟨⟩ | ⟨hnone, htaken⟩ := hslot
  -- sixteen participants are known; the others with an entry are fifteen at most
  let prefixes := (s.participants.toList.filter (·.occupied)).map participantKey
  let others := prefixes.filter fun q => decide (q ≠ guidPrefix)
  have hlength : prefixes.length ≤ 16 := by
    rw [List.length_map]
    exact (List.length_filter_le _ _).trans_eq Vector.length_toList
  have hmem : guidPrefix ∈ prefixes := by
    obtain ⟨p, hp, hocc, howner⟩ := hknown
    exact List.mem_map.2 ⟨p, List.mem_filter.2 ⟨hp, hocc⟩, howner⟩
  have hfewer : others.length < prefixes.length :=
    List.length_filter_lt_length_iff_exists.2 ⟨guidPrefix, hmem, by simp⟩
  have hothers : ∀ q, q ∉ others → s.graph.entriesOf q = [] := by
    intro q hq
    by_contra hentries
    obtain ⟨p, hp, hocc, howner⟩ := known_iff.2 (h.known q hentries)
    refine hq (List.mem_filter.2 ⟨List.mem_map.2 ⟨p, List.mem_filter.2 ⟨hp, hocc⟩, howner⟩, ?_⟩)
    exact decide_eq_true fun heq => hentries (heq ▸ hnone)
  have hcount := GraphCache.occupied_entries_le h.graph hothers
  rw [List.countP_eq_length.2 htaken, Vector.length_toList] at hcount
  omega

end Entries

section Matches

variable {s : NetworkRuntime}

/-- **The match counts are those of the table**: of every live publisher the readers, and of every live
subscription the writers that match it. -/
structure Matched (s : NetworkRuntime) : Prop where
  publishers : ∀ slot ∈ s.publishers.toList, slot.occupied = true → ∀ source ∈ slot.data,
    source.matched = s.endpoints.toList.countP fun remote =>
      remote.occupied && remote.data.kind == .reader &&
        evaluateEndpointMatch source.publisherNetworkView remote.data == .matched
  subscriptions : ∀ slot ∈ s.subscriptions.toList, slot.occupied = true → ∀ source ∈ slot.data,
    source.matched = s.endpoints.toList.countP fun remote =>
      remote.occupied && remote.data.kind == .writer &&
        evaluateEndpointMatch source.subscriptionNetworkView remote.data == .matched

@[simp] theorem networkSetMatchCount_matched (source : MatchSource) (count : ℕ) :
    (source.networkSetMatchCount count).matched = count := by
  unfold MatchSource.networkSetMatchCount
  split
  · rfl
  next hsame => exact (not_not.1 hsame).symm

@[simp] theorem networkView_networkSetMatchCount (kind : EndpointKind) (source : MatchSource)
    (count : ℕ) : (source.networkSetMatchCount count).networkView kind = source.networkView kind := by
  unfold MatchSource.networkSetMatchCount
  split
  · rfl
  · rfl

theorem recomputeSlot_live {kind : EndpointKind} {count : LocalEndpointDescriptor → ℕ} {slot : MatchSlot}
    {source : MatchSource} (hocc : (recomputeSlot (MatchSource.networkView kind) count slot).occupied = true)
    (hsource : source ∈ (recomputeSlot (MatchSource.networkView kind) count slot).data) :
    source.matched = count (source.networkView kind) := by
  unfold recomputeSlot at hocc hsource
  split at hsource
  · obtain ⟨before, -, rfl⟩ := Option.map_eq_some_iff.1 hsource
    rw [networkSetMatchCount_matched, networkView_networkSetMatchCount]
  next hfree =>
    rw [if_neg hfree] at hocc
    exact absurd hocc hfree

/-- **The counts after `recompute_matches`.** -/
theorem recomputeMatches_matched (s : NetworkRuntime) : s.recomputeMatches.Matched := by
  constructor
  · intro slot hslot hocc source hsource
    change slot ∈ (s.publishers.map _).toList at hslot
    rw [Vector.toList_map] at hslot
    obtain ⟨before, -, rfl⟩ := List.mem_map.1 hslot
    exact (recomputeSlot_live hocc hsource).trans List.countP_eq_length_filter.symm
  · intro slot hslot hocc source hsource
    change slot ∈ (s.subscriptions.map _).toList at hslot
    rw [Vector.toList_map] at hslot
    obtain ⟨before, -, rfl⟩ := List.mem_map.1 hslot
    exact (recomputeSlot_live hocc hsource).trans List.countP_eq_length_filter.symm

/-- A datagram that changes the endpoints is an endpoint announcement. -/
theorem receiveDiscovery_matched (packet : Datagram) (nowNs : UInt64)
    (hchanged : (s.receiveDiscovery packet nowNs).endpoints ≠ s.endpoints) :
    (s.receiveDiscovery packet nowNs).Matched := by
  unfold receiveDiscovery at hchanged ⊢
  split at hchanged
  next view size hview =>
    refine absurd ?_ hchanged
    unfold announceParticipant
    split <;> rfl
  split at hchanged
  · exact absurd rfl hchanged
  next i hfound =>
    unfold receiveFrom at hchanged ⊢
    split at hchanged
    · exact absurd rfl hchanged
    split at hchanged
    next view size hview =>
      unfold announceEndpoint at hchanged ⊢
      split at hchanged
      · exact absurd rfl hchanged
      · exact recomputeMatches_matched _
    · exact absurd rfl hchanged

/-- Without the flag `changed` the endpoints are as before. -/
theorem expireRemoteState_matched (h : s.Inv) (nowNs : UInt64)
    (hchanged : (s.expireRemoteState nowNs).endpoints ≠ s.endpoints) :
    (s.expireRemoteState nowNs).Matched := by
  have hsame := (expireParticipants_inv h nowNs (List.finRange 16)).2
  unfold expireRemoteState at hchanged ⊢
  dsimp only at hchanged hsame ⊢
  split
  · exact recomputeMatches_matched _
  next hflag =>
    rw [if_neg hflag] at hchanged
    rw [Bool.or_eq_true, not_or, Bool.not_eq_true, Bool.not_eq_true] at hflag
    rw [hsame hflag.1] at hchanged hflag
    refine absurd (Vector.toList_inj.1 ?_) hchanged
    rw [Vector.toList_map]
    refine (List.map_congr_left fun e he => ?_).trans (List.map_id _)
    rw [if_neg (List.any_eq_false.1 hflag.2 e he), id]

theorem step_matched (h : s.Inv) (event : DiscoveryEvent)
    (hchanged : (s.step event).endpoints ≠ s.endpoints) : (s.step event).Matched := by
  cases event with
  | datagram packet nowNs => exact receiveDiscovery_matched packet nowNs hchanged
  | expire nowNs => exact expireRemoteState_matched h nowNs hchanged
  | graph op =>
    refine absurd ?_ hchanged
    change (if op.isLocal then { s with graph := s.graph.step op } else s : NetworkRuntime).endpoints = _
    split <;> rfl
  | registries publishers subscriptions => exact absurd rfl hchanged

end Matches

section Closed

/-- **The discovery state is closed**: participants and endpoints are recorded once, this context is not
among them, and whatever is recorded of a participant belongs to one that is known, so that its
snapshots always have an entry. -/
structure Closed (s : NetworkRuntime) : Prop where
  participants : ((s.participants.toList.filter (·.occupied)).map (·.data.guidPrefix)).Nodup
  notLocal : ¬ s.Known s.participantPrefix
  endpoints : ((s.endpoints.toList.filter (·.occupied)).map fun e =>
    (e.data.participantGuidPrefix, e.data.endpointId)).Nodup
  owned : ∀ e ∈ s.endpoints.toList, e.occupied = true → s.Known e.data.participantGuidPrefix
  graphNodes : ∀ n ∈ s.graph.nodes.toList, n.occupied = true → n.isLocal = false →
    s.Known n.participantPrefix
  graphEndpoints : ∀ e ∈ s.graph.endpoints.toList, e.occupied = true → e.isLocal = false →
    s.Known e.participantPrefix
  graphEntries : ∀ entry ∈ s.graph.remoteGenerations.toList, entry.occupied = true →
    s.Known entry.participantPrefix
  entry : ∀ q, s.Known q → ∀ generation,
    s.graph.generationSlot q generation ≠ .error (.rejected, .capacityExceeded)

theorem Inv.closed {s : NetworkRuntime} (h : s.Inv) : s.Closed := by
  have hknown : ∀ q, s.graph.entriesOf q ≠ [] → s.Known q := fun q hq => known_iff.2 (h.known q hq)
  have hintegrity := h.graph.integrity
  refine ⟨keyed_iff_nodup.1 h.participants, fun hlocal => known_iff.1 hlocal h.notLocal,
    keyed_iff_nodup.1 h.endpoints, fun e he hocc => known_iff.2 (h.owned e he hocc),
    fun n hn hocc hremote => hknown _ fun hnil => ?_, fun e he hocc hremote => hknown _ fun hnil => ?_,
    fun entry hentry hocc => hknown _ (List.ne_nil_of_mem (mem_recordsOf.2 ⟨hentry, hocc, rfl⟩)),
    fun q hq => generationSlot_of_known h hq⟩
  · have hone := hintegrity.nodeEntry n hn hocc hremote
    rw [hnil] at hone
    cases hone
  · have hone := hintegrity.endpointEntry e he hocc hremote
    rw [hnil] at hone
    cases hone

end Closed

end NetworkRuntime

/-- **Discovery is closed.** Whatever datagrams arrive and whenever old state expires, with any changes
of this context to its own nodes and endpoints between them, the discovery state is closed; and after
every step that changes the table of endpoints, the match counts of all live publishers and
subscriptions are those of the table. -/
theorem discovery_closed (participantPrefix : GuidPrefix) (domainId : ℕ)
    (events : List DiscoveryEvent) :
    let s := NetworkRuntime.after participantPrefix domainId events
    s.Closed ∧ ∀ event, (s.step event).endpoints ≠ s.endpoints → (s.step event).Matched := by
  intro s
  have hinv : s.Inv := NetworkRuntime.after_inv participantPrefix domainId events
  exact ⟨hinv.closed, fun event hchanged => NetworkRuntime.step_matched hinv event hchanged⟩

end OpenRtdds
