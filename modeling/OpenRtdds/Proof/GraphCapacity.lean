import OpenRtdds.Proof.GraphWire

/-!
# The room for the records of this context

The records of this context and those of the other participants share the tables. There are at most
sixteen participants with at most eight nodes each, so 136 slots leave eight nodes to this context; but
sixteen participants with sixteen endpoints each have more than the 48 slots for endpoints, so three of
them are enough to take them all.

* `remoteNodes_length_le`, `remoteEndpoints_length_le`: what the other participants can have.
* `addLocalEndpoint_full_iff`: when `add_local_endpoint` finds no slot.
* `graph_local_reserve`: nodes always find room, and endpoints as long as there is a slot.
* `first_endpoint_finds_room`, `remote_endpoints_take_all`: a context gets its first endpoint, or is
  refused it for the endpoints of the others.
-/

namespace OpenRtdds

open Lib Guarded Raw

namespace GraphCache

section Counts

variable {cache : GraphCache}

/-- The records of the other participants. -/
def remoteNodes (cache : GraphCache) : List GraphNodeRecord :=
  cache.nodes.toList.filter fun node => node.occupied && !node.isLocal

def remoteEndpoints (cache : GraphCache) : List GraphEndpointRecord :=
  cache.endpoints.toList.filter fun endpoint => endpoint.occupied && !endpoint.isLocal

theorem occupied_nodes (cache : GraphCache) : cache.nodes.toList.countP GraphNodeRecord.occupied =
    cache.localNodes.length + cache.remoteNodes.length :=
  countP_split GraphNodeRecord.isLocal _

theorem occupied_endpoints (cache : GraphCache) :
    cache.endpoints.toList.countP GraphEndpointRecord.occupied =
      cache.localEndpoints.length + cache.remoteEndpoints.length :=
  countP_split GraphEndpointRecord.isLocal _

variable {ps : List GuidPrefix}

theorem remote_length_le {α : Type} {occupied isLocal : α → Bool} {prefixOf : α → GuidPrefix} {l : List α}
    {bound : ℕ}
    (hknown : ∀ x ∈ recordsOf occupied (fun x => GraphOwner.of (isLocal x) (prefixOf x)) l
      (.participant (prefixOf x)), prefixOf x ∈ ps)
    (hbound : ∀ p, (recordsOf occupied (fun x => GraphOwner.of (isLocal x) (prefixOf x)) l
      (.participant p)).length ≤ bound) :
    (l.filter fun x => occupied x && !isLocal x).length ≤ ps.length * bound := by
  have hclass : ∀ p, recordsOf (fun x => occupied x && !isLocal x) prefixOf l p =
      recordsOf occupied (fun x => GraphOwner.of (isLocal x) (prefixOf x)) l (.participant p) := by
    intro p
    refine List.filter_congr fun x _ => ?_
    rw [Bool.eq_iff_iff]
    simp only [Bool.and_eq_true, Bool.not_eq_true', decide_eq_true_eq, GraphOwner.of_participant, and_assoc]
  rw [← List.countP_eq_length_filter]
  refine countP_le_of_owners prefixOf (fun x hin hremote => hknown x ?_) fun p _ => ?_
  · rw [← hclass]
    exact mem_recordsOf.2 ⟨hin, hremote, rfl⟩
  · rw [hclass]
    exact hbound p

/-- **The other participants have at most eight nodes each.** A participant without an entry has none. -/
theorem remoteNodes_length_le (h : cache.Inv)
    (hps : ∀ p, p ∉ ps → cache.entriesOf p = []) : cache.remoteNodes.length ≤ ps.length * 8 := by
  refine remote_length_le (fun node hnode => ?_) h.nodeCount
  by_contra hnot
  exact h.known _ (List.ne_nil_of_mem hnode) (hps _ hnot)

/-- **The other participants have at most sixteen endpoints each.** -/
theorem remoteEndpoints_length_le (h : cache.Inv)
    (hps : ∀ p, p ∉ ps → cache.entriesOf p = []) : cache.remoteEndpoints.length ≤ ps.length * 16 := by
  refine remote_length_le (fun endpoint hendpoint => ?_) h.endpointCount
  by_contra hnot
  obtain ⟨node, hnode, -⟩ := (h.coherent _).owned endpoint hendpoint
  exact h.known _ (List.ne_nil_of_mem hnode) (hps _ hnot)

/-- The participants that have an entry. -/
def knownParticipants (cache : GraphCache) : List GuidPrefix :=
  (cache.remoteGenerations.toList.filter (·.occupied)).map (·.participantPrefix)

theorem knownParticipants_length_le : cache.knownParticipants.length ≤ 16 := by
  rw [knownParticipants, List.length_map]
  exact (List.length_filter_le _ _).trans_eq Vector.length_toList

theorem entriesOf_eq_nil {p : GuidPrefix} (hp : p ∉ cache.knownParticipants) : cache.entriesOf p = [] := by
  refine List.eq_nil_iff_forall_not_mem.2 fun entry hentry => hp ?_
  obtain ⟨hin, hocc, hof⟩ := mem_recordsOf.1 hentry
  exact List.mem_map.2 ⟨entry, List.mem_filter.2 ⟨hin, hocc⟩, hof⟩

theorem occupied_entries_le (h : cache.Inv) (hps : ∀ p, p ∉ ps → cache.entriesOf p = []) :
    cache.remoteGenerations.toList.countP RemoteGeneration.occupied ≤ ps.length := by
  rw [← Nat.mul_one ps.length]
  refine countP_le_of_owners RemoteGeneration.participantPrefix (fun entry hin hocc => ?_)
    fun p _ => h.entries p
  by_contra hnot
  have hmem : entry ∈ cache.entriesOf entry.participantPrefix := mem_recordsOf.2 ⟨hin, hocc, rfl⟩
  rw [hps _ hnot] at hmem
  exact absurd hmem List.not_mem_nil

end Counts

section Endpoint

variable {cache : GraphCache} {participantPrefix : GuidPrefix} {nodeId : UInt64}
  {name nameSpace enclave : CString} {entityId : EntityId} {kind : UInt8}
  {rosTopicName rosTypeName ddsTopicName ddsTypeName : CString}

theorem localResult_error_iff {r : Except GraphError GraphCache} {e : GraphError} :
    (cache.localResult r).1 = .error (some e) ↔ r = .error e := by
  cases r with
  | ok changed =>
    refine ⟨fun h => ?_, fun h => ?_⟩
    · cases h
    · cases h
  | error e' =>
    refine ⟨fun h => ?_, fun h => ?_⟩
    · rw [Option.some.inj (GraphResult.error.inj h)]
    · rw [Except.error.inj h]
      rfl

theorem addLocalNode_full (h : cache.addLocalNode participantPrefix nodeId name nameSpace enclave =
      .error .capacityExceeded) : cache.nodes.toList.countP GraphNodeRecord.occupied = 136 := by
  unfold addLocalNode at h
  split at h
  · cases h
  split at h
  · cases h
  split at h
  · cases h
  split at h
  next hnone => exact replaceFirst_free_none.1 hnone
  next => cases h

/-- A text that `copy_text` takes. -/
def ValidText (capacity : ℕ) (text : CString) : Prop := (copyText capacity text false).isSome = true

/-- Valid and fresh arguments of `add_local_endpoint`, with an existing owner. -/
structure FreshEndpoint (cache : GraphCache) (participantPrefix : GuidPrefix) (entityId : EntityId)
    (nodeId : UInt64) (kind : UInt8) (rosTopicName rosTypeName ddsTopicName ddsTypeName : CString) :
    Prop where
  nonzero : nonzeroPrefix participantPrefix = true
  entity : validEntity entityId = true
  node : nodeId ≠ 0
  kind : kind = 1 ∨ kind = 2
  owner : ∃ node ∈ cache.localNodes,
    node.nodeId = nodeId.toNat ∧ node.participantPrefix = participantPrefix
  fresh : ∀ endpoint ∈ cache.localEndpoints, endpoint.entityId ≠ entityId
  rosTopicName : ValidText 256 rosTopicName
  rosTypeName : ValidText 256 rosTypeName
  ddsTopicName : ValidText 256 ddsTopicName
  ddsTypeName : ValidText 256 ddsTypeName

theorem FreshEndpoint.localEndpoint (h : cache.FreshEndpoint participantPrefix entityId nodeId kind
      rosTopicName rosTypeName ddsTopicName ddsTypeName) (code : GraphEndpointKind) (conventions : Bool) :
    ∃ endpoint, localEndpoint participantPrefix entityId nodeId code rosTopicName rosTypeName
      ddsTopicName ddsTypeName conventions = some endpoint := by
  obtain ⟨rosTopic, hrosTopic⟩ := Option.isSome_iff_exists.1 h.rosTopicName
  obtain ⟨rosType, hrosType⟩ := Option.isSome_iff_exists.1 h.rosTypeName
  obtain ⟨ddsTopic, hddsTopic⟩ := Option.isSome_iff_exists.1 h.ddsTopicName
  obtain ⟨ddsType, hddsType⟩ := Option.isSome_iff_exists.1 h.ddsTypeName
  unfold GraphCache.localEndpoint
  rw [hrosTopic, hrosType, hddsTopic, hddsType]
  exact ⟨_, rfl⟩

/-- **When `add_local_endpoint` finds no slot**: the records of this context and of the others have
taken them all. -/
theorem addLocalEndpoint_full_iff (h : cache.FreshEndpoint participantPrefix entityId nodeId kind
      rosTopicName rosTypeName ddsTopicName ddsTypeName) (conventions : Bool) :
    (cache.perform (.addLocalEndpoint participantPrefix entityId nodeId kind rosTopicName rosTypeName
        ddsTopicName ddsTypeName conventions)).1 = .error (some .capacityExceeded) ↔
      cache.localEndpoints.length + cache.remoteEndpoints.length = 48 := by
  obtain ⟨code, hcode⟩ : ∃ code, GraphEndpointKind.ofByte kind = some code := by
    rcases h.kind with rfl | rfl
    · exact ⟨.publisher, rfl⟩
    · exact ⟨.subscription, rfl⟩
  have hnode : (cache.nodes.toList.any fun node => node.occupied && node.isLocal &&
      node.nodeId == nodeId.toNat && node.participantPrefix == participantPrefix) = true := by
    obtain ⟨node, hin, hid, hof⟩ := h.owner
    obtain ⟨hmem, hlocal⟩ := List.mem_filter.1 hin
    exact List.any_eq_true.2 ⟨node, hmem, by rw [hlocal, hid, hof]; simp⟩
  have hfresh : (cache.endpoints.toList.any fun endpoint => endpoint.occupied && endpoint.isLocal &&
      endpoint.entityId == entityId) = false := by
    refine List.any_eq_false.2 fun endpoint hin hsame => ?_
    obtain ⟨hlocal, hid⟩ := Bool.and_eq_true_iff.1 hsame
    exact h.fresh endpoint (List.mem_filter.2 ⟨hin, hlocal⟩) (beq_iff_eq.1 hid)
  have harguments : (!nonzeroPrefix participantPrefix || !validEntity entityId || nodeId == 0) =
      false := by
    rw [h.nonzero, h.entity, beq_false_of_ne h.node]
    rfl
  obtain ⟨endpoint, hendpoint⟩ := h.localEndpoint code conventions
  have hfull : replaceFirst (fun endpoint => !endpoint.occupied) cache.endpoints endpoint = none ↔
      cache.localEndpoints.length + cache.remoteEndpoints.length = 48 := by
    rw [replaceFirst_free_none, occupied_endpoints]
  rw [← hfull]
  refine localResult_error_iff.trans ?_
  unfold addLocalEndpoint
  rw [hcode]
  dsimp only
  rw [harguments, hnode, hfresh, hendpoint]
  simp only [Bool.false_eq_true, if_false, Bool.not_true]
  cases replaceFirst (fun endpoint => !endpoint.occupied) cache.endpoints endpoint with
  | none => exact ⟨fun _ => rfl, fun _ => rfl⟩
  | some endpoints =>
    refine ⟨fun hresult => ?_, fun hnone => ?_⟩
    · cases hresult
    · cases hnone

end Endpoint

end GraphCache

section Results

open GraphCache

/-- **The room for the records of this context.** After any run of operations, with any snapshots of any
participants, `add_local_node` does not fail for lack of room while this context has fewer than eight
nodes; `add_local_endpoint` of a valid fresh endpoint fails for lack of room exactly when the endpoints
of this context and of the other participants fill the table, so not while this context has fewer than
sixteen and the others have at most 32. -/
theorem graph_local_reserve (ops : List GraphOp) :
    let cache := run GraphCache.step {} ops
    (∀ participantPrefix nodeId name nameSpace enclave, cache.localNodes.length < 8 →
      (cache.perform (.addLocalNode participantPrefix nodeId name nameSpace enclave)).1 ≠
        .error (some .capacityExceeded)) ∧
    (∀ participantPrefix entityId nodeId kind rosTopicName rosTypeName ddsTopicName ddsTypeName
        conventions,
      cache.FreshEndpoint participantPrefix entityId nodeId kind rosTopicName rosTypeName ddsTopicName
        ddsTypeName →
      ((cache.perform (.addLocalEndpoint participantPrefix entityId nodeId kind rosTopicName rosTypeName
          ddsTopicName ddsTypeName conventions)).1 = .error (some .capacityExceeded) ↔
        cache.localEndpoints.length + cache.remoteEndpoints.length = 48) ∧
      (cache.localEndpoints.length < 16 → cache.remoteEndpoints.length ≤ 32 →
        (cache.perform (.addLocalEndpoint participantPrefix entityId nodeId kind rosTopicName
          rosTypeName ddsTopicName ddsTypeName conventions)).1 ≠ .error (some .capacityExceeded))) := by
  intro cache
  have hinv : cache.Inv := GraphCache.run_inv ops
  constructor
  · intro participantPrefix nodeId name nameSpace enclave hlocal hresult
    have hfull := addLocalNode_full (localResult_error_iff.1 hresult)
    have hremote := remoteNodes_length_le hinv fun _ => entriesOf_eq_nil
    have hknown : cache.knownParticipants.length ≤ 16 := knownParticipants_length_le
    rw [occupied_nodes] at hfull
    -- sixteen participants with eight nodes each have 128 nodes
    omega
  · intro participantPrefix entityId nodeId kind rosTopicName rosTypeName ddsTopicName ddsTypeName
      conventions hfresh
    have hfull := addLocalEndpoint_full_iff hfresh conventions
    refine ⟨hfull, fun hlocal hremote hresult => ?_⟩
    have hcount := hfull.1 hresult
    omega

/-- A participant with one node that has sixteen publishers. -/
def crowdedOps : List GraphOp :=
  .addLocalNode talkerPrefix 7 (some [116]) (some [47]) (some [47]) ::
    (List.range 16).map fun k => .addLocalEndpoint talkerPrefix #v[0, 0, UInt8.ofNat (k + 1), 3] 7 1
      (some [99]) (some [105]) (some [99]) (some [105]) true

def crowded : GraphCache := run GraphCache.step {} crowdedOps

/-- Such a snapshot from a participant. -/
def crowdedSnapshot (peer : GuidPrefix) : GraphOp :=
  .applyRemote peer
    (.bytes (snapshotBytes crowded.localNodes crowded.localEndpoints crowded.localGeneration))
    crowded.localGeneration

theorem crowded_lengths : crowded.localNodes.length = 1 ∧ crowded.localEndpoints.length = 16 := by
  decide +kernel

/-- A context that has taken such snapshots from some participants, and has no endpoints itself. -/
structure Crowd (cache : GraphCache) (ps : List GuidPrefix) : Prop where
  inv : cache.Inv
  others : ∀ p, p ∉ ps → cache.entriesOf p = []
  endpoints : ∀ p ∈ ps, (cache.endpointsOf (.participant p)).length = 16
  localNodes : cache.localNodes.length ≤ 1
  localEndpoints : cache.localEndpoints = []

variable {cache : GraphCache} {ps : List GuidPrefix}

/-- One more snapshot, as long as there is room for it. -/
theorem Crowd.step (h : Crowd cache ps) {p : GuidPrefix}
    (hnonzero : nonzeroPrefix p = true) (hp : p ∉ ps) (hlength : ps.length < 3) :
    Crowd (cache.step (crowdedSnapshot p)) (p :: ps) ∧
      (cache.step (crowdedSnapshot p)).localNodes = cache.localNodes := by
  obtain ⟨hnodes, hendpoints⟩ := crowded_lengths
  have hinv : crowded.Inv := GraphCache.run_inv crowdedOps
  have hcoherent : Coherent crowded.localNodes crowded.localEndpoints := by
    rw [localNodes_eq, localEndpoints_eq]
    exact hinv.coherent .here
  have hroom : cache.Room p crowded.localNodes.length crowded.localEndpoints.length := by
    have hnodeCount := remoteNodes_length_le h.inv h.others
    have hendpointCount := remoteEndpoints_length_le h.inv h.others
    have hlocal := h.localNodes
    refine room_of_counts ?_ ?_
    · rw [occupied_nodes, hnodes]
      omega
    · rw [occupied_endpoints, hendpoints, h.localEndpoints, List.length_nil]
      omega
  have hfree : ∃ entry ∈ cache.remoteGenerations.toList, entry.occupied = false := by
    have hentries := occupied_entries_le h.inv h.others
    refine exists_free (lt_of_le_of_lt hentries ?_)
    rw [Vector.length_toList]
    omega
  -- the participant has no entry yet, so its snapshot is not stale
  have hnone := h.others p hp
  obtain ⟨hchanged, -, hreceived⟩ := applyRemote_snapshotBytes hnonzero hcoherent (by omega) (by omega)
    hinv.localGeneration (by rw [hnone]; exact fun _ hentry => absurd hentry List.not_mem_nil)
    (.inr hfree) hroom
  rcases cache.applyRemote_cases p _ _ with ⟨hunchanged, -⟩ | ⟨-, snapshot, -, -, happlied⟩
  · exact absurd hchanged hunchanged
  have hothers : ∀ q, q ≠ p → (cache.step (crowdedSnapshot p)).endpointsOf (.participant q) =
      cache.endpointsOf (.participant q) := fun q hq =>
    (happlied.others _ fun heq => hq (GraphOwner.participant.inj heq)).endpoints
  have hhere := happlied.others .here GraphOwner.noConfusion
  have hlocalNodes : (cache.step (crowdedSnapshot p)).localNodes = cache.localNodes := by
    rw [localNodes_eq, localNodes_eq]
    exact hhere.nodes
  refine ⟨⟨step_inv _ _ h.inv, fun q hq => ?_, fun q hq => ?_, ?_, ?_⟩, hlocalNodes⟩
  · rw [List.mem_cons, not_or] at hq
    exact (happlied.entries q hq.1).trans (h.others q hq.2)
  · rcases List.mem_cons.1 hq with rfl | hq
    · exact (congrArg List.length hreceived).trans ((List.length_map _).trans hendpoints)
    · rw [hothers q fun heq => hp (heq ▸ hq)]
      exact h.endpoints q hq
  · rw [hlocalNodes]
    exact h.localNodes
  · rw [localEndpoints_eq]
    refine hhere.endpoints.trans ?_
    rw [← localEndpoints_eq]
    exact h.localEndpoints

theorem Crowd.run (h : Crowd cache ps) (new : List GuidPrefix)
    (hnonzero : ∀ p ∈ new, nonzeroPrefix p = true) (hnodup : (new.reverse ++ ps).Nodup)
    (hlength : (new.reverse ++ ps).length ≤ 3) :
    Crowd (Lib.run GraphCache.step cache (new.map crowdedSnapshot)) (new.reverse ++ ps) ∧
      (Lib.run GraphCache.step cache (new.map crowdedSnapshot)).localNodes = cache.localNodes := by
  induction new generalizing cache ps with
  | nil => exact ⟨h, rfl⟩
  | cons p new ih =>
    rw [List.reverse_cons, List.append_assoc, List.singleton_append] at hnodup hlength ⊢
    have hp : p ∉ ps := (List.nodup_cons.1 (List.nodup_append.1 hnodup).2.1).1
    rw [List.length_append, List.length_cons] at hlength
    obtain ⟨hstep, hnodes⟩ := h.step (hnonzero p List.mem_cons_self) hp (by omega)
    obtain ⟨hrun, hrunNodes⟩ := ih hstep (fun q hq => hnonzero q (List.mem_cons_of_mem p hq)) hnodup
      (by rw [List.length_append, List.length_cons]; omega)
    exact ⟨hrun, hrunNodes.trans hnodes⟩

/-- Three participants fill the table. -/
theorem Crowd.full (h : Crowd cache ps) (hps : ps.Nodup)
    (hlength : ps.length = 3) : cache.localEndpoints.length + cache.remoteEndpoints.length = 48 := by
  rw [← occupied_endpoints]
  have hle : cache.endpoints.toList.countP GraphEndpointRecord.occupied ≤ 48 :=
    List.countP_le_length.trans_eq Vector.length_toList
  have hge : (ps.map GraphOwner.participant).length * 16 ≤
      cache.endpoints.toList.countP GraphEndpointRecord.occupied := by
    refine le_countP_of_owners GraphEndpointRecord.owner (hps.map fun _ _ => GraphOwner.participant.inj)
      fun o ho => ?_
    obtain ⟨p, hp, rfl⟩ := List.mem_map.1 ho
    exact (h.endpoints p hp).ge
  rw [List.length_map] at hge
  omega

/-- A context with one node and no endpoints. -/
def firstOps : List GraphOp := [.addLocalNode talkerPrefix 7 (some [116]) (some [47]) (some [47])]

/-- Three participants, each to have sixteen publishers. -/
def crowdPrefixes : List GuidPrefix := [.replicate 12 2, .replicate 12 3, .replicate 12 4]

theorem firstOps_crowd : Crowd (run GraphCache.step {} firstOps) [] := by
  have hnone : (run GraphCache.step {} firstOps).knownParticipants = [] := by decide +kernel
  refine ⟨GraphCache.run_inv _, fun p _ => entriesOf_eq_nil ?_, fun _ hp => absurd hp List.not_mem_nil,
    by decide +kernel, List.eq_nil_of_length_eq_zero (by decide +kernel)⟩
  rw [hnone]
  exact List.not_mem_nil

theorem firstOps_owner : ∃ node ∈ (run GraphCache.step {} firstOps).localNodes,
    node.nodeId = (7 : UInt64).toNat ∧ node.participantPrefix = talkerPrefix := by
  decide +kernel

theorem firstEndpoint_fresh (hnone : cache.localEndpoints = [])
    (hnodes : cache.localNodes = (run GraphCache.step {} firstOps).localNodes) :
    cache.FreshEndpoint talkerPrefix #v[0, 0, 1, 3] 7 1 (some [99]) (some [105]) (some [99]) (some [105]) := by
  refine ⟨by decide, by decide, by decide, .inl rfl, hnodes ▸ firstOps_owner, fun e he => ?_, rfl, rfl, rfl, rfl⟩
  rw [hnone] at he
  exact absurd he List.not_mem_nil

/-- Without other participants the first endpoint finds room. -/
theorem first_endpoint_finds_room :
    let cache := run GraphCache.step {} firstOps
    cache.FreshEndpoint talkerPrefix #v[0, 0, 1, 3] 7 1 (some [99]) (some [105]) (some [99]) (some [105]) ∧
      (cache.perform (.addLocalEndpoint talkerPrefix #v[0, 0, 1, 3] 7 1 (some [99]) (some [105])
        (some [99]) (some [105]) true)).1 ≠ .error (some .capacityExceeded) := by
  intro cache
  have hfresh := firstEndpoint_fresh firstOps_crowd.localEndpoints rfl
  have hremote : cache.remoteEndpoints.length ≤ 0 :=
    remoteEndpoints_length_le firstOps_crowd.inv firstOps_crowd.others
  refine ⟨hfresh, ((graph_local_reserve firstOps).2 _ _ _ _ _ _ _ _ true hfresh).2 ?_
    (hremote.trans (Nat.zero_le 32))⟩
  rw [firstOps_crowd.localEndpoints]
  decide

/-- **Three participants can take all slots for endpoints**: the first endpoint of this context, with
valid fresh arguments and an existing owner, is refused for lack of room. -/
theorem remote_endpoints_take_all :
    let cache := run GraphCache.step {} (firstOps ++ crowdPrefixes.map crowdedSnapshot)
    cache.localEndpoints.length < 16 ∧
      cache.FreshEndpoint talkerPrefix #v[0, 0, 1, 3] 7 1 (some [99]) (some [105]) (some [99])
        (some [105]) ∧
      (cache.perform (.addLocalEndpoint talkerPrefix #v[0, 0, 1, 3] 7 1 (some [99]) (some [105])
        (some [99]) (some [105]) true)).1 = .error (some .capacityExceeded) := by
  rw [run_append]
  intro cache
  have hnonzero : crowdPrefixes.all nonzeroPrefix = true := by decide +kernel
  obtain ⟨hcrowd, hnodes⟩ := firstOps_crowd.run crowdPrefixes (List.all_eq_true.1 hnonzero)
    (by decide +kernel) (by decide)
  have hendpoints : cache.localEndpoints = [] := hcrowd.localEndpoints
  have hfresh := firstEndpoint_fresh hendpoints hnodes
  refine ⟨?_, hfresh, (addLocalEndpoint_full_iff hfresh true).2 (hcrowd.full (by decide +kernel) rfl)⟩
  rw [hendpoints]
  decide

end Results

end OpenRtdds
