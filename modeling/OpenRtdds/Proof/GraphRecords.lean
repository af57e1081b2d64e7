import OpenRtdds.Proof.GraphSnapshot

/-!
# What the operations do to the records of the graph

The slots of the tables are of no importance; each operation is described by what it does to the records
of every owner, this context and the other participants.

* `GraphOwner`, `GraphCache.nodesOf`, `endpointsOf`, `entriesOf`: the contents of the tables.
* `LocalChange`: what a successful local operation does. `addLocalNode_ok`, `removeLocalNode_ok`,
  `addLocalEndpoint_ok`, `removeLocalEndpoint_ok`.
* `RemoteChange`, `Applied`: what a snapshot does. `generationSlot_cases`, `commitSnapshot_cases`,
  `removeRemoteParticipant_spec`.
-/

namespace OpenRtdds

open Lib Guarded Raw

section Owner

/-- Whose record it is. -/
inductive GraphOwner where
  | here
  | participant (peer : GuidPrefix)
  deriving DecidableEq

/-- A record of this context is marked, and one of another participant has its prefix. -/
def GraphOwner.of (isLocal : Bool) (peer : GuidPrefix) : GraphOwner :=
  if isLocal then .here else .participant peer

abbrev GraphNodeRecord.owner (node : GraphNodeRecord) : GraphOwner :=
  .of node.isLocal node.participantPrefix

abbrev GraphEndpointRecord.owner (endpoint : GraphEndpointRecord) : GraphOwner :=
  .of endpoint.isLocal endpoint.participantPrefix

namespace GraphOwner

theorem of_here {isLocal : Bool} {p : GuidPrefix} : GraphOwner.of isLocal p = .here ↔ isLocal = true := by
  unfold GraphOwner.of
  cases isLocal <;> simp

theorem of_participant {isLocal : Bool} {p q : GuidPrefix} :
    GraphOwner.of isLocal p = .participant q ↔ isLocal = false ∧ p = q := by
  unfold GraphOwner.of
  cases isLocal <;> simp

end GraphOwner

end Owner

section Cleared

variable {α : Type} {n : ℕ} {occupied isLocal : α → Bool} {prefixOf : α → GuidPrefix} {free : α}

/-- A table of records with those of a participant freed. -/
def cleared (occupied isLocal : α → Bool) (prefixOf : α → GuidPrefix) (free : α) (p : GuidPrefix)
    (records : Vector α n) : Vector α n :=
  records.map fun record => if occupied record && !isLocal record && prefixOf record == p then free else record

theorem cleared_toList (p : GuidPrefix) (records : Vector α n) :
    (cleared occupied isLocal prefixOf free p records).toList = records.toList.map fun record =>
      if occupied record && decide (GraphOwner.of (isLocal record) (prefixOf record) = .participant p) then free
      else record := by
  rw [cleared, Vector.toList_map]
  refine List.map_congr_left fun record _ => if_congr ?_ rfl rfl
  simp only [Bool.and_eq_true, beq_iff_eq, decide_eq_true_eq, GraphOwner.of_participant, Bool.not_eq_true',
    and_assoc]

theorem recordsOf_clearedTable (hfree : occupied free = false) (p : GuidPrefix) (records : Vector α n) :
    let owner := fun record => GraphOwner.of (isLocal record) (prefixOf record)
    let records' := cleared occupied isLocal prefixOf free p records
    recordsOf occupied owner records'.toList (.participant p) = [] ∧
      ∀ o, o ≠ .participant p → recordsOf occupied owner records'.toList o =
        recordsOf occupied owner records.toList o := by
  dsimp only
  rw [cleared_toList]
  exact ⟨recordsOf_cleared hfree _, fun o ho => recordsOf_cleared_other hfree ho⟩

/-- The admission check counts what stays in the table. -/
theorem countP_clearedTable (free : α) (hfree : occupied free = false) (p : GuidPrefix) (records : Vector α n) :
    records.toList.countP (fun record => occupied record && (isLocal record || prefixOf record != p)) =
      (cleared occupied isLocal prefixOf free p records).toList.countP occupied := by
  rw [cleared_toList, countP_cleared hfree]
  refine List.countP_congr fun record _ => ?_
  simp only [Bool.and_eq_true, Bool.or_eq_true, bne_iff_ne, decide_eq_true_eq, ne_eq,
    GraphOwner.of_participant, not_and_or, Bool.not_eq_false]

theorem countP_clearedTable_le (hfree : occupied free = false) (p : GuidPrefix) (records : Vector α n) :
    (cleared occupied isLocal prefixOf free p records).toList.countP occupied ≤
      records.toList.countP occupied := by
  rw [cleared_toList]
  exact countP_cleared_le hfree _

end Cleared

section Coherent

variable {nodes nodes' : List GraphNodeRecord} {endpoints endpoints' : List GraphEndpointRecord}

theorem Coherent.addNode (h : Coherent nodes endpoints) {node : GraphNodeRecord}
    (hwf : node.WellFormed) (hnew : node.nodeId ∉ nodes.map (·.nodeId))
    (hperm : nodes'.Perm (node :: nodes)) : Coherent nodes' endpoints where
  node := by
    intro n hn
    rcases List.mem_cons.1 (hperm.mem_iff.1 hn) with rfl | hn
    · exact hwf
    · exact h.node n hn
  endpoint := h.endpoint
  nodeIds := (hperm.map _).nodup_iff.2 (List.nodup_cons.2 ⟨hnew, h.nodeIds⟩)
  entityIds := h.entityIds
  owned := by
    intro e he
    obtain ⟨n, hn, howner⟩ := h.owned e he
    exact ⟨n, hperm.mem_iff.2 (List.mem_cons_of_mem node hn), howner⟩

theorem Coherent.removeNode (h : Coherent nodes endpoints) {id : ℕ}
    (hfree : ∀ e ∈ endpoints, e.nodeId ≠ id) :
    Coherent (nodes.eraseP (·.nodeId == id)) endpoints where
  node := fun n hn => h.node n (List.mem_of_mem_eraseP hn)
  endpoint := h.endpoint
  nodeIds := (List.eraseP_sublist.map _).nodup h.nodeIds
  entityIds := h.entityIds
  owned := by
    intro e he
    obtain ⟨n, hn, hid, hof⟩ := h.owned e he
    have hother : ¬ (n.nodeId == id) = true := fun heq => hfree e he (hid ▸ beq_iff_eq.1 heq)
    exact ⟨n, (@List.mem_eraseP_of_neg _ (·.nodeId == id) n nodes hother).2 hn, hid, hof⟩

theorem Coherent.addEndpoint (h : Coherent nodes endpoints) {endpoint : GraphEndpointRecord}
    (hwf : endpoint.WellFormed) (hnew : endpoint.entityId ∉ endpoints.map (·.entityId))
    (howner : ∃ n ∈ nodes, n.nodeId = endpoint.nodeId ∧
      n.participantPrefix = endpoint.participantPrefix)
    (hperm : endpoints'.Perm (endpoint :: endpoints)) : Coherent nodes endpoints' where
  node := h.node
  endpoint := by
    intro e he
    rcases List.mem_cons.1 (hperm.mem_iff.1 he) with rfl | he
    · exact hwf
    · exact h.endpoint e he
  nodeIds := h.nodeIds
  entityIds := (hperm.map _).nodup_iff.2 (List.nodup_cons.2 ⟨hnew, h.entityIds⟩)
  owned := by
    intro e he
    rcases List.mem_cons.1 (hperm.mem_iff.1 he) with rfl | he
    · exact howner
    · exact h.owned e he

theorem Coherent.removeEndpoints (h : Coherent nodes endpoints) (hsub : endpoints'.Sublist endpoints) :
    Coherent nodes endpoints' where
  node := h.node
  endpoint := fun e he => h.endpoint e (hsub.mem he)
  nodeIds := h.nodeIds
  entityIds := (hsub.map _).nodup h.entityIds
  owned := fun e he => h.owned e (hsub.mem he)

theorem Coherent.nil : Coherent [] [] where
  node := fun _ hn => absurd hn List.not_mem_nil
  endpoint := fun _ he => absurd he List.not_mem_nil
  nodeIds := List.nodup_nil
  entityIds := List.nodup_nil
  owned := fun _ he => absurd he List.not_mem_nil

end Coherent

namespace GraphCache

section Contents

variable (cache : GraphCache)

/-- The nodes of an owner. -/
def nodesOf (o : GraphOwner) : List GraphNodeRecord :=
  recordsOf GraphNodeRecord.occupied GraphNodeRecord.owner cache.nodes.toList o

/-- The endpoints of an owner. -/
def endpointsOf (o : GraphOwner) : List GraphEndpointRecord :=
  recordsOf GraphEndpointRecord.occupied GraphEndpointRecord.owner cache.endpoints.toList o

/-- The generation entries of a participant. -/
def entriesOf (p : GuidPrefix) : List RemoteGeneration :=
  recordsOf RemoteGeneration.occupied RemoteGeneration.participantPrefix
    cache.remoteGenerations.toList p

/-- One step of a generation, which is never zero. -/
def nextGeneration (generation : ℕ) : ℕ := if generation ≥ int64Max then 1 else generation + 1

theorem nextGeneration_bounds {generation : ℕ} :
    1 ≤ nextGeneration generation ∧ nextGeneration generation ≤ int64Max := by
  have hmax : 1 ≤ int64Max := by decide
  unfold nextGeneration
  split <;> omega

theorem localNodes_eq : cache.localNodes = cache.nodesOf .here := by
  refine List.filter_congr fun node _ => ?_
  rw [Bool.eq_iff_iff]
  simp only [Bool.and_eq_true, decide_eq_true_eq, GraphOwner.of_here]

theorem localEndpoints_eq : cache.localEndpoints = cache.endpointsOf .here := by
  refine List.filter_congr fun endpoint _ => ?_
  rw [Bool.eq_iff_iff]
  simp only [Bool.and_eq_true, decide_eq_true_eq, GraphOwner.of_here]

variable {cache}

theorem mem_nodesOf {o : GraphOwner} {node : GraphNodeRecord} :
    node ∈ cache.nodesOf o ↔ node ∈ cache.nodes.toList ∧ node.occupied = true ∧ node.owner = o :=
  mem_recordsOf

theorem mem_endpointsOf {o : GraphOwner} {endpoint : GraphEndpointRecord} :
    endpoint ∈ cache.endpointsOf o ↔
      endpoint ∈ cache.endpoints.toList ∧ endpoint.occupied = true ∧ endpoint.owner = o :=
  mem_recordsOf

/-- The records of an owner are the same in both caches. -/
structure SameRecords (cache cache' : GraphCache) (o : GraphOwner) : Prop where
  nodes : cache'.nodesOf o = cache.nodesOf o
  endpoints : cache'.endpointsOf o = cache.endpointsOf o

end Contents

section Local

variable {cache cache' : GraphCache}

/-- **What a successful local operation does**: it changes the records of this context, keeps them
coherent, and advances both generations. -/
structure LocalChange (cache cache' : GraphCache) : Prop where
  participants : ∀ p, SameRecords cache cache' (.participant p)
  entries : cache'.remoteGenerations = cache.remoteGenerations
  coherent : Coherent (cache.nodesOf .here) (cache.endpointsOf .here) →
    Coherent (cache'.nodesOf .here) (cache'.endpointsOf .here)
  generation : cache'.generation = nextGeneration cache.generation
  localGeneration : cache'.localGeneration = nextGeneration cache.localGeneration

theorem copyText_some {capacity : ℕ} {input : CString} {text : Vector UInt8 capacity} {size : ℕ}
    (h : copyText capacity input false = some (text, size)) : TextField text size := by
  unfold copyText at h
  split at h
  · cases h
  · dsimp only at h
    split at h
    · cases h
    next hsize =>
      cases h
      simp only [true_and, not_or, not_le, ge_iff_le] at hsize
      exact padText_textField (Nat.pos_of_ne_zero hsize.2) hsize.1

theorem localNode_some {participantPrefix : GuidPrefix} {nodeId : UInt64}
    {name nameSpace enclave : CString} {node : GraphNodeRecord}
    (hnonzero : nonzeroPrefix participantPrefix = true) (hid : nodeId ≠ 0)
    (h : localNode participantPrefix nodeId name nameSpace enclave = some node) :
    node.WellFormed ∧ node.nodeId = nodeId.toNat ∧ node.participantPrefix = participantPrefix ∧
      node.occupied = true ∧ node.owner = .here := by
  obtain ⟨⟨nameText, nameSize⟩, hname, h⟩ := Option.bind_eq_some_iff.1 h
  obtain ⟨⟨nameSpaceText, namespaceSize⟩, hnameSpace, h⟩ := Option.bind_eq_some_iff.1 h
  obtain ⟨⟨enclaveText, enclaveSize⟩, henclave, h⟩ := Option.bind_eq_some_iff.1 h
  cases h
  have hpos : nodeId.toNat ≠ 0 := fun hzero => hid (UInt64.toNat_inj.1 hzero)
  exact ⟨⟨hnonzero, hpos, nodeId.toNat_lt, copyText_some hname, copyText_some hnameSpace,
    copyText_some henclave⟩, rfl, rfl, rfl, rfl⟩

theorem localEndpoint_some {participantPrefix : GuidPrefix} {entityId : EntityId} {nodeId : UInt64}
    {kind : GraphEndpointKind} {rosTopicName rosTypeName ddsTopicName ddsTypeName : CString}
    {conventions : Bool} {endpoint : GraphEndpointRecord} (hentity : validEntity entityId = true)
    (h : localEndpoint participantPrefix entityId nodeId kind rosTopicName rosTypeName ddsTopicName
      ddsTypeName conventions = some endpoint) :
    endpoint.WellFormed ∧ endpoint.nodeId = nodeId.toNat ∧ endpoint.entityId = entityId ∧
      endpoint.participantPrefix = participantPrefix ∧ endpoint.occupied = true ∧
      endpoint.owner = .here := by
  obtain ⟨⟨rosTopic, rosTopicSize⟩, hrosTopic, h⟩ := Option.bind_eq_some_iff.1 h
  obtain ⟨⟨rosType, rosTypeSize⟩, hrosType, h⟩ := Option.bind_eq_some_iff.1 h
  obtain ⟨⟨ddsTopic, ddsTopicSize⟩, hddsTopic, h⟩ := Option.bind_eq_some_iff.1 h
  obtain ⟨⟨ddsType, ddsTypeSize⟩, hddsType, h⟩ := Option.bind_eq_some_iff.1 h
  cases h
  exact ⟨⟨hentity, copyText_some hrosTopic, copyText_some hrosType, copyText_some hddsTopic,
    copyText_some hddsType⟩, rfl, rfl, rfl, rfl, rfl⟩

/-- A change of one table of a cache, with both generations advanced, is a local change. -/
theorem localChange_nodes {nodes : Vector GraphNodeRecord 136}
    (hothers : ∀ p, ({ cache with nodes } : GraphCache).nodesOf (.participant p) =
      cache.nodesOf (.participant p))
    (hcoherent : Coherent (cache.nodesOf .here) (cache.endpointsOf .here) →
      Coherent (({ cache with nodes } : GraphCache).nodesOf .here) (cache.endpointsOf .here)) :
    LocalChange cache (({ cache with nodes } : GraphCache).advanceGeneration true) :=
  ⟨fun p => ⟨hothers p, rfl⟩, rfl, hcoherent, rfl, rfl⟩

theorem localChange_endpoints {endpoints : Vector GraphEndpointRecord 48}
    (hothers : ∀ p, ({ cache with endpoints } : GraphCache).endpointsOf (.participant p) =
      cache.endpointsOf (.participant p))
    (hcoherent : Coherent (cache.nodesOf .here) (cache.endpointsOf .here) →
      Coherent (cache.nodesOf .here) (({ cache with endpoints } : GraphCache).endpointsOf .here)) :
    LocalChange cache (({ cache with endpoints } : GraphCache).advanceGeneration true) :=
  ⟨fun p => ⟨rfl, hothers p⟩, rfl, hcoherent, rfl, rfl⟩

variable {participantPrefix : GuidPrefix} {nodeId : UInt64} {name nameSpace enclave : CString}

/-- **`add_local_node`** adds one node with a new id. -/
theorem addLocalNode_ok
    (h : cache.addLocalNode participantPrefix nodeId name nameSpace enclave = .ok cache') :
    LocalChange cache cache' := by
  unfold addLocalNode at h
  obtain ⟨harguments, h⟩ := ite_error_ok h
  obtain ⟨hduplicate, h⟩ := ite_error_ok h
  simp only [Bool.or_eq_true, Bool.not_eq_true', beq_iff_eq, not_or, Bool.not_eq_false] at harguments
  split at h
  · cases h
  next node hnode =>
    obtain ⟨hwf, hid, -, hocc, howner⟩ := localNode_some harguments.1 harguments.2 hnode
    split at h
    · cases h
    next nodes hnodes =>
      cases h
      obtain ⟨hperm, hothers⟩ := recordsOf_added (replaceFirst_some hnodes) hocc howner
      refine localChange_nodes (fun p => hothers _ GraphOwner.noConfusion) fun hcoherent => ?_
      refine hcoherent.addNode hwf (fun hmem => ?_) hperm
      -- the loop over the local nodes has not found the id
      obtain ⟨n, hn, heq⟩ := List.mem_map.1 hmem
      obtain ⟨hin, hoccn, hlocal⟩ := mem_nodesOf.1 hn
      refine hduplicate (List.any_eq_true.2 ⟨n, hin, ?_⟩)
      rw [hoccn, GraphOwner.of_here.1 hlocal, heq, hid]
      simp

/-- **`remove_local_node`** removes a node without endpoints. -/
theorem removeLocalNode_ok (h : cache.removeLocalNode nodeId = .ok cache') :
    LocalChange cache cache' := by
  unfold removeLocalNode at h
  obtain ⟨hendpoints, h⟩ := ite_error_ok h
  split at h
  · cases h
  next nodes hnodes =>
    cases h
    have hmatch : (fun node : GraphNodeRecord =>
        node.occupied && node.isLocal && node.nodeId == nodeId.toNat) =
          fun node => (node.occupied && decide (node.owner = .here)) &&
            node.nodeId == nodeId.toNat := by
      funext node
      rw [Bool.eq_iff_iff]
      simp only [Bool.and_eq_true, decide_eq_true_eq, GraphOwner.of_here]
    obtain ⟨hremoved, hothers⟩ := recordsOf_removed (replaceFirst_some hnodes) hmatch rfl
    refine localChange_nodes (fun p => hothers _ GraphOwner.noConfusion) fun hcoherent => ?_
    rw [show ({ cache with nodes } : GraphCache).nodesOf .here = _ from hremoved]
    refine hcoherent.removeNode fun e he heq => ?_
    -- an endpoint of the node would have been found
    obtain ⟨hin, hocc, hlocal⟩ := mem_endpointsOf.1 he
    refine hendpoints (List.any_eq_true.2 ⟨e, hin, ?_⟩)
    rw [hocc, GraphOwner.of_here.1 hlocal, heq]
    simp

variable {entityId : EntityId} {kind : UInt8}
  {rosTopicName rosTypeName ddsTopicName ddsTypeName : CString} {conventions : Bool}

/-- **`add_local_endpoint`** adds one endpoint with a new id to a node of this context. -/
theorem addLocalEndpoint_ok
    (h : cache.addLocalEndpoint participantPrefix entityId nodeId kind rosTopicName rosTypeName
      ddsTopicName ddsTypeName conventions = .ok cache') : LocalChange cache cache' := by
  unfold addLocalEndpoint at h
  split at h
  · cases h
  next endpointKind hkind =>
    obtain ⟨harguments, h⟩ := ite_error_ok h
    obtain ⟨hnode, h⟩ := ite_error_ok h
    obtain ⟨hduplicate, h⟩ := ite_error_ok h
    simp only [Bool.or_eq_true, Bool.not_eq_true', beq_iff_eq, not_or, Bool.not_eq_false]
      at harguments hnode
    split at h
    · cases h
    next endpoint hendpoint =>
      obtain ⟨hwf, hid, hentity, hof, hocc, howner⟩ := localEndpoint_some harguments.1.2 hendpoint
      split at h
      · cases h
      next endpoints hendpoints =>
        cases h
        obtain ⟨hperm, hothers⟩ := recordsOf_added (replaceFirst_some hendpoints) hocc howner
        refine localChange_endpoints (fun p => hothers _ GraphOwner.noConfusion) fun hcoherent => ?_
        refine hcoherent.addEndpoint hwf (fun hmem => ?_) ?_ hperm
        · obtain ⟨e, he, heq⟩ := List.mem_map.1 hmem
          obtain ⟨hin, hocce, hlocal⟩ := mem_endpointsOf.1 he
          refine hduplicate (List.any_eq_true.2 ⟨e, hin, ?_⟩)
          rw [hocce, GraphOwner.of_here.1 hlocal, heq, hentity]
          simp
        · obtain ⟨n, hin, hn⟩ := List.any_eq_true.1 hnode
          simp only [Bool.and_eq_true, beq_iff_eq] at hn
          refine ⟨n, mem_nodesOf.2 ⟨hin, hn.1.1.1, GraphOwner.of_here.2 hn.1.1.2⟩, ?_, ?_⟩
          · rw [hn.1.2, hid]
          · rw [hn.2, hof]

/-- **`remove_local_endpoint`** removes one endpoint. -/
theorem removeLocalEndpoint_ok (h : cache.removeLocalEndpoint entityId = .ok cache') :
    LocalChange cache cache' := by
  unfold removeLocalEndpoint at h
  split at h
  · cases h
  next endpoints hendpoints =>
    cases h
    have hmatch : (fun endpoint : GraphEndpointRecord =>
        endpoint.occupied && endpoint.isLocal && endpoint.entityId == entityId) =
          fun endpoint => (endpoint.occupied && decide (endpoint.owner = .here)) &&
            endpoint.entityId == entityId := by
      funext endpoint
      rw [Bool.eq_iff_iff]
      simp only [Bool.and_eq_true, decide_eq_true_eq, GraphOwner.of_here]
    obtain ⟨hremoved, hothers⟩ := recordsOf_removed (replaceFirst_some hendpoints) hmatch rfl
    refine localChange_endpoints (fun p => hothers _ GraphOwner.noConfusion) fun hcoherent => ?_
    rw [show ({ cache with endpoints } : GraphCache).endpointsOf .here = _ from hremoved]
    exact hcoherent.removeEndpoints List.eraseP_sublist

end Local

section Remote

variable {cache cache' : GraphCache} {peer : GuidPrefix} {snapshot : Snapshot}

/-- What an operation on a participant leaves alone: the records of the others, and the local
generation. -/
structure RemoteChange (cache cache' : GraphCache) (peer : GuidPrefix) : Prop where
  others : ∀ o, o ≠ .participant peer → SameRecords cache cache' o
  entries : ∀ p, p ≠ peer → cache'.entriesOf p = cache.entriesOf p
  localGeneration : cache'.localGeneration = cache.localGeneration

/-- The nodes and endpoints without those of a participant. -/
abbrev clearedNodes (cache : GraphCache) (peer : GuidPrefix) : Vector GraphNodeRecord 136 :=
  cleared GraphNodeRecord.occupied GraphNodeRecord.isLocal GraphNodeRecord.participantPrefix {} peer
    cache.nodes

abbrev clearedEndpoints (cache : GraphCache) (peer : GuidPrefix) : Vector GraphEndpointRecord 48 :=
  cleared GraphEndpointRecord.occupied GraphEndpointRecord.isLocal GraphEndpointRecord.participantPrefix {}
    peer cache.endpoints

theorem cleared_records (cache : GraphCache) (peer : GuidPrefix) :
    let cache' : GraphCache :=
      { cache with
        nodes := cache.clearedNodes peer
        endpoints := cache.clearedEndpoints peer }
    cache'.nodesOf (.participant peer) = [] ∧
      cache'.endpointsOf (.participant peer) = [] ∧
      ∀ o, o ≠ .participant peer → SameRecords cache cache' o := by
  obtain ⟨hnodes, hotherNodes⟩ := @recordsOf_clearedTable _ _ GraphNodeRecord.occupied
    GraphNodeRecord.isLocal GraphNodeRecord.participantPrefix {} rfl peer cache.nodes
  obtain ⟨hendpoints, hotherEndpoints⟩ := @recordsOf_clearedTable _ _ GraphEndpointRecord.occupied
    GraphEndpointRecord.isLocal GraphEndpointRecord.participantPrefix {} rfl peer cache.endpoints
  exact ⟨hnodes, hendpoints, fun o ho => ⟨hotherNodes o ho, hotherEndpoints o ho⟩⟩

/-- There is room for the snapshot beside the records that stay. -/
structure Room (cache : GraphCache) (peer : GuidPrefix) (nodeCount endpointCount : ℕ) : Prop where
  nodes : (cache.clearedNodes peer).toList.countP GraphNodeRecord.occupied + nodeCount ≤ 136
  endpoints : (cache.clearedEndpoints peer).toList.countP GraphEndpointRecord.occupied +
    endpointCount ≤ 48

theorem room_of_counts {nodeCount endpointCount : ℕ}
    (hnodes : cache.nodes.toList.countP GraphNodeRecord.occupied + nodeCount ≤ 136)
    (hendpoints : cache.endpoints.toList.countP GraphEndpointRecord.occupied + endpointCount ≤ 48) :
    cache.Room peer nodeCount endpointCount := by
  constructor
  · exact (Nat.add_le_add_right (countP_clearedTable_le rfl _ _) _).trans hnodes
  · exact (Nat.add_le_add_right (countP_clearedTable_le rfl _ _) _).trans hendpoints

/-- The cache with the snapshot, whose generation goes into a slot. -/
def committed (cache : GraphCache) (peer : GuidPrefix) (snapshot : Snapshot)
    (slot : Fin 16) : GraphCache :=
  { cache with
    nodes := insertAll GraphNodeRecord.occupied (cache.clearedNodes peer) snapshot.nodeList
    endpoints := insertAll GraphEndpointRecord.occupied (cache.clearedEndpoints peer)
      snapshot.endpointList
    remoteGenerations := setSlot cache.remoteGenerations slot
      { participantPrefix := peer, generation := snapshot.generation, occupied := true }
    : GraphCache }.advanceGeneration false

theorem insertRecord_eq {α : Type} {n : ℕ} (occupied : α → Bool) (slots : Vector α n) (record : α) :
    insertRecord occupied slots record =
      (replaceFirst (fun slot => !occupied slot) slots record).getD slots := by
  unfold insertRecord replaceFirst
  cases slots.findFinIdx? fun slot => !occupied slot with
  | none => rfl
  | some i => rfl

/-- The loop over the incoming records stores them one by one. -/
theorem insertRecords_eq {ε α : Type} {n capacity count : ℕ} (occupied : α → Bool)
    (incoming : Vector α capacity) (slots : Vector α n) (hcount : count ≤ capacity) :
    (insertRecords occupied incoming count slots : Guarded ε (Vector α n)) =
      .ok (insertAll occupied slots (incoming.toList.take count)) := by
  induction count with
  | zero => rfl
  | succ count ih =>
    have hlt : count < capacity := hcount
    have hlength : count < incoming.toList.length := by rwa [Vector.length_toList]
    have hfetch : (fetch incoming count : Guarded ε α) = .ok incoming.toList[count] := by
      unfold fetch
      rw [dif_pos hlt, Vector.getElem_toList]
    have hbefore := ih (by omega)
    unfold insertRecords at hbefore ⊢
    rw [List.range_succ, List.foldlM_append, hbefore, ok_bind, List.foldlM_cons, hfetch, ok_bind,
      List.take_succ_eq_append_getElem hlength, insertRecord_eq]
    unfold insertAll
    rw [List.foldl_append]
    rfl

/-- **What a snapshot does to the cache**: the records of the participant are those of the snapshot, and
its entry holds the generation, which is newer than that of the entry before. -/
structure Applied (cache cache' : GraphCache) (peer : GuidPrefix) (snapshot : Snapshot) :
    Prop extends RemoteChange cache cache' peer where
  nodes : cache'.nodesOf (.participant peer) = snapshot.nodeList
  endpoints : cache'.endpointsOf (.participant peer) = snapshot.endpointList
  entry : cache'.entriesOf peer =
    { participantPrefix := peer, generation := snapshot.generation, occupied := true } ::
      (cache.entriesOf peer).tail
  newer : ∀ entry ∈ (cache.entriesOf peer).head?, entry.generation < snapshot.generation
  generation : cache'.generation = nextGeneration cache.generation

theorem entry_match (p : GuidPrefix) : (fun entry : RemoteGeneration =>
      entry.occupied && entry.participantPrefix == p) =
    fun entry => entry.occupied && decide (entry.participantPrefix = p) := by
  funext entry
  rw [Bool.eq_iff_iff]
  simp only [Bool.and_eq_true, beq_iff_eq, decide_eq_true_eq]

/-- **Where the generation goes**: into the entry of the participant, if it is older, or into a free one. -/
inductive SlotFor (cache : GraphCache) (peer : GuidPrefix) (generation : ℕ) :
    Guarded GraphExit (Fin 16) → Prop
  | slot {slot : Fin 16}
      (newer : ∀ entry ∈ (cache.entriesOf peer).head?, entry.generation < generation)
      (stored : ∀ record : RemoteGeneration, record.occupied = true →
        record.participantPrefix = peer →
        let cache' : GraphCache :=
          { cache with remoteGenerations := setSlot cache.remoteGenerations slot record }
        (∀ p, p ≠ peer → cache'.entriesOf p = cache.entriesOf p) ∧
          cache'.entriesOf peer = record :: (cache.entriesOf peer).tail) :
      SlotFor cache peer generation (.ok slot)
  | stale {entry : RemoteGeneration} (known : entry ∈ cache.entriesOf peer)
      (stale : ¬ entry.generation < generation) :
      SlotFor cache peer generation (.error (.unchanged, .staleSnapshot))
  | full (unknown : cache.entriesOf peer = [])
      (taken : ∀ entry ∈ cache.remoteGenerations.toList, entry.occupied = true) :
      SlotFor cache peer generation (.error (.rejected, .capacityExceeded))

theorem generationSlot_cases (cache : GraphCache) (peer : GuidPrefix) (generation : ℕ) :
    SlotFor cache peer generation (cache.generationSlot peer generation) := by
  unfold generationSlot
  rw [entry_match]
  split
  next i hfound =>
    have hstored : ∀ record : RemoteGeneration, record.occupied = true →
        record.participantPrefix = peer → _ := fun _ => recordsOf_updated hfound
    obtain ⟨⟨rest, hrest, -⟩, -⟩ := hstored { participantPrefix := peer, occupied := true } rfl rfl
    by_cases holder : (cache.remoteGenerations.get i).generation < generation
    · rw [require_pos holder]
      refine .slot (fun entry hentry => ?_) fun record hrecord hof => ?_
      · unfold entriesOf at hentry
        rw [hrest, List.head?_cons, Option.mem_some] at hentry
        rwa [← hentry]
      · obtain ⟨⟨rest, hrest, hrest'⟩, hothers⟩ := hstored record hrecord hof
        refine ⟨hothers, ?_⟩
        unfold entriesOf
        rw [hrest, hrest', List.tail_cons]
    · rw [require_neg holder]
      refine .stale ?_ holder
      unfold entriesOf
      rw [hrest]
      exact List.mem_cons_self
  next hnone =>
    have hempty : cache.entriesOf peer = [] := by
      refine List.filter_eq_nil_iff.2 fun x hx => ?_
      exact Vector.findFinIdx?_eq_none_iff.1 hnone x (Vector.mem_toList_iff.1 hx)
    split
    next i hfree =>
      refine .slot (fun entry hentry => ?_) fun record hrecord hof => ?_
      · rw [hempty] at hentry
        cases hentry
      · obtain ⟨hperm, hothers⟩ := recordsOf_added (findFinIdx?_replaced hfree record) hrecord hof
        change List.Perm _ (record :: cache.entriesOf peer) at hperm
        refine ⟨hothers, ?_⟩
        rw [hempty] at hperm ⊢
        exact List.perm_singleton.1 hperm
    next hfull =>
      refine .full hempty fun x hx => ?_
      have htaken := Vector.findFinIdx?_eq_none_iff.1 hfull x (Vector.mem_toList_iff.1 hx)
      simpa using htaken

/-- **A committed snapshot**: no record is lost, because there is room for all of them. -/
theorem committed_applied {number : ℕ}
    (hsnapshot : snapshot.Accepted peer number) {slot : Fin 16}
    (hslot : SlotFor cache peer snapshot.generation (.ok slot))
    (hroom : cache.Room peer snapshot.nodeCount snapshot.endpointCount) :
    Applied cache (cache.committed peer snapshot slot) peer snapshot := by
  obtain ⟨hnewer, hstored⟩ := hslot
  obtain ⟨hentries, hentry⟩ := hstored
    { participantPrefix := peer, generation := snapshot.generation, occupied := true } rfl rfl
  have hnodeRoom : (cache.clearedNodes peer).toList.countP GraphNodeRecord.occupied +
      snapshot.nodeList.length ≤ 136 :=
    (Nat.add_le_add_left (List.length_take_le _ _) _).trans hroom.nodes
  have hendpointRoom :
      (cache.clearedEndpoints peer).toList.countP GraphEndpointRecord.occupied +
        snapshot.endpointList.length ≤ 48 :=
    (Nat.add_le_add_left (List.length_take_le _ _) _).trans hroom.endpoints
  have hnodeOwner : ∀ n ∈ snapshot.nodeList, n.owner = .participant peer := by
    intro n hn
    obtain ⟨hof, -, hremote⟩ := hsnapshot.node n hn
    exact GraphOwner.of_participant.2 ⟨hremote, hof⟩
  have hendpointOwner : ∀ e ∈ snapshot.endpointList, e.owner = .participant peer := by
    intro e he
    obtain ⟨hof, -, hremote⟩ := hsnapshot.endpoint e he
    exact GraphOwner.of_participant.2 ⟨hremote, hof⟩
  have hnodeOccupied := fun n hn => (hsnapshot.node n hn).2.1
  have hendpointOccupied := fun e he => (hsnapshot.endpoint e he).2.1
  obtain ⟨hnodes, hendpoints, hothers⟩ := cleared_records cache peer
  refine ⟨⟨fun o ho => ⟨?_, ?_⟩, hentries, rfl⟩, ?_, ?_, hentry, hnewer, rfl⟩
  · exact (recordsOf_insertAll_other hnodeRoom hnodeOccupied hnodeOwner ho).trans (hothers o ho).nodes
  · exact (recordsOf_insertAll_other hendpointRoom hendpointOccupied hendpointOwner ho).trans
      (hothers o ho).endpoints
  · exact recordsOf_insertAll hnodeRoom hnodeOccupied hnodeOwner hnodes
  · exact recordsOf_insertAll hendpointRoom hendpointOccupied hendpointOwner hendpoints

/-- **How a snapshot is taken over**: it is not newer, there is no room for it, or it is applied. -/
inductive Committed (cache : GraphCache) (peer : GuidPrefix) (snapshot : Snapshot) :
    Guarded GraphExit GraphCache → Prop
  | applied {cache' : GraphCache} (change : Applied cache cache' peer snapshot) :
      Committed cache peer snapshot (.ok cache')
  | stale {entry : RemoteGeneration} (known : entry ∈ cache.entriesOf peer)
      (stale : ¬ entry.generation < snapshot.generation) :
      Committed cache peer snapshot (.error (.unchanged, .staleSnapshot))
  | full (h : (cache.entriesOf peer = [] ∧
        ∀ entry ∈ cache.remoteGenerations.toList, entry.occupied = true) ∨
      ¬ cache.Room peer snapshot.nodeCount snapshot.endpointCount) :
      Committed cache peer snapshot (.error (.rejected, .capacityExceeded))

theorem commitSnapshot_cases (cache : GraphCache) {number : ℕ}
    (hsnapshot : snapshot.Accepted peer number) :
    Committed cache peer snapshot (cache.commitSnapshot peer snapshot) := by
  have hnodeCount := (List.countP_le_length (p := GraphNodeRecord.occupied)
    (l := (cache.clearedNodes peer).toList)).trans_eq Vector.length_toList
  have hendpointCount := (List.countP_le_length (p := GraphEndpointRecord.occupied)
    (l := (cache.clearedEndpoints peer).toList)).trans_eq Vector.length_toList
  have hslot := cache.generationSlot_cases peer snapshot.generation
  unfold commitSnapshot
  generalize cache.generationSlot peer snapshot.generation = found at hslot ⊢
  cases hslot with
  | stale hknown hstale => exact .stale hknown hstale
  | full hunknown htaken => exact .full (.inl ⟨hunknown, htaken⟩)
  | @slot slot hnewer hstored =>
    dsimp only
    rw [ok_bind, countP_clearedTable ({} : GraphNodeRecord) rfl,
      countP_clearedTable ({} : GraphEndpointRecord) rfl, sizeSub_of_le hnodeCount, ok_bind,
      sizeSub_of_le hendpointCount, ok_bind]
    by_cases hroom : cache.Room peer snapshot.nodeCount snapshot.endpointCount
    · have hnodes := hroom.nodes
      have hendpoints := hroom.endpoints
      rw [require_pos (by omega), ok_bind, require_pos (by omega), ok_bind,
        insertRecords_eq _ _ _ hsnapshot.nodeCount, ok_bind,
        insertRecords_eq _ _ _ hsnapshot.endpointCount, ok_bind]
      exact .applied (committed_applied hsnapshot (.slot hnewer hstored) hroom)
    · have hfull : Committed cache peer snapshot (.error (.rejected, .capacityExceeded)) :=
        .full (.inr hroom)
      by_cases hnodes : snapshot.nodeCount ≤ 136 -
          (cache.clearedNodes peer).toList.countP GraphNodeRecord.occupied
      · rw [require_pos hnodes, ok_bind, require_neg fun hendpoints => hroom ⟨by omega, by omega⟩]
        exact hfull
      · rw [require_neg hnodes]
        exact hfull

/-- **What `remove_remote_participant` does**: the records of the participant go, and its entry. -/
structure Removed (cache cache' : GraphCache) (peer : GuidPrefix) (update : GraphUpdate) :
    Prop extends RemoteChange cache cache' peer where
  nodes : cache'.nodesOf (.participant peer) = []
  endpoints : cache'.endpointsOf (.participant peer) = []
  entry : cache'.entriesOf peer = (cache.entriesOf peer).tail
  changed : update = .changed ∧ cache'.generation = nextGeneration cache.generation ∨
    update = .unchanged ∧ cache'.generation = cache.generation

theorem entriesOf_removed (cache : GraphCache) (peer : GuidPrefix) :
    let cache' : GraphCache :=
      { cache with
        remoteGenerations := (replaceFirst (fun entry => entry.occupied &&
          entry.participantPrefix == peer) cache.remoteGenerations {}).getD
            cache.remoteGenerations }
    (∀ p, p ≠ peer → cache'.entriesOf p = cache.entriesOf p) ∧
      cache'.entriesOf peer = (cache.entriesOf peer).tail := by
  rw [entry_match]
  intro cache'
  cases hfound : replaceFirst (fun entry => entry.occupied &&
      decide (entry.participantPrefix = peer)) cache.remoteGenerations {} with
  | none =>
    have hsame : cache' = cache := by
      simp only [cache', hfound, Option.getD_none]
    have hempty : cache.entriesOf peer = [] :=
      List.filter_eq_nil_iff.2 fun x hx => Bool.eq_false_iff.1 (replaceFirst_none.1 hfound x hx)
    rw [hsame, hempty]
    exact ⟨fun _ _ => rfl, rfl⟩
  | some generations =>
    have hsame : cache' = { cache with remoteGenerations := generations } := by
      simp only [cache', hfound, Option.getD_some]
    rw [hsame]
    exact (recordsOf_removed_first (replaceFirst_some hfound) rfl).symm

theorem removeRemoteParticipant_spec (cache : GraphCache) (peer : GuidPrefix) :
    Removed cache (cache.removeRemoteParticipant peer).2 peer
      (cache.removeRemoteParticipant peer).1 := by
  obtain ⟨hentries, hentry⟩ := cache.entriesOf_removed peer
  obtain ⟨hnodes, hendpoints, hothers⟩ := cleared_records cache peer
  unfold removeRemoteParticipant
  dsimp only
  split
  · exact ⟨⟨fun o ho => ⟨(hothers o ho).nodes, (hothers o ho).endpoints⟩, hentries, rfl⟩, hnodes, hendpoints,
      hentry, .inl ⟨rfl, rfl⟩⟩
  · exact ⟨⟨fun o ho => ⟨(hothers o ho).nodes, (hothers o ho).endpoints⟩, hentries, rfl⟩, hnodes, hendpoints,
      hentry, .inr ⟨rfl, rfl⟩⟩

end Remote

end GraphCache

end OpenRtdds
