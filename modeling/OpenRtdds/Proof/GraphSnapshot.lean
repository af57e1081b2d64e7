import OpenRtdds.Proof.Layout
import OpenRtdds.Spec.GraphCache

/-!
# Snapshots of the graph

What the records of one participant have to be, and that `apply_remote` accepts no other ones.

* `TextField`, `GraphNodeRecord.WellFormed`, `GraphEndpointRecord.WellFormed`: a single record.
* `Coherent`: the nodes and endpoints of one participant, with distinct ids and an owner for every
  endpoint.
* `readNode_yields`, `readEndpoint_yields`: an iteration of the loops of the parser adds a record.
* `readSnapshot_yields`: **a snapshot that is read is coherent.** No error reports a change.
-/

namespace OpenRtdds

open Lib Guarded Raw

section Records

/-- A text of at least one character, in an array that holds zeros behind it. -/
structure TextField {capacity : ℕ} (text : Vector UInt8 capacity) (size : ℕ) : Prop where
  pos : 0 < size
  lt : size < capacity
  padded : text = GraphCache.padText capacity (text.toList.take size)

structure GraphNodeRecord.WellFormed (node : GraphNodeRecord) : Prop where
  nonzero : nonzeroPrefix node.participantPrefix = true
  pos : node.nodeId ≠ 0
  lt : node.nodeId < 2 ^ 64
  name : TextField node.name node.nameSize
  nameSpace : TextField node.nameSpace node.namespaceSize
  enclave : TextField node.enclave node.enclaveSize

structure GraphEndpointRecord.WellFormed (endpoint : GraphEndpointRecord) : Prop where
  entity : GraphCache.validEntity endpoint.entityId = true
  rosTopicName : TextField endpoint.rosTopicName endpoint.rosTopicNameSize
  rosTypeName : TextField endpoint.rosTypeName endpoint.rosTypeNameSize
  ddsTopicName : TextField endpoint.ddsTopicName endpoint.ddsTopicNameSize
  ddsTypeName : TextField endpoint.ddsTypeName endpoint.ddsTypeNameSize

/-- **The records of one owner**: well formed, with ids of their own, and every endpoint has its node. -/
structure Coherent (nodes : List GraphNodeRecord) (endpoints : List GraphEndpointRecord) : Prop where
  node : ∀ n ∈ nodes, n.WellFormed
  endpoint : ∀ e ∈ endpoints, e.WellFormed
  nodeIds : (nodes.map (·.nodeId)).Nodup
  entityIds : (endpoints.map (·.entityId)).Nodup
  owned : ∀ e ∈ endpoints, ∃ n ∈ nodes, n.nodeId = e.nodeId ∧ n.participantPrefix = e.participantPrefix

end Records

namespace GraphCache

section Text

theorem padText_take {capacity : ℕ} {text : List UInt8} (h : text.length ≤ capacity) :
    (padText capacity text).toList.take text.length = text := by
  apply List.ext_getElem
  · simpa using h
  · intro k hk hk'
    simp [padText, hk']

theorem padText_textField {capacity : ℕ} {text : List UInt8} (hpos : 0 < text.length)
    (hlt : text.length < capacity) : TextField (padText capacity text) text.length :=
  ⟨hpos, hlt, by rw [padText_take hlt.le]⟩

end Text

section Read

variable {m : List UInt8} {peer : GuidPrefix} {payloadSize : ℕ}

/-- The exits before the first write do not report a change. -/
def NoChange (exit : GraphExit) : Prop := exit.1 ≠ .changed

theorem noChange_rejected (error : GraphError) : NoChange (.rejected, error) := by
  intro h
  cases h

theorem readText_yields {capacity position size : ℕ} :
    Yields NoChange (fun output => TextField output.1 size)
      (readText capacity m payloadSize position size false) := by
  have hmalformed := noChange_rejected .malformedSnapshot
  unfold readText
  refine .require_bind hmalformed fun hlt => .require_bind hmalformed fun hpos => ?_
  refine .require_bind hmalformed fun _ => .ite_bind fun _ => .require_bind hmalformed fun _ => ?_
  refine .ite_bind fun hin => .ite_bind fun _ => .ite_bind fun _ => .ok ?_
  have hlength : ((m.drop position).take size).length = size := length_part hin
  have hpos : 0 < size := by
    rcases hpos with hempty | hne
    · cases hempty
    · omega
  have htext := @padText_textField capacity ((m.drop position).take size) (by omega) (by omega)
  rwa [hlength] at htext

theorem recordStart_yields {headerSize position : ℕ} :
    Yields NoChange (fun _ => True) (recordStart headerSize payloadSize position) := by
  have hmalformed := noChange_rejected .malformedSnapshot
  unfold recordStart
  exact .require_bind hmalformed fun _ => .ite_bind fun _ => .require_bind hmalformed fun _ => .ok trivial

theorem take_set {α : Type} {n i : ℕ} (v : Vector α n) (a : α) (h : i < n) :
    (v.set i a).toList.take (i + 1) = v.toList.take i ++ [a] := by
  have hlen : i < v.toList.length := by rwa [Vector.length_toList]
  rw [Vector.toList_set, List.take_succ_eq_append_getElem (by rwa [List.length_set]),
    List.take_set_of_le (le_refl i), List.getElem_set_self]

/-- **A node that is read is well formed**, and its id is new. -/
theorem readNode_yields (hnonzero : nonzeroPrefix peer = true) {s : Incoming GraphNodeRecord 8}
    {index : ℕ} : Yields NoChange (fun s' : Incoming GraphNodeRecord 8 =>
      ∃ node : GraphNodeRecord, s'.records.toList.take (index + 1) = s.records.toList.take index ++ [node] ∧
        node.WellFormed ∧ node.participantPrefix = peer ∧ node.occupied = true ∧
        node.isLocal = false ∧ node.nodeId ∉ (s.records.toList.take index).map (·.nodeId))
      (readNode peer m payloadSize s index) := by
  have hmalformed := noChange_rejected .malformedSnapshot
  unfold readNode
  refine recordStart_yields.bind fun start _ => .ite_bind fun _ => .ite_bind fun _ => ?_
  refine .ite_bind fun _ => .ite_bind fun _ => .require_bind hmalformed fun hpos => ?_
  refine .ite_bind fun _ => .require_bind hmalformed fun _ => .ite_bind fun _ => ?_
  refine readText_yields.bind fun name hname => readText_yields.bind fun nameSpace hnameSpace => ?_
  refine readText_yields.bind fun enclave henclave => .ite_bind fun _ => ?_
  refine .require_bind (noChange_rejected _) fun hnew => .store_bind fun hindex => .ok ?_
  refine ⟨_, take_set _ _ hindex, ⟨hnonzero, hpos, readAt_lt _ _ _ _, hname, hnameSpace, henclave⟩, rfl, rfl,
    rfl, fun hmem => ?_⟩
  obtain ⟨node, hin, heq⟩ := List.mem_map.1 hmem
  exact absurd (beq_iff_eq.2 heq) (List.any_eq_false.1 hnew node hin)

/-- **An endpoint that is read is well formed**, its id is new and its node is there. -/
theorem readEndpoint_yields {nodes : Vector GraphNodeRecord 8} {nodeCount : ℕ}
    {s : Incoming GraphEndpointRecord 16} {index : ℕ} :
    Yields NoChange (fun s' : Incoming GraphEndpointRecord 16 =>
      ∃ endpoint : GraphEndpointRecord, s'.records.toList.take (index + 1) =
          s.records.toList.take index ++ [endpoint] ∧
        endpoint.WellFormed ∧ endpoint.participantPrefix = peer ∧
        endpoint.occupied = true ∧ endpoint.isLocal = false ∧
        endpoint.entityId ∉ (s.records.toList.take index).map (·.entityId) ∧
        ∃ node ∈ nodes.toList.take nodeCount, node.nodeId = endpoint.nodeId)
      (readEndpoint peer m payloadSize nodes nodeCount s index) := by
  have hmalformed := noChange_rejected .malformedSnapshot
  unfold readEndpoint
  refine recordStart_yields.bind fun start _ => .ite_bind fun _ => .ite_bind fun _ => ?_
  refine .ite_bind fun _ => .ite_bind fun _ => .ite_bind fun _ => .ite_bind fun _ => ?_
  refine .ite_bind fun _ => .ite_bind fun _ => .require_bind hmalformed fun hentity => ?_
  refine .ite_bind fun _ => .require_bind hmalformed fun howner => ?_
  split
  · exact .error hmalformed
  refine .require_bind hmalformed fun _ => .ite_bind fun _ => .require_bind hmalformed fun _ => ?_
  refine .ite_bind fun _ => readText_yields.bind fun rosTopic hrosTopic => ?_
  refine readText_yields.bind fun rosType hrosType => readText_yields.bind fun ddsTopic hddsTopic => ?_
  refine readText_yields.bind fun ddsType hddsType => .ite_bind fun _ => ?_
  refine .require_bind (noChange_rejected _) fun hnew => .store_bind fun hindex => .ok ?_
  refine ⟨_, take_set _ _ hindex, ⟨hentity, hrosTopic, hrosType, hddsTopic, hddsType⟩, rfl, rfl, rfl,
    fun hmem => ?_, ?_⟩
  · obtain ⟨endpoint, hin, heq⟩ := List.mem_map.1 hmem
    exact absurd (beq_iff_eq.2 heq) (List.any_eq_false.1 hnew endpoint hin)
  · obtain ⟨node, hin, heq⟩ := List.any_eq_true.1 howner
    exact ⟨node, hin, beq_iff_eq.1 heq⟩

end Read

section Snapshot

/-- The nodes and endpoints of a snapshot. -/
def Snapshot.nodeList (snapshot : Snapshot) : List GraphNodeRecord :=
  snapshot.nodes.toList.take snapshot.nodeCount

def Snapshot.endpointList (snapshot : Snapshot) : List GraphEndpointRecord :=
  snapshot.endpoints.toList.take snapshot.endpointCount

/-- **What `apply_remote` accepts as a snapshot of a participant.** -/
structure Snapshot.Accepted (snapshot : Snapshot) (peer : GuidPrefix)
    (number : ℕ) : Prop where
  nonzero : nonzeroPrefix peer = true
  generation : snapshot.generation = number
  pos : snapshot.generation ≠ 0
  le : snapshot.generation ≤ int64Max
  nodeCount : snapshot.nodeCount ≤ 8
  endpointCount : snapshot.endpointCount ≤ 16
  coherent : Coherent snapshot.nodeList snapshot.endpointList
  node : ∀ n ∈ snapshot.nodeList,
    n.participantPrefix = peer ∧ n.occupied = true ∧ n.isLocal = false
  endpoint : ∀ e ∈ snapshot.endpointList,
    e.participantPrefix = peer ∧ e.occupied = true ∧ e.isLocal = false

/-- The nodes that were read so far. -/
structure NodesRead (peer : GuidPrefix) (nodes : List GraphNodeRecord) : Prop where
  node : ∀ n ∈ nodes, n.WellFormed ∧ n.participantPrefix = peer ∧ n.occupied = true ∧
    n.isLocal = false
  nodeIds : (nodes.map (·.nodeId)).Nodup

/-- The endpoints that were read so far. -/
structure EndpointsRead (peer : GuidPrefix) (nodes : List GraphNodeRecord)
    (endpoints : List GraphEndpointRecord) : Prop where
  endpoint : ∀ e ∈ endpoints, e.WellFormed ∧ e.participantPrefix = peer ∧
    e.occupied = true ∧ e.isLocal = false ∧ ∃ n ∈ nodes, n.nodeId = e.nodeId
  entityIds : (endpoints.map (·.entityId)).Nodup

theorem nodup_map_concat {α β : Type} {f : α → β} {l : List α} {a : α} (h : (l.map f).Nodup)
    (ha : f a ∉ l.map f) : ((l ++ [a]).map f).Nodup := by
  rw [List.map_append, List.map_singleton]
  exact h.append (List.nodup_singleton _) (by simpa [List.disjoint_singleton] using ha)

/-- **A snapshot that is read is coherent.** -/
theorem readSnapshot_yields (peer : GuidPrefix) (payload : Span) (number : ℕ) :
    Yields NoChange (fun snapshot => snapshot.Accepted peer number)
      (readSnapshot peer payload number) := by
  have hmalformed := noChange_rejected .malformedSnapshot
  unfold readSnapshot
  refine .require_bind hmalformed fun hnonzero => .require_bind hmalformed fun _ => ?_
  refine .require_bind hmalformed fun _ => .ite_bind fun _ => .require_bind hmalformed fun _ => ?_
  refine .ite_bind fun _ => .require_bind hmalformed fun _ => .ite_bind fun _ => ?_
  refine .require_bind hmalformed fun _ => .ite_bind fun _ => .require_bind hmalformed fun _ => ?_
  refine .ite_bind fun _ => .ite_bind fun _ => .ite_bind fun _ => ?_
  generalize readAt payload.data 10 2 .littleEndian = nodeCount
  refine .require_bind hmalformed fun hnodeCount => .require_bind hmalformed fun hendpointCount => ?_
  refine .require_bind hmalformed ?_
  rintro ⟨hpos, hle, hnumber⟩
  refine (Yields.foldlM_range (fun i (s : Incoming GraphNodeRecord 8) =>
    NodesRead peer (s.records.toList.take i)) (fun i s _ hinv => ?_)
    ⟨fun n hn => absurd hn List.not_mem_nil, List.nodup_nil⟩).bind fun nodes hnodesRead => ?_
  · refine (readNode_yields hnonzero).mono ?_
    rintro s' ⟨node, hrecords, hwf, hof, hocc, hremote, hnew⟩
    rw [hrecords]
    exact ⟨List.forall_mem_append.2 ⟨hinv.node, List.forall_mem_singleton.2 ⟨hwf, hof, hocc, hremote⟩⟩,
      nodup_map_concat hinv.nodeIds hnew⟩
  refine (Yields.foldlM_range (fun i (s : Incoming GraphEndpointRecord 16) =>
    EndpointsRead peer (nodes.records.toList.take nodeCount) (s.records.toList.take i))
    (fun i s _ hinv => ?_) ⟨fun e he => absurd he List.not_mem_nil, List.nodup_nil⟩).bind
    fun endpoints hendpointsRead => .require_bind hmalformed fun _ => .ok ?_
  · refine readEndpoint_yields.mono ?_
    rintro s' ⟨endpoint, hrecords, hwf, hof, hocc, hremote, hnew, howner⟩
    rw [hrecords]
    exact ⟨List.forall_mem_append.2 ⟨hinv.endpoint, List.forall_mem_singleton.2 ⟨hwf, hof, hocc, hremote, howner⟩⟩,
      nodup_map_concat hinv.entityIds hnew⟩
  refine ⟨hnonzero, hnumber, hpos, hle, hnodeCount, hendpointCount, ⟨?_, ?_, hnodesRead.nodeIds,
    hendpointsRead.entityIds, ?_⟩, ?_, ?_⟩
  · exact fun n hn => (hnodesRead.node n hn).1
  · exact fun e he => (hendpointsRead.endpoint e he).1
  · intro e he
    obtain ⟨-, hof, -, -, n, hn, hid⟩ := hendpointsRead.endpoint e he
    exact ⟨n, hn, hid, (hnodesRead.node n hn).2.1.trans hof.symm⟩
  · exact fun n hn => (hnodesRead.node n hn).2
  · intro e he
    obtain ⟨-, hof, hocc, hremote, -⟩ := hendpointsRead.endpoint e he
    exact ⟨hof, hocc, hremote⟩

end Snapshot

end GraphCache

end OpenRtdds
