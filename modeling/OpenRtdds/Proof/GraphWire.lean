import OpenRtdds.Proof.GraphIntegrity
import OpenRtdds.Proof.Raw

/-!
# Snapshots on the wire

What `serialize_local` writes, `apply_remote` reads.

* `snapshotBytes`, `serializeLocal_eq`: the snapshot of coherent records, and that it is written.
* `readNode_at`, `readEndpoint_at`: the parser reads a record that is at its position.
* `readSnapshot_snapshotBytes`: **the records are read back**, as those of the participant.
* `graph_snapshot_round_trip`: the two ends, over every run of the sender.
-/

namespace OpenRtdds

open Lib Guarded Raw

theorem At.readLittle {ε : Type} {m : List UInt8} {i n value : ℕ} (h : At m i (storeInt true n value))
    (hlt : value < 2 ^ (8 * n)) : (Raw.readWord m i n .littleEndian : Guarded ε ℕ) = .ok value :=
  @At.readWord _ _ _ _ .littleEndian _ h hlt

theorem TextField.length {capacity size : ℕ} {text : Vector UInt8 capacity} (h : TextField text size) :
    (text.toList.take size).length = size :=
  List.length_take_of_le (h.lt.le.trans_eq Vector.length_toList.symm)

namespace GraphCache

section Text

variable {m : List UInt8} {position size capacity : ℕ} {text : Vector UInt8 capacity}

theorem readText_at (hfield : TextField text size) (hm : m.length < 2 ^ 64)
    (h : At m position (text.toList.take size)) :
    readText capacity m m.length position size false = .ok (text, position + size) := by
  have hlength := hfield.length
  have hle := h.le
  rw [hlength] at hle
  have hfill : (fill (.replicate capacity 0) (text.toList.take size) :
      Guarded GraphExit (Vector UInt8 capacity)) = .ok text := by
    have hroom : (text.toList.take size).length ≤ capacity := by
      rw [hlength]
      exact hfield.lt.le
    exact (if_pos hroom).trans (congrArg Guarded.ok hfield.padded.symm)
  unfold readText
  rw [require_pos hfield.lt, ok_bind, require_pos (.inr hfield.pos.ne'), ok_bind,
    require_pos (by omega), ok_bind, sizeSub_of_le (by omega), ok_bind, require_pos (by omega), ok_bind,
    h.bytesAt hlength, ok_bind, hfill, ok_bind, sizeAdd_of_lt (by omega)]
  rfl

end Text

section Node

/-- A record of another participant, as it is stored for the participant. -/
def asRemoteNode (peer : GuidPrefix) (node : GraphNodeRecord) : GraphNodeRecord :=
  { node with participantPrefix := peer, isLocal := false, occupied := true }

def asRemoteEndpoint (peer : GuidPrefix) (endpoint : GraphEndpointRecord) : GraphEndpointRecord :=
  { endpoint with participantPrefix := peer, isLocal := false, occupied := true }

theorem recordStart_of_le {headerSize payloadSize position : ℕ} (h : position + headerSize ≤ payloadSize) :
    recordStart headerSize payloadSize position = .ok position := by
  unfold recordStart
  rw [require_pos (by omega), ok_bind, sizeSub_of_le (by omega), ok_bind, require_pos (by omega)]
  rfl

theorem store_of_lt {ε α : Type} {n i : ℕ} (v : Vector α n) (a : α) (h : i < n) :
    ∃ v', (store v i a : Guarded ε (Vector α n)) = .ok v' ∧
      v'.toList.take (i + 1) = v.toList.take i ++ [a] :=
  ⟨_, dif_pos h, take_set v a h⟩

theorem nodeBytes_length {node : GraphNodeRecord} (hwf : node.WellFormed) : (nodeBytes node).length =
    16 + node.nameSize + node.namespaceSize + node.enclaveSize := by
  simp only [nodeBytes, List.length_append, storeInt_length, List.length_cons, List.length_nil,
    hwf.name.length, hwf.nameSpace.length, hwf.enclave.length]

theorem endpointBytes_length {endpoint : GraphEndpointRecord} (hwf : endpoint.WellFormed) :
    (endpointBytes endpoint).length = 24 + endpoint.rosTopicNameSize + endpoint.rosTypeNameSize +
      endpoint.ddsTopicNameSize + endpoint.ddsTypeNameSize := by
  simp only [endpointBytes, List.length_append, storeInt_length, List.length_cons, List.length_nil,
    Vector.length_toList, hwf.rosTopicName.length, hwf.rosTypeName.length, hwf.ddsTopicName.length,
    hwf.ddsTypeName.length]

/-- **A node is read where it is.** -/
theorem readNode_at {peer : GuidPrefix} {m : List UInt8} {s : Incoming GraphNodeRecord 8}
    {index : ℕ} {node : GraphNodeRecord} (hwf : node.WellFormed) (hm : m.length < 2 ^ 64)
    (hindex : index < 8) (hat : At m s.position (nodeBytes node))
    (hnew : node.nodeId ∉ (s.records.toList.take index).map (·.nodeId)) :
    ∃ s', readNode peer m m.length s index = .ok s' ∧
      s'.position = s.position + (nodeBytes node).length ∧
      s'.records.toList.take (index + 1) =
        s.records.toList.take index ++ [asRemoteNode peer node] := by
  have hname : node.nameSize < 64 := hwf.name.lt
  have hspace : node.namespaceSize < 128 := hwf.nameSpace.lt
  have henclave : node.enclaveSize < 256 := hwf.enclave.lt
  have hlength := nodeBytes_length hwf
  have hle := hat.le
  unfold nodeBytes at hat
  simp only [List.append_assoc] at hat
  obtain ⟨hid, hat⟩ := hat.split (storeInt_length true 8 _)
  obtain ⟨hnameSize, hat⟩ := hat.split (storeInt_length true 2 _)
  obtain ⟨hspaceSize, hat⟩ := hat.split (storeInt_length true 2 _)
  obtain ⟨henclaveSize, hat⟩ := hat.split (storeInt_length true 2 _)
  obtain ⟨hreserved, hat⟩ := hat.split (n := 2) rfl
  obtain ⟨hnameAt, hat⟩ := hat.split hwf.name.length
  obtain ⟨hspaceAt, henclaveAt⟩ := hat.split hwf.nameSpace.length
  have hduplicate : (search s.records index fun previous => previous.nodeId == node.nodeId :
      Guarded GraphExit Bool) = .ok false := by
    refine (if_pos (by omega)).trans (congrArg Guarded.ok (List.any_eq_false.2 fun n hn heq => ?_))
    exact hnew (List.mem_map.2 ⟨n, hn, beq_iff_eq.1 heq⟩)
  obtain ⟨records, hrecords, htake⟩ := @store_of_lt GraphExit _ _ _ s.records
    (asRemoteNode peer node) hindex
  refine ⟨⟨s.position + 16 + node.nameSize + node.namespaceSize + node.enclaveSize, records⟩, ?_, ?_,
    htake⟩
  · unfold readNode
    rw [recordStart_of_le (by omega), ok_bind, hid.readLittle hwf.lt, ok_bind,
      hnameSize.readLittle (by omega), ok_bind, hspaceSize.readLittle (by omega), ok_bind,
      henclaveSize.readLittle (by omega), ok_bind, require_pos hwf.pos, ok_bind, hreserved.bytesAt (n := 2) rfl,
      ok_bind, require_pos rfl, ok_bind, sizeAdd_of_lt (by omega), ok_bind,
      readText_at hwf.name hm hnameAt, ok_bind]
    dsimp only
    rw [readText_at hwf.nameSpace hm hspaceAt, ok_bind]
    dsimp only
    rw [readText_at hwf.enclave hm henclaveAt, ok_bind]
    dsimp only
    rw [hduplicate, ok_bind, require_pos rfl, ok_bind]
    exact (congrArg (· >>= _) hrecords).trans rfl
  · dsimp only
    omega

theorem ofByte_toByte (kind : GraphEndpointKind) : GraphEndpointKind.ofByte kind.toByte = some kind := by
  cases kind <;> rfl

/-- **An endpoint is read where it is.** -/
theorem readEndpoint_at {peer : GuidPrefix} {m : List UInt8}
    {nodes : Vector GraphNodeRecord 8} {nodeCount : ℕ} {s : Incoming GraphEndpointRecord 16} {index : ℕ}
    {endpoint : GraphEndpointRecord} (hwf : endpoint.WellFormed) (hm : m.length < 2 ^ 64)
    (hindex : index < 16) (hnodeCount : nodeCount ≤ 8) (hnodeId : endpoint.nodeId < 2 ^ 64)
    (howned : ∃ n ∈ nodes.toList.take nodeCount, n.nodeId = endpoint.nodeId)
    (hat : At m s.position (endpointBytes endpoint))
    (hnew : endpoint.entityId ∉ (s.records.toList.take index).map (·.entityId)) :
    ∃ s', readEndpoint peer m m.length nodes nodeCount s index = .ok s' ∧
      s'.position = s.position + (endpointBytes endpoint).length ∧
      s'.records.toList.take (index + 1) =
        s.records.toList.take index ++ [asRemoteEndpoint peer endpoint] := by
  have hrosTopic : endpoint.rosTopicNameSize < 256 := hwf.rosTopicName.lt
  have hrosType : endpoint.rosTypeNameSize < 256 := hwf.rosTypeName.lt
  have hddsTopic : endpoint.ddsTopicNameSize < 256 := hwf.ddsTopicName.lt
  have hddsType : endpoint.ddsTypeNameSize < 256 := hwf.ddsTypeName.lt
  have hlength := endpointBytes_length hwf
  have hle := hat.le
  unfold endpointBytes at hat
  simp only [List.append_assoc] at hat
  obtain ⟨hid, hat⟩ := hat.split (storeInt_length true 8 _)
  obtain ⟨hentity, hat⟩ := hat.split Vector.length_toList
  obtain ⟨hflags, hat⟩ := hat.split (n := 4) rfl
  obtain ⟨hkind, hflags⟩ := At.split (x := [endpoint.kind.toByte]) hflags (n := 1) rfl
  obtain ⟨hconventions, hreserved⟩ := At.split (x := [_]) hflags (n := 1) rfl
  obtain ⟨hrosTopicSize, hat⟩ := hat.split (storeInt_length true 2 _)
  obtain ⟨hrosTypeSize, hat⟩ := hat.split (storeInt_length true 2 _)
  obtain ⟨hddsTopicSize, hat⟩ := hat.split (storeInt_length true 2 _)
  obtain ⟨hddsTypeSize, hat⟩ := hat.split (storeInt_length true 2 _)
  obtain ⟨hrosTopicAt, hat⟩ := hat.split hwf.rosTopicName.length
  obtain ⟨hrosTypeAt, hat⟩ := hat.split hwf.rosTypeName.length
  obtain ⟨hddsTopicAt, hddsTypeAt⟩ := hat.split hwf.ddsTopicName.length
  have hknown : (search nodes nodeCount fun node => node.nodeId == endpoint.nodeId :
      Guarded GraphExit Bool) = .ok true := by
    obtain ⟨n, hn, heq⟩ := howned
    exact (if_pos hnodeCount).trans
      (congrArg Guarded.ok (List.any_eq_true.2 ⟨n, hn, beq_iff_eq.2 heq⟩))
  have hduplicate : (search s.records index fun previous => previous.entityId == endpoint.entityId :
      Guarded GraphExit Bool) = .ok false := by
    refine (if_pos (by omega)).trans (congrArg Guarded.ok (List.any_eq_false.2 fun e he heq => ?_))
    exact hnew (List.mem_map.2 ⟨e, he, beq_iff_eq.1 heq⟩)
  have hflag : (if endpoint.rosNamespaceConventions then 1 else 0 : UInt8) ≤ 1 ∧
      ((if endpoint.rosNamespaceConventions then 1 else 0 : UInt8) == 1) =
        endpoint.rosNamespaceConventions := by
    cases endpoint.rosNamespaceConventions <;> decide
  obtain ⟨records, hrecords, htake⟩ := @store_of_lt GraphExit _ _ _ s.records
    (asRemoteEndpoint peer endpoint) hindex
  refine ⟨⟨s.position + 24 + endpoint.rosTopicNameSize + endpoint.rosTypeNameSize +
    endpoint.ddsTopicNameSize + endpoint.ddsTypeNameSize, records⟩, ?_, ?_, htake⟩
  · unfold readEndpoint
    rw [recordStart_of_le (by omega), ok_bind, hid.readLittle hnodeId, ok_bind, hentity.copyBytes, ok_bind,
      hkind.load, ok_bind, hconventions.load, ok_bind, hrosTopicSize.readLittle (by omega), ok_bind,
      hrosTypeSize.readLittle (by omega), ok_bind, hddsTopicSize.readLittle (by omega), ok_bind,
      hddsTypeSize.readLittle (by omega), ok_bind, require_pos hwf.entity, ok_bind, hknown, ok_bind,
      require_pos rfl, ok_bind, ofByte_toByte]
    dsimp only
    rw [require_pos hflag.1, ok_bind, hreserved.bytesAt (n := 2) rfl, ok_bind, require_pos rfl, ok_bind,
      sizeAdd_of_lt (by omega), ok_bind, readText_at hwf.rosTopicName hm hrosTopicAt, ok_bind]
    dsimp only
    rw [readText_at hwf.rosTypeName hm hrosTypeAt, ok_bind]
    dsimp only
    rw [readText_at hwf.ddsTopicName hm hddsTopicAt, ok_bind]
    dsimp only
    rw [readText_at hwf.ddsTypeName hm hddsTypeAt, ok_bind]
    dsimp only
    rw [hduplicate, ok_bind, require_pos rfl, ok_bind, hflag.2]
    exact (congrArg (· >>= _) hrecords).trans rfl
  · dsimp only
    omega

end Node

section Snapshot

/-- The bytes of a snapshot. -/
def snapshotBytes (nodes : List GraphNodeRecord) (endpoints : List GraphEndpointRecord)
    (generation : ℕ) : List UInt8 :=
  snapshotHeader nodes.length endpoints.length generation ++
    (nodes.flatMap nodeBytes ++ endpoints.flatMap endpointBytes)

theorem length_flatMap_le {α : Type} {bytes : α → List UInt8} {b : ℕ} {l : List α}
    (h : ∀ x ∈ l, (bytes x).length ≤ b) : (l.flatMap bytes).length ≤ l.length * b := by
  induction l with
  | nil => exact Nat.zero_le _
  | cons x l ih =>
    have hx := h x List.mem_cons_self
    have hl := ih fun y hy => h y (List.mem_cons_of_mem x hy)
    rw [List.flatMap_cons, List.length_append, List.length_cons, Nat.succ_mul]
    omega

theorem snapshotHeader_length (nodeCount endpointCount generation : ℕ) :
    (snapshotHeader nodeCount endpointCount generation).length = 24 := by
  simp only [snapshotHeader, List.length_append, storeInt_length, List.length_cons, List.length_nil]

variable {nodes : List GraphNodeRecord} {endpoints : List GraphEndpointRecord}

/-- **A snapshot fits its buffer**, with room to spare. -/
theorem snapshotBytes_length (h : Coherent nodes endpoints) (hnodes : nodes.length ≤ 8)
    (hendpoints : endpoints.length ≤ 16) (generation : ℕ) :
    (snapshotBytes nodes endpoints generation).length ≤ 20416 := by
  have hnode : (nodes.flatMap nodeBytes).length ≤ nodes.length * 461 := by
    refine length_flatMap_le fun n hn => ?_
    have hname := (h.node n hn).name.lt
    have hspace := (h.node n hn).nameSpace.lt
    have henclave := (h.node n hn).enclave.lt
    rw [nodeBytes_length (h.node n hn)]
    omega
  have hendpoint : (endpoints.flatMap endpointBytes).length ≤ endpoints.length * 1044 := by
    refine length_flatMap_le fun e he => ?_
    have hrosTopic := (h.endpoint e he).rosTopicName.lt
    have hrosType := (h.endpoint e he).rosTypeName.lt
    have hddsTopic := (h.endpoint e he).ddsTopicName.lt
    have hddsType := (h.endpoint e he).ddsTypeName.lt
    rw [endpointBytes_length (h.endpoint e he)]
    omega
  rw [snapshotBytes, List.length_append, List.length_append, snapshotHeader_length]
  omega

/-- The loop over the records appends them, if they fit. -/
theorem foldlM_appendRecord {α : Type} {capacity : ℕ} {recordSize : α → ℕ} {bytes : α → List UInt8} :
    ∀ {l : List α} {output : List UInt8}, (∀ r ∈ l, (bytes r).length = recordSize r) →
      output.length + (l.flatMap bytes).length ≤ capacity →
      l.foldlM (appendRecord capacity recordSize bytes) output = .ok (output ++ l.flatMap bytes) := by
  intro l
  induction l with
  | nil =>
    intro output _ _
    rw [List.flatMap_nil, List.append_nil]
    rfl
  | cons r l ih =>
    intro output hsize hroom
    rw [List.flatMap_cons, List.length_append] at hroom
    have hrecord := hsize r List.mem_cons_self
    have hfits : ¬ (output.length > capacity ∨ recordSize r > capacity - output.length) := by
      omega
    have hfirst : appendRecord capacity recordSize bytes output r = .ok (output ++ bytes r) :=
      if_neg hfits
    rw [List.foldlM_cons, hfirst, List.flatMap_cons, ← List.append_assoc]
    refine ih (fun x hx => hsize x (List.mem_cons_of_mem r hx)) ?_
    rw [List.length_append]
    omega

/-- **`serialize_local` succeeds** on coherent records within the capacities. -/
theorem serializeLocal_eq {cache : GraphCache}
    (h : Coherent cache.localNodes cache.localEndpoints) (hnodes : cache.localNodes.length ≤ 8)
    (hendpoints : cache.localEndpoints.length ≤ 16) {capacity : ℕ} (hcapacity : 20416 ≤ capacity) :
    cache.serializeLocal false capacity =
      .ok (snapshotBytes cache.localNodes cache.localEndpoints cache.localGeneration,
        cache.localGeneration) := by
  have hlength := snapshotBytes_length h hnodes hendpoints cache.localGeneration
  rw [snapshotBytes, List.length_append, List.length_append, snapshotHeader_length] at hlength
  have hnodeLoop := @foldlM_appendRecord _ capacity
    (fun node => 16 + node.nameSize + node.namespaceSize + node.enclaveSize) nodeBytes cache.localNodes
    (snapshotHeader cache.localNodes.length cache.localEndpoints.length cache.localGeneration)
    (fun n hn => nodeBytes_length (h.node n hn)) (by rw [snapshotHeader_length]; omega)
  have hendpointLoop := @foldlM_appendRecord _ capacity
    (fun endpoint => 24 + endpoint.rosTopicNameSize + endpoint.rosTypeNameSize +
      endpoint.ddsTopicNameSize + endpoint.ddsTypeNameSize) endpointBytes cache.localEndpoints
    (snapshotHeader cache.localNodes.length cache.localEndpoints.length cache.localGeneration ++
      cache.localNodes.flatMap nodeBytes)
    (fun e he => endpointBytes_length (h.endpoint e he))
    (by rw [List.length_append, snapshotHeader_length]; omega)
  have hargument : ¬ (false || decide (capacity < 24)) = true := by
    rw [Bool.false_or, decide_eq_true_eq]
    omega
  have hcounts : ¬ (cache.localNodes.length > 8 ∨ cache.localEndpoints.length > 16) := by omega
  unfold serializeLocal
  rw [if_neg hargument, if_neg hcounts, hnodeLoop]
  simp only [bind, Except.bind, hendpointLoop, pure, Except.pure, snapshotBytes, List.append_assoc]

/-- **The loops of the parser**, over records that are one after the other. -/
theorem readRecords_at {α : Type} {capacity : ℕ} {m : List UInt8} {start : ℕ} {bytes : α → List UInt8}
    {asRemote : α → α} {l : List α} {initial : Vector α capacity}
    {read : Incoming α capacity → ℕ → Guarded GraphExit (Incoming α capacity)}
    (hat : At m start (l.flatMap bytes))
    (hread : ∀ k (hk : k < l.length) (s : Incoming α capacity), At m s.position (bytes l[k]) →
      s.records.toList.take k = (l.take k).map asRemote →
      ∃ s', read s k = .ok s' ∧ s'.position = s.position + (bytes l[k]).length ∧
        s'.records.toList.take (k + 1) = s.records.toList.take k ++ [asRemote l[k]]) :
    ∃ t, (List.range l.length).foldlM read { position := start, records := initial } = .ok t ∧
      t.position = start + (l.flatMap bytes).length ∧
      t.records.toList.take l.length = l.map asRemote := by
  let inv (k : ℕ) (s : Incoming α capacity) : Prop :=
    s.position = start + ((l.take k).flatMap bytes).length ∧
      s.records.toList.take k = (l.take k).map asRemote
  obtain ⟨t, ht, hposition, hrecords⟩ := @foldlM_range_exists _ _ read inv l.length
    (fun k s hk hinv => by
      obtain ⟨hposition, hrecords⟩ := hinv
      have hatk := hposition ▸ hat.flatMap hk
      obtain ⟨s', hs', hposition', hrecords'⟩ := hread k hk s hatk hrecords
      refine ⟨s', hs', ?_, ?_⟩
      · rw [hposition', hposition, List.take_succ_eq_append_getElem hk, List.flatMap_append,
          List.flatMap_singleton, List.length_append, Nat.add_assoc]
      · rw [hrecords', hrecords, List.take_succ_eq_append_getElem hk, List.map_append,
          List.map_singleton])
    { position := start, records := initial } ⟨rfl, rfl⟩
  rw [List.take_length] at hposition hrecords
  exact ⟨t, ht, hposition, hrecords⟩

theorem getElem_notMem_take {α β : Type} {f : α → β} (g : α → α) {l : List α} (hl : (l.map f).Nodup)
    (hg : ∀ a, f (g a) = f a) {k : ℕ} (hk : k < l.length) : f l[k] ∉ ((l.take k).map g).map f := by
  have hmap : ((l.take k).map g).map f = (l.take k).map f := by
    rw [List.map_map]
    exact List.map_congr_left fun a _ => hg a
  rw [hmap]
  have hnodup : ((l.take k).map f ++ [f l[k]]).Nodup := by
    rw [← List.map_singleton, ← List.map_append, ← List.take_succ_eq_append_getElem hk]
    exact ((List.take_sublist _ _).map f).nodup hl
  intro hmem
  exact (List.nodup_append.1 hnodup).2.2 _ hmem _ List.mem_cons_self rfl

/-- **The records are read back**, as those of the participant. -/
theorem readSnapshot_snapshotBytes {peer : GuidPrefix} {generation : ℕ}
    (hnonzero : nonzeroPrefix peer = true) (h : Coherent nodes endpoints)
    (hnodes : nodes.length ≤ 8) (hendpoints : endpoints.length ≤ 16)
    (hgeneration : 1 ≤ generation ∧ generation ≤ int64Max) :
    ∃ snapshot, readSnapshot peer (.bytes (snapshotBytes nodes endpoints generation))
        generation = .ok snapshot ∧ snapshot.generation = generation ∧
      snapshot.nodeCount = nodes.length ∧ snapshot.endpointCount = endpoints.length ∧
      snapshot.nodeList = nodes.map (asRemoteNode peer) ∧
      snapshot.endpointList = endpoints.map (asRemoteEndpoint peer) := by
  have hlength := snapshotBytes_length h hnodes hendpoints generation
  have hmax : int64Max < 2 ^ 64 := by decide
  have hheaderLength := snapshotHeader_length nodes.length endpoints.length generation
  have hat := At.refl (snapshotBytes nodes endpoints generation)
  have hbytes : (snapshotBytes nodes endpoints generation).length = 24 +
      (nodes.flatMap nodeBytes).length + (endpoints.flatMap endpointBytes).length := by
    rw [snapshotBytes, List.length_append, List.length_append, hheaderLength, Nat.add_assoc]
  have hnodesAt : At (snapshotBytes nodes endpoints generation) 24 (nodes.flatMap nodeBytes) :=
    (hat.split hheaderLength).2.left
  have hendpointsAt : At (snapshotBytes nodes endpoints generation)
      (24 + (nodes.flatMap nodeBytes).length) (endpoints.flatMap endpointBytes) :=
    (hat.split hheaderLength).2.right
  have hheader := hat.left
  generalize snapshotBytes nodes endpoints generation = m at *
  have hm : m.length < 2 ^ 64 := by omega
  -- the header, from its end
  have hgenerationAt : At m 16 (storeInt true 8 generation) := hheader.right
  have hreserved : At m 14 [0, 0] := hheader.left.right
  have hendpointCount : At m 12 (storeInt true 2 endpoints.length) := hheader.left.left.right
  have hnodeCount : At m 10 (storeInt true 2 nodes.length) := hheader.left.left.left.right
  have hversion : At m 8 [1, 0] := hheader.left.left.left.left.right
  have hmagic : At m 4 [0x4F, 0x52, 0x54, 0x47] := hheader.left.left.left.left.left.right
  have hencapsulation : At m 0 [0, 1, 0, 0] := hheader.left.left.left.left.left.left
  obtain ⟨nodesRead, hnodesRead, hnodesPosition, hnodesRecords⟩ :=
    @readRecords_at _ 8 m 24 nodeBytes (asRemoteNode peer) nodes (.replicate 8 {})
      (readNode peer m m.length) hnodesAt fun k hk s hatk hrecords => by
        refine readNode_at (h.node _ (List.getElem_mem hk)) hm (by omega) hatk ?_
        rw [hrecords]
        exact getElem_notMem_take (asRemoteNode peer) h.nodeIds (fun _ => rfl) hk
  obtain ⟨endpointsRead, hendpointsRead, hendpointsPosition, hendpointsRecords⟩ :=
    @readRecords_at _ 16 m (24 + (nodes.flatMap nodeBytes).length) endpointBytes
      (asRemoteEndpoint peer) endpoints (.replicate 16 {})
      (readEndpoint peer m m.length nodesRead.records nodes.length) hendpointsAt
      fun k hk s hatk hrecords => by
        obtain ⟨n, hn, hid, -⟩ := h.owned _ (List.getElem_mem hk)
        refine readEndpoint_at (h.endpoint _ (List.getElem_mem hk)) hm (by omega) hnodes ?_ ?_ hatk ?_
        · rw [← hid]
          exact (h.node n hn).lt
        · rw [hnodesRecords]
          exact ⟨_, List.mem_map_of_mem hn, hid⟩
        · rw [hrecords]
          exact getElem_notMem_take (asRemoteEndpoint peer) h.entityIds (fun _ => rfl) hk
  refine ⟨⟨generation, nodes.length, endpoints.length, nodesRead.records, endpointsRead.records⟩, ?_,
    rfl, rfl, rfl, hnodesRecords, hendpointsRecords⟩
  have hsize : (Span.bytes m).size = m.length := rfl
  rw [← hsize] at hnodesRead hendpointsRead
  unfold readSnapshot
  dsimp only [Span.data]
  rw [require_pos hnonzero, ok_bind, require_pos (show (Span.bytes m).isNull = false from rfl), ok_bind,
    require_pos (by omega), ok_bind, hencapsulation.bytesAt (n := 4) rfl, ok_bind, require_pos rfl,
    ok_bind, hmagic.bytesAt (n := 4) rfl, ok_bind, require_pos rfl, ok_bind,
    hversion.bytesAt (n := 2) rfl, ok_bind, require_pos rfl, ok_bind, hreserved.bytesAt (n := 2) rfl,
    ok_bind, require_pos rfl, ok_bind, hnodeCount.readLittle (by omega), ok_bind,
    hendpointCount.readLittle (by omega), ok_bind, hgenerationAt.readLittle (by omega), ok_bind,
    require_pos hnodes, ok_bind, require_pos hendpoints, ok_bind,
    require_pos ⟨by omega, hgeneration.2, rfl⟩, ok_bind, hnodesRead, ok_bind, hnodesPosition,
    hendpointsRead, ok_bind, require_pos (by omega)]
  rfl

end Snapshot

section Receive

variable {cache : GraphCache} {peer : GuidPrefix}

/-- **A snapshot arrives**: the receiver has room and nothing newer. -/
theorem applyRemote_snapshotBytes {nodes : List GraphNodeRecord} {endpoints : List GraphEndpointRecord}
    {generation : ℕ} (hnonzero : nonzeroPrefix peer = true)
    (h : Coherent nodes endpoints) (hnodes : nodes.length ≤ 8) (hendpoints : endpoints.length ≤ 16)
    (hgeneration : 1 ≤ generation ∧ generation ≤ int64Max)
    (hnewer : ∀ entry ∈ cache.entriesOf peer, entry.generation < generation)
    (hslot : cache.entriesOf peer ≠ [] ∨
      ∃ entry ∈ cache.remoteGenerations.toList, entry.occupied = false)
    (hroom : cache.Room peer nodes.length endpoints.length) :
    let op := GraphOp.applyRemote peer
      (.bytes (snapshotBytes nodes endpoints generation)) generation
    (cache.perform op).1 = .update .changed ∧
      (cache.step op).nodesOf (.participant peer) =
        nodes.map (asRemoteNode peer) ∧
      (cache.step op).endpointsOf (.participant peer) =
        endpoints.map (asRemoteEndpoint peer) := by
  intro op
  obtain ⟨snapshot, hread, hsnapshot, hnodeCount, hendpointCount, hnodeList, hendpointList⟩ :=
    readSnapshot_snapshotBytes hnonzero h hnodes hendpoints hgeneration
  rw [← hsnapshot] at hnewer
  rw [← hnodeCount, ← hendpointCount] at hroom
  have haccepted := readSnapshot_yields peer
    (.bytes (snapshotBytes nodes endpoints generation)) generation
  rw [hread] at haccepted
  have hcommit := cache.commitSnapshot_cases haccepted.of_ok
  have hperform : cache.perform op =
      cache.remoteResult (cache.commitSnapshot peer snapshot) :=
    congrArg (fun read => cache.remoteResult (read >>= _)) hread
  unfold step
  rw [hperform]
  generalize cache.commitSnapshot peer snapshot = outcome at hcommit ⊢
  cases hcommit with
  | applied hchange => exact ⟨rfl, hchange.nodes.trans hnodeList, hchange.endpoints.trans hendpointList⟩
  | @stale entry hknown hstale => exact absurd (hnewer entry hknown) hstale
  | full hfull =>
    obtain ⟨hunknown, htaken⟩ := hfull.resolve_right fun hnone => hnone hroom
    obtain ⟨entry, hentry, hfree⟩ := hslot.resolve_left fun hknown => hknown hunknown
    cases (htaken entry hentry).symm.trans hfree

theorem entry_initial : ∃ entry ∈ ({} : GraphCache).remoteGenerations.toList, entry.occupied = false := by
  refine ⟨{}, ?_, rfl⟩
  rw [Vector.toList_replicate]
  exact List.mem_replicate.2 ⟨by decide, rfl⟩

theorem room_initial {nodeCount endpointCount : ℕ} (hnodes : nodeCount ≤ 8)
    (hendpoints : endpointCount ≤ 16) : ({} : GraphCache).Room peer nodeCount endpointCount := by
  refine room_of_counts ?_ ?_
  · rw [Vector.toList_replicate, List.countP_replicate, if_neg Bool.false_ne_true]
    omega
  · rw [Vector.toList_replicate, List.countP_replicate, if_neg Bool.false_ne_true]
    omega

end Receive

end GraphCache

section Results

open GraphCache

/-- **Graph snapshots round trip.** After any run of operations, `serialize_local` of at most eight nodes
and sixteen endpoints of one participant succeeds in the wire capacity; and any cache with room for the
records and nothing newer of the participant stores exactly these records, as those of another
participant. -/
theorem graph_snapshot_round_trip (ops : List GraphOp) (peer : GuidPrefix) :
    let cache := run GraphCache.step {} ops
    cache.localNodes.length ≤ 8 → cache.localEndpoints.length ≤ 16 →
    (∀ n ∈ cache.localNodes, n.participantPrefix = peer) →
    (∀ e ∈ cache.localEndpoints, e.participantPrefix = peer) →
    (cache.localNodes = [] → nonzeroPrefix peer = true) →
    ∃ bytes generation, cache.serializeLocal false 32768 = .ok (bytes, generation) ∧
      bytes.length ≤ 32768 ∧ ∀ destination : GraphCache,
        (∀ entry ∈ destination.entriesOf peer, entry.generation < generation) →
        (destination.entriesOf peer ≠ [] ∨
          ∃ entry ∈ destination.remoteGenerations.toList, entry.occupied = false) →
        destination.Room peer cache.localNodes.length cache.localEndpoints.length →
        let op := GraphOp.applyRemote peer (.bytes bytes) generation
        (destination.perform op).1 = .update .changed ∧
          (destination.step op).nodesOf (.participant peer) =
            cache.localNodes.map (fun n => { n with isLocal := false }) ∧
          (destination.step op).endpointsOf (.participant peer) =
            cache.localEndpoints.map (fun e => { e with isLocal := false }) := by
  intro cache hnodes hendpoints hnodesOf hendpointsOf hempty
  have hinv : cache.Inv := GraphCache.run_inv ops
  have hcoherent : Coherent cache.localNodes cache.localEndpoints := by
    rw [localNodes_eq, localEndpoints_eq]
    exact hinv.coherent .here
  have hnonzero : nonzeroPrefix peer = true := by
    by_cases hnil : cache.localNodes = []
    · exact hempty hnil
    · -- the prefix of a stored node has been checked
      obtain ⟨n, hn⟩ := List.exists_mem_of_ne_nil _ hnil
      rw [← hnodesOf n hn]
      exact (hcoherent.node n hn).nonzero
  have hlength := snapshotBytes_length hcoherent hnodes hendpoints cache.localGeneration
  refine ⟨_, _, serializeLocal_eq hcoherent hnodes hendpoints (by omega), by omega, ?_⟩
  intro destination hnewer hslot hroom op
  obtain ⟨hchanged, hnodesReceived, hendpointsReceived⟩ := applyRemote_snapshotBytes hnonzero hcoherent
    hnodes hendpoints hinv.localGeneration hnewer hslot hroom
  refine ⟨hchanged, hnodesReceived.trans ?_, hendpointsReceived.trans ?_⟩
  · refine List.map_congr_left fun n hn => ?_
    have hocc : n.occupied = true := (Bool.and_eq_true_iff.1 (List.mem_filter.1 hn).2).1
    rw [asRemoteNode, ← hnodesOf n hn, ← hocc]
  · refine List.map_congr_left fun e he => ?_
    have hocc : e.occupied = true := (Bool.and_eq_true_iff.1 (List.mem_filter.1 he).2).1
    rw [asRemoteEndpoint, ← hendpointsOf e he, ← hocc]

/-- A context with one node, which publishes one topic. -/
def talkerPrefix : GuidPrefix := .replicate 12 1

def talkerOps : List GraphOp :=
  [.addLocalNode talkerPrefix 7 (some [116]) (some [47]) (some [47]),
    .addLocalEndpoint talkerPrefix #v[0, 0, 1, 3] 7 1 (some [99]) (some [105]) (some [99]) (some [105])
      true]

theorem talker_snapshot_round_trip :
    let cache := run GraphCache.step {} talkerOps
    cache.localNodes.length = 1 ∧ cache.localEndpoints.length = 1 ∧
    ∃ bytes generation, cache.serializeLocal false 32768 = .ok (bytes, generation) ∧
      let op := GraphOp.applyRemote talkerPrefix (.bytes bytes) generation
      (({} : GraphCache).perform op).1 = .update .changed ∧
        (({} : GraphCache).step op).nodesOf (.participant talkerPrefix) =
          cache.localNodes.map (fun n => { n with isLocal := false }) := by
  intro cache
  have hnodes : cache.localNodes.length = 1 := by decide +kernel
  have hendpoints : cache.localEndpoints.length = 1 := by decide +kernel
  have hnodesOf : ∀ n ∈ cache.localNodes, n.participantPrefix = talkerPrefix := by decide +kernel
  have hendpointsOf : ∀ e ∈ cache.localEndpoints, e.participantPrefix = talkerPrefix := by
    decide +kernel
  obtain ⟨bytes, generation, hbytes, -, hreceived⟩ := graph_snapshot_round_trip talkerOps talkerPrefix
    (hnodes.trans_le (by decide)) (hendpoints.trans_le (by decide)) hnodesOf hendpointsOf
    fun _ => by decide
  obtain ⟨hchanged, hreceivedNodes, -⟩ := hreceived {}
    (by rw [entriesOf_initial]; exact fun _ h => absurd h List.not_mem_nil) (.inr entry_initial)
    (room_initial (hnodes.trans_le (by decide)) (hendpoints.trans_le (by decide)))
  exact ⟨hnodes, hendpoints, bytes, generation, hbytes, hchanged, hreceivedNodes⟩

end Results

end OpenRtdds
