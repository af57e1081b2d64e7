import OpenRtdds.Spec.GraphCache

/-!
# Topic queries of the graph

`rmw_openrtdds_cpp/src/graph.cpp`: the topics of a snapshot of the graph, and the types of each;
`src/rmw/graph_cache.cpp`: the snapshot.

A pointer to a name is modelled by the C string that it points to; the name of a record ends before its
array does, and no pointer in a filled cell is null, so `same_text` compares the strings. An array of
the output is the list of the cells that have been filled, and a cell behind the last one is a fault.
-/

namespace OpenRtdds

open Lib Guarded

/-- `rmw::GraphSnapshot`. No more cells are in use than the arrays have. -/
structure GraphSnapshot where
  nodes : Vector GraphNodeRecord 136
  endpoints : Vector GraphEndpointRecord 48
  nodeCount : ℕ
  endpointCount : ℕ
  generation : ℕ
  nodeCount_le : nodeCount ≤ 136
  endpointCount_le : endpointCount ≤ 48

/-- The loop of `GraphCache::snapshot` over the first records of a table, with the array and the number of
its cells in use. An occupied record is copied to the next cell, which is inside the array: no more cells
are in use than records have been read. -/
def copyOccupied {α : Type} {n : ℕ} (occupied : α → Bool) (unused : α) (records : Vector α n) :
    (i : ℕ) → i ≤ n → { copied : Vector α n × ℕ // copied.2 ≤ i }
  | 0, _ => ⟨(.replicate n unused, 0), Nat.le_refl 0⟩
  | i + 1, h =>
    let copied := copyOccupied occupied unused records i (Nat.le_of_succ_le h)
    if occupied records[i] then
      ⟨(copied.1.1.set copied.1.2 records[i] (Nat.lt_of_le_of_lt copied.2 h), copied.1.2 + 1),
        Nat.succ_le_succ copied.2⟩
    else ⟨copied.1, Nat.le_succ_of_le copied.2⟩

/-- `GraphCache::snapshot`, which never fails. -/
def GraphCache.snapshot (cache : GraphCache) : GraphSnapshot :=
  let nodes := copyOccupied (·.occupied) {} cache.nodes 136 (Nat.le_refl 136)
  let endpoints := copyOccupied (·.occupied) {} cache.endpoints 48 (Nat.le_refl 48)
  { nodes := nodes.1.1
    endpoints := endpoints.1.1
    nodeCount := nodes.1.2
    endpointCount := endpoints.1.2
    generation := cache.generation
    nodeCount_le := nodes.2
    endpointCount_le := endpoints.2 }

/-- The characters before the terminating zero. -/
abbrev Name := List UInt8

/-- The C string in an array. -/
def cString {n : ℕ} (chars : Vector UInt8 n) : Name := chars.toList.takeWhile (· != 0)

/-- `TopicAggregate`. -/
structure TopicAggregate where
  name : Name
  types : List Name

/-- `node_matches`. -/
def nodeMatches (node : GraphNodeRecord) (name nameSpace : Name) : Bool :=
  node.occupied && cString node.name == name && cString node.nameSpace == nameSpace

/-- `endpoint_owned_by_selected_node`. -/
def endpointOwnedBySelectedNode (endpoint : GraphEndpointRecord) (snapshot : GraphSnapshot)
    (name nameSpace : Name) : Guarded Empty Bool :=
  search snapshot.nodes snapshot.nodeCount fun node =>
    nodeMatches node name nameSpace && node.nodeId == endpoint.nodeId &&
      node.participantPrefix == endpoint.participantPrefix

/-- The names of the topic and the type under which an endpoint is listed. -/
def listedNames (noDemangle : Bool) (endpoint : GraphEndpointRecord) : Name × Name :=
  if noDemangle || !endpoint.rosNamespaceConventions then
    (cString endpoint.ddsTopicName, cString endpoint.ddsTypeName)
  else (cString endpoint.rosTopicName, cString endpoint.rosTypeName)

/-- A topic that was not found, so that its index is the number of the topics, gets a new entry. -/
def openTopic (topics : List TopicAggregate) (index : ℕ) (name : Name) :
    Guarded Empty (List TopicAggregate) :=
  if index = topics.length then do
    Guarded.guard (topics.length < 48)
    pure (topics ++ [⟨name, []⟩])
  else pure topics

/-- A type is appended to those of its topic, unless it is there or the array is full. -/
def TopicAggregate.addType (topic : TopicAggregate) (type : Name) : TopicAggregate :=
  if !topic.types.any (· == type) && decide (topic.types.length < 48) then
    { topic with types := topic.types ++ [type] }
  else topic

/-- `aggregate_topics` for the names of a selected endpoint. -/
def addNames (topics : List TopicAggregate) (names : Name × Name) : Guarded Empty (List TopicAggregate) := do
  let index := topics.findIdx (·.name == names.1)
  let topics ← openTopic topics index names.1
  pure (topics.modify index (·.addType names.2))

/-- One iteration of `aggregate_topics`; no kind or node is a null pointer. -/
def addEndpoint (snapshot : GraphSnapshot) (noDemangle : Bool) (kind : Option GraphEndpointKind)
    (node : Option (Name × Name)) (topics : List TopicAggregate) (index : ℕ) :
    Guarded Empty (List TopicAggregate) := do
  let endpoint ← fetch snapshot.endpoints index
  if !endpoint.occupied || kind.any (endpoint.kind != ·) then pure topics
  else
    let owned ← node.elim (pure true) fun names =>
      endpointOwnedBySelectedNode endpoint snapshot names.1 names.2
    if owned then addNames topics (listedNames noDemangle endpoint) else pure topics

/-- `aggregate_topics`. -/
def aggregateTopics (snapshot : GraphSnapshot) (noDemangle : Bool) (kind : Option GraphEndpointKind)
    (node : Option (Name × Name)) : Guarded Empty (List TopicAggregate) :=
  (List.range snapshot.endpointCount).foldlM (addEndpoint snapshot noDemangle kind node) []

end OpenRtdds
