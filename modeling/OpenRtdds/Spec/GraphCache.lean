import OpenRtdds.Lib.Table
import OpenRtdds.Spec.Raw

/-!
# The graph cache

`rmw/graph_cache.cpp`: the records of the ROS graph in arrays of fixed capacity. The nodes and endpoints
of the own context are added and removed one by one; `serialize_local` writes them into a snapshot, and
`apply_remote` parses the snapshot of another participant and replaces the records of this participant.
`apply_remote` is modelled over raw memory, in the way of `Spec.Raw`.

No operation writes to the cache before it has made all its checks, so an operation returns the changed
cache or an error.
-/

namespace OpenRtdds

open Lib Guarded Raw

/-- `rmw::GraphEndpointKind`. -/
inductive GraphEndpointKind where
  | publisher
  | subscription
  deriving DecidableEq

/-- The kind that a byte of a snapshot names. -/
def GraphEndpointKind.ofByte (code : UInt8) : Option GraphEndpointKind :=
  if code = 1 then some .publisher else if code = 2 then some .subscription else none

def GraphEndpointKind.toByte : GraphEndpointKind → UInt8
  | .publisher => 1
  | .subscription => 2

/-- `rmw::GraphError` without `none`. -/
inductive GraphError where
  | invalidArgument
  | invalidRecord
  | capacityExceeded
  | duplicateRecord
  | recordNotFound
  | staleSnapshot
  | malformedSnapshot
  | bufferOverflow
  deriving DecidableEq

/-- `rmw::GraphUpdate`. -/
inductive GraphUpdate where
  | unchanged
  | changed
  | rejected
  deriving DecidableEq

/-- `rmw::GraphNodeRecord`. -/
structure GraphNodeRecord where
  participantPrefix : GuidPrefix := .replicate 12 0
  nodeId : ℕ := 0
  name : Vector UInt8 64 := .replicate 64 0
  nameSpace : Vector UInt8 128 := .replicate 128 0
  enclave : Vector UInt8 256 := .replicate 256 0
  nameSize : ℕ := 0
  namespaceSize : ℕ := 0
  enclaveSize : ℕ := 0
  isLocal : Bool := false
  occupied : Bool := false

/-- `rmw::GraphEndpointRecord`. -/
structure GraphEndpointRecord where
  participantPrefix : GuidPrefix := .replicate 12 0
  entityId : EntityId := .replicate 4 0
  nodeId : ℕ := 0
  kind : GraphEndpointKind := .publisher
  rosTopicName : Vector UInt8 256 := .replicate 256 0
  rosTypeName : Vector UInt8 256 := .replicate 256 0
  ddsTopicName : Vector UInt8 256 := .replicate 256 0
  ddsTypeName : Vector UInt8 256 := .replicate 256 0
  rosTopicNameSize : ℕ := 0
  rosTypeNameSize : ℕ := 0
  ddsTopicNameSize : ℕ := 0
  ddsTypeNameSize : ℕ := 0
  rosNamespaceConventions : Bool := true
  isLocal : Bool := false
  occupied : Bool := false

/-- The records that belong to a remote participant. -/
def GraphNodeRecord.isOf (participantPrefix : GuidPrefix) (record : GraphNodeRecord) : Bool :=
  record.occupied && !record.isLocal && record.participantPrefix == participantPrefix

def GraphEndpointRecord.isOf (participantPrefix : GuidPrefix) (record : GraphEndpointRecord) : Bool :=
  record.occupied && !record.isLocal && record.participantPrefix == participantPrefix

/-- `GraphCache::RemoteGeneration`. -/
structure RemoteGeneration where
  participantPrefix : GuidPrefix := .replicate 12 0
  generation : ℕ := 0
  occupied : Bool := false

/-- `rmw::GraphCache`. -/
structure GraphCache where
  nodes : Vector GraphNodeRecord 136 := .replicate 136 {}
  endpoints : Vector GraphEndpointRecord 48 := .replicate 48 {}
  remoteGenerations : Vector RemoteGeneration 16 := .replicate 16 {}
  generation : ℕ := 1
  localGeneration : ℕ := 1

/-- How `apply_remote` ends without a change: what it returns and the error it sets. -/
abbrev GraphExit := GraphUpdate × GraphError

namespace GraphCache

section Snapshot

/-- The error that is set while the snapshot is read. -/
def malformed : GraphExit := (.rejected, .malformedSnapshot)

/-- `valid_entity`. -/
def validEntity (entity : EntityId) : Bool :=
  let byte := byteAt entity.toList
  (byte 0 ||| byte 1 ||| byte 2 ||| byte 3) != 0

/-- `read_text` into an array of `capacity` characters: the text and the position behind it. -/
def readText (capacity : ℕ) (m : List UInt8) (payloadSize position size : ℕ) (emptyAllowed : Bool) :
    Guarded GraphExit (Vector UInt8 capacity × ℕ) := do
  require (size < capacity) malformed
  require (emptyAllowed ∨ size ≠ 0) malformed
  require (position ≤ payloadSize) malformed
  let remaining ← sizeSub payloadSize position
  require (size ≤ remaining) malformed
  let text ← bytesAt m position size
  let output ← fill (.replicate capacity 0) text
  let position ← sizeAdd position size
  pure (output, position)

/-- The records that were read so far, and the position in the snapshot. -/
structure Incoming (α : Type) (capacity : ℕ) where
  position : ℕ
  records : Vector α capacity

/-- The position of a record whose header of `headerSize` bytes is inside the snapshot. -/
def recordStart (headerSize payloadSize position : ℕ) : Guarded GraphExit ℕ := do
  require (position ≤ payloadSize) malformed
  let remaining ← sizeSub payloadSize position
  require (headerSize ≤ remaining) malformed
  pure position

/-- One iteration of the loop over the nodes of a snapshot. -/
def readNode (participantPrefix : GuidPrefix) (m : List UInt8) (payloadSize : ℕ)
    (s : Incoming GraphNodeRecord 8) (index : ℕ) : Guarded GraphExit (Incoming GraphNodeRecord 8) := do
  let start ← recordStart 16 payloadSize s.position
  let nodeId ← readWord m start 8 .littleEndian
  let nameSize ← readWord m (start + 8) 2 .littleEndian
  let namespaceSize ← readWord m (start + 10) 2 .littleEndian
  let enclaveSize ← readWord m (start + 12) 2 .littleEndian
  require (nodeId ≠ 0) malformed
  let reserved ← bytesAt m (start + 14) 2
  require (reserved = [0, 0]) malformed
  let position ← sizeAdd start 16
  let (name, position) ← readText 64 m payloadSize position nameSize false
  let (nameSpace, position) ← readText 128 m payloadSize position namespaceSize false
  let (enclave, position) ← readText 256 m payloadSize position enclaveSize false
  let duplicate ← search s.records index fun previous => previous.nodeId == nodeId
  require (duplicate = false) (.rejected, .duplicateRecord)
  let records ← store s.records index
    { participantPrefix, nodeId, name, nameSpace, enclave, nameSize, namespaceSize, enclaveSize
      occupied := true }
  pure { position, records }

/-- One iteration of the loop over the endpoints of a snapshot. -/
def readEndpoint (participantPrefix : GuidPrefix) (m : List UInt8) (payloadSize : ℕ)
    (nodes : Vector GraphNodeRecord 8) (nodeCount : ℕ) (s : Incoming GraphEndpointRecord 16)
    (index : ℕ) : Guarded GraphExit (Incoming GraphEndpointRecord 16) := do
  let start ← recordStart 24 payloadSize s.position
  let nodeId ← readWord m start 8 .littleEndian
  let entityId ← copyBytes m (start + 8) 4
  let code ← load m (start + 12)
  let conventions ← load m (start + 13)
  let rosTopicNameSize ← readWord m (start + 16) 2 .littleEndian
  let rosTypeNameSize ← readWord m (start + 18) 2 .littleEndian
  let ddsTopicNameSize ← readWord m (start + 20) 2 .littleEndian
  let ddsTypeNameSize ← readWord m (start + 22) 2 .littleEndian
  require (validEntity entityId) malformed
  let known ← search nodes nodeCount fun node => node.nodeId == nodeId
  require known malformed
  match GraphEndpointKind.ofByte code with
  | none => .error malformed
  | some kind => do
    require (conventions ≤ 1) malformed
    let reserved ← bytesAt m (start + 14) 2
    require (reserved = [0, 0]) malformed
    let position ← sizeAdd start 24
    let (rosTopicName, position) ← readText 256 m payloadSize position rosTopicNameSize false
    let (rosTypeName, position) ← readText 256 m payloadSize position rosTypeNameSize false
    let (ddsTopicName, position) ← readText 256 m payloadSize position ddsTopicNameSize false
    let (ddsTypeName, position) ← readText 256 m payloadSize position ddsTypeNameSize false
    let duplicate ← search s.records index fun previous => previous.entityId == entityId
    require (duplicate = false) (.rejected, .duplicateRecord)
    let records ← store s.records index
      { participantPrefix, entityId, nodeId, kind, rosTopicName, rosTypeName, ddsTopicName, ddsTypeName
        rosTopicNameSize, rosTypeNameSize, ddsTopicNameSize, ddsTypeNameSize
        rosNamespaceConventions := conventions == 1
        occupied := true }
    pure { position, records }

/-- The snapshot of a participant. -/
structure Snapshot where
  generation : ℕ
  nodeCount : ℕ
  endpointCount : ℕ
  nodes : Vector GraphNodeRecord 8
  endpoints : Vector GraphEndpointRecord 16

/-- The part of `apply_remote` that reads the snapshot. -/
def readSnapshot (participantPrefix : GuidPrefix) (payload : Span) (rtpsSequenceNumber : ℕ) :
    Guarded GraphExit Snapshot := do
  let m := payload.data
  require (nonzeroPrefix participantPrefix) malformed
  require (payload.isNull = false) malformed
  require (24 ≤ payload.size) malformed
  let encapsulation ← bytesAt m 0 4
  require (encapsulation = [0, 1, 0, 0]) malformed
  let magic ← bytesAt m 4 4
  require (magic = [0x4F, 0x52, 0x54, 0x47]) malformed
  let version ← bytesAt m 8 2
  require (version = [1, 0]) malformed
  let reserved ← bytesAt m 14 2
  require (reserved = [0, 0]) malformed
  let nodeCount ← readWord m 10 2 .littleEndian
  let endpointCount ← readWord m 12 2 .littleEndian
  let generation ← readWord m 16 8 .littleEndian
  require (nodeCount ≤ 8) malformed
  require (endpointCount ≤ 16) malformed
  require (generation ≠ 0 ∧ generation ≤ int64Max ∧ generation = rtpsSequenceNumber) malformed
  let nodes ← (List.range nodeCount).foldlM (readNode participantPrefix m payload.size)
    { position := 24, records := .replicate 8 {} }
  let endpoints ← (List.range endpointCount).foldlM
    (readEndpoint participantPrefix m payload.size nodes.records nodeCount)
    { position := nodes.position, records := .replicate 16 {} }
  require (endpoints.position = payload.size) malformed
  pure
    { generation, nodeCount, endpointCount
      nodes := nodes.records
      endpoints := endpoints.records }

end Snapshot

section Commit

/-- `advance_generation`. -/
def advanceGeneration (cache : GraphCache) (localChange : Bool) : GraphCache :=
  let advance (generation : ℕ) := if generation ≥ int64Max then 1 else generation + 1
  { cache with
    generation := advance cache.generation
    localGeneration := if localChange then advance cache.localGeneration else cache.localGeneration }

/-- Stores a record in the first free slot, if there is one. -/
def insertRecord {α : Type} {n : ℕ} (occupied : α → Bool) (slots : Vector α n) (record : α) :
    Vector α n :=
  match slots.findFinIdx? fun slot => !occupied slot with
  | none => slots
  | some i => slots.set i record

/-- The slot of the generation of a participant: its own one if its generation is older, or a free
one. -/
def generationSlot (cache : GraphCache) (participantPrefix : GuidPrefix) (generation : ℕ) :
    Guarded GraphExit (Fin 16) :=
  match cache.remoteGenerations.findFinIdx? fun entry =>
      entry.occupied && entry.participantPrefix == participantPrefix with
  | some i => do
    require ((cache.remoteGenerations.get i).generation < generation) (.unchanged, .staleSnapshot)
    pure i
  | none =>
    match cache.remoteGenerations.findFinIdx? fun entry => !entry.occupied with
    | some i => pure i
    | none => .error (.rejected, .capacityExceeded)

/-- The loop that stores the first `count` incoming records. -/
def insertRecords {ε α : Type} {n capacity : ℕ} (occupied : α → Bool) (incoming : Vector α capacity)
    (count : ℕ) (slots : Vector α n) : Guarded ε (Vector α n) :=
  (List.range count).foldlM
    (fun slots index => do
      let record ← fetch incoming index
      pure (insertRecord occupied slots record))
    slots

/-- The part of `apply_remote` that replaces the records of the participant. -/
def commitSnapshot (cache : GraphCache) (participantPrefix : GuidPrefix) (snapshot : Snapshot) :
    Guarded GraphExit GraphCache := do
  let slot ← cache.generationSlot participantPrefix snapshot.generation
  let remainingNodes := cache.nodes.toList.countP fun node =>
    node.occupied && (node.isLocal || node.participantPrefix != participantPrefix)
  let remainingEndpoints := cache.endpoints.toList.countP fun endpoint =>
    endpoint.occupied && (endpoint.isLocal || endpoint.participantPrefix != participantPrefix)
  let nodeRoom ← sizeSub 136 remainingNodes
  require (snapshot.nodeCount ≤ nodeRoom) (.rejected, .capacityExceeded)
  let endpointRoom ← sizeSub 48 remainingEndpoints
  require (snapshot.endpointCount ≤ endpointRoom) (.rejected, .capacityExceeded)
  let nodes ← insertRecords GraphNodeRecord.occupied snapshot.nodes snapshot.nodeCount
    (cache.nodes.map fun node => if node.isOf participantPrefix then {} else node)
  let endpoints ← insertRecords GraphEndpointRecord.occupied snapshot.endpoints snapshot.endpointCount
    (cache.endpoints.map fun endpoint => if endpoint.isOf participantPrefix then {} else endpoint)
  let remoteGenerations := cache.remoteGenerations.set slot
    { participantPrefix, generation := snapshot.generation, occupied := true }
  pure ({ cache with nodes, endpoints, remoteGenerations }.advanceGeneration false)

end Commit

/-- `GraphCache::apply_remote`. A value is the changed cache; every other exit comes before the first
write and leaves the cache alone. -/
def applyRemote (cache : GraphCache) (participantPrefix : GuidPrefix) (payload : Span)
    (rtpsSequenceNumber : ℕ) : Guarded GraphExit GraphCache := do
  let snapshot ← readSnapshot participantPrefix payload rtpsSequenceNumber
  cache.commitSnapshot participantPrefix snapshot

/-- `GraphCache::remove_remote_participant`. -/
def removeRemoteParticipant (cache : GraphCache) (participantPrefix : GuidPrefix) :
    GraphUpdate × GraphCache :=
  let changed := cache.nodes.toList.any (·.isOf participantPrefix) ||
    cache.endpoints.toList.any (·.isOf participantPrefix)
  let removed : GraphCache :=
    { cache with
      nodes := cache.nodes.map fun node => if node.isOf participantPrefix then {} else node
      endpoints := cache.endpoints.map fun endpoint =>
        if endpoint.isOf participantPrefix then {} else endpoint
      remoteGenerations := (replaceFirst (fun entry => entry.occupied &&
        entry.participantPrefix == participantPrefix) cache.remoteGenerations {}).getD
          cache.remoteGenerations }
  if changed then (.changed, removed.advanceGeneration false) else (.unchanged, removed)

section Local

/-- A `const char*`: null, or the characters before the terminating zero. -/
abbrev CString := Option (List UInt8)

/-- A text in an array of zeros. -/
def padText (capacity : ℕ) (text : List UInt8) : Vector UInt8 capacity :=
  (Vector.replicate capacity 0).mapIdx fun k zero => text.getD k zero

/-- `copy_text` into an array of `capacity` characters: the text and its size. -/
def copyText (capacity : ℕ) (input : CString) (emptyAllowed : Bool) :
    Option (Vector UInt8 capacity × ℕ) :=
  match input with
  | none => none
  | some chars =>
    let text := chars.takeWhile (· != 0)
    if text.length ≥ capacity ∨ (emptyAllowed = false ∧ text.length = 0) then none
    else some (padText capacity text, text.length)

/-- The record of a node of this context. -/
def localNode (participantPrefix : GuidPrefix) (nodeId : UInt64) (name nameSpace enclave : CString) :
    Option GraphNodeRecord := do
  let (name, nameSize) ← copyText 64 name false
  let (nameSpace, namespaceSize) ← copyText 128 nameSpace false
  let (enclave, enclaveSize) ← copyText 256 enclave false
  some
    { participantPrefix, nodeId := nodeId.toNat, name, nameSpace, enclave, nameSize, namespaceSize
      enclaveSize
      isLocal := true
      occupied := true }

/-- `GraphCache::add_local_node`. -/
def addLocalNode (cache : GraphCache) (participantPrefix : GuidPrefix) (nodeId : UInt64)
    (name nameSpace enclave : CString) : Except GraphError GraphCache :=
  if !nonzeroPrefix participantPrefix || nodeId == 0 then .error .invalidArgument
  else if cache.nodes.toList.any fun node =>
      node.occupied && node.isLocal && node.nodeId == nodeId.toNat then .error .duplicateRecord
  else match localNode participantPrefix nodeId name nameSpace enclave with
    | none => .error .invalidRecord
    | some candidate =>
      match replaceFirst (fun node => !node.occupied) cache.nodes candidate with
      | none => .error .capacityExceeded
      | some nodes => .ok ({ cache with nodes }.advanceGeneration true)

/-- `GraphCache::remove_local_node`. -/
def removeLocalNode (cache : GraphCache) (nodeId : UInt64) : Except GraphError GraphCache :=
  if cache.endpoints.toList.any fun endpoint =>
      endpoint.occupied && endpoint.isLocal && endpoint.nodeId == nodeId.toNat then
    .error .invalidRecord
  else match replaceFirst (fun node => node.occupied && node.isLocal && node.nodeId == nodeId.toNat)
      cache.nodes {} with
    | none => .error .recordNotFound
    | some nodes => .ok ({ cache with nodes }.advanceGeneration true)

/-- The record of an endpoint of this context. -/
def localEndpoint (participantPrefix : GuidPrefix) (entityId : EntityId) (nodeId : UInt64)
    (kind : GraphEndpointKind) (rosTopicName rosTypeName ddsTopicName ddsTypeName : CString)
    (rosNamespaceConventions : Bool) : Option GraphEndpointRecord := do
  let (rosTopicName, rosTopicNameSize) ← copyText 256 rosTopicName false
  let (rosTypeName, rosTypeNameSize) ← copyText 256 rosTypeName false
  let (ddsTopicName, ddsTopicNameSize) ← copyText 256 ddsTopicName false
  let (ddsTypeName, ddsTypeNameSize) ← copyText 256 ddsTypeName false
  some
    { participantPrefix, entityId, nodeId := nodeId.toNat, kind
      rosTopicName, rosTypeName, ddsTopicName, ddsTypeName
      rosTopicNameSize, rosTypeNameSize, ddsTopicNameSize, ddsTypeNameSize
      rosNamespaceConventions
      isLocal := true
      occupied := true }

/-- `GraphCache::add_local_endpoint`; `kind` is the code of the enumeration. -/
def addLocalEndpoint (cache : GraphCache) (participantPrefix : GuidPrefix) (entityId : EntityId)
    (nodeId : UInt64) (kind : UInt8) (rosTopicName rosTypeName ddsTopicName ddsTypeName : CString)
    (rosNamespaceConventions : Bool) : Except GraphError GraphCache :=
  match GraphEndpointKind.ofByte kind with
  | none => .error .invalidArgument
  | some kind =>
    if !nonzeroPrefix participantPrefix || !validEntity entityId || nodeId == 0 then
      .error .invalidArgument
    else if !cache.nodes.toList.any fun node =>
        node.occupied && node.isLocal && node.nodeId == nodeId.toNat &&
          node.participantPrefix == participantPrefix then
      .error .recordNotFound
    else if cache.endpoints.toList.any fun endpoint =>
        endpoint.occupied && endpoint.isLocal && endpoint.entityId == entityId then
      .error .duplicateRecord
    else match localEndpoint participantPrefix entityId nodeId kind rosTopicName rosTypeName
        ddsTopicName ddsTypeName rosNamespaceConventions with
      | none => .error .invalidRecord
      | some candidate =>
        match replaceFirst (fun endpoint => !endpoint.occupied) cache.endpoints candidate with
        | none => .error .capacityExceeded
        | some endpoints => .ok ({ cache with endpoints }.advanceGeneration true)

/-- `GraphCache::remove_local_endpoint`. -/
def removeLocalEndpoint (cache : GraphCache) (entityId : EntityId) : Except GraphError GraphCache :=
  match replaceFirst (fun endpoint => endpoint.occupied && endpoint.isLocal &&
      endpoint.entityId == entityId) cache.endpoints {} with
  | none => .error .recordNotFound
  | some endpoints => .ok ({ cache with endpoints }.advanceGeneration true)

end Local

section Serialize

/-- The record of a node in a snapshot. -/
def nodeBytes (node : GraphNodeRecord) : List UInt8 :=
  storeInt true 8 node.nodeId ++ storeInt true 2 node.nameSize ++ storeInt true 2 node.namespaceSize ++
    storeInt true 2 node.enclaveSize ++ [0, 0] ++ node.name.toList.take node.nameSize ++
    node.nameSpace.toList.take node.namespaceSize ++ node.enclave.toList.take node.enclaveSize

/-- The record of an endpoint in a snapshot. -/
def endpointBytes (endpoint : GraphEndpointRecord) : List UInt8 :=
  storeInt true 8 endpoint.nodeId ++ endpoint.entityId.toList ++
    [endpoint.kind.toByte, if endpoint.rosNamespaceConventions then 1 else 0, 0, 0] ++
    storeInt true 2 endpoint.rosTopicNameSize ++ storeInt true 2 endpoint.rosTypeNameSize ++
    storeInt true 2 endpoint.ddsTopicNameSize ++ storeInt true 2 endpoint.ddsTypeNameSize ++
    endpoint.rosTopicName.toList.take endpoint.rosTopicNameSize ++
    endpoint.rosTypeName.toList.take endpoint.rosTypeNameSize ++
    endpoint.ddsTopicName.toList.take endpoint.ddsTopicNameSize ++
    endpoint.ddsTypeName.toList.take endpoint.ddsTypeNameSize

/-- One iteration of the loops over the records: `reserve`, then the bytes at the end of the output. -/
def appendRecord {α : Type} (capacity : ℕ) (recordSize : α → ℕ) (bytes : α → List UInt8)
    (output : List UInt8) (record : α) : Except GraphError (List UInt8) :=
  if output.length > capacity ∨ recordSize record > capacity - output.length then
    .error .bufferOverflow
  else .ok (output ++ bytes record)

/-- The nodes and endpoints of this context. -/
def localNodes (cache : GraphCache) : List GraphNodeRecord :=
  cache.nodes.toList.filter fun node => node.occupied && node.isLocal

def localEndpoints (cache : GraphCache) : List GraphEndpointRecord :=
  cache.endpoints.toList.filter fun endpoint => endpoint.occupied && endpoint.isLocal

/-- The header of a snapshot. -/
def snapshotHeader (nodeCount endpointCount generation : ℕ) : List UInt8 :=
  [0, 1, 0, 0] ++ [0x4F, 0x52, 0x54, 0x47] ++ [1, 0] ++ storeInt true 2 nodeCount ++
    storeInt true 2 endpointCount ++ [0, 0] ++ storeInt true 8 generation

/-- `GraphCache::serialize_local` into a buffer of `capacity` bytes: the snapshot and its generation. -/
def serializeLocal (cache : GraphCache) (outputIsNull : Bool) (capacity : ℕ) :
    Except GraphError (List UInt8 × ℕ) :=
  if outputIsNull || decide (capacity < 24) then .error .invalidArgument
  else if cache.localNodes.length > 8 ∨ cache.localEndpoints.length > 16 then
    .error .capacityExceeded
  else do
    let output ← cache.localNodes.foldlM (appendRecord capacity
      (fun node => 16 + node.nameSize + node.namespaceSize + node.enclaveSize) nodeBytes)
      (snapshotHeader cache.localNodes.length cache.localEndpoints.length cache.localGeneration)
    let output ← cache.localEndpoints.foldlM (appendRecord capacity
      (fun endpoint => 24 + endpoint.rosTopicNameSize + endpoint.rosTypeNameSize +
        endpoint.ddsTopicNameSize + endpoint.ddsTypeNameSize) endpointBytes) output
    pure (output, cache.localGeneration)

end Serialize

end GraphCache

section Operations

/-- The operations that change a graph cache. -/
inductive GraphOp where
  | addLocalNode (participantPrefix : GuidPrefix) (nodeId : UInt64)
      (name nameSpace enclave : GraphCache.CString)
  | removeLocalNode (nodeId : UInt64)
  | addLocalEndpoint (participantPrefix : GuidPrefix) (entityId : EntityId) (nodeId : UInt64)
      (kind : UInt8) (rosTopicName rosTypeName ddsTopicName ddsTypeName : GraphCache.CString)
      (rosNamespaceConventions : Bool)
  | removeLocalEndpoint (entityId : EntityId)
  | applyRemote (participantPrefix : GuidPrefix) (payload : Span) (rtpsSequenceNumber : ℕ)
  | removeRemoteParticipant (participantPrefix : GuidPrefix)

/-- The operations on the records of this context. -/
def GraphOp.isLocal : GraphOp → Bool
  | .addLocalNode .. | .removeLocalNode _ | .addLocalEndpoint .. | .removeLocalEndpoint _ => true
  | .applyRemote .. | .removeRemoteParticipant _ => false

/-- The participant whose records an operation works on. -/
def GraphOp.participant? : GraphOp → Option GuidPrefix
  | .addLocalNode .. | .removeLocalNode _ | .addLocalEndpoint .. | .removeLocalEndpoint _ => none
  | .applyRemote participantPrefix _ _ | .removeRemoteParticipant participantPrefix =>
    some participantPrefix

/-- What an operation returns; a fault is a call that does not return. -/
inductive GraphResult where
  | error (error : Option GraphError)
  | update (update : GraphUpdate)
  | fault
  deriving DecidableEq

namespace GraphCache

/-- What a local operation returns, and the cache after it. -/
def localResult (cache : GraphCache) : Except GraphError GraphCache → GraphResult × GraphCache
  | .ok changed => (.error none, changed)
  | .error e => (.error (some e), cache)

/-- What `apply_remote` returns, and the cache after it. -/
def remoteResult (cache : GraphCache) : Guarded GraphExit GraphCache → GraphResult × GraphCache
  | .ok changed => (.update .changed, changed)
  | .error exit => (.update exit.1, cache)
  | .fault => (.fault, cache)

/-- One operation. -/
def perform (cache : GraphCache) : GraphOp → GraphResult × GraphCache
  | .addLocalNode participantPrefix nodeId name nameSpace enclave =>
    cache.localResult (cache.addLocalNode participantPrefix nodeId name nameSpace enclave)
  | .removeLocalNode nodeId => cache.localResult (cache.removeLocalNode nodeId)
  | .addLocalEndpoint participantPrefix entityId nodeId kind rosTopicName rosTypeName ddsTopicName
      ddsTypeName rosNamespaceConventions =>
    cache.localResult (cache.addLocalEndpoint participantPrefix entityId nodeId kind rosTopicName
      rosTypeName ddsTopicName ddsTypeName rosNamespaceConventions)
  | .removeLocalEndpoint entityId => cache.localResult (cache.removeLocalEndpoint entityId)
  | .applyRemote participantPrefix payload rtpsSequenceNumber =>
    cache.remoteResult (cache.applyRemote participantPrefix payload rtpsSequenceNumber)
  | .removeRemoteParticipant participantPrefix =>
    ((cache.removeRemoteParticipant participantPrefix).map .update id)

/-- The cache after one operation. -/
def step (cache : GraphCache) (op : GraphOp) : GraphCache := (cache.perform op).2

end GraphCache

end Operations

end OpenRtdds
