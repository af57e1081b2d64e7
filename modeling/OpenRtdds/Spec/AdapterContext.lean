import OpenRtdds.Lib.Pool

/-!
# The adapter context

`AdapterContext` of `include/openrtdds/rmw/foundation.hpp`: the life cycle of a context, and its pools of
nodes and guard conditions, for every capacity and every bound of the names.

A C string is the list of its characters before the terminator, or `none` for a null pointer. The index of
a slot is stored in a `uint16_t`, which no capacity exceeds.
-/

namespace OpenRtdds

open Lib Lib.Pool

/-- `rmw::AdapterError` without `none`. -/
inductive AdapterError where
  | invalidArgument
  | incorrectImplementation
  | invalidLimits
  | invalidDomain
  | invalidState
  | resourceExhausted
  | nameTooLong
  | staleHandle
  | unsupported
  deriving DecidableEq

/-- `rmw::ContextState`. -/
inductive ContextState where
  | zero
  | initialized
  | active
  | shuttingDown
  | finalizable
  deriving DecidableEq

/-- `kImplementationIdentifier`. -/
def implementationIdentifier : String := "rmw_openrtdds_cpp"

/-- `kMaxPortableDomainId`. -/
def maxPortableDomainId : UInt32 := 232

/-- `rmw::AdapterLimits`. -/
structure AdapterLimits where
  maxNodes : ℕ := 8
  maxGuardConditions : ℕ := 16

/-- `AdapterLimits::validate`. -/
def AdapterLimits.validate (limits : AdapterLimits) (nodeCapacity guardConditionCapacity : ℕ) :
    Option AdapterError :=
  if limits.maxNodes = 0 ∨ limits.maxGuardConditions = 0 then some .invalidLimits
  else if limits.maxNodes > nodeCapacity ∨ limits.maxGuardConditions > guardConditionCapacity then
    some .invalidLimits
  else none

/-- `rmw::AdapterConfig`. -/
structure AdapterConfig where
  limits : AdapterLimits := {}
  domainId : UInt32 := 0
  identifier : Option String := some implementationIdentifier

/-- `rmw::NodeHandle` and `rmw::GuardConditionHandle`. -/
abbrev NodeHandle := SlotHandle
abbrev GuardConditionHandle := SlotHandle

/-- The names in a `NodeSlot`. -/
structure NodeNames where
  name : List UInt8 := []
  nameSpace : List UInt8 := []

/-- `rmw::AdapterContext`. -/
structure AdapterContext (nodeCapacity guardConditionCapacity maxNodeNameBytes maxNamespaceBytes : ℕ) where
  nodes : Vector (PoolSlot NodeNames) nodeCapacity := .replicate nodeCapacity { data := {} }
  guardConditions : Vector (PoolSlot UInt64) guardConditionCapacity :=
    .replicate guardConditionCapacity { data := 0 }
  limits : AdapterLimits := {}
  wakeGeneration : UInt64 := 0
  nodeCount : ℕ := 0
  guardConditionCount : ℕ := 0
  contextGeneration : UInt32 := 0
  domainId : UInt32 := 0
  state : ContextState := .zero

/-- `advance_atomic`. -/
def advanceAtomic (value : UInt64) : UInt64 := if value = 0xFFFFFFFFFFFFFFFF then 1 else value + 1

namespace AdapterContext

variable {nodeCapacity guardConditionCapacity maxNodeNameBytes maxNamespaceBytes : ℕ}
  (c : AdapterContext nodeCapacity guardConditionCapacity maxNodeNameBytes maxNamespaceBytes)

section Lifecycle

/-- `initialize`. -/
def initializeContext (config : AdapterConfig) : Option AdapterError ×
      AdapterContext nodeCapacity guardConditionCapacity maxNodeNameBytes maxNamespaceBytes :=
  if c.state ≠ .zero then (some .invalidState, c)
  else if config.identifier ≠ some implementationIdentifier then
    (some (if config.identifier = none then .invalidArgument else .incorrectImplementation), c)
  else match config.limits.validate nodeCapacity guardConditionCapacity with
    | some e => (some e, c)
    | none =>
      if config.domainId > maxPortableDomainId then (some .invalidDomain, c)
      else
        (none,
          { c with
            limits := config.limits
            domainId := config.domainId
            contextGeneration := nextGeneration c.contextGeneration
            wakeGeneration := 0
            state := .initialized })

/-- `shutdown`. -/
def shutdown :
    Option AdapterError ×
      AdapterContext nodeCapacity guardConditionCapacity maxNodeNameBytes maxNamespaceBytes :=
  if c.state ≠ .initialized ∧ c.state ≠ .active then (some .invalidState, c)
  else
    (none,
      { c with
        state := if c.nodeCount = 0 ∧ c.guardConditionCount = 0 then .finalizable else .shuttingDown
        wakeGeneration := advanceAtomic c.wakeGeneration })

/-- `finalize`. -/
def finalize :
    Option AdapterError ×
      AdapterContext nodeCapacity guardConditionCapacity maxNodeNameBytes maxNamespaceBytes :=
  if c.state ≠ .finalizable then (some .invalidState, c)
  else (none, { c with limits := {}, domainId := 0, wakeGeneration := 0, state := .zero })

/-- `update_state_after_release`. -/
def updateStateAfterRelease :
    AdapterContext nodeCapacity guardConditionCapacity maxNodeNameBytes maxNamespaceBytes :=
  if c.nodeCount = 0 ∧ c.guardConditionCount = 0 then
    { c with state := if c.state = .shuttingDown then .finalizable else .initialized }
  else c

end Lifecycle

section Nodes

/-- `create_node`. -/
def createNode (name nameSpace : Option (List UInt8)) : Except AdapterError NodeHandle ×
      AdapterContext nodeCapacity guardConditionCapacity maxNodeNameBytes maxNamespaceBytes :=
  if c.state ≠ .initialized ∧ c.state ≠ .active then (.error .invalidState, c)
  else match name, nameSpace with
    | some name, some nameSpace =>
      if name = [] ∨ nameSpace = [] then (.error .invalidArgument, c)
      else if name.length ≥ maxNodeNameBytes ∨ nameSpace.length ≥ maxNamespaceBytes then
        (.error .nameTooLong, c)
      else if c.nodeCount ≥ c.limits.maxNodes then (.error .resourceExhausted, c)
      else match allocate c.nodes { name, nameSpace } with
        | none => (.error .resourceExhausted, c)
        | some (i, nodes) =>
          (.ok (handleAt nodes c.contextGeneration i),
            { c with nodes, nodeCount := c.nodeCount + 1, state := .active })
    | _, _ => (.error .invalidArgument, c)

/-- `destroy_node`. -/
def destroyNode (handle : NodeHandle) : Option AdapterError ×
      AdapterContext nodeCapacity guardConditionCapacity maxNodeNameBytes maxNamespaceBytes :=
  if c.state ≠ .active ∧ c.state ≠ .shuttingDown then (some .invalidState, c)
  else match slotOf c.nodes c.contextGeneration handle with
    | some i =>
      (none,
        { c with nodes := release c.nodes i {}, nodeCount := c.nodeCount - 1 }.updateStateAfterRelease)
    | none => (some .staleHandle, c)

end Nodes

section GuardConditions

/-- `create_guard_condition`. -/
def createGuardCondition :
    Except AdapterError GuardConditionHandle ×
      AdapterContext nodeCapacity guardConditionCapacity maxNodeNameBytes maxNamespaceBytes :=
  if c.state ≠ .initialized ∧ c.state ≠ .active then (.error .invalidState, c)
  else if c.guardConditionCount ≥ c.limits.maxGuardConditions then (.error .resourceExhausted, c)
  else match allocate c.guardConditions 0 with
    | none => (.error .resourceExhausted, c)
    | some (i, guardConditions) =>
      (.ok (handleAt guardConditions c.contextGeneration i),
        { c with guardConditions, guardConditionCount := c.guardConditionCount + 1, state := .active })

/-- `destroy_guard_condition`. -/
def destroyGuardCondition (handle : GuardConditionHandle) : Option AdapterError ×
      AdapterContext nodeCapacity guardConditionCapacity maxNodeNameBytes maxNamespaceBytes :=
  if c.state ≠ .active ∧ c.state ≠ .shuttingDown then (some .invalidState, c)
  else match slotOf c.guardConditions c.contextGeneration handle with
    | some i =>
      (none,
        { c with
          guardConditions := release c.guardConditions i 0
          guardConditionCount := c.guardConditionCount - 1 }.updateStateAfterRelease)
    | none => (some .staleHandle, c)

/-- `trigger_guard_condition`. -/
def triggerGuardCondition (handle : GuardConditionHandle) : Option AdapterError ×
      AdapterContext nodeCapacity guardConditionCapacity maxNodeNameBytes maxNamespaceBytes :=
  if c.state ≠ .initialized ∧ c.state ≠ .active then (some .invalidState, c)
  else match slotOf c.guardConditions c.contextGeneration handle with
    | some i =>
      (none,
        { c with
          guardConditions := write c.guardConditions i (advanceAtomic (c.guardConditions.get i).data)
          wakeGeneration := advanceAtomic c.wakeGeneration })
    | none => (some .staleHandle, c)

/-- `observe_guard_condition`: the generation, and whether it is another one than the last observed. -/
def observeGuardCondition (handle : GuardConditionHandle) (lastObserved : UInt64) :
    Except AdapterError (UInt64 × Bool) :=
  if c.state ≠ .initialized ∧ c.state ≠ .active then .error .invalidState
  else match slotOf c.guardConditions c.contextGeneration handle with
    | some i =>
      let generation := (c.guardConditions.get i).data
      .ok (generation, generation != lastObserved)
    | none => .error .staleHandle

end GuardConditions

end AdapterContext

/-- A call of the context. -/
inductive AdapterCall where
  | initializeContext (config : AdapterConfig)
  | shutdown
  | finalize
  | createNode (name nameSpace : Option (List UInt8))
  | destroyNode (handle : NodeHandle)
  | createGuardCondition
  | destroyGuardCondition (handle : GuardConditionHandle)
  | triggerGuardCondition (handle : GuardConditionHandle)
  | observeGuardCondition (handle : GuardConditionHandle) (lastObserved : UInt64)

/-- The answer to a call. -/
inductive AdapterReply where
  | failed (error : AdapterError)
  | done
  | node (handle : NodeHandle)
  | guardCondition (handle : GuardConditionHandle)
  | observed (current : UInt64) (ready : Bool)
  deriving DecidableEq

namespace AdapterReply

/-- The answer to a call that returns an error code only. -/
def ofError : Option AdapterError → AdapterReply
  | none => .done
  | some e => .failed e

/-- The answer to a call with a result. -/
def ofResult {α : Type} (reply : α → AdapterReply) : Except AdapterError α → AdapterReply
  | .error e => .failed e
  | .ok a => reply a

end AdapterReply

namespace AdapterContext

variable {nodeCapacity guardConditionCapacity maxNodeNameBytes maxNamespaceBytes : ℕ}

/-- One call, with its answer. -/
def call (c : AdapterContext nodeCapacity guardConditionCapacity maxNodeNameBytes maxNamespaceBytes) :
    AdapterCall → AdapterReply ×
      AdapterContext nodeCapacity guardConditionCapacity maxNodeNameBytes maxNamespaceBytes
  | .initializeContext config => (.ofError (c.initializeContext config).1, (c.initializeContext config).2)
  | .shutdown => (.ofError c.shutdown.1, c.shutdown.2)
  | .finalize => (.ofError c.finalize.1, c.finalize.2)
  | .createNode name nameSpace =>
    (.ofResult .node (c.createNode name nameSpace).1, (c.createNode name nameSpace).2)
  | .destroyNode handle => (.ofError (c.destroyNode handle).1, (c.destroyNode handle).2)
  | .createGuardCondition =>
    (.ofResult .guardCondition c.createGuardCondition.1, c.createGuardCondition.2)
  | .destroyGuardCondition handle =>
    (.ofError (c.destroyGuardCondition handle).1, (c.destroyGuardCondition handle).2)
  | .triggerGuardCondition handle =>
    (.ofError (c.triggerGuardCondition handle).1, (c.triggerGuardCondition handle).2)
  | .observeGuardCondition handle lastObserved =>
    (.ofResult (fun r => .observed r.1 r.2) (c.observeGuardCondition handle lastObserved), c)

/-- The context after a run of calls from another one, and the calls with their answers. -/
def runFrom (c : AdapterContext nodeCapacity guardConditionCapacity maxNodeNameBytes maxNamespaceBytes)
    (calls : List AdapterCall) :
    AdapterContext nodeCapacity guardConditionCapacity maxNodeNameBytes maxNamespaceBytes ×
      List (AdapterCall × AdapterReply) :=
  collect (fun c a => ((call c a).2, [(a, (call c a).1)])) c calls

/-- The context after a run of calls. -/
def after (calls : List AdapterCall) :
    AdapterContext nodeCapacity guardConditionCapacity maxNodeNameBytes maxNamespaceBytes ×
      List (AdapterCall × AdapterReply) :=
  runFrom {} calls

end AdapterContext

section Logs

/-- What a call with its answer says about the handle of a node. -/
def nodeEvent : AdapterCall × AdapterReply → Option PoolEvent
  | (_, .node h) => some (.created h)
  | (call, .done) =>
    match call with
    | .destroyNode h => some (.destroyed h)
    | _ => none
  | _ => none

/-- What it says about the handle of a guard condition; a trigger is a write. -/
def guardEvent : AdapterCall × AdapterReply → Option PoolEvent
  | (_, .guardCondition h) => some (.created h)
  | (call, .done) =>
    match call with
    | .destroyGuardCondition h => some (.destroyed h)
    | .triggerGuardCondition h => some (.written h)
    | _ => none
  | _ => none

/-- The log of the nodes in a run. -/
def nodeLog (trace : List (AdapterCall × AdapterReply)) : List PoolEvent := trace.filterMap nodeEvent

/-- The log of the guard conditions in a run. -/
def guardLog (trace : List (AdapterCall × AdapterReply)) : List PoolEvent := trace.filterMap guardEvent

end Logs

end OpenRtdds
