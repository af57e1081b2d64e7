import OpenRtdds.Spec.AdapterContext

/-!
# The life cycle of the adapter context

The state of a context is a function of the number of its handles and of how far its life cycle has
come; the counters of the two pools are what connects the two.

* `Effect`, `call_effect`: everything a call can do.
* `Wellformed`: the invariant. `Effect.wellformed`.
* `allocate_of_room`: a slot is free while the limit is not reached, so that the scan of the slots
  always finds one.
* `Tracks`: the handles that are accepted are those that have been returned and not destroyed since.
  `Effect.tracks`, `after_sound`.
* `teardown_finalizable`: what destroying all handles leads to.
* `adapter_context_lifecycle`.
-/

namespace OpenRtdds

open Lib Lib.Pool

namespace AdapterContext

variable {N G B S : ℕ} {c c' : AdapterContext N G B S}
  {a : AdapterCall} {r : AdapterReply} {trace : List (AdapterCall × AdapterReply)}

section Effects

/-- The node pool with one more node. -/
def withNode (nodes : Vector (PoolSlot NodeNames) N) (i : Fin N)
    (names : NodeNames) : Vector (PoolSlot NodeNames) N :=
  setSlot nodes i { data := names, generation := nextGeneration (nodes.get i).generation, used := true }

/-- The pool of guard conditions with one more. -/
def withGuard (guardConditions : Vector (PoolSlot UInt64) G)
    (i : Fin G) : Vector (PoolSlot UInt64) G :=
  setSlot guardConditions i
    { data := 0, generation := nextGeneration (guardConditions.get i).generation, used := true }

/-- **What a call can do.** -/
inductive Effect
    (c : AdapterContext N G B S) :
    AdapterCall → AdapterReply →
      AdapterContext N G B S → Prop where
  | failed {a : AdapterCall} (e : AdapterError) : Effect c a (.failed e) c
  | initialized {config : AdapterConfig} (hstate : c.state = .zero)
      (hlimits : config.limits.validate N G = none) :
      Effect c (.initializeContext config) .done
        { c with
          limits := config.limits
          domainId := config.domainId
          contextGeneration := nextGeneration c.contextGeneration
          wakeGeneration := 0
          state := .initialized }
  | shutDown (hstate : c.state = .initialized ∨ c.state = .active) :
      Effect c .shutdown .done
        { c with
          state := if c.nodeCount = 0 ∧ c.guardConditionCount = 0 then .finalizable else .shuttingDown
          wakeGeneration := advanceAtomic c.wakeGeneration }
  | finalized (hstate : c.state = .finalizable) :
      Effect c .finalize .done { c with limits := {}, domainId := 0, wakeGeneration := 0, state := .zero }
  | nodeCreated {name nameSpace : Option (List UInt8)} (names : NodeNames) (i : Fin N)
      (hstate : c.state = .initialized ∨ c.state = .active) (hlimit : c.nodeCount < c.limits.maxNodes)
      (hfree : (c.nodes.get i).used = false) :
      Effect c (.createNode name nameSpace)
        (.node (handleAt (withNode c.nodes i names) c.contextGeneration i))
        { c with nodes := withNode c.nodes i names, nodeCount := c.nodeCount + 1, state := .active }
  | nodeDestroyed (i : Fin N) (hstate : c.state = .active ∨ c.state = .shuttingDown)
      (hused : (c.nodes.get i).used = true) :
      Effect c (.destroyNode (handleAt c.nodes c.contextGeneration i)) .done
        { c with nodes := release c.nodes i {}, nodeCount := c.nodeCount - 1 }.updateStateAfterRelease
  | guardCreated (i : Fin G) (hstate : c.state = .initialized ∨ c.state = .active)
      (hlimit : c.guardConditionCount < c.limits.maxGuardConditions)
      (hfree : (c.guardConditions.get i).used = false) :
      Effect c .createGuardCondition
        (.guardCondition (handleAt (withGuard c.guardConditions i) c.contextGeneration i))
        { c with
          guardConditions := withGuard c.guardConditions i
          guardConditionCount := c.guardConditionCount + 1
          state := .active }
  | guardDestroyed (i : Fin G)
      (hstate : c.state = .active ∨ c.state = .shuttingDown)
      (hused : (c.guardConditions.get i).used = true) :
      Effect c (.destroyGuardCondition (handleAt c.guardConditions c.contextGeneration i)) .done
        { c with
          guardConditions := release c.guardConditions i 0
          guardConditionCount := c.guardConditionCount - 1 }.updateStateAfterRelease
  | guardTriggered (i : Fin G)
      (hstate : c.state = .initialized ∨ c.state = .active)
      (hused : (c.guardConditions.get i).used = true) :
      Effect c (.triggerGuardCondition (handleAt c.guardConditions c.contextGeneration i)) .done
        { c with
          guardConditions := write c.guardConditions i (advanceAtomic (c.guardConditions.get i).data)
          wakeGeneration := advanceAtomic c.wakeGeneration }
  | guardObserved {handle : GuardConditionHandle} {lastObserved : UInt64} (current : UInt64)
      (ready : Bool) : Effect c (.observeGuardCondition handle lastObserved) (.observed current ready) c

theorem allocate_some {α : Type} {n : ℕ} {pool pool' : Vector (PoolSlot α) n} {data : α} {i : Fin n}
    (h : allocate pool data = some (i, pool')) : (pool.get i).used = false ∧ pool' = setSlot pool i
      { data, generation := nextGeneration (pool.get i).generation, used := true } := by
  obtain ⟨j, hfound, heq⟩ := Option.map_eq_some_iff.1 h
  obtain ⟨rfl, rfl⟩ := Prod.mk.inj heq
  obtain ⟨-, -, -, -, hfree, -⟩ := findFinIdx?_split hfound (pool.get j)
  exact ⟨by simpa using hfree, rfl⟩

theorem state_of_not {a b : ContextState} (h : ¬ (c.state ≠ a ∧ c.state ≠ b)) :
    c.state = a ∨ c.state = b := by
  rw [not_and_or, not_not, not_not] at h
  exact h

/-- **The calls have these effects only.** -/
theorem call_effect
    (c : AdapterContext N G B S) (a : AdapterCall) : Effect c a (c.call a).1 (c.call a).2 := by
  cases a with
  | initializeContext config =>
    unfold call initializeContext
    dsimp only
    split
    · exact .failed _
    next hstate =>
      split
      · exact .failed _
      · split
        · exact .failed _
        next hlimits =>
          split
          · exact .failed _
          · exact .initialized (not_not.1 hstate) hlimits
  | shutdown =>
    unfold call shutdown
    dsimp only
    split
    · exact .failed _
    next hstate => exact .shutDown (state_of_not hstate)
  | finalize =>
    unfold call finalize
    dsimp only
    split
    · exact .failed _
    next hstate => exact .finalized (not_not.1 hstate)
  | createNode name nameSpace =>
    unfold call createNode
    dsimp only
    split
    · exact .failed _
    next hstate =>
      split
      · split
        · exact .failed _
        split
        · exact .failed _
        split
        · exact .failed _
        next hlimit =>
          split
          · exact .failed _
          next i nodes hallocate =>
            obtain ⟨hfree, rfl⟩ := allocate_some hallocate
            exact .nodeCreated _ i (state_of_not hstate) (not_le.1 hlimit) hfree
      · exact .failed _
  | destroyNode handle =>
    unfold call destroyNode
    dsimp only
    split
    · exact .failed _
    next hstate =>
      split
      next i hslot =>
        obtain ⟨hused, rfl⟩ := slotOf_eq_some.1 hslot
        exact .nodeDestroyed i (state_of_not hstate) hused
      · exact .failed _
  | createGuardCondition =>
    unfold call createGuardCondition
    dsimp only
    split
    · exact .failed _
    next hstate =>
      split
      · exact .failed _
      next hlimit =>
        split
        · exact .failed _
        next i nodes hallocate =>
          obtain ⟨hfree, rfl⟩ := allocate_some hallocate
          exact .guardCreated i (state_of_not hstate) (not_le.1 hlimit) hfree
  | destroyGuardCondition handle =>
    unfold call destroyGuardCondition
    dsimp only
    split
    · exact .failed _
    next hstate =>
      split
      next i hslot =>
        obtain ⟨hused, rfl⟩ := slotOf_eq_some.1 hslot
        exact .guardDestroyed i (state_of_not hstate) hused
      · exact .failed _
  | triggerGuardCondition handle =>
    unfold call triggerGuardCondition
    dsimp only
    split
    · exact .failed _
    next hstate =>
      split
      next i hslot =>
        obtain ⟨hused, rfl⟩ := slotOf_eq_some.1 hslot
        exact .guardTriggered i (state_of_not hstate) hused
      · exact .failed _
  | observeGuardCondition handle lastObserved =>
    unfold call observeGuardCondition
    dsimp only
    split
    · exact .failed _
    · split
      · exact .guardObserved _ _
      · exact .failed _

end Effects

section Wellformed

/-- **The invariant of the context.** -/
structure Wellformed
    (c : AdapterContext N G B S) : Prop where
  nodeCount : c.nodeCount = c.nodes.toList.countP (·.used)
  guardCount : c.guardConditionCount = c.guardConditions.toList.countP (·.used)
  nodeLimit : c.nodeCount ≤ c.limits.maxNodes
  guardLimit : c.guardConditionCount ≤ c.limits.maxGuardConditions
  idle : c.state = .zero ∨ c.state = .initialized ∨ c.state = .finalizable →
    c.nodeCount = 0 ∧ c.guardConditionCount = 0
  busy : c.state = .active ∨ c.state = .shuttingDown → 0 < c.nodeCount + c.guardConditionCount
  capacity : c.state ≠ .zero →
    c.limits.maxNodes ≤ N ∧ c.limits.maxGuardConditions ≤ G

section Counts

variable {α : Type} {n : ℕ} {pool : Vector (PoolSlot α) n} {i : Fin n}

theorem countP_taken {slot : PoolSlot α} (hfree : (pool.get i).used = false) (hused : slot.used = true) :
    (setSlot pool i slot).toList.countP (·.used) = pool.toList.countP (·.used) + 1 := by
  have hcount := countP_setSlot (·.used) pool i slot
  rw [hfree, hused, if_neg Bool.false_ne_true, if_pos rfl, Nat.add_zero] at hcount
  exact hcount

theorem countP_released {data : α} (hused : (pool.get i).used = true) :
    (release pool i data).toList.countP (·.used) + 1 = pool.toList.countP (·.used) := by
  have hcount := countP_setSlot (·.used) pool i { pool.get i with data, used := false }
  rw [hused, if_pos rfl, if_neg Bool.false_ne_true, Nat.add_zero] at hcount
  exact hcount

theorem countP_written {data : α} :
    (write pool i data).toList.countP (·.used) = pool.toList.countP (·.used) :=
  Nat.add_right_cancel (countP_setSlot (·.used) pool i { pool.get i with data })

theorem unused_of_countP (h : pool.toList.countP (·.used) = 0) (i : Fin n) :
    (pool.get i).used = false := by
  have hmem : pool.get i ∈ pool.toList := Vector.mem_toList_iff.2 (Vector.getElem_mem i.2)
  exact Bool.eq_false_iff.2 (List.countP_eq_zero.1 h _ hmem)

end Counts

theorem zero_not_busy : ¬ (ContextState.zero = .active ∨ ContextState.zero = .shuttingDown) := by decide

theorem initialized_not_busy :
    ¬ (ContextState.initialized = .active ∨ ContextState.initialized = .shuttingDown) := by decide

theorem active_not_idle : ¬ (ContextState.active = .zero ∨ ContextState.active = .initialized ∨
    ContextState.active = .finalizable) := by decide

theorem wellformed_initial : Wellformed
    ({} : AdapterContext N G B S) :=
  ⟨(countP_replicate_free rfl N).symm, (countP_replicate_free rfl G).symm,
    Nat.zero_le _, Nat.zero_le _, fun _ => ⟨rfl, rfl⟩, fun h => absurd h zero_not_busy,
    fun h => absurd rfl h⟩

theorem updateStateAfterRelease_wellformed (hstate : c.state = .active ∨ c.state = .shuttingDown)
    (hnodes : c.nodeCount = c.nodes.toList.countP (·.used))
    (hguards : c.guardConditionCount = c.guardConditions.toList.countP (·.used))
    (hnodeLimit : c.nodeCount ≤ c.limits.maxNodes)
    (hguardLimit : c.guardConditionCount ≤ c.limits.maxGuardConditions)
    (hcapacity : c.limits.maxNodes ≤ N ∧
      c.limits.maxGuardConditions ≤ G) : c.updateStateAfterRelease.Wellformed := by
  unfold updateStateAfterRelease
  split
  next hnone =>
    refine ⟨hnodes, hguards, hnodeLimit, hguardLimit, fun _ => hnone, fun hbusy => ?_, fun _ => hcapacity⟩
    dsimp only at hbusy
    split at hbusy
    · exact absurd hbusy (by decide)
    · exact absurd hbusy (by decide)
  next hsome =>
    refine ⟨hnodes, hguards, hnodeLimit, hguardLimit, fun hidle => ?_, fun _ => ?_, fun _ => hcapacity⟩
    · rcases hstate with hstate | hstate
      · rw [hstate] at hidle
        exact absurd hidle (by decide)
      · rw [hstate] at hidle
        exact absurd hidle (by decide)
    · omega

theorem ne_zero_of {a b : ContextState} (h : c.state = a ∨ c.state = b) (ha : a ≠ .zero) (hb : b ≠ .zero) :
    c.state ≠ .zero := by
  rcases h with h | h
  · rwa [h]
  · rwa [h]

/-- **Every call keeps the invariant.** -/
theorem Effect.wellformed (h : c.Wellformed) (heffect : Effect c a r c') : c'.Wellformed := by
  cases heffect with
  | failed => exact h
  | guardObserved => exact h
  | @initialized config hstate hlimits =>
    obtain ⟨hnodes, hguards⟩ := h.idle (.inl hstate)
    refine ⟨h.nodeCount, h.guardCount, hnodes.trans_le (Nat.zero_le _), hguards.trans_le (Nat.zero_le _),
      fun _ => ⟨hnodes, hguards⟩, fun hbusy => absurd hbusy initialized_not_busy, fun _ => ?_⟩
    unfold AdapterLimits.validate at hlimits
    split at hlimits
    · cases hlimits
    split at hlimits
    · cases hlimits
    next hfits => exact (not_or.1 hfits).imp not_lt.1 not_lt.1
  | shutDown hstate =>
    have hcapacity := h.capacity (ne_zero_of hstate (by decide) (by decide))
    refine ⟨h.nodeCount, h.guardCount, h.nodeLimit, h.guardLimit, fun hidle => ?_, fun hbusy => ?_,
      fun _ => hcapacity⟩
    · dsimp only at hidle ⊢
      by_contra hsome
      rw [if_neg hsome] at hidle
      exact absurd hidle (by decide)
    · dsimp only at hbusy ⊢
      by_contra hnone
      rw [if_pos (by omega)] at hbusy
      exact absurd hbusy (by decide)
  | finalized hstate =>
    obtain ⟨hnodes, hguards⟩ := h.idle (.inr (.inr hstate))
    exact ⟨h.nodeCount, h.guardCount, hnodes.trans_le (Nat.zero_le _), hguards.trans_le (Nat.zero_le _),
      fun _ => ⟨hnodes, hguards⟩, fun hbusy => absurd hbusy zero_not_busy,
      fun hzero => absurd rfl hzero⟩
  | nodeCreated names i hstate hlimit hfree =>
    have hcapacity := h.capacity (ne_zero_of hstate (by decide) (by decide))
    refine ⟨?_, h.guardCount, hlimit, h.guardLimit, fun hidle => absurd hidle active_not_idle, fun _ => ?_,
      fun _ => hcapacity⟩
    · exact (congrArg (· + 1) h.nodeCount).trans (countP_taken hfree rfl).symm
    · dsimp only
      omega
  | nodeDestroyed i hstate hused =>
    have hcapacity := h.capacity (ne_zero_of hstate (by decide) (by decide))
    have hcount := @countP_released _ _ _ i {} hused
    have hnodes := h.nodeCount
    refine updateStateAfterRelease_wellformed hstate ?_ h.guardCount
      ((Nat.sub_le _ _).trans h.nodeLimit) h.guardLimit hcapacity
    dsimp only
    omega
  | guardCreated i hstate hlimit hfree =>
    have hcapacity := h.capacity (ne_zero_of hstate (by decide) (by decide))
    refine ⟨h.nodeCount, ?_, h.nodeLimit, hlimit, fun hidle => absurd hidle active_not_idle, fun _ => ?_,
      fun _ => hcapacity⟩
    · exact (congrArg (· + 1) h.guardCount).trans (countP_taken hfree rfl).symm
    · dsimp only
      omega
  | guardDestroyed i hstate hused =>
    have hcapacity := h.capacity (ne_zero_of hstate (by decide) (by decide))
    have hcount := @countP_released _ _ _ i 0 hused
    have hguards := h.guardCount
    refine updateStateAfterRelease_wellformed hstate h.nodeCount ?_ h.nodeLimit
      ((Nat.sub_le _ _).trans h.guardLimit) hcapacity
    dsimp only
    omega
  | guardTriggered i hstate hused =>
    exact ⟨h.nodeCount, h.guardCount.trans countP_written.symm, h.nodeLimit, h.guardLimit, h.idle, h.busy,
      h.capacity⟩

/-- **A slot is free while there are fewer handles than the limit**: the scan of the slots finds one. -/
theorem allocate_of_room {α : Type} {n limit : ℕ} {pool : Vector (PoolSlot α) n} {data : α}
    (hlimit : limit ≤ n) (hroom : pool.toList.countP (·.used) < limit) : allocate pool data ≠ none := by
  intro hnone
  have hfull : pool.toList.countP (·.used) = n := findFinIdx?_free_none.1 (Option.map_eq_none_iff.1 hnone)
  omega

end Wellformed

section Tracks

theorem nodeLog_snoc (x : AdapterCall × AdapterReply) :
    nodeLog (trace ++ [x]) = nodeLog trace ++ (nodeEvent x).toList := filterMap_snoc nodeEvent trace x

theorem guardLog_snoc (x : AdapterCall × AdapterReply) :
    guardLog (trace ++ [x]) = guardLog trace ++ (guardEvent x).toList := filterMap_snoc guardEvent trace x

theorem nodeLog_none {x : AdapterCall × AdapterReply} (hx : nodeEvent x = none) :
    nodeLog (trace ++ [x]) = nodeLog trace := by
  rw [nodeLog_snoc, hx, Option.toList_none, List.append_nil]

theorem guardLog_none {x : AdapterCall × AdapterReply} (hx : guardEvent x = none) :
    guardLog (trace ++ [x]) = guardLog trace := by
  rw [guardLog_snoc, hx, Option.toList_none, List.append_nil]

@[simp] theorem updateStateAfterRelease_nodes : c.updateStateAfterRelease.nodes = c.nodes := by
  unfold updateStateAfterRelease
  split <;> rfl

@[simp] theorem updateStateAfterRelease_guardConditions :
    c.updateStateAfterRelease.guardConditions = c.guardConditions := by
  unfold updateStateAfterRelease
  split <;> rfl

@[simp] theorem updateStateAfterRelease_contextGeneration :
    c.updateStateAfterRelease.contextGeneration = c.contextGeneration := by
  unfold updateStateAfterRelease
  split <;> rfl

/-- **The handles that are accepted are those that have been returned and not destroyed since.** -/
structure Tracks
    (c : AdapterContext N G B S) (trace : List (AdapterCall × AdapterReply)) : Prop where
  nodes : Tracked c.nodes c.contextGeneration (nodeLog trace)
  guards : Tracked c.guardConditions c.contextGeneration (guardLog trace)

theorem Tracks.frame (h : c.Tracks trace) (x : AdapterCall × AdapterReply) (hnodes : c'.nodes = c.nodes)
    (hguards : c'.guardConditions = c.guardConditions) (hepoch : c'.contextGeneration = c.contextGeneration)
    (hnode : nodeEvent x = none) (hguard : guardEvent x = none) : c'.Tracks (trace ++ [x]) := by
  constructor
  · rw [nodeLog_none hnode, hnodes, hepoch]
    exact h.nodes
  · rw [guardLog_none hguard, hguards, hepoch]
    exact h.guards

theorem Effect.tracks (hwell : c.Wellformed) (h : c.Tracks trace) (heffect : Effect c a r c') :
    c'.Tracks (trace ++ [(a, r)]) := by
  cases heffect with
  | failed e => exact h.frame (_, .failed e) rfl rfl rfl rfl rfl
  | guardObserved current ready => exact h.frame (_, .observed current ready) rfl rfl rfl rfl rfl
  | initialized hstate hlimits =>
    obtain ⟨hnodes, hguards⟩ := hwell.idle (.inl hstate)
    constructor
    · rw [nodeLog_none rfl]
      exact h.nodes.restarted (unused_of_countP (hwell.nodeCount.symm.trans hnodes)) _
    · rw [guardLog_none rfl]
      exact h.guards.restarted (unused_of_countP (hwell.guardCount.symm.trans hguards)) _
  | shutDown hstate => exact h.frame (.shutdown, .done) rfl rfl rfl rfl rfl
  | finalized hstate => exact h.frame (.finalize, .done) rfl rfl rfl rfl rfl
  | nodeCreated names i hstate hlimit hfree =>
    constructor
    · rw [nodeLog_snoc]
      exact h.nodes.taken hfree rfl
    · rw [guardLog_none rfl]
      exact h.guards
  | nodeDestroyed i hstate hused =>
    constructor
    · rw [nodeLog_snoc, updateStateAfterRelease_nodes, updateStateAfterRelease_contextGeneration]
      exact h.nodes.released
    · rw [guardLog_none rfl, updateStateAfterRelease_guardConditions,
        updateStateAfterRelease_contextGeneration]
      exact h.guards
  | guardCreated i hstate hlimit hfree =>
    constructor
    · rw [nodeLog_none rfl]
      exact h.nodes
    · rw [guardLog_snoc]
      exact h.guards.taken hfree rfl
  | guardDestroyed i hstate hused =>
    constructor
    · rw [nodeLog_none rfl, updateStateAfterRelease_nodes, updateStateAfterRelease_contextGeneration]
      exact h.nodes
    · rw [guardLog_snoc, updateStateAfterRelease_guardConditions,
        updateStateAfterRelease_contextGeneration]
      exact h.guards.released
  | guardTriggered i hstate hused =>
    constructor
    · rw [nodeLog_none rfl]
      exact h.nodes
    · rw [guardLog_snoc]
      exact h.guards.written _

/-- **The invariants hold after every run.** -/
theorem after_sound (calls : List AdapterCall) :
    let r : AdapterContext N G B S × _ :=
      after calls
    r.1.Wellformed ∧ r.1.Tracks r.2 := by
  refine collect_history (P := fun trace
      (c : AdapterContext N G B S) =>
    c.Wellformed ∧ c.Tracks trace) (fun trace c a h => ?_) ⟨wellformed_initial, ?_⟩ calls
  · have heffect := call_effect c a
    exact ⟨heffect.wellformed h.1, heffect.tracks h.1 h.2⟩
  · exact ⟨.initial (unused_of_countP (countP_replicate_free rfl N)),
      .initial (unused_of_countP (countP_replicate_free rfl G))⟩

end Tracks

section Destruction

/-- The call destroys a handle that is accepted. -/
def Destroys
    (c : AdapterContext N G B S) :
    AdapterCall → Prop
  | .destroyNode h => slotOf c.nodes c.contextGeneration h ≠ none
  | .destroyGuardCondition h => slotOf c.guardConditions c.contextGeneration h ≠ none
  | _ => False

/-- A call on a handle succeeds in two states, if the handle is accepted. -/
theorem handled_done_iff {n : ℕ} {s₁ s₂ : ContextState} {slot : Option (Fin n)}
    {f : Fin n → AdapterContext N G B S} :
    (if c.state ≠ s₁ ∧ c.state ≠ s₂ then (some AdapterError.invalidState, c)
      else match slot with
        | some i => (none, f i)
        | none => (some .staleHandle, c)).1 = none ↔
      (c.state = s₁ ∨ c.state = s₂) ∧ slot ≠ none := by
  split
  next hstate => exact iff_of_false (by rintro ⟨⟩) fun h => h.1.elim hstate.1 hstate.2
  next hstate =>
    cases slot with
    | some i => exact iff_of_true rfl ⟨state_of_not hstate, Option.some_ne_none i⟩
    | none => exact iff_of_false (by rintro ⟨⟩) fun h => h.2 rfl

theorem destroyNode_done_iff {h : NodeHandle} : (c.destroyNode h).1 = none ↔
    (c.state = .active ∨ c.state = .shuttingDown) ∧ slotOf c.nodes c.contextGeneration h ≠ none :=
  handled_done_iff

theorem destroyGuardCondition_done_iff {h : GuardConditionHandle} : (c.destroyGuardCondition h).1 = none ↔
    (c.state = .active ∨ c.state = .shuttingDown) ∧
      slotOf c.guardConditions c.contextGeneration h ≠ none :=
  handled_done_iff

/-- The state is never idle while a slot is taken. -/
theorem Wellformed.busy_of_count (h : c.Wellformed) (hcount : 0 < c.nodeCount + c.guardConditionCount) :
    c.state = .active ∨ c.state = .shuttingDown := by
  have hidle : ¬ (c.state = .zero ∨ c.state = .initialized ∨ c.state = .finalizable) := by
    intro hidle
    obtain ⟨hnodes, hguards⟩ := h.idle hidle
    omega
  cases hstate : c.state with
  | zero => exact absurd (.inl hstate) hidle
  | initialized => exact absurd (.inr (.inl hstate)) hidle
  | active => exact .inl rfl
  | shuttingDown => exact .inr rfl
  | finalizable => exact absurd (.inr (.inr hstate)) hidle

theorem countP_pos_of_accepted {α : Type} {n : ℕ} {pool : Vector (PoolSlot α) n} {epoch : UInt32}
    {h : SlotHandle} (haccepted : slotOf pool epoch h ≠ none) : 0 < pool.toList.countP (·.used) := by
  obtain ⟨i, hused, -⟩ := accepted_iff.1 haccepted
  exact List.countP_pos_iff.2 ⟨_, Vector.mem_toList_iff.2 (Vector.getElem_mem i.2), hused⟩

/-- **An accepted handle can be destroyed**, whatever has happened before. -/
theorem Wellformed.destroys (h : c.Wellformed) (ha : c.Destroys a) :
    (c.state = .active ∨ c.state = .shuttingDown) ∧ (c.call a).1 = .done := by
  cases a with
  | destroyNode handle =>
    have hcount := h.nodeCount.symm ▸ countP_pos_of_accepted ha
    have hstate := h.busy_of_count (by omega)
    exact ⟨hstate, congrArg AdapterReply.ofError (destroyNode_done_iff.2 ⟨hstate, ha⟩)⟩
  | destroyGuardCondition handle =>
    have hcount := h.guardCount.symm ▸ countP_pos_of_accepted ha
    have hstate := h.busy_of_count (by omega)
    exact ⟨hstate, congrArg AdapterReply.ofError (destroyGuardCondition_done_iff.2 ⟨hstate, ha⟩)⟩
  | _ => exact absurd ha id

theorem updateStateAfterRelease_shuttingDown (hstate : c.state = .shuttingDown) :
    c.updateStateAfterRelease.state = .shuttingDown ∨ c.updateStateAfterRelease.state = .finalizable := by
  unfold updateStateAfterRelease
  rw [hstate, if_pos rfl]
  split
  · exact .inr rfl
  · exact .inl hstate

/-- **What one destruction leaves**: the other handles, and a context that is still shutting down. -/
theorem destroy_step (hstate : c.state = .shuttingDown) (ha : c.Destroys a) (heffect : Effect c a .done c') :
    (c'.state = .shuttingDown ∨ c'.state = .finalizable) ∧ ∀ b, c'.Destroys b ↔ b ≠ a ∧ c.Destroys b := by
  cases heffect with
  | nodeDestroyed i _ hused =>
    refine ⟨updateStateAfterRelease_shuttingDown hstate, fun b => ?_⟩
    cases b with
    | destroyNode g =>
      simp only [Destroys, updateStateAfterRelease_nodes, updateStateAfterRelease_contextGeneration, ne_eq,
        AdapterCall.destroyNode.injEq]
      exact accepted_released
    | destroyGuardCondition g => simp [Destroys]
    | _ => exact ⟨False.elim, And.right⟩
  | guardDestroyed i _ hused =>
    refine ⟨updateStateAfterRelease_shuttingDown hstate, fun b => ?_⟩
    cases b with
    | destroyNode g => simp [Destroys]
    | destroyGuardCondition g =>
      simp only [Destroys, updateStateAfterRelease_guardConditions, updateStateAfterRelease_contextGeneration,
        ne_eq, AdapterCall.destroyGuardCondition.injEq]
      exact accepted_released
    | _ => exact ⟨False.elim, And.right⟩
  | _ => exact absurd ha id

theorem countP_of_none {α : Type} {n : ℕ} {pool : Vector (PoolSlot α) n} {epoch : UInt32}
    (hnone : ∀ h, ¬ slotOf pool epoch h ≠ none) : pool.toList.countP (·.used) = 0 := by
  by_contra hcount
  obtain ⟨slot, hmem, hused⟩ := List.countP_pos_iff.1 (Nat.pos_of_ne_zero hcount)
  obtain ⟨i, hi, rfl⟩ := Vector.getElem_of_mem (Vector.mem_toList_iff.1 hmem)
  exact hnone (handleAt pool epoch ⟨i, hi⟩) (accepted_iff.2 ⟨⟨i, hi⟩, hused, rfl⟩)

/-- With no handle left the context is not shutting down any more. -/
theorem Wellformed.finalizable_of_none (h : c.Wellformed)
    (hstate : c.state = .shuttingDown ∨ c.state = .finalizable) (hnone : ∀ a, ¬ c.Destroys a) :
    c.state = .finalizable := by
  refine hstate.resolve_left fun hdown => ?_
  have hnodes := countP_of_none fun handle => hnone (.destroyNode handle)
  have hguards := countP_of_none fun handle => hnone (.destroyGuardCondition handle)
  have hbusy := h.busy (.inr hdown)
  have hnodeCount := h.nodeCount
  have hguardCount := h.guardCount
  omega

/-- **Destroying all handles, in any order.** -/
theorem teardown_finalizable {teardown : List AdapterCall} (hnodup : teardown.Nodup) :
    ∀ {c : AdapterContext N G B S},
      c.Wellformed → c.state = .shuttingDown ∨ c.state = .finalizable →
      (∀ a, a ∈ teardown ↔ c.Destroys a) →
      (c.runFrom teardown).1.state = .finalizable ∧ ∀ x ∈ (c.runFrom teardown).2, x.2 = .done := by
  induction hnodup with
  | nil =>
    intro c hwell hstate hall
    exact ⟨hwell.finalizable_of_none hstate fun a ha => List.not_mem_nil ((hall a).2 ha),
      fun x hx => absurd hx List.not_mem_nil⟩
  | @cons a rest hfresh hnodup ih =>
    intro c hwell hstate hall
    have ha : c.Destroys a := (hall a).1 List.mem_cons_self
    obtain ⟨hbusy, hdone⟩ := hwell.destroys ha
    have hdown : c.state = .shuttingDown := by
      rcases hstate with hstate | hstate
      · exact hstate
      · rw [hstate] at hbusy
        exact absurd hbusy (by decide)
    have heffect : Effect c a .done _ := hdone ▸ call_effect c a
    obtain ⟨hnext, hleft⟩ := destroy_step hdown ha heffect
    have hrest : ∀ b, b ∈ rest ↔ (c.call a).2.Destroys b := by
      intro b
      rw [hleft b, ← hall b, List.mem_cons]
      constructor
      · exact fun hb => ⟨fun heq => hfresh b hb heq.symm, .inr hb⟩
      · exact fun hb => hb.2.resolve_left hb.1
    obtain ⟨hend, hreplies⟩ := ih (heffect.wellformed hwell) hnext hrest
    refine ⟨hend, fun x hx => ?_⟩
    rcases List.mem_cons.1 hx with rfl | hx
    · exact hdone
    · exact hreplies x hx

end Destruction

section Lifecycle

theorem createNode_exhausted (h : c.Wellformed) {name nameSpace : Option (List UInt8)}
    (hexhausted : (c.createNode name nameSpace).1 = .error .resourceExhausted) :
    c.limits.maxNodes ≤ c.nodeCount := by
  unfold createNode at hexhausted
  split at hexhausted
  · cases hexhausted
  next hstate =>
    split at hexhausted
    · split at hexhausted
      · cases hexhausted
      split at hexhausted
      · cases hexhausted
      split at hexhausted
      next hlimit => exact hlimit
      next hroom =>
        split at hexhausted
        next hscan =>
          have hcapacity := h.capacity (ne_zero_of (state_of_not hstate) (by decide) (by decide))
          have hcount := h.nodeCount
          exact absurd hscan (allocate_of_room hcapacity.1 (by omega))
        · cases hexhausted
    · cases hexhausted

theorem createGuardCondition_exhausted (h : c.Wellformed)
    (hexhausted : c.createGuardCondition.1 = .error .resourceExhausted) :
    c.limits.maxGuardConditions ≤ c.guardConditionCount := by
  unfold createGuardCondition at hexhausted
  split at hexhausted
  · cases hexhausted
  next hstate =>
    split at hexhausted
    next hlimit => exact hlimit
    next hroom =>
      split at hexhausted
      next hscan =>
        have hcapacity := h.capacity (ne_zero_of (state_of_not hstate) (by decide) (by decide))
        have hcount := h.guardCount
        exact absurd hscan (allocate_of_room hcapacity.2 (by omega))
      · cases hexhausted

theorem shutdown_state (hdone : c.shutdown.1 = none) :
    c.shutdown.2.state = .shuttingDown ∨ c.shutdown.2.state = .finalizable := by
  unfold shutdown at hdone ⊢
  split at hdone
  · cases hdone
  next hstate =>
    rw [if_neg hstate]
    dsimp only
    split
    · exact .inr rfl
    · exact .inl rfl

/-- The call destroys a handle that the log says is live. -/
def DestroysLive (trace : List (AdapterCall × AdapterReply)) : AdapterCall → Prop
  | .destroyNode h => LiveIn (nodeLog trace) h
  | .destroyGuardCondition h => LiveIn (guardLog trace) h
  | _ => False

theorem Tracks.destroys_iff (h : c.Tracks trace) (a : AdapterCall) : c.Destroys a ↔ DestroysLive trace a := by
  cases a with
  | destroyNode handle => exact h.nodes handle
  | destroyGuardCondition handle => exact h.guards handle
  | _ => exact Iff.rfl

/-- **The life cycle of the context.** After every run of calls the counters are the numbers of used
slots, within the limits, and the state is idle just when they are zero; a creation is refused for lack
of resources only at the limit; every live handle can be destroyed; and once the context is shutting
down, destroying the live handles in any order makes it finalizable. -/
theorem adapter_context_lifecycle (calls : List AdapterCall) :
    let r : AdapterContext N G B S × _ :=
      after calls
    r.1.Wellformed ∧
      (∀ name nameSpace, (r.1.createNode name nameSpace).1 = .error .resourceExhausted →
        r.1.limits.maxNodes ≤ r.1.nodeCount) ∧
      (r.1.createGuardCondition.1 = .error .resourceExhausted →
        r.1.limits.maxGuardConditions ≤ r.1.guardConditionCount) ∧
      (∀ h, LiveIn (nodeLog r.2) h → (r.1.destroyNode h).1 = none) ∧
      (∀ h, LiveIn (guardLog r.2) h → (r.1.destroyGuardCondition h).1 = none) ∧
      (r.1.shutdown.1 = none →
        r.1.shutdown.2.state = .shuttingDown ∨ r.1.shutdown.2.state = .finalizable) ∧
      (r.1.state = .shuttingDown ∨ r.1.state = .finalizable →
        ∀ teardown : List AdapterCall, teardown.Nodup → (∀ a, a ∈ teardown ↔ DestroysLive r.2 a) →
          (r.1.runFrom teardown).1.state = .finalizable ∧
            ∀ x ∈ (r.1.runFrom teardown).2, x.2 = .done) := by
  intro r
  obtain ⟨hwell, htracks⟩ : r.1.Wellformed ∧ r.1.Tracks r.2 := after_sound calls
  have hlive : ∀ a, DestroysLive r.2 a → r.1.state = .active ∨ r.1.state = .shuttingDown :=
    fun a ha => (hwell.destroys ((htracks.destroys_iff a).2 ha)).1
  refine ⟨hwell, fun _ _ => createNode_exhausted hwell, createGuardCondition_exhausted hwell,
    fun h hnode => ?_, fun h hguard => ?_, shutdown_state, fun hstate teardown hnodup hall => ?_⟩
  · exact destroyNode_done_iff.2 ⟨hlive (.destroyNode h) hnode, (htracks.nodes h).2 hnode⟩
  · exact destroyGuardCondition_done_iff.2
      ⟨hlive (.destroyGuardCondition h) hguard, (htracks.guards h).2 hguard⟩
  · exact teardown_finalizable hnodup hwell hstate fun a => (hall a).trans (htracks.destroys_iff a).symm

end Lifecycle

end AdapterContext

end OpenRtdds
