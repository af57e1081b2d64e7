import OpenRtdds.Proof.AdapterContext

/-!
# The handles of the adapter context

A slot is used again after its handle has been destroyed, and a context is initialised again after it has
been finalised. Its slots keep their generations through both, so that a handle is never returned twice
before a generation wraps; what has been destroyed stays refused.

* `Genuine`: the generations count the creations, and the trigger generation of a guard condition counts
  the triggers through its present handle. `Effect.genuine`.
* `Finished`: no handle is live when the context is finalised. `Effect.finished`.
* `handles_sound`: both hold after every run in which no generation wraps.
* `stale_handles_refused`.
-/

namespace OpenRtdds

open Lib Lib.Pool

namespace AdapterContext

variable {N G B S : ℕ} {c c' : AdapterContext N G B S}
  {trace : List (AdapterCall × AdapterReply)} {a : AdapterCall} {r : AdapterReply}

section Genuine

/-- No generation of a slot has wrapped. -/
structure Unwrapped (trace : List (AdapterCall × AdapterReply)) : Prop where
  nodes : ∀ slot, allocations (nodeLog trace) slot < 2 ^ 32 - 1
  guards : ∀ slot, allocations (guardLog trace) slot < 2 ^ 32 - 1

theorem allocations_append (log rest : List PoolEvent) (slot : ℕ) :
    allocations log slot ≤ allocations (log ++ rest) slot := by
  unfold allocations
  rw [List.countP_append]
  exact Nat.le_add_right _ _

theorem Unwrapped.before {x : AdapterCall × AdapterReply} (h : Unwrapped (trace ++ [x])) :
    Unwrapped trace := by
  refine ⟨fun slot => lt_of_le_of_lt ?_ (h.nodes slot), fun slot => lt_of_le_of_lt ?_ (h.guards slot)⟩
  · rw [nodeLog_snoc]
    exact allocations_append _ _ slot
  · rw [guardLog_snoc]
    exact allocations_append _ _ slot

/-- **What the generations of the slots count.** -/
structure Genuine
    (c : AdapterContext N G B S) (trace : List (AdapterCall × AdapterReply)) : Prop where
  nodes : Counted c.nodes (nodeLog trace)
  guards : Counted c.guardConditions (guardLog trace)
  triggers : Accumulated advanceAtomic 0 c.guardConditions c.contextGeneration (guardLog trace)

theorem Genuine.frame (h : c.Genuine trace) (x : AdapterCall × AdapterReply) (hnodes : c'.nodes = c.nodes)
    (hguards : c'.guardConditions = c.guardConditions) (hepoch : c'.contextGeneration = c.contextGeneration)
    (hnode : nodeEvent x = none) (hguard : guardEvent x = none) : c'.Genuine (trace ++ [x]) := by
  refine ⟨?_, ?_, ?_⟩
  · rw [nodeLog_none hnode, hnodes]
    exact h.nodes
  · rw [guardLog_none hguard, hguards]
    exact h.guards
  · rw [guardLog_none hguard, hguards, hepoch]
    exact h.triggers

theorem release_generation {α : Type} {n : ℕ} (pool : Vector (PoolSlot α) n) (i j : Fin n) (data : α) :
    ((release pool i data).get j).generation = (pool.get j).generation := by
  unfold release
  by_cases hji : i = j
  · rw [hji, setSlot_get_self]
  · rw [setSlot_get_of_ne pool hji]

theorem created_of_used {α : Type} {n : ℕ} {pool : Vector (PoolSlot α) n} {epoch : UInt32}
    {log : List PoolEvent} (h : Tracked pool epoch log) {i : Fin n} (hused : (pool.get i).used = true) :
    .created (handleAt pool epoch i) ∈ log :=
  ((h _).1 (accepted_iff.2 ⟨i, hused, rfl⟩)).created

/-- **Every call keeps the counts**, while no generation wraps. -/
theorem Effect.genuine (hwell : c.Wellformed) (htracks : c.Tracks trace) (hgenuine : c.Genuine trace)
    (hunwrapped : Unwrapped trace) (heffect : Effect c a r c') : c'.Genuine (trace ++ [(a, r)]) := by
  cases heffect with
  | failed e => exact hgenuine.frame (_, .failed e) rfl rfl rfl rfl rfl
  | guardObserved current ready => exact hgenuine.frame (_, .observed current ready) rfl rfl rfl rfl rfl
  | initialized hstate hlimits =>
    have hguards := (hwell.idle (.inl hstate)).2
    refine ⟨?_, ?_, .of_unused (unused_of_countP (hwell.guardCount.symm.trans hguards))⟩
    · rw [nodeLog_none rfl]
      exact hgenuine.nodes
    · rw [guardLog_none rfl]
      exact hgenuine.guards
  | shutDown hstate => exact hgenuine.frame (.shutdown, .done) rfl rfl rfl rfl rfl
  | finalized hstate => exact hgenuine.frame (.finalize, .done) rfl rfl rfl rfl rfl
  | nodeCreated names i hstate hlimit hfree =>
    refine ⟨?_, ?_, ?_⟩
    · rw [nodeLog_snoc]
      exact (hgenuine.nodes.taken (hunwrapped.nodes i) names).2
    · rw [guardLog_none rfl]
      exact hgenuine.guards
    · rw [guardLog_none rfl]
      exact hgenuine.triggers
  | nodeDestroyed i hstate hused =>
    refine ⟨?_, ?_, ?_⟩
    · rw [nodeLog_snoc, updateStateAfterRelease_nodes]
      exact hgenuine.nodes.other (.destroyed _) (fun _ => rfl) (created_of_used htracks.nodes hused)
        (release_generation c.nodes i · {})
    · rw [guardLog_none rfl, updateStateAfterRelease_guardConditions]
      exact hgenuine.guards
    · rw [guardLog_none rfl, updateStateAfterRelease_guardConditions,
        updateStateAfterRelease_contextGeneration]
      exact hgenuine.triggers
  | guardCreated i hstate hlimit hfree =>
    obtain ⟨hfresh, hcounted⟩ := @Counted.taken _ _ _ c.contextGeneration _ i hgenuine.guards
      (hunwrapped.guards i) 0
    refine ⟨?_, ?_, ?_⟩
    · rw [nodeLog_none rfl]
      exact hgenuine.nodes
    · rw [guardLog_snoc]
      exact hcounted
    · rw [guardLog_snoc]
      -- nothing has happened yet to a handle that has not been created
      refine hgenuine.triggers.taken (fun e he heq => hfresh ?_) (by rintro g ⟨⟩)
      have hcreated := hgenuine.guards.first e he
      rw [heq] at hcreated
      unfold handleAt
      rw [setSlot_get_self]
      exact hcreated
  | guardDestroyed i hstate hused =>
    refine ⟨?_, ?_, ?_⟩
    · rw [nodeLog_none rfl, updateStateAfterRelease_nodes]
      exact hgenuine.nodes
    · rw [guardLog_snoc, updateStateAfterRelease_guardConditions]
      exact hgenuine.guards.other (.destroyed _) (fun _ => rfl) (created_of_used htracks.guards hused)
        (release_generation c.guardConditions i · 0)
    · rw [guardLog_snoc, updateStateAfterRelease_guardConditions,
        updateStateAfterRelease_contextGeneration]
      exact hgenuine.triggers.released (by rintro g ⟨⟩)
  | guardTriggered i hstate hused =>
    refine ⟨?_, ?_, ?_⟩
    · rw [nodeLog_none rfl]
      exact hgenuine.nodes
    · rw [guardLog_snoc]
      exact hgenuine.guards.other (.written _) (fun _ => rfl) (created_of_used htracks.guards hused)
        fun j => (write_get c.guardConditions i j _).2
    · rw [guardLog_snoc]
      exact hgenuine.triggers.written hused

end Genuine

section Finished

/-- **No handle is live when the context is finalised.** -/
def Finished (trace : List (AdapterCall × AdapterReply)) : Prop :=
  ∀ before rest, trace = before ++ (.finalize, .done) :: rest →
    ∀ h, ¬ LiveIn (nodeLog before) h ∧ ¬ LiveIn (guardLog before) h

theorem Effect.finished (hwell : c.Wellformed) (htracks : c.Tracks trace) (h : Finished trace)
    (heffect : Effect c a r c') : Finished (trace ++ [(a, r)]) := by
  intro before rest heq g
  rcases snoc_eq_append_cons heq with ⟨hlast, rfl⟩ | ⟨rest, rfl, htrace⟩
  · obtain ⟨rfl, -⟩ := List.append_inj' heq rfl
    obtain ⟨rfl, rfl⟩ := Prod.mk.inj hlast
    cases heffect with
    | finalized hstate =>
      obtain ⟨hnodes, hguards⟩ := hwell.idle (.inr (.inr hstate))
      exact ⟨htracks.nodes.of_unused (unused_of_countP (hwell.nodeCount.symm.trans hnodes)) g,
        htracks.guards.of_unused (unused_of_countP (hwell.guardCount.symm.trans hguards)) g⟩
  · exact h before rest htrace g

end Finished

/-- **The counts hold after every run in which no generation wraps.** -/
theorem handles_sound (calls : List AdapterCall) :
    let r : AdapterContext N G B S × _ :=
      after calls
    Finished r.2 ∧ (Unwrapped r.2 → r.1.Genuine r.2) := by
  refine (collect_history (P := fun trace
      (c : AdapterContext N G B S) =>
    (c.Wellformed ∧ c.Tracks trace) ∧ Finished trace ∧ (Unwrapped trace → c.Genuine trace))
    (fun trace c a h => ?_) ⟨after_sound [], ?_, fun _ => ?_⟩ calls).2
  · obtain ⟨⟨hwell, htracks⟩, hfinished, hgenuine⟩ := h
    have heffect := call_effect c a
    exact ⟨⟨heffect.wellformed hwell, heffect.tracks hwell htracks⟩,
      heffect.finished hwell htracks hfinished,
      fun hunwrapped => heffect.genuine hwell htracks (hgenuine hunwrapped.before) hunwrapped.before⟩
  · intro before rest heq
    exact absurd heq.symm (List.append_ne_nil_of_right_ne_nil before (List.cons_ne_nil _ rest))
  · exact ⟨.initial fun i => congrArg PoolSlot.generation (Vector.getElem_replicate i.2),
      .initial fun i => congrArg PoolSlot.generation (Vector.getElem_replicate i.2),
      .of_unused (unused_of_countP (countP_replicate_free rfl G))⟩

section Refusal

theorem triggerGuardCondition_done_iff {h : GuardConditionHandle} :
    (c.triggerGuardCondition h).1 = none ↔
      (c.state = .initialized ∨ c.state = .active) ∧
        slotOf c.guardConditions c.contextGeneration h ≠ none :=
  handled_done_iff

theorem observeGuardCondition_ok_iff {h : GuardConditionHandle} {lastObserved : UInt64}
    {result : UInt64 × Bool} :
    c.observeGuardCondition h lastObserved = .ok result ↔
      (c.state = .initialized ∨ c.state = .active) ∧
        ∃ i, slotOf c.guardConditions c.contextGeneration h = some i ∧
          result = ((c.guardConditions.get i).data, (c.guardConditions.get i).data != lastObserved) := by
  unfold observeGuardCondition
  split
  next hstate => exact iff_of_false (by rintro ⟨⟩) fun h => h.1.elim hstate.1 hstate.2
  next hstate =>
    split
    next i hslot =>
      constructor
      · intro heq
        exact ⟨state_of_not hstate, i, hslot, (Except.ok.inj heq).symm⟩
      · rintro ⟨-, j, hj, rfl⟩
        rw [hslot] at hj
        obtain rfl := Option.some.inj hj
        rfl
    next hslot =>
      refine iff_of_false (by rintro ⟨⟩) ?_
      rintro ⟨-, i, hi, -⟩
      rw [hslot] at hi
      cases hi

/-- No operation accepts the handle of a node. -/
def NodeRefused
    (c : AdapterContext N G B S) (h : NodeHandle) : Prop :=
  (c.destroyNode h).1 ≠ none

/-- No operation accepts the handle of a guard condition. -/
def GuardRefused
    (c : AdapterContext N G B S) (h : GuardConditionHandle) : Prop :=
  (c.destroyGuardCondition h).1 ≠ none ∧ (c.triggerGuardCondition h).1 ≠ none ∧
    ∀ lastObserved result, c.observeGuardCondition h lastObserved ≠ .ok result

theorem Tracks.nodeRefused (h : c.Tracks trace) {g : NodeHandle} (hdead : ¬ LiveIn (nodeLog trace) g) :
    c.NodeRefused g :=
  fun hdone => hdead ((h.nodes g).1 (destroyNode_done_iff.1 hdone).2)

theorem Tracks.guardRefused (h : c.Tracks trace) {g : GuardConditionHandle}
    (hdead : ¬ LiveIn (guardLog trace) g) : c.GuardRefused g := by
  have hslot : ¬ slotOf c.guardConditions c.contextGeneration g ≠ none := fun hslot =>
    hdead ((h.guards g).1 hslot)
  refine ⟨fun hdone => hslot (destroyGuardCondition_done_iff.1 hdone).2,
    fun hdone => hslot (triggerGuardCondition_done_iff.1 hdone).2, fun lastObserved result hok => ?_⟩
  obtain ⟨-, i, hi, -⟩ := observeGuardCondition_ok_iff.1 hok
  exact hslot (Option.ne_none_iff_exists'.2 ⟨i, hi⟩)

theorem nodeLog_append (before rest : List (AdapterCall × AdapterReply)) :
    nodeLog (before ++ rest) = nodeLog before ++ nodeLog rest :=
  List.filterMap_append

theorem guardLog_append (before rest : List (AdapterCall × AdapterReply)) :
    guardLog (before ++ rest) = guardLog before ++ guardLog rest :=
  List.filterMap_append

/-- **Stale handles are never honoured.** After every run in which no slot is allocated `2 ^ 32 - 1`
times, the operations accept the handles that have been returned and not destroyed since, in the states
that permit them. A handle that has been destroyed, or was returned before the context was finalised, is
refused by all of them, and the trigger generation observed through a handle is the number of triggers
through that handle. -/
theorem stale_handles_refused (calls : List AdapterCall)
    (hunwrapped : Unwrapped
      (@after N G B S calls).2) :
    let r : AdapterContext N G B S × _ :=
      after calls
    (∀ h, (r.1.destroyNode h).1 = none ↔
        LiveIn (nodeLog r.2) h ∧ (r.1.state = .active ∨ r.1.state = .shuttingDown)) ∧
      (∀ h, (r.1.destroyGuardCondition h).1 = none ↔
        LiveIn (guardLog r.2) h ∧ (r.1.state = .active ∨ r.1.state = .shuttingDown)) ∧
      (∀ h, (r.1.triggerGuardCondition h).1 = none ↔
        LiveIn (guardLog r.2) h ∧ (r.1.state = .initialized ∨ r.1.state = .active)) ∧
      (∀ h lastObserved, (∃ result, r.1.observeGuardCondition h lastObserved = .ok result) ↔
        LiveIn (guardLog r.2) h ∧ (r.1.state = .initialized ∨ r.1.state = .active)) ∧
      (∀ h, .destroyed h ∈ nodeLog r.2 → r.1.NodeRefused h) ∧
      (∀ h, .destroyed h ∈ guardLog r.2 → r.1.GuardRefused h) ∧
      (∀ before rest, r.2 = before ++ (.finalize, .done) :: rest →
        (∀ h, .created h ∈ nodeLog before → r.1.NodeRefused h) ∧
          ∀ h, .created h ∈ guardLog before → r.1.GuardRefused h) ∧
      ∀ h lastObserved result, r.1.observeGuardCondition h lastObserved = .ok result →
        result.1 = advanceAtomic^[(guardLog r.2).count (.written h)] 0 := by
  intro r
  obtain ⟨hwell, htracks⟩ : r.1.Wellformed ∧ r.1.Tracks r.2 := after_sound calls
  obtain ⟨hfinished, hgenuine⟩ : Finished r.2 ∧ (Unwrapped r.2 → r.1.Genuine r.2) := handles_sound calls
  have hgenuine := hgenuine hunwrapped
  refine ⟨fun h => ?_, fun h => ?_, fun h => ?_, fun h lastObserved => ?_, fun h hdestroyed => ?_,
    fun h hdestroyed => ?_, fun before rest htrace => ⟨fun h hcreated => ?_, fun h hcreated => ?_⟩,
    fun h lastObserved result hok => ?_⟩
  · rw [destroyNode_done_iff, htracks.nodes h, and_comm]
  · rw [destroyGuardCondition_done_iff, htracks.guards h, and_comm]
  · rw [triggerGuardCondition_done_iff, htracks.guards h, and_comm]
  · rw [← htracks.guards h, Option.ne_none_iff_exists', and_comm]
    constructor
    · rintro ⟨result, hok⟩
      obtain ⟨hstate, i, hi, -⟩ := observeGuardCondition_ok_iff.1 hok
      exact ⟨hstate, i, hi⟩
    · rintro ⟨hstate, i, hi⟩
      exact ⟨_, observeGuardCondition_ok_iff.2 ⟨hstate, i, hi, rfl⟩⟩
  · exact htracks.nodeRefused (hgenuine.nodes.dead h hdestroyed)
  · exact htracks.guardRefused (hgenuine.guards.dead h hdestroyed)
  · -- what was created before the end and is not live there has been destroyed
    have hdestroyed := destroyed_of_not_liveIn hcreated (hfinished before rest htrace h).1
    refine htracks.nodeRefused (hgenuine.nodes.dead h ?_)
    rw [htrace, nodeLog_append]
    exact List.mem_append_left _ hdestroyed
  · have hdestroyed := destroyed_of_not_liveIn hcreated (hfinished before rest htrace h).2
    refine htracks.guardRefused (hgenuine.guards.dead h ?_)
    rw [htrace, guardLog_append]
    exact List.mem_append_left _ hdestroyed
  · obtain ⟨-, i, hi, rfl⟩ := observeGuardCondition_ok_iff.1 hok
    obtain ⟨hused, rfl⟩ := slotOf_eq_some.1 hi
    exact hgenuine.triggers i hused

/-- A guard condition is destroyed, its slot is used again, and the new one is triggered. -/
def reuse : List AdapterCall :=
  [.initializeContext { limits := { maxNodes := 1, maxGuardConditions := 1 } }, .createGuardCondition,
    .destroyGuardCondition { slot := 0, slotGeneration := 1, contextGeneration := 1 },
    .createGuardCondition,
    .triggerGuardCondition { slot := 0, slotGeneration := 2, contextGeneration := 1 }]

theorem reuse_log :
    nodeLog (@after 1 1 8 8 reuse).2 = [] ∧
      guardLog (@after 1 1 8 8 reuse).2 =
        [.created { slot := 0, slotGeneration := 1, contextGeneration := 1 },
          .destroyed { slot := 0, slotGeneration := 1, contextGeneration := 1 },
          .created { slot := 0, slotGeneration := 2, contextGeneration := 1 },
          .written { slot := 0, slotGeneration := 2, contextGeneration := 1 }] := by
  decide +kernel

theorem reuse_unwrapped : Unwrapped (@after 1 1 8 8 reuse).2 := by
  refine ⟨fun slot => ?_, fun slot => ?_⟩
  · rw [reuse_log.1]
    exact lt_of_le_of_lt List.countP_le_length (by decide)
  · rw [reuse_log.2]
    exact lt_of_le_of_lt List.countP_le_length (by decide)

theorem reused_slot_refuses_old_handle :
    (@after 1 1 8 8 reuse).1.GuardRefused { slot := 0, slotGeneration := 1, contextGeneration := 1 } :=
  (stale_handles_refused reuse reuse_unwrapped).2.2.2.2.2.1 _ (by rw [reuse_log.2]; decide)

end Refusal

end AdapterContext

end OpenRtdds
