import OpenRtdds.Lib.Run
import OpenRtdds.Proof.GraphRecords

/-!
# The graph cache keeps its integrity

Every owner has its own part of the tables, and every operation works on one owner's part; so the
invariant is a statement about each owner, and an operation has to keep it for one of them only.

* `applyRemote_yields`: what a snapshot can do.
* `perform_cases`: **what an operation can do.**
* `GraphCache.Inv`, `step_inv`: the invariant.
* `graph_cache_integrity`: over every run of operations.
* `graph_updates_atomic`: an update of a participant is complete and leaves everything else alone.
-/

namespace OpenRtdds

open Lib Guarded Raw

theorem GraphOp.participant?_of_isLocal (op : GraphOp) (h : op.isLocal = true) :
    op.participant? = none := by
  cases op with
  | applyRemote => cases h
  | removeRemoteParticipant => cases h
  | _ => rfl

namespace GraphCache

section Steps

/-- **What an operation can do**, by what it returns. -/
inductive Performed (cache : GraphCache) : GraphOp → GraphResult → GraphCache → Prop
  /-- It fails, or a snapshot is not newer. -/
  | unchanged {op : GraphOp} {result : GraphResult} (none : result ≠ .error none)
      (changed : result ≠ .update .changed) : Performed cache op result cache
  | here {op : GraphOp} {cache' : GraphCache} (isLocal : op.isLocal = true)
      (change : LocalChange cache cache') : Performed cache op (.error none) cache'
  | applied {peer : GuidPrefix} {payload : Span} {number : ℕ}
      {cache' : GraphCache} {snapshot : Snapshot}
      (read : readSnapshot peer payload number = .ok snapshot)
      (accepted : snapshot.Accepted peer number)
      (change : Applied cache cache' peer snapshot) :
      Performed cache (.applyRemote peer payload number) (.update .changed)
        cache'
  | removed {peer : GuidPrefix} {update : GraphUpdate} {cache' : GraphCache}
      (change : Removed cache cache' peer update) :
      Performed cache (.removeRemoteParticipant peer) (.update update) cache'

/-- A local operation changes the cache or reports an error. -/
theorem localResult_performed {cache : GraphCache} {op : GraphOp} {r : Except GraphError GraphCache}
    (hlocal : op.isLocal = true) (h : ∀ cache', r = .ok cache' → LocalChange cache cache') :
    Performed cache op (cache.localResult r).1 (cache.localResult r).2 := by
  cases r with
  | ok cache' => exact .here hlocal (h cache' rfl)
  | error e => exact .unchanged (fun h => by cases h) fun h => by cases h

/-- A snapshot is applied, or the exit is no change. -/
theorem applyRemote_yields (cache : GraphCache) (peer : GuidPrefix) (payload : Span)
    (number : ℕ) :
    Yields NoChange
      (Performed cache (.applyRemote peer payload number) (.update .changed))
      (cache.applyRemote peer payload number) := by
  have hread := readSnapshot_yields peer payload number
  unfold applyRemote
  generalize hresult : readSnapshot peer payload number = result at hread ⊢
  cases hread with
  | fault => exact .fault
  | error hexit => exact .error hexit
  | @ok snapshot haccepted =>
    have hcommit := cache.commitSnapshot_cases haccepted
    rw [ok_bind]
    generalize cache.commitSnapshot peer snapshot = outcome at hcommit ⊢
    cases hcommit with
    | applied hchange => exact .ok (.applied hresult haccepted hchange)
    | stale => exact .error GraphUpdate.noConfusion
    | full => exact .error (noChange_rejected _)

theorem perform_cases (cache : GraphCache) (op : GraphOp) :
    Performed cache op (cache.perform op).1 (cache.step op) := by
  cases op with
  | addLocalNode => exact localResult_performed rfl fun _ => addLocalNode_ok
  | removeLocalNode => exact localResult_performed rfl fun _ => removeLocalNode_ok
  | addLocalEndpoint => exact localResult_performed rfl fun _ => addLocalEndpoint_ok
  | removeLocalEndpoint => exact localResult_performed rfl fun _ => removeLocalEndpoint_ok
  | removeRemoteParticipant p => exact .removed (cache.removeRemoteParticipant_spec p)
  | applyRemote p payload number =>
    have hyields := cache.applyRemote_yields p payload number
    change Performed cache _ (cache.remoteResult (cache.applyRemote p payload number)).1
      (cache.remoteResult (cache.applyRemote p payload number)).2
    generalize cache.applyRemote p payload number = outcome at hyields ⊢
    cases hyields with
    | ok hperformed => exact hperformed
    | error hexit => exact .unchanged GraphResult.noConfusion fun h => hexit (GraphResult.update.inj h)
    | fault => exact .unchanged GraphResult.noConfusion GraphResult.noConfusion

theorem applyRemote_cases (cache : GraphCache) (peer : GuidPrefix) (payload : Span)
    (number : ℕ) :
    let op := GraphOp.applyRemote peer payload number
    ((cache.perform op).1 ≠ .update .changed ∧ cache.step op = cache) ∨
      ((cache.perform op).1 = .update .changed ∧ ∃ snapshot,
        readSnapshot peer payload number = .ok snapshot ∧
        snapshot.Accepted peer number ∧
        Applied cache (cache.step op) peer snapshot) := by
  have hcases := cache.perform_cases (.applyRemote peer payload number)
  dsimp only
  generalize (cache.perform (.applyRemote peer payload number)).1 = result
    at hcases ⊢
  generalize cache.step (.applyRemote peer payload number) = cache'
    at hcases ⊢
  cases hcases with
  | unchanged _ hchanged => exact .inl ⟨hchanged, rfl⟩
  | here hlocal => cases hlocal
  | applied hread haccepted hchange => exact .inr ⟨rfl, _, hread, haccepted, hchange⟩

/-- An operation on another participant, or on this context. -/
theorem step_apart (cache : GraphCache) {op : GraphOp} {p : GuidPrefix}
    (h : op.participant? ≠ some p) :
    SameRecords cache (cache.step op) (.participant p) ∧
      (cache.step op).entriesOf p = cache.entriesOf p := by
  have hcases := cache.perform_cases op
  generalize (cache.perform op).1 = result at hcases
  generalize cache.step op = cache' at hcases ⊢
  cases hcases with
  | unchanged => exact ⟨⟨rfl, rfl⟩, rfl⟩
  | here _ hchange =>
    refine ⟨hchange.participants p, ?_⟩
    unfold entriesOf
    rw [hchange.entries]
  | applied _ _ hchange =>
    have hne : p ≠ _ := fun heq => h (congrArg some heq.symm)
    exact ⟨hchange.others _ fun heq => hne (GraphOwner.participant.inj heq), hchange.entries p hne⟩
  | removed hchange =>
    have hne : p ≠ _ := fun heq => h (congrArg some heq.symm)
    exact ⟨hchange.others _ fun heq => hne (GraphOwner.participant.inj heq), hchange.entries p hne⟩

end Steps

section Invariant

/-- **The invariant of the cache.** -/
structure Inv (cache : GraphCache) : Prop where
  coherent : ∀ o, Coherent (cache.nodesOf o) (cache.endpointsOf o)
  entries : ∀ p, (cache.entriesOf p).length ≤ 1
  known : ∀ p, cache.nodesOf (.participant p) ≠ [] → cache.entriesOf p ≠ []
  nodeCount : ∀ p, (cache.nodesOf (.participant p)).length ≤ 8
  endpointCount : ∀ p, (cache.endpointsOf (.participant p)).length ≤ 16
  localGeneration : 1 ≤ cache.localGeneration ∧ cache.localGeneration ≤ int64Max

variable {cache cache' : GraphCache}

theorem nodesOf_initial (o : GraphOwner) : ({} : GraphCache).nodesOf o = [] :=
  recordsOf_replicate rfl 136 o

theorem endpointsOf_initial (o : GraphOwner) : ({} : GraphCache).endpointsOf o = [] :=
  recordsOf_replicate rfl 48 o

theorem entriesOf_initial (p : GuidPrefix) : ({} : GraphCache).entriesOf p = [] :=
  recordsOf_replicate rfl 16 p

theorem inv_initial : ({} : GraphCache).Inv := by
  refine ⟨fun o => ?_, fun p => ?_, fun p h => ?_, fun p => ?_, fun p => ?_, by decide⟩
  · rw [nodesOf_initial, endpointsOf_initial]
    exact .nil
  · rw [entriesOf_initial]
    exact Nat.zero_le 1
  · exact absurd (nodesOf_initial _) h
  · rw [nodesOf_initial]
    exact Nat.zero_le 8
  · rw [endpointsOf_initial]
    exact Nat.zero_le 16

/-- An operation on this context leaves the participants alone. -/
theorem Inv.localChange (h : cache.Inv) (hchange : LocalChange cache cache') : cache'.Inv := by
  have hentries : ∀ p, cache'.entriesOf p = cache.entriesOf p := by
    intro p
    unfold entriesOf
    rw [hchange.entries]
  refine ⟨fun o => ?_, fun p => ?_, fun p hp => ?_, fun p => ?_, fun p => ?_, ?_⟩
  · cases o with
    | here => exact hchange.coherent (h.coherent .here)
    | participant p =>
      rw [(hchange.participants p).nodes, (hchange.participants p).endpoints]
      exact h.coherent _
  · rw [hentries]
    exact h.entries p
  · rw [(hchange.participants p).nodes] at hp
    rw [hentries]
    exact h.known p hp
  · rw [(hchange.participants p).nodes]
    exact h.nodeCount p
  · rw [(hchange.participants p).endpoints]
    exact h.endpointCount p
  · rw [hchange.localGeneration]
    exact nextGeneration_bounds

/-- An operation on a participant has to keep the invariant for this participant only. -/
theorem Inv.remoteChange (h : cache.Inv) {p : GuidPrefix} (hchange : RemoteChange cache cache' p)
    (hcoherent : Coherent (cache'.nodesOf (.participant p)) (cache'.endpointsOf (.participant p)))
    (hentries : (cache'.entriesOf p).length ≤ 1)
    (hknown : cache'.nodesOf (.participant p) ≠ [] → cache'.entriesOf p ≠ [])
    (hnodeCount : (cache'.nodesOf (.participant p)).length ≤ 8)
    (hendpointCount : (cache'.endpointsOf (.participant p)).length ≤ 16) : cache'.Inv := by
  have hothers : ∀ q, q ≠ p → SameRecords cache cache' (.participant q) := fun q hq =>
    hchange.others _ fun heq => hq (GraphOwner.participant.inj heq)
  refine ⟨fun o => ?_, fun q => ?_, fun q hq => ?_, fun q => ?_, fun q => ?_, ?_⟩
  · by_cases ho : o = .participant p
    · rw [ho]
      exact hcoherent
    · rw [(hchange.others o ho).nodes, (hchange.others o ho).endpoints]
      exact h.coherent o
  · by_cases hqp : q = p
    · rwa [hqp]
    · rw [hchange.entries q hqp]
      exact h.entries q
  · by_cases hqp : q = p
    · rw [hqp] at hq ⊢
      exact hknown hq
    · rw [(hothers q hqp).nodes] at hq
      rw [hchange.entries q hqp]
      exact h.known q hq
  · by_cases hqp : q = p
    · rwa [hqp]
    · rw [(hothers q hqp).nodes]
      exact h.nodeCount q
  · by_cases hqp : q = p
    · rwa [hqp]
    · rw [(hothers q hqp).endpoints]
      exact h.endpointCount q
  · rw [hchange.localGeneration]
    exact h.localGeneration

/-- **Every operation keeps the invariant.** -/
theorem step_inv (cache : GraphCache) (op : GraphOp) (h : cache.Inv) : (cache.step op).Inv := by
  have hcases := cache.perform_cases op
  generalize (cache.perform op).1 = result at hcases
  generalize cache.step op = cache' at hcases
  cases hcases with
  | unchanged => exact h
  | here _ hchange => exact h.localChange hchange
  | applied hread haccepted hchange =>
    refine h.remoteChange hchange.toRemoteChange ?_ ?_ ?_ ?_ ?_
    · rw [hchange.nodes, hchange.endpoints]
      exact haccepted.coherent
    · -- the new entry takes the place of the old one
      have hold := h.entries ‹_›
      rw [hchange.entry, List.length_cons, List.length_tail]
      omega
    · intro _
      rw [hchange.entry]
      exact List.cons_ne_nil _ _
    · rw [hchange.nodes]
      exact (List.length_take_le _ _).trans haccepted.nodeCount
    · rw [hchange.endpoints]
      exact (List.length_take_le _ _).trans haccepted.endpointCount
  | removed hchange =>
    refine h.remoteChange hchange.toRemoteChange ?_ ?_ ?_ ?_ ?_
    · rw [hchange.nodes, hchange.endpoints]
      exact .nil
    · have hold := h.entries ‹_›
      rw [hchange.entry, List.length_tail]
      omega
    · intro hne
      exact absurd hchange.nodes hne
    · rw [hchange.nodes]
      exact Nat.zero_le 8
    · rw [hchange.endpoints]
      exact Nat.zero_le 16

/-- **The invariant holds after every run.** -/
theorem run_inv (ops : List GraphOp) : (run GraphCache.step {} ops).Inv :=
  Lib.run_inv step_inv inv_initial ops

end Invariant

end GraphCache

section Results

/-- **The integrity of a graph cache.** -/
structure GraphCache.Integrity (cache : GraphCache) : Prop where
  localNodeIds : ((cache.nodesOf .here).map (·.nodeId)).Nodup
  localEntityIds : ((cache.endpointsOf .here).map (·.entityId)).Nodup
  remoteNodeIds : ∀ p, ((cache.nodesOf (.participant p)).map (·.nodeId)).Nodup
  remoteEntityIds : ∀ p, ((cache.endpointsOf (.participant p)).map (·.entityId)).Nodup
  owned : ∀ e ∈ cache.endpoints.toList, e.occupied = true →
    ∃ n ∈ cache.nodes.toList, n.occupied = true ∧ n.nodeId = e.nodeId ∧
      n.participantPrefix = e.participantPrefix ∧ n.isLocal = e.isLocal
  nodeEntry : ∀ n ∈ cache.nodes.toList, n.occupied = true → n.isLocal = false →
    (cache.entriesOf n.participantPrefix).length = 1
  endpointEntry : ∀ e ∈ cache.endpoints.toList, e.occupied = true → e.isLocal = false →
    (cache.entriesOf e.participantPrefix).length = 1
  entries : ∀ p, (cache.entriesOf p).length ≤ 1

theorem GraphCache.Inv.integrity {cache : GraphCache} (h : cache.Inv) : cache.Integrity := by
  have howned : ∀ e ∈ cache.endpoints.toList, e.occupied = true →
      ∃ n ∈ cache.nodes.toList, n.occupied = true ∧ n.nodeId = e.nodeId ∧
        n.participantPrefix = e.participantPrefix ∧ n.isLocal = e.isLocal := by
    intro e he hocc
    obtain ⟨n, hn, hid, hof⟩ := (h.coherent e.owner).owned e (mem_endpointsOf.2 ⟨he, hocc, rfl⟩)
    obtain ⟨hin, hoccn, howner⟩ := mem_nodesOf.1 hn
    refine ⟨n, hin, hoccn, hid, hof, ?_⟩
    -- the owners are equal, so both are of this context or neither is
    have hlocal : n.owner = .here ↔ e.owner = .here := by rw [howner]
    rw [GraphOwner.of_here, GraphOwner.of_here] at hlocal
    exact Bool.eq_iff_iff.2 hlocal
  have hnodeEntry : ∀ n ∈ cache.nodes.toList, n.occupied = true → n.isLocal = false →
      (cache.entriesOf n.participantPrefix).length = 1 := by
    intro n hn hocc hremote
    have hmem : n ∈ cache.nodesOf (.participant n.participantPrefix) :=
      mem_nodesOf.2 ⟨hn, hocc, GraphOwner.of_participant.2 ⟨hremote, rfl⟩⟩
    have hne := h.known n.participantPrefix (List.ne_nil_of_mem hmem)
    exact Nat.le_antisymm (h.entries _) (List.length_pos_iff.2 hne)
  refine ⟨(h.coherent _).nodeIds, (h.coherent _).entityIds, fun p => (h.coherent _).nodeIds,
    fun p => (h.coherent _).entityIds, howned, hnodeEntry, fun e he hocc hremote => ?_, h.entries⟩
  obtain ⟨n, hn, hoccn, -, hof, hlocal⟩ := howned e he hocc
  rw [← hof]
  exact hnodeEntry n hn hoccn (hlocal.trans hremote)

/-- **The integrity of the graph cache**, over every run of its operations, with arbitrary bytes as
snapshots: ids are distinct for every owner, every endpoint has its node, every participant with a record
has one generation entry; and the generations advance exactly with the changes. -/
theorem graph_cache_integrity (ops : List GraphOp) :
    let cache := run GraphCache.step {} ops
    cache.Integrity ∧ ∀ op,
      (cache.step op).generation =
          (if (cache.perform op).1 = .error none ∨ (cache.perform op).1 = .update .changed then
            GraphCache.nextGeneration cache.generation else cache.generation) ∧
        (cache.step op).localGeneration =
          (if (cache.perform op).1 = .error none then
            GraphCache.nextGeneration cache.localGeneration else cache.localGeneration) := by
  intro cache
  refine ⟨(GraphCache.run_inv ops).integrity, fun op => ?_⟩
  have hcases := cache.perform_cases op
  generalize (cache.perform op).1 = result at hcases
  generalize cache.step op = cache' at hcases
  cases hcases with
  | unchanged hnone hchanged =>
    rw [if_neg (not_or.2 ⟨hnone, hchanged⟩), if_neg hnone]
    exact ⟨rfl, rfl⟩
  | here _ hchange =>
    rw [if_pos (.inl rfl), if_pos rfl]
    exact ⟨hchange.generation, hchange.localGeneration⟩
  | applied _ _ hchange =>
    rw [if_pos (.inr rfl), if_neg (fun h => by cases h)]
    exact ⟨hchange.generation, hchange.localGeneration⟩
  | @removed p update cache' hchange =>
    have hupdate : GraphResult.update update ≠ .error none := GraphResult.noConfusion
    rw [if_neg hupdate]
    refine ⟨?_, hchange.localGeneration⟩
    rcases hchange.changed with ⟨rfl, hgeneration⟩ | ⟨rfl, hgeneration⟩
    · rw [if_pos (.inr rfl), hgeneration]
    · rw [if_neg (not_or.2 ⟨hupdate, fun h => by cases h⟩), hgeneration]

/-- **Updates of a participant are atomic and isolated**: an update that does not report a change is
none, one that does leaves the records of the snapshot and nothing else of the participant, and whatever
belongs to this context or to another participant stays as it is. -/
theorem graph_updates_atomic (cache : GraphCache) (peer : GuidPrefix) (payload : Span)
    (number : ℕ) :
    let apply := GraphOp.applyRemote peer payload number
    let remove := GraphOp.removeRemoteParticipant peer
    let others (cache' : GraphCache) :=
      (∀ o, o ≠ .participant peer → cache'.nodesOf o = cache.nodesOf o ∧
        cache'.endpointsOf o = cache.endpointsOf o) ∧
      (∀ p, p ≠ peer → cache'.entriesOf p = cache.entriesOf p) ∧
      cache'.localGeneration = cache.localGeneration
    ((cache.perform apply).1 ≠ .update .changed → cache.step apply = cache) ∧
    ((cache.perform apply).1 = .update .changed → ∃ snapshot,
      GraphCache.readSnapshot peer payload number = .ok snapshot ∧
      snapshot.nodeList.length = snapshot.nodeCount ∧
      snapshot.endpointList.length = snapshot.endpointCount ∧
      (cache.step apply).nodesOf (.participant peer) = snapshot.nodeList ∧
      (cache.step apply).endpointsOf (.participant peer) = snapshot.endpointList ∧
      others (cache.step apply)) ∧
    others (cache.step remove) := by
  intro apply remove others
  have hremote : ∀ {cache'}, GraphCache.RemoteChange cache cache' peer → others cache' :=
    fun h => ⟨fun o ho => ⟨(h.others o ho).nodes, (h.others o ho).endpoints⟩, h.entries,
      h.localGeneration⟩
  refine ⟨fun hresult => ?_, fun hresult => ?_,
    hremote (cache.removeRemoteParticipant_spec peer).toRemoteChange⟩
  · rcases cache.applyRemote_cases peer payload number with
      ⟨-, hsame⟩ | ⟨hchanged, -⟩
    · exact hsame
    · exact absurd hchanged hresult
  · rcases cache.applyRemote_cases peer payload number with
      ⟨hunchanged, -⟩ | ⟨-, snapshot, hread, haccepted, hchange⟩
    · exact absurd hresult hunchanged
    · refine ⟨snapshot, hread, ?_, ?_, hchange.nodes, hchange.endpoints,
        hremote hchange.toRemoteChange⟩
      · exact List.length_take_of_le (haccepted.nodeCount.trans_eq Vector.length_toList.symm)
      · exact List.length_take_of_le (haccepted.endpointCount.trans_eq Vector.length_toList.symm)

end Results

end OpenRtdds
