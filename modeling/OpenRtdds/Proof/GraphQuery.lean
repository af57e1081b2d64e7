import OpenRtdds.Spec.GraphQuery

/-!
# Topic queries lose and duplicate nothing

The topics are listed without duplicates, and so are the types under each. Both are names of endpoints that
have been read, so neither list is longer than the number of these endpoints, and the arrays suffice.

* `Lists`: the topics and types of some names. `Lists.length_le`, `Lists.types_le`: there is room.
* `Lists.fresh`, `Lists.known`: one more endpoint, of a topic that is not there and of one that is.
* `addNames_lists`, `addEndpoint_lists`: one iteration.
* `copyOccupied_take`: a snapshot has the occupied records of the cache.
* `aggregate_topics_exact`.
-/

namespace OpenRtdds

open Lib Guarded

/-- **The topics and types of some names**, without duplicates. -/
structure Lists (names : List (Name × Name)) (topics : List TopicAggregate) : Prop where
  nodup : (topics.map (·.name)).Nodup
  name : ∀ name, name ∈ topics.map (·.name) ↔ name ∈ names.map Prod.fst
  types : ∀ topic ∈ topics, topic.types.Nodup ∧ ∀ type, type ∈ topic.types ↔ (topic.name, type) ∈ names

namespace Lists

variable {names : List (Name × Name)} {topics before after : List TopicAggregate} {topic : TopicAggregate}
  {name type : Name}

theorem length_le (h : Lists names topics) : topics.length ≤ names.length := by
  have hsub := List.subperm_of_subset h.nodup fun name hname => (h.name name).1 hname
  simpa only [List.length_map] using hsub.length_le

theorem types_le (h : Lists names topics) (htopic : topic ∈ topics) : topic.types.length ≤ names.length := by
  obtain ⟨hnodup, htypes⟩ := h.types topic htopic
  have hsub : topic.types ⊆ names.map Prod.snd := fun type htype =>
    List.mem_map.2 ⟨_, (htypes type).1 htype, rfl⟩
  simpa only [List.length_map] using (List.subperm_of_subset hnodup hsub).length_le

theorem types_of_ne (h : Lists names topics) (htopic : topic ∈ topics) (hne : topic.name ≠ name) :
    topic.types.Nodup ∧ ∀ other, other ∈ topic.types ↔ (topic.name, other) ∈ names ++ [(name, type)] := by
  obtain ⟨hnodup, htypes⟩ := h.types topic htopic
  refine ⟨hnodup, fun other => ?_⟩
  rw [htypes, List.mem_append, List.mem_singleton, Prod.mk.injEq, or_iff_left fun heq => hne heq.1]

theorem addType_types (hnodup : topic.types.Nodup) (hroom : topic.types.length < 48) (type : Name) :
    (topic.addType type).name = topic.name ∧ (topic.addType type).types.Nodup ∧
      ∀ other, other ∈ (topic.addType type).types ↔ other ∈ topic.types ∨ other = type := by
  unfold TopicAggregate.addType
  rw [List.any_beq', List.contains_eq_mem, decide_eq_true hroom, Bool.and_true]
  by_cases hknown : type ∈ topic.types
  · rw [decide_eq_true hknown]
    exact ⟨rfl, hnodup, fun other => ⟨Or.inl, fun hor => hor.elim id fun heq => heq ▸ hknown⟩⟩
  · rw [decide_eq_false hknown]
    refine ⟨rfl, ?_, fun other => ?_⟩
    · rw [Bool.not_false, if_pos rfl, ← List.concat_eq_append]
      exact hnodup.concat hknown
    · exact List.mem_append.trans (or_congr_right List.mem_singleton)

/-- **An endpoint of a topic that is not there.** -/
theorem fresh (h : Lists names topics) (hfresh : name ∉ topics.map (·.name)) :
    Lists (names ++ [(name, type)]) (topics ++ [⟨name, [type]⟩]) := by
  have hnone : ∀ other, (name, other) ∉ names :=
    fun other hmem => hfresh ((h.name name).2 (List.mem_map_of_mem hmem))
  refine ⟨?_, fun other => ?_, fun topic htopic => ?_⟩
  · rw [List.map_append, List.map_singleton, ← List.concat_eq_append]
    exact h.nodup.concat hfresh
  · rw [List.map_append, List.map_append, List.mem_append, List.mem_append, h.name]
    rfl
  · rcases List.mem_append.1 htopic with hold | hnew
    · exact h.types_of_ne hold fun heq => hfresh (heq ▸ List.mem_map_of_mem hold)
    · rw [List.mem_singleton.1 hnew]
      refine ⟨List.nodup_singleton type, fun other => ?_⟩
      rw [List.mem_append, or_iff_right (hnone other), List.mem_singleton, List.mem_singleton, Prod.mk.injEq]
      exact (and_iff_right rfl).symm

/-- **An endpoint of a topic that is there.** -/
theorem known (h : Lists names (before ++ topic :: after)) (hroom : topic.types.length < 48) :
    Lists (names ++ [(topic.name, type)]) (before ++ topic.addType type :: after) := by
  have hmem : topic ∈ before ++ topic :: after := List.mem_append_right _ List.mem_cons_self
  obtain ⟨hnodup, htypes⟩ := h.types topic hmem
  obtain ⟨hname, hnodup', htypes'⟩ := addType_types hnodup hroom type
  have hnames : (before ++ topic.addType type :: after).map (·.name) =
      (before ++ topic :: after).map (·.name) := by
    rw [List.map_append, List.map_cons, hname, List.map_append, List.map_cons]
  refine ⟨hnames ▸ h.nodup, fun other => ?_, fun entry hentry => ?_⟩
  · rw [hnames, h.name, List.map_append, List.mem_append, List.map_singleton, List.mem_singleton]
    refine ⟨Or.inl, fun hor => hor.elim id fun heq => ?_⟩
    rw [heq, ← h.name]
    exact List.mem_map_of_mem hmem
  · rw [List.mem_append, List.mem_cons, or_left_comm] at hentry
    rcases hentry with rfl | hrest
    · refine ⟨hnodup', fun other => ?_⟩
      rw [htypes', htypes, hname, List.mem_append, List.mem_singleton, Prod.mk.injEq, eq_self_iff_true, true_and]
    · have hdistinct := h.nodup
      rw [List.map_append, List.map_cons, List.nodup_middle, List.nodup_cons, ← List.map_append,
        List.mem_map] at hdistinct
      refine h.types_of_ne ?_ fun heq => hdistinct.1 ⟨entry, List.mem_append.2 hrest, heq⟩
      rw [List.mem_append, List.mem_cons, or_left_comm]
      exact .inr hrest

end Lists

/-- The endpoint passes the filters of a query: its kind is the one asked for, and one of the nodes owns it
that have the name and the namespace asked for. -/
def Selected (nodes : List GraphNodeRecord) (kind : Option GraphEndpointKind) (node : Option (Name × Name))
    (endpoint : GraphEndpointRecord) : Prop :=
  endpoint.occupied = true ∧ (∀ k ∈ kind, endpoint.kind = k) ∧
    ∀ names ∈ node, ∃ owner ∈ nodes,
      owner.occupied = true ∧ cString owner.name = names.1 ∧ cString owner.nameSpace = names.2 ∧
        owner.nodeId = endpoint.nodeId ∧ owner.participantPrefix = endpoint.participantPrefix

instance (nodes : List GraphNodeRecord) (kind : Option GraphEndpointKind) (node : Option (Name × Name)) :
    DecidablePred (Selected nodes kind node) := fun _ => inferInstanceAs (Decidable (_ ∧ _ ∧ _))

/-- The topic and the type of an endpoint, as a query names them: by the names of ROS if the endpoint
follows the conventions of ROS and demangling is not switched off, and by those of DDS otherwise. -/
def NamedAs (noDemangle : Bool) (endpoint : GraphEndpointRecord) (name type : Name) : Prop :=
  (noDemangle = true ∨ endpoint.rosNamespaceConventions = false) ∧
      name = cString endpoint.ddsTopicName ∧ type = cString endpoint.ddsTypeName ∨
    (noDemangle = false ∧ endpoint.rosNamespaceConventions = true) ∧
      name = cString endpoint.rosTopicName ∧ type = cString endpoint.rosTypeName

/-- **The answer to a query** about some nodes and endpoints: the topics of the selected endpoints, each
once, and under a topic the types of its selected endpoints, each once. -/
structure Answers (nodes : List GraphNodeRecord) (endpoints : List GraphEndpointRecord) (noDemangle : Bool)
    (kind : Option GraphEndpointKind) (node : Option (Name × Name)) (topics : List TopicAggregate) :
    Prop where
  topics_le : topics.length ≤ 48
  nodup : (topics.map (·.name)).Nodup
  name : ∀ name, name ∈ topics.map (·.name) ↔
    ∃ endpoint ∈ endpoints, Selected nodes kind node endpoint ∧ ∃ type, NamedAs noDemangle endpoint name type
  types : ∀ topic ∈ topics, topic.types.length ≤ 48 ∧ topic.types.Nodup ∧
    ∀ type, type ∈ topic.types ↔
      ∃ endpoint ∈ endpoints, Selected nodes kind node endpoint ∧ NamedAs noDemangle endpoint topic.name type

/-- The nodes of a snapshot. -/
def GraphSnapshot.nodeRecords (snapshot : GraphSnapshot) : List GraphNodeRecord :=
  snapshot.nodes.toList.take snapshot.nodeCount

/-- The names of the selected ones among the first endpoints. -/
def selectedNames (snapshot : GraphSnapshot) (noDemangle : Bool) (kind : Option GraphEndpointKind)
    (node : Option (Name × Name)) (count : ℕ) : List (Name × Name) :=
  ((snapshot.endpoints.toList.take count).filter fun endpoint =>
    decide (Selected snapshot.nodeRecords kind node endpoint)).map (listedNames noDemangle)

section Query

variable {snapshot : GraphSnapshot} {noDemangle : Bool} {kind : Option GraphEndpointKind}
  {node : Option (Name × Name)} {topics : List TopicAggregate} {index : ℕ}

/-- **The topic is looked for, and the type under it.** -/
theorem addNames_lists {names : List (Name × Name)} (h : Lists names topics) (hroom : names.length < 48)
    (pair : Name × Name) :
    ∃ topics', addNames topics pair = .ok topics' ∧ Lists (names ++ [pair]) topics' := by
  have hlength := h.length_le
  unfold addNames openTopic
  dsimp only
  by_cases hknown : ∃ topic ∈ topics, (topic.name == pair.1) = true
  · have hindex := List.findIdx_lt_length_of_exists hknown
    have hname := beq_iff_eq.1 (@List.findIdx_getElem _ (fun topic => topic.name == pair.1) topics hindex)
    have hroomAt := (h.types_le (List.getElem_mem hindex)).trans_lt hroom
    rw [← List.take_append_drop (topics.findIdx (·.name == pair.1)) topics, List.drop_eq_getElem_cons hindex] at h
    have hlists := @Lists.known _ _ _ _ pair.2 h hroomAt
    rw [hname] at hlists
    rw [if_neg hindex.ne]
    refine ⟨_, rfl, ?_⟩
    rw [List.modify_eq_take_cons_drop hindex]
    exact hlists
  · have hindex : topics.findIdx (·.name == pair.1) = topics.length :=
      List.findIdx_eq_length_of_false fun topic htopic =>
        Bool.eq_false_iff.2 fun hsame => hknown ⟨topic, htopic, hsame⟩
    have hfresh : pair.1 ∉ topics.map (·.name) := by
      intro hmem
      obtain ⟨topic, htopic, hname⟩ := List.mem_map.1 hmem
      exact hknown ⟨topic, htopic, beq_iff_eq.2 hname⟩
    rw [hindex, if_pos rfl, Guarded.guard, if_pos (by omega), ok_bind]
    refine ⟨_, rfl, ?_⟩
    rw [List.modify_eq_take_cons_drop (by rw [List.length_append]; exact Nat.lt_succ_self _), List.take_left,
      List.getElem_concat_length rfl, List.drop_of_length_le (by simp)]
    exact h.fresh hfresh

/-- An iteration lists the names of its endpoint if it is selected. -/
theorem addEndpoint_eq (topics : List TopicAggregate) (h : index < 48) :
    addEndpoint snapshot noDemangle kind node topics index =
      if Selected snapshot.nodeRecords kind node snapshot.endpoints[index] then
        addNames topics (listedNames noDemangle snapshot.endpoints[index]) else pure topics := by
  have hfetch : (fetch snapshot.endpoints index : Guarded Empty _) = .ok snapshot.endpoints[index] := dif_pos h
  unfold addEndpoint
  rw [hfetch, ok_bind]
  generalize snapshot.endpoints[index] = endpoint
  by_cases hkept : (!endpoint.occupied || kind.any (endpoint.kind != ·)) = true
  · rw [if_pos hkept, if_neg]
    rintro ⟨hoccupied, hkind, -⟩
    rw [hoccupied, Bool.not_true, Bool.false_or, Option.any_eq_true] at hkept
    obtain ⟨k, hk, hne⟩ := hkept
    exact bne_iff_ne.1 hne (hkind k hk)
  · have hrest : endpoint.occupied = true ∧ ∀ k ∈ kind, endpoint.kind = k := by
      simpa [Option.any_eq_true] using hkept
    rw [if_neg hkept]
    cases node with
    | none =>
      rw [if_pos ⟨hrest.1, hrest.2, nofun⟩]
      rfl
    | some names =>
      have howned : endpointOwnedBySelectedNode endpoint snapshot names.1 names.2 =
          .ok (decide (Selected snapshot.nodeRecords kind (some names) endpoint)) := by
        unfold endpointOwnedBySelectedNode search
        rw [if_pos snapshot.nodeCount_le]
        refine congrArg Guarded.ok (Bool.eq_iff_iff.2 ?_)
        simp only [List.any_eq_true, nodeMatches, Bool.and_eq_true, beq_iff_eq, decide_eq_true_eq, Selected,
          and_assoc, Option.mem_def, Option.some.injEq, forall_eq']
        exact ⟨fun howner => ⟨hrest.1, hrest.2, howner⟩, fun hselected => hselected.2.2⟩
      rw [Option.elim_some, howned, ok_bind]
      simp only [decide_eq_true_eq]

theorem selectedNames_length (count : ℕ) :
    (selectedNames snapshot noDemangle kind node count).length ≤ count := by
  rw [selectedNames, List.length_map]
  exact (List.length_filter_le _ _).trans (List.length_take_le _ _)

theorem addEndpoint_lists (h : index < 48)
    (hlists : Lists (selectedNames snapshot noDemangle kind node index) topics) :
    ∃ topics', addEndpoint snapshot noDemangle kind node topics index = .ok topics' ∧
      Lists (selectedNames snapshot noDemangle kind node (index + 1)) topics' := by
  have htake : snapshot.endpoints.toList.take (index + 1) =
      snapshot.endpoints.toList.take index ++ [snapshot.endpoints[index]] := by
    rw [List.take_succ_eq_append_getElem (by rwa [Vector.length_toList]), Vector.getElem_toList]
  rw [addEndpoint_eq _ h, selectedNames, htake, List.filter_append, List.map_append, List.filter_singleton]
  by_cases hselected : Selected snapshot.nodeRecords kind node snapshot.endpoints[index]
  · rw [if_pos hselected, decide_eq_true hselected]
    exact addNames_lists hlists ((selectedNames_length index).trans_lt h) _
  · rw [if_neg hselected, decide_eq_false hselected, cond_false, List.map_nil, List.append_nil]
    exact ⟨topics, rfl, hlists⟩

theorem namedAs_iff {endpoint : GraphEndpointRecord} {name type : Name} :
    listedNames noDemangle endpoint = (name, type) ↔ NamedAs noDemangle endpoint name type := by
  unfold listedNames NamedAs
  cases noDemangle <;> cases endpoint.rosNamespaceConventions <;> simp [eq_comm]

theorem mem_selectedNames {count : ℕ} {name type : Name} :
    (name, type) ∈ selectedNames snapshot noDemangle kind node count ↔
      ∃ endpoint ∈ snapshot.endpoints.toList.take count,
        Selected snapshot.nodeRecords kind node endpoint ∧ NamedAs noDemangle endpoint name type := by
  simp only [selectedNames, List.mem_map, List.mem_filter, decide_eq_true_eq, namedAs_iff, and_assoc]

theorem aggregateTopics_answers (snapshot : GraphSnapshot) :
    ∃ topics, aggregateTopics snapshot noDemangle kind node = .ok topics ∧
      Answers snapshot.nodeRecords (snapshot.endpoints.toList.take snapshot.endpointCount) noDemangle kind
        node topics := by
  have hcount := (@selectedNames_length snapshot noDemangle kind node _).trans snapshot.endpointCount_le
  have hstart : Lists (selectedNames snapshot noDemangle kind node 0) [] :=
    ⟨List.nodup_nil, fun _ => Iff.rfl, fun _ h => absurd h List.not_mem_nil⟩
  obtain ⟨topics, hok, hlists⟩ := foldlM_range_exists
    (fun index => Lists (selectedNames snapshot noDemangle kind node index))
    (fun index topics hindex => addEndpoint_lists (hindex.trans_le snapshot.endpointCount_le)) hstart
  refine ⟨topics, hok, hlists.length_le.trans hcount, hlists.nodup, fun name => ?_, fun topic htopic => ?_⟩
  · rw [hlists.name, List.mem_map]
    constructor
    · rintro ⟨⟨_, type⟩, hmem, rfl⟩
      obtain ⟨endpoint, hendpoint, hselected, hnamed⟩ := mem_selectedNames.1 hmem
      exact ⟨endpoint, hendpoint, hselected, type, hnamed⟩
    · rintro ⟨endpoint, hendpoint, hselected, type, hnamed⟩
      exact ⟨(name, type), mem_selectedNames.2 ⟨endpoint, hendpoint, hselected, hnamed⟩, rfl⟩
  · obtain ⟨hnodup, htypes⟩ := hlists.types topic htopic
    exact ⟨(hlists.types_le htopic).trans hcount, hnodup, fun type => (htypes type).trans mem_selectedNames⟩

end Query

section Snapshot

/-- **The cells in use are the occupied ones of the records read.** -/
theorem copyOccupied_take {α : Type} {n : ℕ} (occupied : α → Bool) (unused : α) (records : Vector α n)
    (i : ℕ) (h : i ≤ n) :
    (copyOccupied occupied unused records i h).1.1.toList.take (copyOccupied occupied unused records i h).1.2 =
      (records.toList.take i).filter occupied := by
  induction i with
  | zero => rfl
  | succ i ih =>
    have hlt := Nat.lt_of_le_of_lt (copyOccupied occupied unused records i (Nat.le_of_succ_le h)).2 h
    rw [List.take_succ_eq_append_getElem (by rwa [Vector.length_toList]), List.filter_append,
      Vector.getElem_toList, ← ih (Nat.le_of_succ_le h), copyOccupied]
    cases hoccupied : occupied records[i] with
    | false =>
      rw [if_neg Bool.false_ne_true, List.filter_singleton, hoccupied, cond_false, List.append_nil]
    | true =>
      rw [if_pos rfl, List.filter_singleton, hoccupied, cond_true]
      dsimp only
      rw [Vector.toList_set, List.take_succ_eq_append_getElem (by simpa using hlt),
        List.take_set_of_le (Nat.le_refl _), List.getElem_set_self]

variable (cache : GraphCache)

theorem snapshot_nodes : cache.snapshot.nodeRecords = cache.nodes.toList.filter (·.occupied) := by
  rw [GraphSnapshot.nodeRecords, GraphCache.snapshot, copyOccupied_take, List.take_of_length_le (by simp)]

theorem snapshot_endpoints : cache.snapshot.endpoints.toList.take cache.snapshot.endpointCount =
    cache.endpoints.toList.filter (·.occupied) := by
  rw [GraphCache.snapshot, copyOccupied_take, List.take_of_length_le (by simp)]

theorem selected_occupied {nodes : List GraphNodeRecord} {kind : Option GraphEndpointKind}
    {node : Option (Name × Name)} {endpoint : GraphEndpointRecord} :
    Selected (nodes.filter (·.occupied)) kind node endpoint ↔ Selected nodes kind node endpoint := by
  simp only [Selected, List.mem_filter, and_assoc, and_self_left]

end Snapshot

/-- **Topic queries lose and duplicate nothing.** For every snapshot and every query no index leaves its
array, and the answer is exact; so it is about the records of the cache from which a snapshot was taken. -/
theorem aggregate_topics_exact (noDemangle : Bool) (kind : Option GraphEndpointKind)
    (node : Option (Name × Name)) :
    (∀ snapshot : GraphSnapshot, ∃ topics, aggregateTopics snapshot noDemangle kind node = .ok topics ∧
      Answers (snapshot.nodes.toList.take snapshot.nodeCount)
        (snapshot.endpoints.toList.take snapshot.endpointCount) noDemangle kind node topics) ∧
    ∀ cache : GraphCache, ∃ topics, aggregateTopics cache.snapshot noDemangle kind node = .ok topics ∧
      Answers cache.nodes.toList cache.endpoints.toList noDemangle kind node topics := by
  refine ⟨fun snapshot => aggregateTopics_answers snapshot, fun cache => ?_⟩
  obtain ⟨topics, hok, hanswers⟩ := @aggregateTopics_answers noDemangle kind node cache.snapshot
  rw [snapshot_nodes, snapshot_endpoints] at hanswers
  have hrecords : ∀ p : GraphEndpointRecord → Prop,
      (∃ endpoint ∈ cache.endpoints.toList.filter (·.occupied),
        Selected (cache.nodes.toList.filter (·.occupied)) kind node endpoint ∧ p endpoint) ↔
      ∃ endpoint ∈ cache.endpoints.toList, Selected cache.nodes.toList kind node endpoint ∧ p endpoint := by
    intro p
    refine exists_congr fun endpoint => ?_
    rw [selected_occupied, List.mem_filter, and_assoc]
    exact and_congr_right fun _ => and_iff_right_of_imp fun h => h.1.1
  refine ⟨topics, hok, hanswers.topics_le, hanswers.nodup, fun name => ?_, fun topic htopic => ?_⟩
  · rw [hanswers.name, hrecords]
  · obtain ⟨hle, hnodup, htypes⟩ := hanswers.types topic htopic
    exact ⟨hle, hnodup, fun type => by rw [htypes, hrecords]⟩

end OpenRtdds
