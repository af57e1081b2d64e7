import OpenRtdds.Lib.Lookup
import OpenRtdds.Spec.DiscoveredTables

/-!
# The endpoint table converges

The slot an endpoint is in depends on the order of the announcements, and so does what is refused as
stale. The map that the table represents does not: every key holds its highest announcement, and that is
a property of the set of announcements.

* `Consistent`: every key has one entry, and `size()` counts them. `call_consistent`.
* `upsert_cases`: what an announcement does to the map.
* `Highest`, `announced_highest`: the entries after a run of announcements.
* `contents_announced`: the contents as a set, if no number is used for two announcements of a key.
* `endpoint_table_converges`.
-/

namespace OpenRtdds

open Lib

namespace DiscoveredEndpointTable

variable {capacity : ℕ} {t : DiscoveredEndpointTable capacity}

/-- The key of an entry. -/
def keyOf (e : DiscoveredEndpoint) : GuidPrefix × EntityId := e.data.key

/-- The entry with a key. -/
def entryOf (t : DiscoveredEndpointTable capacity) (key : GuidPrefix × EntityId) :
    Option DiscoveredEndpoint :=
  lookup DiscoveredEndpoint.occupied keyOf t.entries.toList key

theorem find_eq_entryOf (t : DiscoveredEndpointTable capacity) (participant : GuidPrefix)
    (endpoint : EntityId) : t.find participant endpoint = t.entryOf (participant, endpoint) := rfl

/-- **The table is a map**: every key has at most one entry, and `size()` is the number of entries. -/
structure Consistent (t : DiscoveredEndpointTable capacity) : Prop where
  keyed : Keyed DiscoveredEndpoint.occupied keyOf t.entries.toList
  size : t.size = t.entries.toList.countP (·.occupied)

theorem entryOf_initial (key : GuidPrefix × EntityId) :
    ({} : DiscoveredEndpointTable capacity).entryOf key = none :=
  lookup_none_iff.2 (recordsOf_replicate rfl capacity key)

theorem consistent_initial : ({} : DiscoveredEndpointTable capacity).Consistent :=
  ⟨keyed_replicate rfl capacity, (countP_replicate_free rfl capacity).symm⟩

section Upsert

variable {a : SedpMessageView}

/-- The entry of an announcement. -/
def entryFor (a : SedpMessageView) : DiscoveredEndpoint where
  data := a.endpoint
  sequenceNumber := a.sequenceNumber
  occupied := true

/-- **What an announcement does.** -/
inductive UpsertCase (t : DiscoveredEndpointTable capacity) (a : SedpMessageView) :
    EndpointTableResult × DiscoveredEndpointTable capacity → Prop where
  | stale {r : EndpointTableResult} {e : DiscoveredEndpoint} (hfound : t.entryOf a.endpoint.key = some e)
      (hnumber : a.sequenceNumber ≤ e.sequenceNumber) (hr : r.error = some .staleAnnouncement) :
      UpsertCase t a (r, t)
  | full {r : EndpointTableResult} (hnone : t.entryOf a.endpoint.key = none)
      (hr : r.error = some .tableFull) : UpsertCase t a (r, t)
  | stored {r : EndpointTableResult} {t' : DiscoveredEndpointTable capacity} (hr : r.error = none)
      (hnumber : ∀ e ∈ t.entryOf a.endpoint.key, e.sequenceNumber < a.sequenceNumber)
      (hconsistent : t'.Consistent)
      (hentries : ∀ key, t'.entryOf key = if key = a.endpoint.key then some (entryFor a)
        else t.entryOf key) : UpsertCase t a (r, t')

theorem upsert_cases (h : t.Consistent) (a : SedpMessageView) : UpsertCase t a (t.upsert a) := by
  unfold upsert
  dsimp only
  cases hfound : t.entries.findFinIdx? fun e => e.occupied && decide (e.data.key = a.endpoint.key) with
  | some i =>
    have hget : t.entryOf a.endpoint.key = some (t.entries.get i) := lookup_eq_some_of_findFinIdx? hfound
    dsimp only
    by_cases hstale : a.sequenceNumber ≤ (t.entries.get i).sequenceNumber
    · rw [if_pos hstale]
      exact .stale hget hstale rfl
    rw [if_neg hstale]
    obtain ⟨hkeyed, hcount, hentries⟩ := @lookup_updated _ _ _ _ keyOf (entryFor a) _ _ _ _ h.keyed hfound
      rfl rfl
    refine .stored rfl (fun e he => ?_) ⟨hkeyed, h.size.trans hcount.symm⟩ hentries
    rw [hget] at he
    cases he
    exact not_le.1 hstale
  | none =>
    have hnone : t.entryOf a.endpoint.key = none := lookup_eq_none_of_findFinIdx? hfound
    dsimp only
    cases hfree : t.entries.findFinIdx? fun e => !e.occupied with
    | none => exact .full hnone rfl
    | some i =>
      obtain ⟨hkeyed, hcount, hentries⟩ := @lookup_added _ _ _ _ keyOf (entryFor a) _ _ _ _ h.keyed hnone
        hfree rfl rfl
      refine .stored rfl (fun e he => ?_) ⟨hkeyed, ?_⟩ hentries
      · rw [hnone] at he
        cases he
      · exact (congrArg (· + 1) h.size).trans hcount.symm

theorem upsert_consistent (h : t.Consistent) (a : SedpMessageView) : (t.upsert a).2.Consistent := by
  have hcases := upsert_cases h a
  generalize t.upsert a = r at hcases
  cases hcases with
  | stale => exact h
  | full => exact h
  | stored hr hnumber hconsistent => exact hconsistent

end Upsert

section Remove

variable {participant : GuidPrefix} {null : Bool} {room : ℕ}

/-- The entries of a participant. -/
def entriesOf (t : DiscoveredEndpointTable capacity) (participant : GuidPrefix) :
    List DiscoveredEndpoint :=
  t.entries.toList.filter fun e => e.occupied && decide (e.data.participantGuidPrefix = participant)

/-- The table without them. -/
def without (t : DiscoveredEndpointTable capacity) (participant : GuidPrefix) :
    DiscoveredEndpointTable capacity :=
  { t with
    entries := t.entries.map fun e =>
      if e.occupied && decide (e.data.participantGuidPrefix = participant) then {} else e
    size := t.size - (t.entriesOf participant).length }

/-- There is enough output for `count` endpoint ids. -/
def EnoughOutput (count : ℕ) (null : Bool) (room : ℕ) : Prop :=
  (count ≠ 0 → null = false) ∧ count ≤ room

/-- **With enough output the entries are removed, and otherwise nothing happens.** -/
theorem removeParticipant_eq (t : DiscoveredEndpointTable capacity) (participant : GuidPrefix)
    (null : Bool) (room : ℕ) :
    (EnoughOutput (t.entriesOf participant).length null room →
      t.removeParticipant participant null room =
        (none, (t.entriesOf participant).map (·.data.endpointId), t.without participant)) ∧
    (¬ EnoughOutput (t.entriesOf participant).length null room →
      ∃ e, t.removeParticipant participant null room = (some e, [], t)) := by
  have heq : t.removeParticipant participant null room =
      if (t.entriesOf participant).length ≠ 0 ∧ null then (some .invalidArgument, [], t)
      else if (t.entriesOf participant).length > room then
        (some .actionCapacityExceeded, [], t)
      else (none, (t.entriesOf participant).map (·.data.endpointId), t.without participant) := rfl
  rw [heq]
  refine ⟨?_, fun hfew => ?_⟩
  · rintro ⟨hnull, hcapacity⟩
    have hargument : ¬ ((t.entriesOf participant).length ≠ 0 ∧ null = true) := by
      rintro ⟨hsome, htrue⟩
      rw [hnull hsome] at htrue
      cases htrue
    rw [if_neg hargument, if_neg (not_lt.2 hcapacity)]
  · split
    · exact ⟨_, rfl⟩
    next hargument =>
      split
      · exact ⟨_, rfl⟩
      next hcapacity =>
        refine absurd ⟨fun hsome => ?_, not_lt.1 hcapacity⟩ hfew
        exact Bool.eq_false_iff.2 fun htrue => hargument ⟨hsome, htrue⟩

theorem without_entries (t : DiscoveredEndpointTable capacity) (participant : GuidPrefix) :
    (t.without participant).entries.toList = t.entries.toList.map fun e =>
      if e.occupied && decide (e.data.participantGuidPrefix = participant) then {} else e :=
  Vector.toList_map

theorem without_entryOf (h : t.Consistent) (key : GuidPrefix × EntityId) :
    (t.without participant).entryOf key = if key.1 = participant then none else t.entryOf key := by
  have hcleared := (@lookup_cleared _ _ _ _ keyOf _
    (fun e => decide (e.data.participantGuidPrefix = participant)) {} h.keyed rfl).2 key
  rw [← without_entries] at hcleared
  refine hcleared.trans ?_
  have howner : ∀ e ∈ t.entryOf key, e.data.participantGuidPrefix = key.1 :=
    fun e he => congrArg Prod.fst ((mem_lookup h.keyed).1 he).2.2
  unfold entryOf at howner ⊢
  cases hentry : lookup DiscoveredEndpoint.occupied keyOf t.entries.toList key with
  | none => rw [Option.filter_none, ite_self]
  | some e =>
    rw [hentry] at howner
    by_cases hkey : key.1 = participant
    · rw [if_pos hkey]
      exact Option.filter_some_neg (by rw [howner e rfl, hkey, decide_eq_true rfl]; decide)
    · rw [if_neg hkey]
      exact Option.filter_some_pos (by rw [howner e rfl, decide_eq_false hkey]; rfl)

theorem without_consistent (h : t.Consistent) : (t.without participant).Consistent := by
  have hcount := @countP_removed _ DiscoveredEndpoint.occupied
    (fun e => decide (e.data.participantGuidPrefix = participant)) {} rfl t.entries.toList
  constructor
  · rw [without_entries]
    exact (@lookup_cleared _ _ _ _ keyOf _
      (fun e => decide (e.data.participantGuidPrefix = participant)) {} h.keyed rfl).1
  · rw [without_entries]
    change t.size - (t.entriesOf participant).length = _
    unfold entriesOf
    rw [h.size, ← List.countP_eq_length_filter, ← hcount, Nat.add_sub_cancel]

theorem removed_ids (h : t.Consistent) :
    ((t.entriesOf participant).map (·.data.endpointId)).Nodup ∧
      ∀ id, id ∈ (t.entriesOf participant).map (·.data.endpointId) ↔
        t.entryOf (participant, id) ≠ none := by
  have howner : ∀ e ∈ t.entriesOf participant, keyOf e = (participant, e.data.endpointId) := by
    intro e he
    have hparticipant := (Bool.and_eq_true_iff.1 (List.mem_filter.1 he).2).2
    exact Prod.ext (of_decide_eq_true hparticipant) rfl
  have hkeys : (t.entriesOf participant).map keyOf =
      ((t.entriesOf participant).map (·.data.endpointId)).map (participant, ·) := by
    rw [List.map_map]
    exact List.map_congr_left howner
  have hnodup : ((t.entriesOf participant).map keyOf).Nodup := nodup_owners h.keyed
  constructor
  · rw [hkeys] at hnodup
    exact hnodup.of_map _
  · intro id
    have hmem := @mem_owners_iff _ _ _ _ keyOf _ (participant, id)
      (fun e => decide (e.data.participantGuidPrefix = participant)) h.keyed
    change (participant, id) ∈ (t.entriesOf participant).map keyOf ↔ _ at hmem
    rw [hkeys, List.mem_map_of_injective (Prod.mk_right_injective participant)] at hmem
    rw [hmem, Option.ne_none_iff_exists']
    constructor
    · rintro ⟨e, he, -⟩
      exact ⟨e, he⟩
    · rintro ⟨e, he⟩
      have hparticipant := congrArg Prod.fst ((mem_lookup h.keyed).1 he).2.2
      exact ⟨e, he, decide_eq_true hparticipant⟩

theorem removeParticipant_consistent (h : t.Consistent) :
    (t.removeParticipant participant null room).2.2.Consistent := by
  obtain ⟨henough, hfew⟩ := removeParticipant_eq t participant null room
  by_cases houtput : EnoughOutput (t.entriesOf participant).length null room
  · rw [henough houtput]
    exact without_consistent h
  · obtain ⟨e, heq⟩ := hfew houtput
    rw [heq]
    exact h

end Remove

/-- **Every call keeps the table a map.** -/
theorem call_consistent (t : DiscoveredEndpointTable capacity) (c : EndpointCall) (h : t.Consistent) :
    (t.call c).Consistent := by
  cases c with
  | upsert a => exact upsert_consistent h a
  | removeParticipant participant null room => exact removeParticipant_consistent h

theorem after_consistent (capacity : ℕ) (calls : List EndpointCall) : (after capacity calls).Consistent :=
  run_inv call_consistent consistent_initial calls

section Announcements

variable {announcements : List SedpMessageView} {a : SedpMessageView}

/-- The table after a run of announcements. -/
def announced (capacity : ℕ) (announcements : List SedpMessageView) : DiscoveredEndpointTable capacity :=
  after capacity (announcements.map .upsert)

theorem announced_consistent (capacity : ℕ) (announcements : List SedpMessageView) :
    (announced capacity announcements).Consistent :=
  after_consistent capacity _

theorem announced_snoc (announcements : List SedpMessageView) (a : SedpMessageView) :
    announced capacity (announcements ++ [a]) = ((announced capacity announcements).upsert a).2 := by
  unfold announced after
  rw [List.map_append, List.map_singleton, run_snoc]
  rfl

/-- No announcement of a run finds the table full. -/
def NeverFull (capacity : ℕ) (announcements : List SedpMessageView) : Prop :=
  ∀ before a rest, announcements = before ++ a :: rest →
    ((announced capacity before).upsert a).1.error ≠ some .tableFull

theorem NeverFull.of_snoc (h : NeverFull capacity (announcements ++ [a])) :
    NeverFull capacity announcements ∧
      ((announced capacity announcements).upsert a).1.error ≠ some .tableFull := by
  refine ⟨fun before b rest heq => ?_, h announcements a [] rfl⟩
  refine h before b (rest ++ [a]) ?_
  rw [heq, List.append_assoc, List.cons_append]

/-- An announcement with the highest number of its key. -/
def Highest (announcements : List SedpMessageView) (a : SedpMessageView) : Prop :=
  a ∈ announcements ∧ ∀ b ∈ announcements, b.endpoint.key = a.endpoint.key →
    b.sequenceNumber ≤ a.sequenceNumber

/-- One more announcement does not matter if it is for another key or not higher. -/
theorem Highest.snoc {b : SedpMessageView} (h : Highest announcements b)
    (ha : a.endpoint.key = b.endpoint.key → a.sequenceNumber ≤ b.sequenceNumber) :
    Highest (announcements ++ [a]) b := by
  refine ⟨List.mem_append_left _ h.1, fun c hc hkey => ?_⟩
  rcases List.mem_append.1 hc with hc | hc
  · exact h.2 c hc hkey
  · rw [List.mem_singleton.1 hc] at hkey ⊢
    exact ha hkey

/-- **The entries after a run of announcements**: every key that has been announced has one, and it is
that of a highest announcement. -/
theorem announced_highest (h : NeverFull capacity announcements) (key : GuidPrefix × EntityId) :
    ((announced capacity announcements).entryOf key = none ↔
      ∀ a ∈ announcements, a.endpoint.key ≠ key) ∧
    ∀ e ∈ (announced capacity announcements).entryOf key,
      ∃ a, Highest announcements a ∧ a.endpoint.key = key ∧ e = entryFor a := by
  induction announcements using List.reverseRecOn with
  | nil =>
    have hnone : (announced capacity []).entryOf key = none := entryOf_initial key
    rw [hnone]
    refine ⟨iff_of_true rfl fun a ha => absurd ha List.not_mem_nil, fun e he => ?_⟩
    cases he
  | append_singleton announcements a ih =>
    obtain ⟨hbefore, hroom⟩ := h.of_snoc
    obtain ⟨hnone, hsome⟩ := ih hbefore
    have hcases := upsert_cases (announced_consistent capacity announcements) a
    rw [announced_snoc]
    generalize (announced capacity announcements).upsert a = r at hcases hroom
    have hkeys : (∀ b ∈ announcements ++ [a], b.endpoint.key ≠ key) ↔
        (announced capacity announcements).entryOf key = none ∧ a.endpoint.key ≠ key := by
      rw [hnone, List.forall_mem_append, List.forall_mem_singleton]
    rw [hkeys]
    cases hcases with
    | @stale _ e hfound hnumber hr =>
      refine ⟨(and_iff_left_of_imp fun hgone heq => ?_).symm, fun e' he' => ?_⟩
      · rw [← heq, hfound] at hgone
        cases hgone
      · obtain ⟨b, hhighest, hkey, rfl⟩ := hsome e' he'
        refine ⟨b, hhighest.snoc fun heq => ?_, hkey, rfl⟩
        rw [heq, hkey, he'] at hfound
        cases hfound
        exact hnumber
    | full _ hr => exact absurd hr hroom
    | stored hr hnumber _ hentries =>
      rw [hentries]
      by_cases hkey : key = a.endpoint.key
      · rw [if_pos hkey]
        refine ⟨iff_of_false (Option.some_ne_none _) fun h => h.2 hkey.symm, fun e he => ?_⟩
        obtain rfl := Option.some.inj he
        -- the entries so far are lower
        refine ⟨a, ⟨List.mem_append_right _ List.mem_cons_self, fun c hc hc' => ?_⟩, hkey.symm, rfl⟩
        rcases List.mem_append.1 hc with hc | hc
        · have hentry : (announced capacity announcements).entryOf key ≠ none :=
            fun hgone => hnone.1 hgone c hc (hc'.trans hkey.symm)
          obtain ⟨e, he⟩ := Option.ne_none_iff_exists'.1 hentry
          obtain ⟨b, hhighest, hb, rfl⟩ := hsome e he
          have hlower := hnumber _ (hkey ▸ he)
          exact (hhighest.2 c hc (hc'.trans (hkey.symm.trans hb.symm))).trans hlower.le
        · rw [List.mem_singleton.1 hc]
      · rw [if_neg hkey]
        refine ⟨(and_iff_left (Ne.symm hkey)).symm, fun e he => ?_⟩
        obtain ⟨b, hhighest, hb, rfl⟩ := hsome e he
        exact ⟨b, hhighest.snoc fun heq => absurd (hb.symm.trans heq.symm) hkey, hb, rfl⟩

/-- No number is used for two announcements of a key. -/
def Unambiguous (announcements : List SedpMessageView) : Prop :=
  ∀ a ∈ announcements, ∀ b ∈ announcements, a.endpoint.key = b.endpoint.key →
    a.sequenceNumber = b.sequenceNumber → a.endpoint = b.endpoint

/-- The contents of the table: keys with data and number. -/
def contents (t : DiscoveredEndpointTable capacity) :
    Set ((GuidPrefix × EntityId) × SedpEndpointData × ℕ) :=
  { x | ∃ e ∈ t.entries.toList, e.occupied = true ∧ x = (e.data.key, e.data, e.sequenceNumber) }

theorem mem_contents (h : t.Consistent) {key : GuidPrefix × EntityId} {data : SedpEndpointData}
    {number : ℕ} : (key, data, number) ∈ t.contents ↔
      ∃ e ∈ t.entryOf key, e.data = data ∧ e.sequenceNumber = number := by
  constructor
  · rintro ⟨e, he, hocc, heq⟩
    obtain ⟨rfl, rfl, rfl⟩ : key = e.data.key ∧ data = e.data ∧ number = e.sequenceNumber :=
      ⟨congrArg (·.1) heq, congrArg (·.2.1) heq, congrArg (·.2.2) heq⟩
    exact ⟨e, (mem_lookup h.keyed).2 ⟨he, hocc, rfl⟩, rfl, rfl⟩
  · rintro ⟨e, he, rfl, rfl⟩
    obtain ⟨hmem, hocc, rfl⟩ := (mem_lookup h.keyed).1 he
    exact ⟨e, hmem, hocc, rfl⟩

/-- **The contents after a run of announcements are the highest of each key.** -/
theorem contents_announced (h : NeverFull capacity announcements) (hunique : Unambiguous announcements) :
    (announced capacity announcements).contents =
      { x | ∃ a, Highest announcements a ∧ x = (a.endpoint.key, a.endpoint, a.sequenceNumber) } := by
  ext ⟨key, data, number⟩
  obtain ⟨hnone, hsome⟩ := announced_highest h key
  rw [mem_contents (announced_consistent capacity announcements)]
  constructor
  · rintro ⟨e, he, rfl, rfl⟩
    obtain ⟨a, hhighest, rfl, rfl⟩ := hsome e he
    exact ⟨a, hhighest, rfl⟩
  · rintro ⟨a, hhighest, heq⟩
    obtain ⟨rfl, rfl, rfl⟩ : key = a.endpoint.key ∧ data = a.endpoint ∧ number = a.sequenceNumber :=
      ⟨congrArg (·.1) heq, congrArg (·.2.1) heq, congrArg (·.2.2) heq⟩
    have hentry : (announced capacity announcements).entryOf a.endpoint.key ≠ none :=
      fun hgone => hnone.1 hgone a hhighest.1 rfl
    obtain ⟨e, he⟩ := Option.ne_none_iff_exists'.1 hentry
    obtain ⟨b, hhighest', hkey, rfl⟩ := hsome e he
    -- both are highest, so they have one number, and so one content
    have hnumber : b.sequenceNumber = a.sequenceNumber :=
      le_antisymm (hhighest.2 b hhighest'.1 hkey) (hhighest'.2 a hhighest.1 hkey.symm)
    exact ⟨entryFor b, he, hunique b hhighest'.1 a hhighest.1 hkey hnumber, hnumber⟩

end Announcements

/-- **What `remove_participant` does**: with enough output the entries of the participant are removed and
their ids are reported, each once; otherwise nothing changes. -/
structure Removal (t : DiscoveredEndpointTable capacity) (participant : GuidPrefix)
    (null : Bool) (room : ℕ) : Prop where
  enough : EnoughOutput (t.entriesOf participant).length null room →
    let r := t.removeParticipant participant null room
    r.1 = none ∧ r.2.1.Nodup ∧ (∀ id, id ∈ r.2.1 ↔ t.find participant id ≠ none) ∧
      ∀ q id, r.2.2.find q id = if q = participant then none else t.find q id
  few : ¬ EnoughOutput (t.entriesOf participant).length null room →
    let r := t.removeParticipant participant null room
    r.1 ≠ none ∧ r.2.1 = [] ∧ r.2.2 = t

theorem Consistent.removal (h : t.Consistent) (participant : GuidPrefix) (null : Bool)
    (room : ℕ) : t.Removal participant null room := by
  obtain ⟨henough, hfew⟩ := removeParticipant_eq t participant null room
  refine ⟨fun houtput => ?_, fun houtput => ?_⟩
  · rw [henough houtput]
    obtain ⟨hnodup, hids⟩ := removed_ids h
    exact ⟨rfl, hnodup, hids, fun q id => without_entryOf h (q, id)⟩
  · obtain ⟨e, heq⟩ := hfew houtput
    rw [heq]
    exact ⟨Option.some_ne_none e, rfl, rfl⟩

end DiscoveredEndpointTable

open DiscoveredEndpointTable in
/-- **The endpoint table converges and stays consistent.** For every capacity: after every run of calls
the keys are unique, `size()` is the number of entries, and `remove_participant` is exact. Two runs of
the same announcements, in any order and with any repetitions, end with the same contents, if no
announcement finds the table full and no number is used for two announcements of a key; and the
contents are the highest announcements of the keys. -/
theorem endpoint_table_converges (capacity : ℕ) :
    (∀ calls, let t := DiscoveredEndpointTable.after capacity calls
      ((t.entries.toList.filter (·.occupied)).map (·.data.key)).Nodup ∧
        t.size = (t.entries.toList.filter (·.occupied)).length ∧
        ∀ participant null room,
          t.Removal participant null room) ∧
    ∀ first second : List SedpMessageView, (∀ a, a ∈ first ↔ a ∈ second) → Unambiguous first →
      NeverFull capacity first → NeverFull capacity second →
      (announced capacity first).contents = (announced capacity second).contents ∧
        (announced capacity first).contents =
          { x | ∃ a, Highest first a ∧ x = (a.endpoint.key, a.endpoint, a.sequenceNumber) } := by
  refine ⟨fun calls => ?_, fun first second hsame hunique hfirst hsecond => ?_⟩
  · have h := after_consistent capacity calls
    refine ⟨keyed_iff_nodup.1 h.keyed, ?_, h.removal⟩
    rw [h.size, List.countP_eq_length_filter]
  · have hunique' : Unambiguous second := by
      simp only [Unambiguous, ← hsame]
      exact hunique
    rw [contents_announced hfirst hunique, contents_announced hsecond hunique']
    refine ⟨?_, rfl⟩
    simp only [Highest, hsame]

/-- An announcement of an endpoint by its number. -/
def numberedAnnouncement (endpointId : EntityId) (sequenceNumber : ℕ) : SedpMessageView where
  endpoint := { endpointId }
  sequenceNumber := sequenceNumber
  submessageByteOrder := .littleEndian
  parameterByteOrder := .littleEndian

open DiscoveredEndpointTable in
/-- Two endpoints, one of them announced twice, in a table for two: the order of the announcements and the
repetition of one do not matter. -/
theorem two_endpoints_converge :
    let a := numberedAnnouncement #v[0, 0, 1, 3]
    let b := numberedAnnouncement #v[0, 0, 2, 3]
    NeverFull 2 [a 1, a 2, b 1] ∧ NeverFull 2 [b 1, a 2, a 1, a 2] ∧
      (announced 2 [a 1, a 2, b 1]).contents = (announced 2 [b 1, a 2, a 1, a 2]).contents := by
  intro a b
  have hfirst : NeverFull 2 [a 1, a 2, b 1] := by
    intro before x rest h
    rcases before with _ | ⟨_, _ | ⟨_, _ | ⟨_, before⟩⟩⟩ <;>
      first | (cases h; decide +kernel) | simp at h
  have hsecond : NeverFull 2 [b 1, a 2, a 1, a 2] := by
    intro before x rest h
    rcases before with _ | ⟨_, _ | ⟨_, _ | ⟨_, _ | ⟨_, before⟩⟩⟩⟩ <;>
      first | (cases h; decide +kernel) | simp at h
  refine ⟨hfirst, hsecond, ((endpoint_table_converges 2).2 _ _ ?_ ?_ hfirst hsecond).1⟩
  · intro x
    simp only [List.mem_cons, List.not_mem_nil]
    tauto
  · intro x hx y hy
    simp only [List.mem_cons, List.not_mem_nil, or_false] at hx hy
    rcases hx with rfl | rfl | rfl <;> rcases hy with rfl | rfl | rfl <;> intro hkey hnumber <;>
      first | rfl | exact absurd hkey (by decide)

end OpenRtdds
