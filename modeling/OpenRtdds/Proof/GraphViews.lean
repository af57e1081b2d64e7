import OpenRtdds.Proof.GraphWire
import OpenRtdds.Proof.ParserSafety

/-!
# The views of a graph never go back

A source changes its own records and emits snapshots of them; the network loses, duplicates and reorders
the snapshots; a destination applies the ones that arrive. The generation of a snapshot identifies the
records of the source, because it advances with every change of them and with nothing else, and the
destination keeps the records of the highest generation that has arrived.

* `GraphLink`, `GraphLink.Step`: the system.
* `GraphCache.step_here`: the local generation advances exactly with the local records.
* `GraphCache.step_newer`: a newer snapshot is applied unless there is no room for it.
* `GraphLink.Consistent`, `step_consistent`: the destination shows the source at the moment `view`.
* `graph_views_never_go_back`.
-/

namespace OpenRtdds

open Lib Guarded Raw

section System

/-- A snapshot that was sent at a moment of the source. -/
structure GraphEmission where
  moment : ℕ
  bytes : List UInt8
  generation : ℕ

/-- A source, the snapshots it has sent, and a destination with the snapshots that have arrived. The
states the source was in before are kept, and its number of changes. -/
structure GraphLink where
  source : GraphCache := {}
  past : List GraphCache := []
  changes : ℕ := 0
  sent : List GraphEmission := []
  destination : GraphCache := {}
  delivered : List GraphEmission := []

namespace GraphLink

/-- The states of the source so far; a moment is an index of this list. -/
def moments (s : GraphLink) : List GraphCache := s.past ++ [s.source]

/-- The snapshot of the highest generation that has arrived. -/
def latest (s : GraphLink) : Option GraphEmission := s.delivered.argmax (·.generation)

/-- The moment of this snapshot; before the first one it is the beginning. -/
def view (s : GraphLink) : ℕ := (s.latest.map (·.moment)).getD 0

/-- The source performs an operation. -/
def perform (s : GraphLink) (op : GraphOp) : GraphLink :=
  { s with
    source := s.source.step op
    past := s.past ++ [s.source]
    changes := if (s.source.perform op).1 = .error none then s.changes + 1 else s.changes }

/-- A snapshot arrives at the destination. -/
def deliver (s : GraphLink) (peer : GuidPrefix) (e : GraphEmission) : GraphLink :=
  { s with
    destination := s.destination.step (.applyRemote peer (.bytes e.bytes) e.generation)
    delivered := s.delivered ++ [e] }

/-- A step of the system, whose source has the prefix `participantPrefix`. Any snapshot that was ever
sent may arrive, so snapshots may be lost, duplicated and reordered. -/
inductive Step (peer : GuidPrefix) : GraphLink → GraphLink → Prop
  /-- The source performs an operation, but fewer than `2^62` changes in all. -/
  | source (s : GraphLink) (op : GraphOp) (changes : (s.perform op).changes < 2 ^ 62) :
      Step peer s (s.perform op)
  /-- The source sends a snapshot. -/
  | emit (s : GraphLink) (bytes : List UInt8) (generation : ℕ)
      (serialized : s.source.serializeLocal false 32768 = .ok (bytes, generation)) :
      Step peer s { s with sent := s.sent ++ [⟨s.past.length, bytes, generation⟩] }
  /-- A snapshot arrives, and is not refused for lack of room. -/
  | deliver (s : GraphLink) (e : GraphEmission) (sent : e ∈ s.sent)
      (room : s.destination.applyRemote peer (.bytes e.bytes) e.generation ≠
        .error (.rejected, .capacityExceeded)) :
      Step peer s (s.deliver peer e)
  /-- The destination performs an operation on itself or on another participant. -/
  | destination (s : GraphLink) (op : GraphOp) (apart : op.participant? ≠ some peer) :
      Step peer s { s with destination := s.destination.step op }

/-- The destination shows the records of a source in the state `cache`. -/
structure Shows (peer : GuidPrefix) (destination cache : GraphCache) : Prop where
  nodes : destination.nodesOf (.participant peer) =
    cache.localNodes.map (GraphCache.asRemoteNode peer)
  endpoints : destination.endpointsOf (.participant peer) =
    cache.localEndpoints.map (GraphCache.asRemoteEndpoint peer)

end GraphLink

end System

namespace GraphCache

section Source

/-- **The local generation advances exactly with the local records.** -/
theorem step_here (cache : GraphCache) (op : GraphOp) :
    ((cache.perform op).1 = .error none ∧
        (cache.step op).localGeneration = nextGeneration cache.localGeneration) ∨
      ((cache.perform op).1 ≠ .error none ∧
        (cache.step op).localGeneration = cache.localGeneration ∧
        SameRecords cache (cache.step op) .here) := by
  have hcases := cache.perform_cases op
  generalize (cache.perform op).1 = result at hcases ⊢
  generalize cache.step op = cache' at hcases ⊢
  cases hcases with
  | unchanged hnone _ => exact .inr ⟨hnone, rfl, rfl, rfl⟩
  | here _ hchange => exact .inl ⟨rfl, hchange.localGeneration⟩
  | applied _ _ hchange =>
    exact .inr ⟨GraphResult.noConfusion, hchange.localGeneration,
      hchange.others .here GraphOwner.noConfusion⟩
  | removed hchange =>
    exact .inr ⟨GraphResult.noConfusion, hchange.localGeneration,
      hchange.others .here GraphOwner.noConfusion⟩

end Source

section Arrival

variable {cache : GraphCache} {peer : GuidPrefix}

/-- **A newer snapshot is applied**, unless there is no room for it. -/
theorem step_newer {source : GraphCache} (hnonzero : nonzeroPrefix peer = true)
    (hsource : source.Inv) (hnodes : source.localNodes.length ≤ 8)
    (hendpoints : source.localEndpoints.length ≤ 16)
    (hnewer : ∀ entry ∈ cache.entriesOf peer, entry.generation < source.localGeneration) :
    let payload := Span.bytes
      (snapshotBytes source.localNodes source.localEndpoints source.localGeneration)
    let op := GraphOp.applyRemote peer payload source.localGeneration
    cache.applyRemote peer payload source.localGeneration ≠
        .error (.rejected, .capacityExceeded) →
      GraphLink.Shows peer (cache.step op) source ∧
      (cache.step op).entriesOf peer =
        { participantPrefix := peer, generation := source.localGeneration, occupied := true } ::
          (cache.entriesOf peer).tail := by
  intro payload op hroom
  have hcoherent : Coherent source.localNodes source.localEndpoints := by
    rw [localNodes_eq, localEndpoints_eq]
    exact hsource.coherent .here
  obtain ⟨snapshot, hread, hgeneration, hnodeCount, hendpointCount, hnodeList, hendpointList⟩ :=
    readSnapshot_snapshotBytes hnonzero hcoherent hnodes hendpoints hsource.localGeneration
  have happly : cache.applyRemote peer payload source.localGeneration =
      cache.commitSnapshot peer snapshot := by
    unfold applyRemote
    rw [hread, ok_bind]
  have haccepted := readSnapshot_yields peer payload source.localGeneration
  rw [hread] at haccepted
  have hcommit := cache.commitSnapshot_cases haccepted.of_ok
  rw [← hgeneration] at hnewer
  rw [← happly] at hcommit
  have hchanged : (cache.perform op).1 = .update .changed := by
    change (cache.remoteResult (cache.applyRemote peer payload _)).1 = _
    generalize cache.applyRemote peer payload _ = result at hcommit hroom ⊢
    cases hcommit with
    | applied => rfl
    | @stale entry hknown hstale => exact absurd (hnewer entry hknown) hstale
    | full => exact absurd rfl hroom
  rcases cache.applyRemote_cases peer payload source.localGeneration with
    ⟨hunchanged, -⟩ | ⟨-, snapshot', hread', -, happlied⟩
  · exact absurd hchanged hunchanged
  have hsame : snapshot' = snapshot := Guarded.ok.inj (hread'.symm.trans hread)
  rw [hsame] at happlied
  refine ⟨⟨happlied.nodes.trans hnodeList, happlied.endpoints.trans hendpointList⟩, ?_⟩
  rw [← hgeneration]
  exact happlied.entry

/-- A snapshot that is not newer changes nothing. -/
theorem step_stale {payload : Span} {generation : ℕ} {entry : RemoteGeneration}
    (hentry : entry ∈ (cache.entriesOf peer).head?) (hstale : generation ≤ entry.generation) :
    cache.step (.applyRemote peer payload generation) = cache := by
  rcases cache.applyRemote_cases peer payload generation with
    ⟨-, hsame⟩ | ⟨-, snapshot, -, haccepted, happlied⟩
  · exact hsame
  · have hnewer := happlied.newer entry hentry
    rw [haccepted.generation] at hnewer
    exact absurd hstale (not_le.2 hnewer)

/-- What `serialize_local` returns, when it succeeds. -/
theorem serializeLocal_ok (h : cache.Inv) {bytes : List UInt8} {generation : ℕ}
    (hserialized : cache.serializeLocal false 32768 = .ok (bytes, generation)) :
    cache.localNodes.length ≤ 8 ∧ cache.localEndpoints.length ≤ 16 ∧
      bytes = snapshotBytes cache.localNodes cache.localEndpoints cache.localGeneration ∧
      generation = cache.localGeneration := by
  have hcounts : ¬ (cache.localNodes.length > 8 ∨ cache.localEndpoints.length > 16) := by
    intro hmany
    unfold serializeLocal at hserialized
    rw [if_neg (by decide), if_pos hmany] at hserialized
    cases hserialized
  have hnodes : cache.localNodes.length ≤ 8 := by omega
  have hendpoints : cache.localEndpoints.length ≤ 16 := by omega
  have hcoherent : Coherent cache.localNodes cache.localEndpoints := by
    rw [localNodes_eq, localEndpoints_eq]
    exact h.coherent .here
  rw [serializeLocal_eq hcoherent hnodes hendpoints (by decide)] at hserialized
  cases hserialized
  exact ⟨hnodes, hendpoints, rfl, rfl⟩

end Arrival

end GraphCache

namespace GraphLink

section Invariant

open GraphCache

variable {s s' : GraphLink} {peer : GuidPrefix}

/-- The generation identifies the records: of two states of a source, the later one has the higher
generation or the same records. -/
def Before (earlier later : GraphCache) : Prop :=
  earlier.localGeneration < later.localGeneration ∨
    earlier.localGeneration = later.localGeneration ∧ SameRecords earlier later .here

theorem Before.trans {a b c : GraphCache} (hab : Before a b) (hbc : Before b c) : Before a c := by
  rcases hab with hab | ⟨hab, hsame⟩
  · rcases hbc with hbc | ⟨hbc, -⟩
    · exact .inl (hab.trans hbc)
    · exact .inl (hbc ▸ hab)
  · rcases hbc with hbc | ⟨hbc, hsame'⟩
    · exact .inl (hab ▸ hbc)
    · exact .inr ⟨hab.trans hbc, hsame'.nodes.trans hsame.nodes, hsame'.endpoints.trans hsame.endpoints⟩

theorem before_of_lt {moments : List GraphCache} (h : moments.Pairwise Before) {i j : ℕ} (hij : i < j)
    {a b : GraphCache} (ha : moments[i]? = some a) (hb : moments[j]? = some b) : Before a b := by
  obtain ⟨hi, rfl⟩ := List.getElem?_eq_some_iff.1 ha
  obtain ⟨hj, rfl⟩ := List.getElem?_eq_some_iff.1 hb
  exact List.pairwise_iff_getElem.1 h i j hi hj hij

/-- A snapshot is one of the source at its moment. -/
structure Taken (moments : List GraphCache) (e : GraphEmission) (cache : GraphCache) : Prop where
  moment : moments[e.moment]? = some cache
  inv : cache.Inv
  nodes : cache.localNodes.length ≤ 8
  endpoints : cache.localEndpoints.length ≤ 16
  bytes : e.bytes = snapshotBytes cache.localNodes cache.localEndpoints cache.localGeneration
  generation : e.generation = cache.localGeneration

/-- **The invariant of the system.** -/
structure Consistent (peer : GuidPrefix) (s : GraphLink) : Prop where
  source : s.source.Inv
  changes : s.changes < 2 ^ 62
  generation : s.source.localGeneration = s.changes + 1
  ordered : s.moments.Pairwise Before
  start : s.moments[0]? = some ({} : GraphCache)
  taken : ∀ e ∈ s.sent, ∃ cache, Taken s.moments e cache
  sent : ∀ e ∈ s.delivered, e ∈ s.sent
  entry : s.destination.entriesOf peer = s.latest.toList.map fun e =>
    { participantPrefix := peer, generation := e.generation, occupied := true }
  shows : ∃ cache, s.moments[s.view]? = some cache ∧ Shows peer s.destination cache

theorem consistent_initial : Consistent peer {} where
  source := GraphCache.inv_initial
  changes := by decide
  generation := rfl
  ordered := List.pairwise_singleton _ _
  start := rfl
  taken := fun _ he => absurd he List.not_mem_nil
  sent := fun _ he => absurd he List.not_mem_nil
  entry := entriesOf_initial _
  shows := by
    refine ⟨{}, rfl, ?_, ?_⟩
    · rw [localNodes_eq, nodesOf_initial, nodesOf_initial]
      rfl
    · rw [localEndpoints_eq, endpointsOf_initial, endpointsOf_initial]
      rfl

theorem perform_moments (op : GraphOp) {moment : ℕ} {cache : GraphCache}
    (h : s.moments[moment]? = some cache) : (s.perform op).moments[moment]? = some cache := by
  change (s.moments ++ [s.source.step op])[moment]? = some cache
  rw [List.getElem?_append_left (List.getElem?_eq_some_iff.1 h).1, h]

/-- The source performs an operation: a change advances its generation by one, and anything else keeps
its records. -/
theorem Consistent.perform (h : Consistent peer s) {op : GraphOp}
    (hchanges : (s.perform op).changes < 2 ^ 62) : Consistent peer (s.perform op) := by
  have hsource : (s.perform op).source.Inv := GraphCache.step_inv _ _ h.source
  have hnext : nextGeneration s.source.localGeneration = s.changes + 2 := by
    have hmax : 2 ^ 62 + 1 < int64Max := by decide
    have hbound := h.changes
    rw [h.generation]
    unfold nextGeneration
    rw [if_neg (by omega)]
  have hstep : (s.perform op).source.localGeneration = (s.perform op).changes + 1 ∧
      Before s.source (s.perform op).source := by
    rcases s.source.step_here op with ⟨hresult, hgeneration⟩ | ⟨hresult, hgeneration, hsame⟩
    · have hcount : (s.perform op).changes = s.changes + 1 := if_pos hresult
      rw [hnext] at hgeneration
      refine ⟨?_, .inl ?_⟩
      · rw [hcount]
        exact hgeneration
      · rw [h.generation]
        exact (Nat.lt_succ_self _).trans_eq hgeneration.symm
    · have hcount : (s.perform op).changes = s.changes := if_neg hresult
      refine ⟨?_, .inr ⟨hgeneration.symm, hsame⟩⟩
      rw [hcount]
      exact hgeneration.trans h.generation
  have hordered : (s.perform op).moments.Pairwise Before := by
    refine List.pairwise_append.2 ⟨h.ordered, List.pairwise_singleton _ _, fun a ha b hb => ?_⟩
    rw [List.mem_singleton.1 hb]
    -- the current state comes after all the past ones
    rcases List.mem_append.1 ha with hpast | hnow
    · have hbefore := (List.pairwise_append.1 h.ordered).2.2 a hpast s.source List.mem_cons_self
      exact hbefore.trans hstep.2
    · rw [List.mem_singleton.1 hnow]
      exact hstep.2
  refine ⟨hsource, hchanges, hstep.1, hordered, perform_moments op h.start, fun e he => ?_, h.sent,
    h.entry, ?_⟩
  · obtain ⟨cache, htaken⟩ := h.taken e he
    exact ⟨cache, { htaken with moment := perform_moments op htaken.moment }⟩
  · obtain ⟨cache, hmoment, hshows⟩ := h.shows
    exact ⟨cache, perform_moments op hmoment, hshows⟩

/-- The source sends a snapshot of its records at this moment. -/
theorem Consistent.emit (h : Consistent peer s) {bytes : List UInt8} {generation : ℕ}
    (hserialized : s.source.serializeLocal false 32768 = .ok (bytes, generation)) :
    Consistent peer { s with sent := s.sent ++ [⟨s.past.length, bytes, generation⟩] } := by
  obtain ⟨hnodes, hendpoints, rfl, rfl⟩ := serializeLocal_ok h.source hserialized
  refine ⟨h.source, h.changes, h.generation, h.ordered, h.start, fun e he => ?_,
    fun e he => List.mem_append_left _ (h.sent e he), h.entry, h.shows⟩
  rcases List.mem_append.1 he with he | he
  · exact h.taken e he
  · rw [List.mem_singleton.1 he]
    exact ⟨s.source, List.getElem?_concat_length, h.source, hnodes, hendpoints, rfl, rfl⟩

/-- The destination performs an operation that is not about the source. -/
theorem Consistent.apart (h : Consistent peer s) {op : GraphOp}
    (hop : op.participant? ≠ some peer) :
    Consistent peer { s with destination := s.destination.step op } := by
  obtain ⟨hsame, hentries⟩ := s.destination.step_apart hop
  refine ⟨h.source, h.changes, h.generation, h.ordered, h.start, h.taken, h.sent,
    hentries.trans h.entry, ?_⟩
  obtain ⟨cache, hmoment, hshows⟩ := h.shows
  exact ⟨cache, hmoment, hsame.nodes.trans hshows.nodes, hsame.endpoints.trans hshows.endpoints⟩

/-- Higher generations are of later moments. -/
theorem Consistent.moment_lt (h : Consistent peer s) {e e' : GraphEmission}
    (he : e ∈ s.sent) (he' : e' ∈ s.sent) (hlt : e.generation < e'.generation) :
    e.moment < e'.moment := by
  obtain ⟨cache, htaken⟩ := h.taken e he
  obtain ⟨cache', htaken'⟩ := h.taken e' he'
  rw [htaken.generation, htaken'.generation] at hlt
  by_contra hle
  rcases Nat.lt_or_eq_of_le (not_lt.1 hle) with hmoment | hmoment
  · rcases before_of_lt h.ordered hmoment htaken'.moment htaken.moment with hgt | ⟨heq, -⟩
    · omega
    · omega
  · have hsame := htaken'.moment.symm.trans (hmoment ▸ htaken.moment)
    rw [Option.some.inj hsame] at hlt
    exact lt_irrefl _ hlt

/-- Snapshots of one generation show the same records. -/
theorem Consistent.same_records (h : Consistent peer s) {e e' : GraphEmission}
    {cache cache' : GraphCache} (htaken : Taken s.moments e cache) (htaken' : Taken s.moments e' cache')
    (hgeneration : e.generation = e'.generation) : SameRecords cache cache' .here := by
  rw [htaken.generation, htaken'.generation] at hgeneration
  rcases Nat.lt_trichotomy e.moment e'.moment with hlt | heq | hgt
  · rcases before_of_lt h.ordered hlt htaken.moment htaken'.moment with hless | ⟨-, hsame⟩
    · omega
    · exact hsame
  · have hsame := htaken.moment.symm.trans (heq ▸ htaken'.moment)
    rw [Option.some.inj hsame]
    exact ⟨rfl, rfl⟩
  · rcases before_of_lt h.ordered hgt htaken'.moment htaken.moment with hless | ⟨-, hsame⟩
    · omega
    · exact ⟨hsame.nodes.symm, hsame.endpoints.symm⟩

/-- The latest snapshot is the new one, if it is newer than all before. -/
theorem latest_deliver (e : GraphEmission) :
    (s.deliver peer e).latest =
      if ∀ c ∈ s.latest, c.generation < e.generation then some e else s.latest := by
  unfold latest GraphLink.deliver
  rw [List.argmax_concat]
  cases s.delivered.argmax (·.generation) with
  | none => simp
  | some c => simp

/-- **A snapshot arrives**: it is newer than all before and replaces the records of the source, or
nothing changes. -/
theorem Consistent.deliver (h : Consistent peer s)
    (hnonzero : nonzeroPrefix peer = true) {e : GraphEmission} (he : e ∈ s.sent)
    (hroom : s.destination.applyRemote peer (.bytes e.bytes) e.generation ≠
      .error (.rejected, .capacityExceeded)) : Consistent peer (s.deliver peer e) := by
  have hsent : ∀ e' ∈ (s.deliver peer e).delivered, e' ∈ s.sent := by
    intro e' he'
    rcases List.mem_append.1 he' with he' | he'
    · exact h.sent e' he'
    · rwa [List.mem_singleton.1 he']
  by_cases hnewer : ∀ c ∈ s.latest, c.generation < e.generation
  · have hlatest : (s.deliver peer e).latest = some e := by
      rw [latest_deliver, if_pos hnewer]
    obtain ⟨cache, htaken⟩ := h.taken e he
    have holder : ∀ entry ∈ s.destination.entriesOf peer,
        entry.generation < cache.localGeneration := by
      intro entry hentry
      rw [h.entry] at hentry
      obtain ⟨c, hc, rfl⟩ := List.mem_map.1 hentry
      rw [← htaken.generation]
      exact hnewer c (Option.mem_toList.1 hc)
    have htail : (s.destination.entriesOf peer).tail = [] := by
      rw [h.entry]
      cases s.latest <;> rfl
    obtain ⟨hshows, hentry⟩ := step_newer hnonzero htaken.inv htaken.nodes htaken.endpoints holder
      (by rwa [← htaken.bytes, ← htaken.generation])
    rw [← htaken.bytes, ← htaken.generation] at hshows hentry
    refine ⟨h.source, h.changes, h.generation, h.ordered, h.start, h.taken, hsent, ?_, cache, ?_, hshows⟩
    · rw [hlatest]
      exact hentry.trans (by rw [htail]; rfl)
    · unfold view
      rw [hlatest]
      exact htaken.moment
  · have hlatest : (s.deliver peer e).latest = s.latest := by
      rw [latest_deliver, if_neg hnewer]
    obtain ⟨c, hc, hle⟩ : ∃ c ∈ s.latest, e.generation ≤ c.generation := by
      push Not at hnewer
      exact hnewer
    have hsame : (s.deliver peer e).destination = s.destination := by
      have hentry : ({ participantPrefix := peer, generation := c.generation, occupied := true } :
          RemoteGeneration) ∈ (s.destination.entriesOf peer).head? := by
        rw [h.entry, Option.mem_def.1 hc]
        rfl
      exact step_stale hentry hle
    refine ⟨h.source, h.changes, h.generation, h.ordered, h.start, h.taken, hsent, ?_, ?_⟩
    · rw [hsame, hlatest]
      exact h.entry
    · unfold view
      rw [hsame, hlatest]
      exact h.shows

/-- **Every step keeps the system consistent.** -/
theorem step_consistent (hnonzero : nonzeroPrefix peer = true)
    (h : Consistent peer s) (hstep : Step peer s s') : Consistent peer s' := by
  cases hstep with
  | source op hchanges => exact h.perform hchanges
  | emit bytes generation hserialized => exact h.emit hserialized
  | deliver e he hroom => exact h.deliver hnonzero he hroom
  | destination op hop => exact h.apart hop

/-- **No step takes the view back**, and the moments stay where they are. -/
theorem step_view (h : Consistent peer s) (hstep : Step peer s s') :
    s.view ≤ s'.view ∧ s.moments <+: s'.moments := by
  cases hstep with
  | source op hchanges => exact ⟨le_rfl, List.prefix_append _ _⟩
  | emit bytes generation hserialized => exact ⟨le_rfl, List.prefix_rfl⟩
  | destination op hop => exact ⟨le_rfl, List.prefix_rfl⟩
  | deliver e he hroom =>
    refine ⟨?_, List.prefix_rfl⟩
    unfold view
    rw [latest_deliver]
    split
    next hnewer =>
      cases hc : s.latest with
      | none => exact Nat.zero_le _
      | some c =>
        exact (h.moment_lt (h.sent c (List.argmax_mem hc)) he (hnewer c hc)).le
    next => exact le_rfl

/-- **The system is consistent in every state that it reaches.** -/
theorem reach_consistent (hnonzero : nonzeroPrefix peer = true)
    (hs : Relation.ReflTransGen (Step peer) {} s) : Consistent peer s := by
  induction hs with
  | refl => exact consistent_initial
  | tail _ hstep ih => exact step_consistent hnonzero ih hstep

theorem reach_view (hnonzero : nonzeroPrefix peer = true)
    (h : Consistent peer s) (hs : Relation.ReflTransGen (Step peer) s s') :
    Consistent peer s' ∧ s.view ≤ s'.view ∧ s.moments <+: s'.moments := by
  induction hs with
  | refl => exact ⟨h, le_rfl, List.prefix_rfl⟩
  | tail _ hstep ih =>
    obtain ⟨hconsistent, hview, hmoments⟩ := ih
    obtain ⟨hview', hmoments'⟩ := step_view hconsistent hstep
    exact ⟨step_consistent hnonzero hconsistent hstep, hview.trans hview', hmoments.trans hmoments'⟩

/-- All snapshots of the highest generation show the same records. -/
theorem Consistent.shows_highest (h : Consistent peer s) {e : GraphEmission}
    (he : e ∈ s.delivered) (hhighest : ∀ e' ∈ s.delivered, e'.generation ≤ e.generation) :
    ∃ cache, s.moments[e.moment]? = some cache ∧ Shows peer s.destination cache := by
  obtain ⟨c, hc⟩ : ∃ c, s.latest = some c := by
    refine Option.ne_none_iff_exists'.1 fun hnone => ?_
    rw [List.argmax_eq_none.1 hnone] at he
    exact absurd he List.not_mem_nil
  have hdelivered : c ∈ s.delivered := List.argmax_mem hc
  have hgeneration : c.generation = e.generation :=
    le_antisymm (hhighest c hdelivered) (List.le_of_mem_argmax he hc)
  obtain ⟨cache, hmoment, hshows⟩ := h.shows
  obtain ⟨cache', htaken'⟩ := h.taken c (h.sent c hdelivered)
  obtain ⟨cache'', htaken''⟩ := h.taken e (h.sent e he)
  have hview : s.view = c.moment := by
    unfold view
    rw [hc]
    rfl
  have hsame : cache = cache' := by
    rw [hview] at hmoment
    exact Option.some.inj (hmoment.symm.trans htaken'.moment)
  obtain ⟨hnodes, hendpoints⟩ := h.same_records htaken' htaken'' hgeneration
  rw [← localNodes_eq, ← localNodes_eq] at hnodes
  rw [← localEndpoints_eq, ← localEndpoints_eq] at hendpoints
  refine ⟨cache'', htaken''.moment, ?_, ?_⟩
  · rw [hnodes, ← hsame]
    exact hshows.nodes
  · rw [hendpoints, ← hsame]
    exact hshows.endpoints

end Invariant

end GraphLink

section Results

open GraphLink

/-- **The views of a graph are past states of the source and never go back.** In every state that the
system reaches, with snapshots lost, duplicated and reordered, and with any other operations on both
sides, the destination shows the records that the source had at the moment of the highest generation
that has arrived, whichever snapshot of this generation one takes; and in all states after it the
destination shows this moment or a later one. -/
theorem graph_views_never_go_back (peer : GuidPrefix)
    (hnonzero : nonzeroPrefix peer = true) (s : GraphLink)
    (hs : Relation.ReflTransGen (Step peer) {} s) :
    (∃ cache, s.moments[s.view]? = some cache ∧ Shows peer s.destination cache) ∧
      (∀ e ∈ s.delivered, (∀ e' ∈ s.delivered, e'.generation ≤ e.generation) →
        ∃ cache, s.moments[e.moment]? = some cache ∧ Shows peer s.destination cache) ∧
      ∀ s', Relation.ReflTransGen (Step peer) s s' →
        s.view ≤ s'.view ∧ s.moments <+: s'.moments := by
  have hconsistent := reach_consistent hnonzero hs
  refine ⟨hconsistent.shows, fun e he hhighest => hconsistent.shows_highest he hhighest, fun s' hs' => ?_⟩
  exact (reach_view hnonzero hconsistent hs').2

/-- The snapshot of the context that publishes one topic. -/
def talkerEmission : GraphEmission :=
  let cache := run GraphCache.step {} talkerOps
  { moment := 2
    bytes := GraphCache.snapshotBytes cache.localNodes cache.localEndpoints cache.localGeneration
    generation := cache.localGeneration }

/-- The arrival of the snapshot at another context. -/
def talkerLink : GraphLink :=
  { run GraphLink.perform {} talkerOps with sent := [talkerEmission] }.deliver talkerPrefix talkerEmission

theorem talker_view_is_past : talkerLink.view = 2 ∧
    ∃ cache, talkerLink.moments[2]? = some cache ∧
      Shows talkerPrefix talkerLink.destination cache := by
  let cache := run GraphCache.step {} talkerOps
  have hinv : cache.Inv := GraphCache.run_inv talkerOps
  have hcoherent : Coherent cache.localNodes cache.localEndpoints := by
    rw [GraphCache.localNodes_eq, GraphCache.localEndpoints_eq]
    exact hinv.coherent .here
  have hnodes : cache.localNodes.length = 1 := by decide +kernel
  have hendpoints : cache.localEndpoints.length = 1 := by decide +kernel
  have hoperations : Relation.ReflTransGen (Step talkerPrefix) {} (run GraphLink.perform {} talkerOps) :=
    (Relation.ReflTransGen.single (.source _ _ (by decide +kernel))).tail
      (.source _ _ (by decide +kernel))
  have hemit : Step talkerPrefix (run GraphLink.perform {} talkerOps)
      { run GraphLink.perform {} talkerOps with sent := [talkerEmission] } :=
    .emit _ _ _ (GraphCache.serializeLocal_eq hcoherent (by omega) (by omega) (by decide))
  have hnonzero : nonzeroPrefix talkerPrefix = true := by decide
  obtain ⟨hchanged, -⟩ := GraphCache.applyRemote_snapshotBytes hnonzero hcoherent (by omega) (by omega)
    hinv.localGeneration
    (by rw [GraphCache.entriesOf_initial]; exact fun _ h => absurd h List.not_mem_nil)
    (.inr GraphCache.entry_initial) (GraphCache.room_initial (by omega) (by omega))
  have hs : Relation.ReflTransGen (Step talkerPrefix) {} talkerLink := by
    refine (hoperations.tail hemit).tail (.deliver _ _ List.mem_cons_self fun hfull => ?_)
    have hresult : (({} : GraphCache).remoteResult (.error (.rejected, .capacityExceeded))).1 =
        .update .changed := (congrArg (fun r => (({} : GraphCache).remoteResult r).1) hfull).symm.trans
          hchanged
    cases hresult
  exact ⟨rfl, (graph_views_never_go_back talkerPrefix hnonzero talkerLink hs).1⟩

end Results

end OpenRtdds
