import OpenRtdds.Proof.TopicSample
import OpenRtdds.Spec.PublisherRun

/-!
# The history of a publisher

The history holds the last samples that were published, and what the network worker asks for is found in
it by number.

* `HistoryInv`: the history is the end of the log of the publications. `publisherCall_inv`,
  `publisherRun_inv`.
* `networkCopyNext_iff`: what a read of the history returns.
* `evicted_iff`: a number has left the history when it is below the oldest one.
* `WalkInv`: the numbers of a walk increase, and it passes over those that were evicted before.
  `walk_inv`.
* `publisher_history_is_last_samples`.
-/

namespace OpenRtdds

open Lib

namespace Publisher

variable {D : ℕ} [NeZero D] {p p' : Publisher D}

/-- The DATA datagram of a sample. -/
def dataPacket (p : Publisher D) (x : PublishedSample) : List UInt8 :=
  dataMessageBytes (p.dataConfig x.sequenceNumber) x.payload

/-- The publisher as it is after the publications of a log. -/
structure HistoryInv (p : Publisher D) (log : List PublishedSample) (capacity : ℕ) : Prop where
  numbered : p.Numbered
  capacity : p.serializedCapacity = capacity
  retained : p.retained = log.drop (log.length - D)
  next : p.nextSequence = log.length + 1
  buildable : ∀ x ∈ p.retained, buildDataMessage false (p.serializedCapacity + 44)
    (p.dataConfig x.sequenceNumber) (.bytes x.payload) = .ok (p.dataPacket x)

theorem retained_length (p : Publisher D) : p.retained.length = p.historySize :=
  contents_length _ _ _

theorem HistoryInv.init (participantPrefix : GuidPrefix) (writerId : EntityId) (capacity : ℕ) :
    HistoryInv (Publisher.init participantPrefix writerId capacity : Publisher D) [] capacity :=
  ⟨.init _ _ _, rfl, List.drop_nil.symm, rfl, fun _ hx => absurd hx List.not_mem_nil⟩

/-- A publication appends its sample to the log. -/
theorem HistoryInv.published {log : List PublishedSample} {capacity t : ℕ} {serialized : List UInt8}
    (h : p.HistoryInv log capacity) (hpublish : p.publishSerialized serialized (some t) = .ok p') :
    p'.HistoryInv (log ++ [⟨log.length + 1, t, serialized⟩]) capacity := by
  have hok := publishSerialized_ok hpublish
  have hretained := retained_published hpublish
  have hsize := p.retained_length
  rw [h.retained, List.length_drop] at hsize
  have hle := p.size_le
  rw [h.next] at hretained
  refine ⟨h.numbered.published hpublish, hok.capacity.trans h.capacity, ?_, ?_, fun x hx => ?_⟩
  · rw [hretained, h.retained, List.length_append, List.length_singleton]
    by_cases hfull : p.historySize = D
    · have hlong : log.length + 1 - D = (log.length - D) + 1 := by omega
      rw [if_pos hfull, hlong, List.tail_drop, List.drop_append_of_le_length]
      have hpos := Nat.pos_of_neZero D
      omega
    · have hshort : log.length + 1 - D = 0 ∧ log.length - D = 0 := by omega
      rw [if_neg hfull, hshort.1, hshort.2, List.drop_zero, List.drop_zero]
  · rw [hok.next, h.next, List.length_append, List.length_singleton]
  · have hconfig : ∀ n, p'.dataConfig n = p.dataConfig n := by
      intro n
      unfold dataConfig
      rw [hok.participantPrefix, hok.writerId]
    have hpacket : p'.dataPacket x = p.dataPacket x := by
      unfold dataPacket
      rw [hconfig]
    rw [hconfig, hok.capacity, hpacket]
    rw [retained_published hpublish] at hx
    rcases List.mem_append.1 hx with hx | hx
    · refine h.buildable x ?_
      split at hx
      · exact List.mem_of_mem_tail hx
      · exact hx
    · obtain rfl := List.mem_singleton.1 hx
      dsimp only
      rw [hok.datagram, (build_ok hok.datagram).1.bytes]
      rfl

/-- The sample with the smallest retained number above a bound. -/
structure NextAbove (p : Publisher D) (after : ℕ) (x : PublishedSample) : Prop where
  retained : x ∈ p.retained
  above : after < x.sequenceNumber
  least : ∀ y ∈ p.retained, after < y.sequenceNumber → x.sequenceNumber ≤ y.sequenceNumber

theorem selectNext_iff (hp : p.Numbered) {after : ℕ} {x : PublishedSample} :
    p.selectNext after = some x ↔ p.NextAbove after x := by
  obtain ⟨hfrom, hleast⟩ := selectNext_spec hp after
  constructor
  · intro hx
    obtain ⟨hmem, habove⟩ := hfrom x hx
    refine ⟨hmem, habove, fun y hy hafter => ?_⟩
    obtain ⟨z, hz, hle⟩ := hleast y hy hafter
    obtain rfl := Option.some.inj (hx.symm.trans hz)
    exact hle
  · intro hx
    obtain ⟨z, hz, hle⟩ := hleast x hx.retained hx.above
    obtain ⟨hmem, habove⟩ := hfrom z hz
    have hge := hx.least z hmem habove
    rw [hz, hp.unique hmem hx.retained (le_antisymm hle hge)]

/-- **What a read returns**: the datagram of the next sample, if it fits into the buffer. -/
theorem HistoryInv.networkCopyNext_iff {log : List PublishedSample} {capacity : ℕ}
    (h : p.HistoryInv log capacity) {after bufferSize n : ℕ} {packet : List UInt8} :
    p.networkCopyNext after bufferSize = some (n, packet) ↔
      ∃ x, p.NextAbove after x ∧ n = x.sequenceNumber ∧ packet = p.dataPacket x ∧
        packet.length ≤ bufferSize := by
  unfold networkCopyNext
  by_cases hsize : p.historySize = 0
  · rw [if_pos hsize]
    refine iff_of_false (by rintro ⟨⟩) ?_
    rintro ⟨x, hx, -⟩
    have hretained := hx.retained
    rw [List.eq_nil_of_length_eq_zero (p.retained_length.trans hsize)] at hretained
    exact List.not_mem_nil hretained
  rw [if_neg hsize]
  cases hselect : p.selectNext after with
  | none =>
    refine iff_of_false (by rintro ⟨⟩) ?_
    rintro ⟨x, hx, -⟩
    rw [(selectNext_iff h.numbered).2 hx] at hselect
    cases hselect
  | some x =>
    have hx := (selectNext_iff h.numbered).1 hselect
    have hbuilt := build_ok (h.buildable x hx.retained)
    have hlength : (p.dataPacket x).length = 44 + x.payload.length := by
      unfold dataPacket
      exact dataMessageBytes_length _ _
    dsimp only
    cases hbuild : buildDataMessage false bufferSize (p.dataConfig x.sequenceNumber)
        (.bytes x.payload) with
    | error error =>
      refine iff_of_false (by rintro ⟨⟩) ?_
      rintro ⟨y, hy, -, rfl, hfits⟩
      -- the same build fails only for lack of room
      have hsame : y = x := h.numbered.unique hy.retained hx.retained
        (le_antisymm (hy.least x hx.retained hx.above) (hx.least y hy.retained hy.above))
      rw [hsame, hlength] at hfits
      rw [build_accepts hbuilt.1.version hbuilt.1.order hbuilt.1.number hbuilt.1.supported hbuilt.1.fits
        hfits] at hbuild
      cases hbuild
    | ok bytes =>
      obtain ⟨hbytes, hfits⟩ := build_ok hbuild
      have hpacket : bytes = p.dataPacket x := hbytes.bytes
      constructor
      · rintro ⟨⟩
        exact ⟨x, hx, rfl, hpacket, hfits⟩
      · rintro ⟨y, hy, rfl, rfl, -⟩
        have hsame : y = x := h.numbered.unique hy.retained hx.retained
          (le_antisymm (hy.least x hx.retained hx.above) (hx.least y hy.retained hy.above))
        rw [hsame, hpacket]

/-- A buffer for the largest sample always suffices. -/
theorem HistoryInv.packet_fits {log : List PublishedSample} {capacity : ℕ} (h : p.HistoryInv log capacity)
    {x : PublishedSample} (hx : x ∈ p.retained) : (p.dataPacket x).length ≤ capacity + 44 := by
  rw [← h.capacity]
  exact (build_ok (h.buildable x hx)).2

end Publisher

namespace Endpoint

variable {language : TypeSupportLanguage} {D : ℕ} [NeZero D] {e : Endpoint language} {p : Publisher D}

/-- **Every call keeps the history.** -/
theorem publisherCall_inv {trace : List (PublisherCall language × PublisherReply)} {capacity : ℕ}
    (h : p.HistoryInv (e.publishedLog trace) capacity) (call : PublisherCall language) :
    (e.publisherCall p call).2.HistoryInv
      (e.publishedLog (trace ++ [(call, (e.publisherCall p call).1)])) capacity := by
  have hnone : ∀ x, e.publishedBytes x = none → e.publishedLog (trace ++ [x]) = e.publishedLog trace := by
    intro x hx
    unfold publishedLog
    rw [filterMap_snoc, hx, Option.toList_none, List.append_nil]
  have hsome : ∀ x sample, e.publishedBytes x = some sample → e.publishedLog (trace ++ [x]) =
      e.publishedLog trace ++ [⟨(e.publishedLog trace).length + 1, sample.1, sample.2⟩] := by
    intro x sample hx
    unfold publishedLog
    rw [filterMap_snoc, hx, Option.toList_some, List.mapIdx_concat, List.length_mapIdx]
  cases call with
  | copyNext afterSequence bufferSize =>
    unfold publisherCall
    rw [hnone _ rfl]
    exact h
  | publish shutdown message requestId clock =>
    unfold publisherCall
    dsimp only
    cases hpublish : e.publishSample shutdown p message requestId clock with
    | error error =>
      dsimp only
      rw [hnone _ (by cases clock <;> rfl)]
      exact h
    | ok p' =>
      obtain ⟨body, hbody, hserialized⟩ := publishSample_serialized hpublish
      obtain ⟨t, rfl⟩ := Publisher.publishSerialized_clock hserialized
      have hbytes : e.publishedBytes (.publish shutdown message requestId (some t), .published) =
          some (t, (requestId.map correlationEnvelope).getD [] ++ body) := by
        unfold publishedBytes
        dsimp only
        rw [hbody]
      dsimp only
      rw [hsome _ _ hbytes]
      exact h.published hserialized

theorem publisherRun_inv (e : Endpoint language) (participantPrefix : GuidPrefix) (writerId : EntityId)
    (capacity : ℕ) (calls : List (PublisherCall language)) :
    let r : Publisher D × _ := e.publisherRun (.init participantPrefix writerId capacity) calls
    r.1.HistoryInv (e.publishedLog r.2) capacity :=
  collect_history (P := fun trace (p : Publisher D) => p.HistoryInv (e.publishedLog trace) capacity)
    (fun _ _ call h => publisherCall_inv h call) (.init participantPrefix writerId capacity) calls

end Endpoint

section Walk

variable {language : TypeSupportLanguage} {D : ℕ} [NeZero D] {e : Endpoint language} {p p' : Publisher D}

/-- The number was published and is not in the history any more. -/
structure Publisher.Evicted (p : Publisher D) (n : ℕ) : Prop where
  positive : 0 < n
  published : n < p.nextSequence
  missing : ∀ x ∈ p.retained, x.sequenceNumber ≠ n

/-- **A number has left the history when it is below the oldest one.** -/
theorem Publisher.evicted_iff (hp : p.Numbered) {n : ℕ} :
    p.Evicted n ↔ 0 < n ∧ n < p.nextSequence - p.historySize := by
  have hnumber : ∀ m, (∃ x ∈ p.retained, x.sequenceNumber = m) ↔
      p.nextSequence - p.historySize ≤ m ∧ m < p.nextSequence := by
    intro m
    have hpositive := hp.positive
    rw [← List.mem_map, hp.numbers, List.mem_range'_1]
    omega
  constructor
  · intro h
    refine ⟨h.positive, ?_⟩
    by_contra hge
    obtain ⟨x, hx, hn⟩ := (hnumber n).2 ⟨not_lt.1 hge, h.published⟩
    exact h.missing x hx hn
  · rintro ⟨hpositive, hlt⟩
    refine ⟨hpositive, by omega, fun x hx hn => ?_⟩
    have hrange := (hnumber n).1 ⟨x, hx, hn⟩
    omega

theorem Publisher.oldest_mono {serialized : List UInt8} {t : ℕ}
    (h : p.publishSerialized serialized (some t) = .ok p') :
    p.nextSequence - p.historySize ≤ p'.nextSequence - p'.historySize := by
  have hnext := (Publisher.publishSerialized_ok h).next
  obtain ⟨-, -, hsize⟩ := Publisher.publishSerialized_history h
  rw [hnext, hsize]
  split
  · omega
  · omega

theorem Endpoint.publisherCall_cases (e : Endpoint language) (p : Publisher D)
    (call : PublisherCall language) : (e.publisherCall p call).2 = p ∨
      ∃ serialized t, p.publishSerialized serialized (some t) = .ok (e.publisherCall p call).2 := by
  cases call with
  | copyNext afterSequence bufferSize => exact .inl rfl
  | publish shutdown message requestId clock =>
    unfold publisherCall
    dsimp only
    cases hpublish : e.publishSample shutdown p message requestId clock with
    | error error => exact .inl rfl
    | ok p' =>
      obtain ⟨body, -, hserialized⟩ := publishSample_serialized hpublish
      obtain ⟨t, rfl⟩ := Publisher.publishSerialized_clock hserialized
      exact .inr ⟨_, t, hserialized⟩

/-- What a walk has found after some events of a run. -/
structure WalkInv (e : Endpoint language) (w₀ : HistoryWalk D) (start : ℕ)
    (events : List (WalkEvent language)) (w : HistoryWalk D) : Prop where
  history : ∃ log capacity, w.publisher.HistoryInv log capacity
  start_le : start ≤ w.cursor
  increasing : w.delivered.Pairwise (· < ·)
  range : ∀ n ∈ w.delivered, start < n ∧ n ≤ w.cursor
  -- nothing comes back into the history
  gone : ∀ before rest, events = before ++ rest →
    (run e.walk w₀ before).publisher.nextSequence - (run e.walk w₀ before).publisher.historySize ≤
      w.publisher.nextSequence - w.publisher.historySize ∧ (run e.walk w₀ before).publisher.Numbered
  skipped : ∀ n, start < n → n ≤ w.cursor → (n ∉ w.delivered ↔
    ∃ before rest, events = before ++ rest ∧ (run e.walk w₀ before).cursor < n ∧
      (run e.walk w₀ before).publisher.Evicted n)

theorem snoc_split {ε : Type} {events before rest : List ε} {event : ε}
    (h : events ++ [event] = before ++ rest) :
    before = events ++ [event] ∧ rest = [] ∨ ∃ rest', events = before ++ rest' ∧ rest = rest' ++ [event] := by
  rcases List.eq_nil_or_concat rest with rfl | ⟨rest', last, rfl⟩
  · rw [List.append_nil] at h
    exact .inl ⟨h.symm, rfl⟩
  · rw [List.concat_eq_append, ← List.append_assoc] at h
    obtain ⟨hevents, hlast⟩ := List.append_inj' h rfl
    rw [List.concat_eq_append, List.singleton_inj.1 hlast]
    exact .inr ⟨rest', hevents, rfl⟩

theorem exists_split_snoc {ε : Type} {events : List ε} {event : ε} {P : List ε → Prop} :
    (∃ before rest, events ++ [event] = before ++ rest ∧ P before) ↔
      (∃ before rest, events = before ++ rest ∧ P before) ∨ P (events ++ [event]) := by
  constructor
  · rintro ⟨before, rest, hsplit, hP⟩
    rcases snoc_split hsplit with ⟨rfl, -⟩ | ⟨rest', hevents, -⟩
    · exact .inr hP
    · exact .inl ⟨before, rest', hevents, hP⟩
  · rintro (⟨before, rest, rfl, hP⟩ | hP)
    · exact ⟨before, rest ++ [event], List.append_assoc _ _ _, hP⟩
    · exact ⟨events ++ [event], [], (List.append_nil _).symm, hP⟩

variable {w₀ : HistoryWalk D} {start : ℕ} {events : List (WalkEvent language)}

/-- The oldest number never decreases, so that what has left the history stays away. -/
theorem WalkInv.gone_snoc (h : WalkInv e w₀ start events (run e.walk w₀ events)) {event : WalkEvent language}
    (hnumbered : (e.walk (run e.walk w₀ events) event).publisher.Numbered)
    (hmono : (run e.walk w₀ events).publisher.nextSequence - (run e.walk w₀ events).publisher.historySize ≤
      (e.walk (run e.walk w₀ events) event).publisher.nextSequence -
        (e.walk (run e.walk w₀ events) event).publisher.historySize) :
    ∀ before rest, events ++ [event] = before ++ rest →
      (run e.walk w₀ before).publisher.nextSequence - (run e.walk w₀ before).publisher.historySize ≤
        (e.walk (run e.walk w₀ events) event).publisher.nextSequence -
          (e.walk (run e.walk w₀ events) event).publisher.historySize ∧
      (run e.walk w₀ before).publisher.Numbered := by
  intro before rest hsplit
  rcases snoc_split hsplit with ⟨rfl, -⟩ | ⟨rest', hevents, -⟩
  · rw [run_snoc]
    exact ⟨le_rfl, hnumbered⟩
  · obtain ⟨hle, hbefore⟩ := h.gone before rest' hevents
    exact ⟨hle.trans hmono, hbefore⟩

/-- The numbers that were passed over, when the walk itself does not move. -/
theorem WalkInv.skipped_snoc (h : WalkInv e w₀ start events (run e.walk w₀ events))
    {event : WalkEvent language}
    (hcursor : (e.walk (run e.walk w₀ events) event).cursor = (run e.walk w₀ events).cursor) :
    ∀ n, start < n → n ≤ (run e.walk w₀ events).cursor → (n ∉ (run e.walk w₀ events).delivered ↔
      ∃ before rest, events ++ [event] = before ++ rest ∧ (run e.walk w₀ before).cursor < n ∧
        (run e.walk w₀ before).publisher.Evicted n) := by
  intro n hstart hn
  rw [exists_split_snoc, h.skipped n hstart hn, run_snoc, hcursor]
  exact (or_iff_left fun hlate => absurd hlate.1 (not_lt.2 hn)).symm

/-- **A step of the walk** moves to the smallest number that is retained; what lies between was evicted
before. -/
theorem WalkInv.delivered (h : WalkInv e w₀ start events (run e.walk w₀ events)) {capacity : ℕ}
    {sample : ℕ × List UInt8}
    (hcopy : (run e.walk w₀ events).publisher.networkCopyNext (run e.walk w₀ events).cursor capacity =
      some sample) :
    WalkInv e w₀ start (events ++ [.next capacity]) (e.walk (run e.walk w₀ events) (.next capacity)) := by
  set w := run e.walk w₀ events with hw
  have hwalk : e.walk w (.next capacity) =
      { w with cursor := sample.1, delivered := w.delivered ++ [sample.1] } := by
    unfold Endpoint.walk
    dsimp only
    rw [hcopy]
    rfl
  obtain ⟨log, limit, hhistory⟩ := h.history
  obtain ⟨x, hx, hnumber, -, -⟩ := hhistory.networkCopyNext_iff.1 hcopy
  have hlt : w.cursor < sample.1 := hnumber ▸ hx.above
  have hstart := h.start_le
  have hgone := @WalkInv.gone_snoc _ _ _ e w₀ start events h (.next capacity)
    (by rw [← hw, hwalk]; exact hhistory.numbered) (by rw [← hw, hwalk])
  rw [← hw, hwalk] at hgone
  rw [hwalk]
  refine ⟨⟨log, limit, hhistory⟩, by dsimp only; omega, ?_, fun n hn => ?_, hgone, fun n hbelow hn => ?_⟩
  · refine List.pairwise_append.2 ⟨h.increasing, List.pairwise_singleton _ _, fun a ha b hb => ?_⟩
    rw [List.mem_singleton.1 hb]
    exact lt_of_le_of_lt (h.range a ha).2 hlt
  · dsimp only
    rcases List.mem_append.1 hn with hn | hn
    · have hrange := h.range n hn
      omega
    · have heq := List.mem_singleton.1 hn
      omega
  · dsimp only at hn ⊢
    rw [exists_split_snoc, run_snoc, ← hw, hwalk, List.mem_append, List.mem_singleton, not_or]
    rw [or_iff_left fun hlate => absurd hlate.1 (not_lt.2 hn)]
    by_cases hold : n ≤ w.cursor
    · rw [← h.skipped n hbelow hold]
      exact and_iff_left (by omega)
    by_cases hself : n = sample.1
    · -- what is delivered is in the history, so it never left it
      refine iff_of_false (fun hn => hn.2 hself) ?_
      rintro ⟨before, rest, hsplit, -, hevicted⟩
      obtain ⟨hle, hnumbered⟩ := h.gone before rest hsplit
      have hlow := ((Publisher.evicted_iff hnumbered).1 hevicted).2
      have hrange := (hhistory.numbered.range hx.retained).1
      omega
    · -- what lies between is not in the history, though it has been published
      refine iff_of_true ⟨fun hmem => hold (h.range n hmem).2, hself⟩ ?_
      refine ⟨events, [], (List.append_nil _).symm, not_le.1 hold, by omega, ?_, fun y hy hn' => ?_⟩
      · have hrange := (hhistory.numbered.range hx.retained).2
        rw [← hw]
        omega
      · have hleast := hx.least y hy (by omega)
        omega

/-- **What a walk finds**, over every run. -/
theorem walk_inv (e : Endpoint language) {log : List PublishedSample} {capacity : ℕ} (hp : p.HistoryInv log capacity)
    (start : ℕ) (events : List (WalkEvent language)) :
    WalkInv e ⟨p, start, []⟩ start events (run e.walk ⟨p, start, []⟩ events) := by
  refine run_history (fun events event h => ?_) ?_ events
  · set w := run e.walk ⟨p, start, []⟩ events with hw
    obtain ⟨log, limit, hhistory⟩ := h.history
    cases event with
    | call call =>
      have hcursor : (e.walk w (.call call)).cursor = w.cursor := rfl
      rcases e.publisherCall_cases w.publisher call with hsame | ⟨serialized, t, hpublish⟩
      · have hwalk : e.walk w (.call call) = w := by
          unfold Endpoint.walk
          dsimp only
          rw [hsame]
        have hgone := h.gone_snoc (by rw [hwalk]; exact hhistory.numbered) (by rw [hwalk])
        have hskipped := h.skipped_snoc hcursor
        rw [hwalk] at hgone ⊢
        exact ⟨⟨log, limit, hhistory⟩, h.start_le, h.increasing, h.range, hgone, hskipped⟩
      · have hnext := hhistory.published hpublish
        exact ⟨⟨_, limit, hnext⟩, h.start_le, h.increasing, h.range,
          h.gone_snoc hnext.numbered (Publisher.oldest_mono hpublish), h.skipped_snoc hcursor⟩
    | next bufferSize =>
      cases hcopy : w.publisher.networkCopyNext w.cursor bufferSize with
      | some sample => exact h.delivered hcopy
      | none =>
        have hwalk : e.walk w (.next bufferSize) = w := by
          unfold Endpoint.walk
          dsimp only
          rw [hcopy]
          rfl
        have hgone := h.gone_snoc (by rw [hwalk]; exact hhistory.numbered) (by rw [hwalk])
        have hskipped := h.skipped_snoc (congrArg HistoryWalk.cursor hwalk)
        rw [hwalk] at hgone ⊢
        exact ⟨⟨log, limit, hhistory⟩, h.start_le, h.increasing, h.range, hgone, hskipped⟩
  · refine ⟨⟨log, capacity, hp⟩, le_rfl, .nil, fun n hn => absurd hn List.not_mem_nil,
      fun before rest hsplit => ?_, fun n hstart hn => absurd hn (not_le.2 hstart)⟩
    obtain ⟨rfl, -⟩ := List.append_eq_nil_iff.1 hsplit.symm
    exact ⟨le_rfl, hp.numbered⟩

/-- **The history of a publisher is the last `D` samples, read in order.** After every run of calls with
`k` publications that succeeded the history holds the samples numbered `max (1, k - D + 1)` to `k`, each
with the bytes it was serialized to, and a failed publication changes nothing. A read returns the datagram
of the smallest number above its bound that the history holds, if the buffer has room for it. A walk
delivers strictly increasing numbers, and passes over exactly those that were evicted before it reached
them. -/
theorem publisher_history_is_last_samples (e : Endpoint language) (participantPrefix : GuidPrefix)
    (writerId : EntityId) (capacity : ℕ) (calls : List (PublisherCall language)) :
    let r : Publisher D × _ := e.publisherRun (.init participantPrefix writerId capacity) calls
    let log := e.publishedLog r.2
    r.1.nextSequence = log.length + 1 ∧ log.map (·.sequenceNumber) = List.range' 1 log.length ∧
      r.1.retained = log.drop (log.length - D) ∧
      (∀ shutdown message requestId clock error,
        (e.publisherCall r.1 (.publish shutdown message requestId clock)).1 = .failed error →
          (e.publisherCall r.1 (.publish shutdown message requestId clock)).2 = r.1) ∧
      (∀ after bufferSize n packet, r.1.networkCopyNext after bufferSize = some (n, packet) ↔
        ∃ x, r.1.NextAbove after x ∧ n = x.sequenceNumber ∧ packet = r.1.dataPacket x ∧
          packet.length ≤ bufferSize) ∧
      (∀ x ∈ r.1.retained, (r.1.dataPacket x).length ≤ capacity + 44) ∧
      ∀ start events,
        let w := run e.walk ⟨r.1, start, []⟩ events
        w.delivered.Pairwise (· < ·) ∧ (∀ n ∈ w.delivered, start < n) ∧
          ∀ n, start < n → n ≤ w.cursor → (n ∉ w.delivered ↔
            ∃ before rest, events = before ++ rest ∧ (run e.walk ⟨r.1, start, []⟩ before).cursor < n ∧
              (run e.walk ⟨r.1, start, []⟩ before).publisher.Evicted n) := by
  intro r log
  have hinv : r.1.HistoryInv log capacity := e.publisherRun_inv participantPrefix writerId capacity calls
  refine ⟨hinv.next, ?_, hinv.retained, fun shutdown message requestId clock error hfailed => ?_,
    fun after bufferSize n packet => hinv.networkCopyNext_iff, fun x hx => hinv.packet_fits hx,
    fun start events => ?_⟩
  · apply List.ext_getElem
    · rw [List.length_map, List.length_range']
    · intro i hi _
      rw [List.length_map] at hi
      simp only [List.getElem_map, List.getElem_range', log, Endpoint.publishedLog, List.getElem_mapIdx]
      omega
  · unfold Endpoint.publisherCall at hfailed ⊢
    dsimp only at hfailed ⊢
    split at hfailed
    · rfl
    · cases hfailed
  · have hwalk := walk_inv e hinv start events
    exact ⟨hwalk.increasing, fun n hn => (hwalk.range n hn).1, hwalk.skipped⟩

/-- Two publications into a history of depth one, with one between them that cannot read the clock. -/
def twoBytes : List (PublisherCall .introspectionC) :=
  [.publish false [.single (.scalar 7)] none (some 1), .publish false [.single (.scalar 8)] none none,
    .publish false [.single (.scalar 9)] none (some 2)]

theorem last_byte_retained :
    let r : Publisher 1 × _ := byteTopic.publisherRun (.init (.replicate 12 1) (writerId 0) 5) twoBytes
    r.1.retained = (byteTopic.publishedLog r.2).drop ((byteTopic.publishedLog r.2).length - 1) :=
  (publisher_history_is_last_samples byteTopic (.replicate 12 1) (writerId 0) 5 twoBytes).2.2.1

end Walk

end OpenRtdds
