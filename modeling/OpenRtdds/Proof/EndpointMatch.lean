import OpenRtdds.Proof.Sedp

/-!
# Both sides agree on a match

Each side evaluates `evaluate_endpoint_match` with its own endpoint as the local one and what it has
read of the other. The two evaluations have the roles exchanged, and both come to one status of the
pair.

* `matchStatus`: the status of a pair of announced endpoints.
* `evaluateEndpointMatch_eq`: what either side evaluates.
* `matchStatus_comm`: the status does not depend on the side.
* `endpoints_agree_on_match`: the resulting statement about two built announcements.
-/

namespace OpenRtdds

open Lib Guarded Sedp

theorem EndpointKind.reader_of_ne {kind : EndpointKind} (h : kind ≠ .writer) : kind = .reader := by
  cases kind with
  | writer => exact absurd rfl h
  | reader => rfl

/-- The descriptor of an endpoint at its own participant. -/
def SedpEndpointData.descriptor (e : SedpEndpointData) : LocalEndpointDescriptor where
  kind := e.kind
  topicName := .bytes (e.topicName.toList.take e.topicNameSize)
  typeName := .bytes (e.typeName.toList.take e.typeNameSize)
  reliability := e.reliability
  durability := e.durability

/-- The status of a writer and a reader with one topic and one type. -/
def offerStatus (writer reader : SedpEndpointData) : MatchStatus :=
  if writer.reliability.bits.toInt < reader.reliability.bits.toInt then .reliabilityIncompatible
  else if writer.durability.bits.toInt < reader.durability.bits.toInt then .durabilityIncompatible
  else .matched

/-- The status of a pair of endpoints. -/
def matchStatus (a b : SedpEndpointData) : MatchStatus :=
  if a.kind = b.kind then .sameEndpointKind
  else if a.topicName.toList.take a.topicNameSize ≠ b.topicName.toList.take b.topicNameSize then
    .topicMismatch
  else if a.typeName.toList.take a.typeNameSize ≠ b.typeName.toList.take b.typeNameSize then
    .typeMismatch
  else if a.kind = .writer then offerStatus a b
  else offerStatus b a

theorem sameText_iff {n : ℕ} {text : List UInt8} {right : Vector UInt8 n} {size : ℕ}
    (h : size ≤ n) : sameText (.bytes text) right size = true ↔ text = right.toList.take size := by
  have hlength : (right.toList.take size).length = size := by
    rw [List.length_take, Vector.length_toList]
    exact min_eq_left h
  simp only [sameText, Span.size, Span.data, Bool.and_eq_true, beq_iff_eq]
  constructor
  · exact fun h => h.2
  · intro htext
    exact ⟨by rw [htext, hlength], htext⟩

/-- **What one side evaluates** with the announcement that it has read from the other. -/
theorem evaluateEndpointMatch_eq {a b f : SedpEndpointData} (ha : Announceable a)
    (hb : Announceable b) (hf : ReadFrom b f) :
    evaluateEndpointMatch a.descriptor f = matchStatus a b := by
  obtain ⟨htopicPos, htopicMax, -⟩ := ha.topicName
  obtain ⟨htypePos, htypeMax, -⟩ := ha.typeName
  have htopicSize : (a.topicName.toList.take a.topicNameSize).length = a.topicNameSize :=
    List.length_take_of_le (by rw [Vector.length_toList]; omega)
  have htypeSize : (a.typeName.toList.take a.typeNameSize).length = a.typeNameSize :=
    List.length_take_of_le (by rw [Vector.length_toList]; omega)
  have hlocal : (a.descriptor.topicName.isNull || a.descriptor.typeName.isNull ||
      a.descriptor.topicName.size == 0 || decide (a.descriptor.topicName.size > 255) ||
      a.descriptor.typeName.size == 0 || decide (a.descriptor.typeName.size > 255) ||
      !validReliability a.descriptor.reliability || !validDurability a.descriptor.durability) =
      false := by
    simp only [SedpEndpointData.descriptor, Span.isNull, Span.size, htopicSize, htypeSize,
      Bool.or_eq_false_iff, beq_eq_false_iff_ne, decide_eq_false_iff_not, Bool.not_eq_false',
      validReliability, validDurability, Bool.or_eq_true, beq_iff_eq]
    exact ⟨⟨⟨⟨⟨⟨⟨trivial, trivial⟩, by omega⟩, by omega⟩, by omega⟩, by omega⟩, ha.reliability⟩,
      ha.durability⟩
  have htopic : sameText a.descriptor.topicName f.topicName f.topicNameSize = true ↔
      a.topicName.toList.take a.topicNameSize = b.topicName.toList.take b.topicNameSize := by
    rw [hf.topicName.1, ← hf.topicName.2]
    exact sameText_iff (hb.topicName.2.1.trans (by decide))
  have htype : sameText a.descriptor.typeName f.typeName f.typeNameSize = true ↔
      a.typeName.toList.take a.typeNameSize = b.typeName.toList.take b.typeNameSize := by
    rw [hf.typeName.1, ← hf.typeName.2]
    exact sameText_iff (hb.typeName.2.1.trans (by decide))
  unfold evaluateEndpointMatch matchStatus
  rw [hlocal, if_neg Bool.false_ne_true]
  refine ite_congr (by rw [hf.kind]; rfl) (fun _ => rfl) fun hkind => ?_
  refine ite_congr (by rw [Bool.not_eq_true', ← Bool.not_eq_true, htopic]) (fun _ => rfl) fun _ => ?_
  refine ite_congr (by rw [Bool.not_eq_true', ← Bool.not_eq_true, htype]) (fun _ => rfl) fun _ => ?_
  -- the kinds differ, so one offers and the other requests
  dsimp only [SedpEndpointData.descriptor, offerStatus]
  rw [hf.reliability, hf.durability]
  by_cases hwriter : a.kind = .writer
  · simp only [hwriter, if_true, reduceCtorEq, if_false]
  · have hreader : a.kind = .reader := EndpointKind.reader_of_ne hwriter
    simp only [hreader, if_true, reduceCtorEq, if_false]

/-- **The status does not depend on the side.** -/
theorem matchStatus_comm (a b : SedpEndpointData) : matchStatus a b = matchStatus b a := by
  unfold matchStatus
  refine ite_congr (propext eq_comm) (fun _ => rfl) fun hkind => ?_
  refine ite_congr (propext ne_comm) (fun _ => rfl) fun _ => ?_
  refine ite_congr (propext ne_comm) (fun _ => rfl) fun _ => ?_
  by_cases ha : a.kind = .writer
  · have hb : b.kind ≠ .writer := fun hb => hkind (hb.trans ha.symm)
    rw [if_pos ha, if_neg hb]
  · have hb : b.kind = .writer := by
      by_contra hb
      exact hkind ((EndpointKind.reader_of_ne hb).trans (EndpointKind.reader_of_ne ha).symm)
    rw [if_neg ha, if_pos hb]

/-- A writer serves a reader: they have one topic and one type, and what the reader requests of
reliability and durability the writer offers. -/
structure Serves (writer reader : SedpEndpointData) : Prop where
  kinds : writer.kind = .writer ∧ reader.kind = .reader
  topic : writer.topicName.toList.take writer.topicNameSize =
    reader.topicName.toList.take reader.topicNameSize
  type : writer.typeName.toList.take writer.typeNameSize =
    reader.typeName.toList.take reader.typeNameSize
  reliability : reader.reliability = .reliable → writer.reliability = .reliable
  durability : reader.durability = .transientLocal → writer.durability = .transientLocal

variable {reader writer : SedpEndpointData}

theorem reliability_lt_iff (hw : Announceable writer) (hr : Announceable reader) :
    writer.reliability.bits.toInt < reader.reliability.bits.toInt ↔
      ¬ (reader.reliability = .reliable → writer.reliability = .reliable) := by
  rcases hw.reliability with hw | hw <;> rcases hr.reliability with hr | hr <;> rw [hw, hr] <;> decide

theorem durability_lt_iff (hw : Announceable writer) (hr : Announceable reader) :
    writer.durability.bits.toInt < reader.durability.bits.toInt ↔
      ¬ (reader.durability = .transientLocal → writer.durability = .transientLocal) := by
  rcases hw.durability with hw | hw <;> rcases hr.durability with hr | hr <;> rw [hw, hr] <;> decide

theorem offerStatus_matched_iff (hw : Announceable writer) (hr : Announceable reader) :
    offerStatus writer reader = .matched ↔
      (reader.reliability = .reliable → writer.reliability = .reliable) ∧
        (reader.durability = .transientLocal → writer.durability = .transientLocal) := by
  unfold offerStatus
  simp only [reliability_lt_iff hw hr, durability_lt_iff hw hr]
  split_ifs with h₁ h₂ <;> simp_all

/-- A pair is matched if one side is a writer that serves the other. -/
theorem matchStatus_matched_iff {a b : SedpEndpointData} (ha : Announceable a)
    (hb : Announceable b) : matchStatus a b = .matched ↔ Serves a b ∨ Serves b a := by
  have hdirect : ∀ {a b : SedpEndpointData}, Announceable a → Announceable b → a.kind = .writer →
      b.kind = .reader → (matchStatus a b = .matched ↔ Serves a b) := by
    intro a b ha hb hwriter hreader
    have hkind : a.kind ≠ b.kind := by
      rw [hwriter, hreader]
      exact EndpointKind.noConfusion
    unfold matchStatus
    rw [if_neg hkind, if_pos hwriter]
    constructor
    · intro h
      split_ifs at h with htopic htype
      have hoffer := (offerStatus_matched_iff ha hb).1 h
      exact ⟨⟨hwriter, hreader⟩, not_not.1 htopic, not_not.1 htype, hoffer.1, hoffer.2⟩
    · intro h
      rw [if_neg (not_not.2 h.topic), if_neg (not_not.2 h.type)]
      exact (offerStatus_matched_iff ha hb).2 ⟨h.reliability, h.durability⟩
  by_cases hwa : a.kind = .writer
  · by_cases hwb : b.kind = .writer
    · refine iff_of_false (fun h => ?_) ?_
      · unfold matchStatus at h
        rw [if_pos (hwa.trans hwb.symm)] at h
        cases h
      · rintro (h | h)
        · exact absurd (hwb.symm.trans h.kinds.2) EndpointKind.noConfusion
        · exact absurd (hwa.symm.trans h.kinds.2) EndpointKind.noConfusion
    · have hnot : ¬ Serves b a := fun h => hwb h.kinds.1
      rw [hdirect ha hb hwa (EndpointKind.reader_of_ne hwb), or_iff_left hnot]
  · have hra := EndpointKind.reader_of_ne hwa
    have hnot : ¬ Serves a b := fun h => hwa h.kinds.1
    rw [or_iff_right hnot]
    by_cases hwb : b.kind = .writer
    · rw [matchStatus_comm]
      exact hdirect hb ha hwb hra
    · refine iff_of_false (fun h => ?_) fun h => hwb h.kinds.1
      unfold matchStatus at h
      rw [if_pos (hra.trans (EndpointKind.reader_of_ne hwb).symm)] at h
      cases h

/-- **Both sides agree on a match.** Two endpoints are announced by builders of any state and with any
configuration that builds. Each side reads the announcement of the other and evaluates the match with
its own descriptor: both come to the same status, and it is a match exactly if one of them is a writer
that serves the other. -/
theorem endpoints_agree_on_match (builderA builderB : SedpMessageBuilder)
    (a b : SedpAnnouncementConfig) (ha : (builderA.build a).1 = true)
    (hb : (builderB.build b).1 = true) :
    ∃ viewA sizeA viewB sizeB,
      parseSedpMessage (.bytes (builderA.build a).2.message) a.endpoint.participantGuidPrefix =
        .ok (viewA, sizeA) ∧
      parseSedpMessage (.bytes (builderB.build b).2.message) b.endpoint.participantGuidPrefix =
        .ok (viewB, sizeB) ∧
      evaluateEndpointMatch a.endpoint.descriptor viewB.endpoint =
        evaluateEndpointMatch b.endpoint.descriptor viewA.endpoint ∧
      (evaluateEndpointMatch a.endpoint.descriptor viewB.endpoint = .matched ↔
        Serves a.endpoint b.endpoint ∨ Serves b.endpoint a.endpoint) := by
  obtain ⟨messageA, hbuildA, hmessageA, -⟩ := builderA.finish_true ha
  obtain ⟨messageB, hbuildB, hmessageB, -⟩ := builderB.finish_true hb
  have hendpointA := (buildSedpMessage_ok hbuildA).1.endpoint
  have hendpointB := (buildSedpMessage_ok hbuildB).1.endpoint
  obtain ⟨viewA, hparseA, hfromA, -⟩ := parseSedpMessage_build hbuildA
  obtain ⟨viewB, hparseB, hfromB, -⟩ := parseSedpMessage_build hbuildB
  rw [SedpMessageBuilder.build, SedpMessageBuilder.build, hmessageA, hmessageB]
  refine ⟨viewA, _, viewB, _, hparseA, hparseB, ?_⟩
  rw [evaluateEndpointMatch_eq hendpointA hendpointB hfromB,
    evaluateEndpointMatch_eq hendpointB hendpointA hfromA]
  exact ⟨matchStatus_comm _ _, matchStatus_matched_iff hendpointA hendpointB⟩

/-- A writer and a reader of one topic on the loopback address. -/
def chatterEndpoint (kind : EndpointKind) (endpointId : EntityId) : SedpEndpointData where
  participantGuidPrefix := .replicate 12 1
  endpointId := endpointId
  kind := kind
  topicName := .replicate 256 99
  topicNameSize := 7
  typeName := .replicate 256 83
  typeNameSize := 6
  unicastLocators := loopbackLocators 7411
  reliability := .reliable

theorem chatterEndpoint_valid :
    (⟨chatterEndpoint .writer #v[0, 0, 1, 3], entityIdUnknown, 1, .littleEndian, .littleEndian⟩ :
      SedpAnnouncementConfig).Valid ∧
    (⟨chatterEndpoint .reader #v[0, 0, 2, 4], entityIdUnknown, 1, .littleEndian, .bigEndian⟩ :
      SedpAnnouncementConfig).Valid := by
  refine ⟨⟨⟨rfl, rfl, rfl, by decide, by decide, .inr rfl, .inl rfl, by decide, by decide, by decide,
    by decide⟩, .inl rfl, .inr rfl, .inr rfl, by decide⟩,
    ⟨⟨rfl, rfl, rfl, by decide, by decide, .inr rfl, .inl rfl, by decide, by decide, by decide,
    by decide⟩, .inl rfl, .inr rfl, .inl rfl, by decide⟩⟩

theorem chatter_endpoints_match :
    let b : SedpMessageBuilder := { buffer := .bytes (List.replicate 876 0) }
    let writer : SedpAnnouncementConfig :=
      ⟨chatterEndpoint .writer #v[0, 0, 1, 3], entityIdUnknown, 1, .littleEndian, .littleEndian⟩
    let reader : SedpAnnouncementConfig :=
      ⟨chatterEndpoint .reader #v[0, 0, 2, 4], entityIdUnknown, 1, .littleEndian, .bigEndian⟩
    (b.build writer).1 = true ∧ (b.build reader).1 = true ∧ ∃ view size,
      parseSedpMessage (.bytes (b.build reader).2.message) (.replicate 12 1) = .ok (view, size) ∧
        evaluateEndpointMatch writer.endpoint.descriptor view.endpoint = .matched := by
  intro b writer reader
  have hsize : 876 ≤ b.buffer.data.length := by
    simp only [b, Span.data, List.length_replicate, le_refl]
  have hbuild : ∀ {config : SedpAnnouncementConfig}, config.Valid → (b.build config).1 = true :=
    fun h => b.finish_accepts (buildSedpMessage · · _) (by decide)
      (fun _ => buildSedpMessage_accepts h) hsize
  have hwriter := hbuild chatterEndpoint_valid.1
  have hreader := hbuild chatterEndpoint_valid.2
  obtain ⟨_, _, view, size, -, hparse, -, hmatch⟩ :=
    endpoints_agree_on_match b b writer reader hwriter hreader
  have hserves : Serves writer.endpoint reader.endpoint :=
    ⟨⟨rfl, rfl⟩, rfl, rfl, fun _ => rfl, fun h => by cases h⟩
  exact ⟨hwriter, hreader, view, size, hparse, hmatch.2 (.inl hserves)⟩

end OpenRtdds
