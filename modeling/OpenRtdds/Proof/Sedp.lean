import OpenRtdds.Proof.DataMessage
import OpenRtdds.Proof.ParameterList

/-!
# Endpoint announcements, written and read

* `Sedp.Slot`, `Sedp.item`, `Sedp.assemble`: an endpoint announcement as a record of parameters, each
  of which is read on its own.
* `Sedp.handle_eq`: the switch of the parser changes the slot of the parameter.
* `Sedp.announced`, `Sedp.writeParameters_eq`: the parameters that the builder writes.
* `Sedp.read_announced`: every slot holds what was announced.
* `sedp_round_trip`: the builder and the parser, for every configuration.
-/

namespace OpenRtdds

open Lib Guarded Raw

namespace Sedp

section Slots

/-- The parameters of an announcement; `other` are those without a meaning here. -/
inductive Slot where
  | endpoint
  | participant
  | topic
  | type
  | reliability
  | durability
  | inlineQos
  | unicast
  | multicast
  | other
  deriving DecidableEq

/-- What the parser keeps of a parameter. Of a locator list it also keeps that there was a locator, of
whatever kind. -/
@[reducible] def Slot.State : Slot → Type
  | .endpoint => Option EntityId
  | .participant => Option Unit
  | .topic | .type => Option (Vector UInt8 256 × ℕ)
  | .reliability => Option (ReliabilityKind × ℕ)
  | .durability => Option DurabilityKind
  | .inlineQos => Option Bool
  | .unicast | .multicast => BoundedLocatorList 4 × Bool
  | .other => Unit

/-- The slots of the ids that the parser knows. -/
def slots : List (ℕ × Slot) :=
  [(pidEndpointGuid, .endpoint), (pidParticipantGuid, .participant), (pidTopicName, .topic),
    (pidTypeName, .type), (pidReliability, .reliability), (pidDurability, .durability),
    (pidExpectsInlineQos, .inlineQos), (pidUnicastLocator, .unicast),
    (pidMulticastLocator, .multicast)]

abbrev slotOf : Parameter → Slot := slotIn slots .other

/-- A locator list. -/
def locators (order : ByteOrder) (s : BoundedLocatorList 4 × Bool) (p : Parameter) :
    Guarded SedpError (BoundedLocatorList 4 × Bool) := do
  let list ← appendParsedLocator p.value 0 p.value.length order s.1
  pure (list, true)

/-- How the value of a parameter that may occur once is read. -/
def readEndpoint (peer : GuidPrefix) (p : Parameter) : Guarded SedpError EntityId := do
  require (p.value.length = 16) .malformedParameter
  let guidPrefix ← copyBytes p.value 0 12
  require (guidPrefix = peer) .participantMismatch
  copyBytes p.value (0 + 12) 4

def readParticipant (peer : GuidPrefix) (p : Parameter) : Guarded SedpError Unit := do
  require (p.value.length = 16) .malformedParameter
  let guidPrefix ← copyBytes p.value 0 12
  require (guidPrefix = peer) .participantMismatch
  let entity ← copyBytes p.value (0 + 12) 4
  require (entity = entityIdParticipant) .participantMismatch

def readString (order : ByteOrder) (p : Parameter) : Guarded SedpError (Vector UInt8 256 × ℕ) :=
  parseString p.value 0 p.value.length order (.replicate 256 0)

def readReliability (order : ByteOrder) (p : Parameter) : Guarded SedpError (ReliabilityKind × ℕ) := do
  require (p.value.length = 12) .malformedParameter
  let bits ← readWord p.value 0 4 order
  match ReliabilityKind.ofBits bits with
  | none => .error .malformedParameter
  | some reliability => do
    let maxBlockingTimeNs ← parseDuration p.value (0 + 4) order
    pure (reliability, maxBlockingTimeNs)

def readDurability (order : ByteOrder) (p : Parameter) : Guarded SedpError DurabilityKind := do
  require (p.value.length = 4) .malformedParameter
  let bits ← readWord p.value 0 4 order
  match DurabilityKind.ofBits bits with
  | none => .error .malformedParameter
  | some durability => pure durability

/-- What a parameter does to its slot. -/
def item (order : ByteOrder) (peer : GuidPrefix) :
    (i : Slot) → i.State → Parameter → Guarded SedpError i.State
  | .endpoint => once .duplicateParameter (readEndpoint peer)
  | .participant => once .duplicateParameter (readParticipant peer)
  | .topic => once .duplicateParameter (readString order)
  | .type => once .duplicateParameter (readString order)
  | .reliability => once .duplicateParameter (readReliability order)
  | .durability => once .duplicateParameter (readDurability order)
  | .inlineQos => once .duplicateParameter (readFlag .malformedParameter)
  | .unicast => locators order
  | .multicast => locators order
  | .other => fun _ p =>
    require (p.id = 0 ∨ p.id &&& mustUnderstandMask = 0) .unknownRequiredParameter

/-- The slots before the first parameter. -/
def noParameters : (i : Slot) → i.State
  | .endpoint | .participant | .topic | .type | .reliability | .durability | .inlineQos => none
  | .unicast | .multicast => ({}, false)
  | .other => ()

/-- The endpoint before the first parameter: what the message and not the list says. -/
def origin (version : ProtocolVersion) (vendorId : VendorId) (participant : GuidPrefix)
    (kind : EndpointKind) : SedpEndpointData where
  protocolVersion := version
  vendorId := vendorId
  participantGuidPrefix := participant
  kind := kind

/-- The candidate of the parser, with its defaults for what was not announced. -/
def assemble (start : SedpEndpointData) (t : (i : Slot) → i.State) : Candidate where
  endpoint :=
    { protocolVersion := start.protocolVersion
      vendorId := start.vendorId
      participantGuidPrefix := start.participantGuidPrefix
      kind := start.kind
      endpointId := Option.getD (t .endpoint) (.replicate 4 0)
      topicName := (Option.getD (t .topic) (.replicate 256 0, 0)).1
      topicNameSize := (Option.getD (t .topic) (.replicate 256 0, 0)).2
      typeName := (Option.getD (t .type) (.replicate 256 0, 0)).1
      typeNameSize := (Option.getD (t .type) (.replicate 256 0, 0)).2
      unicastLocators := (t .unicast).1
      multicastLocators := (t .multicast).1
      reliability := (Option.getD (t .reliability) (.bestEffort, 100000000)).1
      maxBlockingTimeNs := (Option.getD (t .reliability) (.bestEffort, 100000000)).2
      durability := Option.getD (t .durability) .volatileDurability
      expectsInlineQos := Option.getD (t .inlineQos) false }
  seenEndpoint := Option.isSome (t .endpoint)
  seenParticipant := Option.isSome (t .participant)
  seenLocator := (t .unicast).2 || (t .multicast).2
  seenTopic := Option.isSome (t .topic)
  seenType := Option.isSome (t .type)
  seenReliability := Option.isSome (t .reliability)
  seenDurability := Option.isSome (t .durability)
  seenInline := Option.isSome (t .inlineQos)

theorem assemble_noParameters (version : ProtocolVersion) (vendorId : VendorId)
    (participant : GuidPrefix) (kind : EndpointKind) :
    assemble (origin version vendorId participant kind) noParameters =
      { endpoint := origin version vendorId participant kind } := rfl

variable {order : ByteOrder} {peer : GuidPrefix} {start : SedpEndpointData}
  {t : (i : Slot) → i.State}

/-- **The switch changes the slot of the parameter.** -/
theorem handle_eq (p : Parameter) :
    handle (fun m => parameter m order peer) (assemble start t) p =
      Slots.step slotOf (item order peer) t p >>= fun t => pure (assemble start t) := by
  unfold handle
  change parameter p.value order peer p.id p.value.length 0 (assemble start t) = _
  unfold parameter
  refine switch_case (i := .other) rfl (fun h => ?pad) fun h0 =>
    switch_case (i := .endpoint) rfl (fun _ => ?_) fun h1 =>
    switch_case (i := .participant) rfl (fun _ => ?_) fun h2 =>
    switch_case (i := .topic) rfl (fun _ => ?topic) fun h3 =>
    switch_case (i := .type) rfl (fun _ => ?type) fun h4 =>
    switch_case (i := .reliability) rfl (fun _ => ?reliability) fun h5 =>
    switch_case (i := .durability) rfl (fun _ => ?durability) fun h6 =>
    switch_case (i := .inlineQos) rfl (fun _ => ?_) fun h7 =>
    switch_case (i := .unicast) rfl (fun _ => ?_) fun h8 =>
    switch_case (i := .multicast) rfl (fun _ => ?multicast) fun h9 => switch_default ?unknown ?other
  case pad =>
    simp only [item, require_pos (Or.inl h : p.id = 0 ∨ p.id &&& mustUnderstandMask = 0)]
    rfl
  -- a name is read into the array of the candidate, which no other name has filled
  case topic =>
    simp only [item, once, readString, bind_assoc, pure_bind]
    refine require_bind_congr fun hseen => ?_
    have hnone : t .topic = none := Option.isNone_iff_eq_none.1 (Option.isSome_eq_false_iff.1 hseen)
    have hname : (assemble start t).endpoint.topicName = .replicate 256 0 := by
      simp only [assemble, hnone, Option.getD_none]
    rw [hname]
    rfl
  case type =>
    simp only [item, once, readString, bind_assoc, pure_bind]
    refine require_bind_congr fun hseen => ?_
    have hnone : t .type = none := Option.isNone_iff_eq_none.1 (Option.isSome_eq_false_iff.1 hseen)
    have hname : (assemble start t).endpoint.typeName = .replicate 256 0 := by
      simp only [assemble, hnone, Option.getD_none]
    rw [hname]
    rfl
  case reliability =>
    simp only [item, once, readReliability, single, singleParameter, bind_assoc, pure_bind]
    refine require_bind_congr fun _ => require_bind_congr fun _ => bind_congr fun bits => ?_
    cases ReliabilityKind.ofBits bits with
    | none => rfl
    | some reliability =>
      simp only [bind_assoc, pure_bind]
      rfl
  case durability =>
    simp only [item, once, readDurability, single, singleParameter, bind_assoc, pure_bind]
    refine require_bind_congr fun _ => require_bind_congr fun _ => bind_congr fun bits => ?_
    cases DurabilityKind.ofBits bits <;> rfl
  case multicast =>
    simp only [item, locators, bind_assoc, pure_bind]
    refine bind_congr fun list => congrArg Guarded.ok ?_
    simp only [assemble, Function.update_self, Bool.or_true]
    rfl
  case unknown => simp [slots, h1, h2, h3, h4, h5, h6, h7, h8, h9]
  case other =>
    simp only [item, h0, false_or]
    rfl
  all_goals
    simp only [item, locators, once, readEndpoint, readParticipant, readFlag, single, singleParameter,
      bind_assoc, pure_bind]
    rfl

end Slots

section Announcement

variable (e : SedpEndpointData) (order : ByteOrder)

/-- The parameters that the builder writes for a slot. -/
def announced : Slot → List Parameter
  | .endpoint =>
    [⟨pidEndpointGuid, paddedValue (e.participantGuidPrefix.toList ++ e.endpointId.toList)⟩]
  | .participant =>
    [⟨pidParticipantGuid,
      paddedValue (e.participantGuidPrefix.toList ++ entityIdParticipant.toList)⟩]
  | .topic => [⟨pidTopicName, textValue order (e.topicName.toList.take e.topicNameSize)⟩]
  | .type => [⟨pidTypeName, textValue order (e.typeName.toList.take e.typeNameSize)⟩]
  | .reliability =>
    [⟨pidReliability, paddedValue (storeInt (order == .littleEndian) 4 e.reliability.bits.toNat ++
      durationValue order e.maxBlockingTimeNs)⟩]
  | .durability =>
    [⟨pidDurability, paddedValue (storeInt (order == .littleEndian) 4 e.durability.bits.toNat)⟩]
  | .inlineQos => [⟨pidExpectsInlineQos, paddedValue [if e.expectsInlineQos then 1 else 0]⟩]
  | .unicast => e.unicastLocators.entries.map (locatorParameter order pidUnicastLocator)
  | .multicast => e.multicastLocators.entries.map (locatorParameter order pidMulticastLocator)
  | .other => []

/-- The slots in the order in which the builder writes them. -/
def writtenSlots : List Slot :=
  [.endpoint, .participant, .topic, .type, .reliability, .durability, .inlineQos, .unicast, .multicast]

/-- The parameters that the builder writes. -/
def announcement : List Parameter := writtenSlots.flatMap (announced e order)

theorem announced_slot : ∀ i, ∀ q ∈ announced e order i, slotOf q = i := by
  intro i q hq
  cases i with
  | unicast | multicast =>
    obtain ⟨l, -, rfl⟩ := List.mem_map.1 hq
    rfl
  | other => cases hq
  | _ =>
    rw [List.mem_singleton.1 hq]
    rfl

theorem announced_wellFormed (htopic : e.topicNameSize ≤ 255) (htype : e.typeNameSize ≤ 255) :
    ∀ q ∈ announcement e order, q.WellFormed := by
  have htopicText : (e.topicName.toList.take e.topicNameSize).length ≤ 255 :=
    (List.length_take_le _ _).trans htopic
  have htypeText : (e.typeName.toList.take e.typeNameSize).length ≤ 255 :=
    (List.length_take_le _ _).trans htype
  intro q hq
  obtain ⟨i, -, hq⟩ := List.mem_flatMap.1 hq
  cases i with
  | unicast | multicast =>
    obtain ⟨l, -, rfl⟩ := List.mem_map.1 hq
    exact locatorParameter_wellFormed (by decide) l
  | other => cases hq
  | topic | type =>
    rw [List.mem_singleton.1 hq]
    refine wellFormed_padded (by decide) ?_
    simp only [List.length_append, storeInt_length, List.length_singleton]
    omega
  | _ =>
    rw [List.mem_singleton.1 hq]
    refine wellFormed_padded (by decide) ?_
    simp

/-- **The builder writes the announcement**, and its buffer suffices. -/
theorem writeParameters_eq (htopic : e.topicNameSize ≤ 255) (htype : e.typeNameSize ≤ 255)
    (hseconds : e.maxBlockingTimeNs / nanosecondsPerSecond ≤ int32Max) :
    ∃ w, writeParameters e order = some w ∧ w.bytes.length ≤ 832 ∧
      w.bytes = encapsulation order ++ (parameterBytes order (announcement e order) ++
        sentinel order) := by
  have hcapacity : payloadCapacity = 1280 := rfl
  have htopicSize := paddedSize_bounds (e.topicNameSize + 5)
  have htypeSize := paddedSize_bounds (e.typeNameSize + 5)
  obtain ⟨h₀, hlen₀⟩ := @Written.start order payloadCapacity (by decide)
  unfold writeParameters appendGuid
  refine bind_succeeds (h₀.append _ (n := 16) (by simp [paddedSize]) (by omega) (by omega))
    fun w₁ h₁ hlen₁ => ?_
  refine bind_succeeds (h₁.append _ (n := 16) (by simp [paddedSize]) (by omega) (by omega))
    fun w₂ h₂ hlen₂ => ?_
  -- the names are at their longest, and so are the locator lists below
  refine bind_succeeds (h₂.appendText _ _ _ (by omega) (by omega) (by omega)) fun w₃ h₃ hlen₃ => ?_
  refine bind_succeeds (h₃.appendText _ _ _ (by omega) (by omega) (by omega)) fun w₄ h₄ hlen₄ => ?_
  rw [appendDuration, if_neg (Nat.not_lt.2 hseconds), ParameterWriter.duration, h₄.word, ← durationValue]
  refine bind_succeeds (h₄.append _ (n := 12) (by simp [paddedSize]) (by omega) (by omega))
    fun w₅ h₅ hlen₅ => ?_
  rw [h₅.word]
  refine bind_succeeds (h₅.append _ (n := 4) (by simp [paddedSize]) (by omega) (by omega))
    fun w₆ h₆ hlen₆ => ?_
  refine bind_succeeds (h₆.append _ (n := 4) (by simp [paddedSize]) (by omega) (by omega))
    fun w₇ h₇ hlen₇ => ?_
  refine bind_succeeds (h₇.appendList _ _ (by omega)) fun w₈ h₈ hlen₈ => ?_
  refine bind_succeeds (h₈.appendList _ _ (by omega)) fun w₉ h₉ hlen₉ => ?_
  obtain ⟨w₁₀, hw₁₀, hlen₁₀, hbytes⟩ := h₉.finish (by omega)
  refine ⟨w₁₀, hw₁₀, by omega, hbytes.trans ?_⟩
  simp only [announcement, writtenSlots, List.flatMap_cons, List.flatMap_nil, announced,
    List.append_assoc, List.nil_append, List.append_nil]

theorem validText_iff {capacity : ℕ} (text : Vector UInt8 capacity) (size : ℕ) :
    validText text size = true ↔ 0 < size ∧ size < capacity ∧ 0 ∉ text.toList.take size := by
  simp only [validText, Bool.and_eq_true, Bool.not_eq_true', Bool.or_eq_false_iff, beq_eq_false_iff_ne,
    decide_eq_false_iff_not, ge_iff_le, Nat.not_le, List.contains_eq_mem, decide_eq_false_iff_not,
    and_assoc, Nat.pos_iff_ne_zero]

/-- What the builder checks of an endpoint before it writes anything. -/
structure Announceable (e : SedpEndpointData) : Prop where
  version : supportedVersion e.protocolVersion = true
  guidPrefix : nonzeroPrefix e.participantGuidPrefix = true
  endpointId : validEndpointId e.endpointId e.kind = true
  topicName : 0 < e.topicNameSize ∧ e.topicNameSize ≤ 255 ∧
    0 ∉ e.topicName.toList.take e.topicNameSize
  typeName : 0 < e.typeNameSize ∧ e.typeNameSize ≤ 255 ∧ 0 ∉ e.typeName.toList.take e.typeNameSize
  reliability : e.reliability = .bestEffort ∨ e.reliability = .reliable
  durability : e.durability = .volatileDurability ∨ e.durability = .transientLocal
  hasLocator : e.unicastLocators.size + e.multicastLocators.size ≠ 0
  unicastLocators : validLocators e.unicastLocators = true
  multicastLocators : validLocators e.multicastLocators = true
  blockingSeconds : e.maxBlockingTimeNs / nanosecondsPerSecond ≤ int32Max

/-- What a slot holds when the announcement has been read. -/
def Holds : (i : Slot) → i.State → Prop
  | .endpoint, x => x = some e.endpointId
  | .participant, _ => True
  | .topic, x => ∃ name, x = some (name, e.topicNameSize) ∧
      name.toList.take e.topicNameSize = e.topicName.toList.take e.topicNameSize
  | .type, x => ∃ name, x = some (name, e.typeNameSize) ∧
      name.toList.take e.typeNameSize = e.typeName.toList.take e.typeNameSize
  | .reliability, x => ∃ duration, x = some (e.reliability, duration) ∧
      e.maxBlockingTimeNs - 1 ≤ duration ∧ duration ≤ e.maxBlockingTimeNs
  | .durability, x => x = some e.durability
  | .inlineQos, x => x = some e.expectsInlineQos
  | .unicast, x => x.1.size = e.unicastLocators.size ∧ x.1.entries = e.unicastLocators.entries
  | .multicast, x => x.1.size = e.multicastLocators.size ∧ x.1.entries = e.multicastLocators.entries
  | .other, _ => True

variable {e}

theorem readEndpoint_padded (guidPrefix : GuidPrefix) (entity : EntityId) :
    readEndpoint guidPrefix ⟨pidEndpointGuid, paddedValue (guidPrefix.toList ++ entity.toList)⟩ =
      .ok entity := by
  obtain ⟨hguid, hentity⟩ := (at_paddedValue (guidPrefix.toList ++ entity.toList)).split
    guidPrefix.length_toList
  unfold readEndpoint
  dsimp only
  rw [require_pos (by simp [paddedSize]), ok_bind, hguid.copyBytes, ok_bind, require_pos rfl, ok_bind]
  exact hentity.copyBytes

theorem readParticipant_padded (guidPrefix : GuidPrefix) :
    readParticipant guidPrefix
      ⟨pidParticipantGuid, paddedValue (guidPrefix.toList ++ entityIdParticipant.toList)⟩ = .ok () := by
  have hentity := readEndpoint_padded guidPrefix entityIdParticipant
  unfold readEndpoint at hentity
  unfold readParticipant
  dsimp only at hentity ⊢
  obtain ⟨_, hlength, hentity⟩ := bind_eq_ok.1 hentity
  obtain ⟨_, hguid, hentity⟩ := bind_eq_ok.1 hentity
  obtain ⟨_, hsame, hentity⟩ := bind_eq_ok.1 hentity
  rw [hlength, ok_bind, hguid, ok_bind, hsame, ok_bind, hentity, ok_bind, require_pos rfl]

theorem readString_text (id : ℕ) {text : Vector UInt8 256} {size : ℕ} (hpos : 0 < size)
    (hsize : size ≤ 255) (hzeros : 0 ∉ text.toList.take size) :
    ∃ name, readString order ⟨id, textValue order (text.toList.take size)⟩ = .ok (name, size) ∧
      name.toList.take size = text.toList.take size := by
  have hlength : (text.toList.take size).length = size := by
    rw [List.length_take, Vector.length_toList]
    omega
  obtain ⟨name, hfill, htake⟩ := @fill_text SedpError 256 (.replicate 256 0) (text.toList.take size)
    (by omega)
  rw [hlength] at htake
  refine ⟨name, ?_, htake⟩
  unfold readString
  rw [parseString_eq, parseText_textValue _ (by omega) (by omega) (by decide), ok_bind,
    require_pos (by simpa using hzeros), ok_bind, hfill, hlength]
  rfl

theorem ofBits_reliability {kind : ReliabilityKind} (h : kind = .bestEffort ∨ kind = .reliable) :
    ReliabilityKind.ofBits kind.bits.toNat = some kind := by
  rcases h with rfl | rfl <;> rfl

theorem ofBits_durability {kind : DurabilityKind}
    (h : kind = .volatileDurability ∨ kind = .transientLocal) :
    DurabilityKind.ofBits kind.bits.toNat = some kind := by
  rcases h with rfl | rfl <;> rfl

/-- The blocking time is rounded down by at most a nanosecond. -/
theorem readReliability_padded (hkind : e.reliability = .bestEffort ∨ e.reliability = .reliable)
    (hseconds : e.maxBlockingTimeNs / nanosecondsPerSecond ≤ int32Max) :
    ∃ duration, readReliability order ⟨pidReliability,
        paddedValue (storeInt (order == .littleEndian) 4 e.reliability.bits.toNat ++
          durationValue order e.maxBlockingTimeNs)⟩ = .ok (e.reliability, duration) ∧
      e.maxBlockingTimeNs - 1 ≤ duration ∧ duration ≤ e.maxBlockingTimeNs := by
  obtain ⟨-, hlow, hhigh⟩ := durationNs_bounds e.maxBlockingTimeNs
  have hmax : int32Max < 2 ^ 31 := by decide
  obtain ⟨hbits, hduration⟩ := (at_paddedValue (storeInt (order == .littleEndian) 4
    e.reliability.bits.toNat ++ durationValue order e.maxBlockingTimeNs)).split (storeInt_length _ 4 _)
  obtain ⟨hwhole, hfraction⟩ := readWord_duration hduration hseconds
  refine ⟨_, ?_, hlow, hhigh⟩
  unfold readReliability
  dsimp only
  rw [require_pos (by simp [paddedSize]), ok_bind, hbits.readWord (BitVec.isLt _), ok_bind,
    ofBits_reliability hkind]
  dsimp only
  unfold parseDuration
  rw [hwhole, ok_bind, require_pos (by omega), ok_bind, hfraction]
  rfl

theorem readDurability_padded
    (hkind : e.durability = .volatileDurability ∨ e.durability = .transientLocal) :
    readDurability order ⟨pidDurability,
      paddedValue (storeInt (order == .littleEndian) 4 e.durability.bits.toNat)⟩ = .ok e.durability := by
  unfold readDurability
  dsimp only
  rw [require_pos (by simp [paddedSize]), ok_bind, (at_paddedValue _).readWord (BitVec.isLt _), ok_bind,
    ofBits_durability hkind]
  rfl

theorem locators_announced (id : ℕ) {list : BoundedLocatorList 4} (h : validLocators list = true) :
    ∃ x : BoundedLocatorList 4 × Bool,
      (list.entries.map (locatorParameter order id)).foldlM (locators order) ({}, false) = .ok x ∧
        x.1.size = list.size ∧ x.1.entries = list.entries := by
  obtain ⟨x, hx, hsize, hentries⟩ := @foldlM_validLocators SedpError order list .malformedParameter
    .invalidLocator .locatorBoundExceeded id h
  -- the flag beside the list does not change what is read into it
  have hflag : ∀ (ps : List Parameter) (l : BoundedLocatorList 4) (b : Bool),
      ps.foldlM (fun l p => appendParsedLocator p.value 0 p.value.length order l) l = .ok x →
      ∃ b', ps.foldlM (locators order) (l, b) = .ok (x, b') := by
    intro ps
    induction ps with
    | nil =>
      intro l b hl
      exact ⟨b, congrArg (fun l => Guarded.ok (l, b)) (Guarded.ok.inj hl)⟩
    | cons p ps ih =>
      intro l b hl
      obtain ⟨l', hfirst, hl⟩ := bind_eq_ok.1 hl
      obtain ⟨b', hb'⟩ := ih l' true hl
      refine ⟨b', ?_⟩
      have hstep : locators order (l, b) p = .ok (l', true) := congrArg (· >>= _) hfirst
      rw [List.foldlM_cons, hstep]
      exact hb'
  obtain ⟨b, hb⟩ := hflag _ _ false hx
  exact ⟨(x, b), hb, hsize, hentries⟩

/-- **Every slot holds what was announced.** -/
theorem read_announced (he : Announceable e) (i : Slot) :
    ∃ x, (announced e order i).foldlM (item order e.participantGuidPrefix i) (noParameters i) = .ok x ∧
      Holds e i x := by
  cases i with
  | endpoint => exact ⟨_, foldlM_once (readEndpoint_padded _ _), rfl⟩
  | participant => exact ⟨_, foldlM_once (readParticipant_padded _), trivial⟩
  | topic =>
    obtain ⟨hpos, hsize, hzeros⟩ := he.topicName
    obtain ⟨name, hread, htake⟩ := readString_text order pidTopicName hpos hsize hzeros
    exact ⟨_, foldlM_once hread, name, rfl, htake⟩
  | type =>
    obtain ⟨hpos, hsize, hzeros⟩ := he.typeName
    obtain ⟨name, hread, htake⟩ := readString_text order pidTypeName hpos hsize hzeros
    exact ⟨_, foldlM_once hread, name, rfl, htake⟩
  | reliability =>
    obtain ⟨duration, hread, hbounds⟩ := readReliability_padded order he.reliability
      he.blockingSeconds
    exact ⟨_, foldlM_once hread, duration, rfl, hbounds⟩
  | durability => exact ⟨_, foldlM_once (readDurability_padded order he.durability), rfl⟩
  | inlineQos => exact ⟨_, foldlM_once (readFlag_padded _ _ _), rfl⟩
  | unicast => exact locators_announced order _ he.unicastLocators
  | multicast => exact locators_announced order _ he.multicastLocators
  | other => exact ⟨(), rfl, trivial⟩

end Announcement

section Receive

/-- What the parser does with a DATA message whose payload is a parameter list. -/
def receive (data : OpenRtdds.DataMessageView) (enc : List UInt8) (ps : List Parameter)
    (peer : GuidPrefix) (size : ℕ) : Guarded SedpError (SedpMessageView × ℕ) :=
  match announcedKind data.writerId with
  | none => .error .invalidIdentity
  | some (kind, expectedReader) => do
    require (data.readerId = entityIdUnknown ∨ data.readerId = expectedReader) .invalidIdentity
    require (data.context.source = peer) .participantMismatch
    require (byteAt enc 0 = 0) .unsupportedRepresentation
    require (byteAt enc 1 = 2 ∨ byteAt enc 1 = 3) .unsupportedRepresentation
    let t ← ps.foldlM
      (Slots.step slotOf (item (announcedOrder enc) peer)) noParameters
    let c := assemble
      (origin data.context.version data.context.vendorId peer kind) t
    let e := c.endpoint
    require (c.seenEndpoint ∧ c.seenTopic ∧ c.seenType ∧
      ¬ (c.seenLocator ∧ e.unicastLocators.size + e.multicastLocators.size = 0))
      .missingRequiredParameter
    require (validEndpointId e.endpointId kind) .invalidIdentity
    pure (
      { endpoint := e
        sequenceNumber := data.sequenceNumber
        submessageByteOrder := data.submessageByteOrder
        parameterByteOrder := announcedOrder enc }, size)

variable {message : Span} {data : OpenRtdds.DataMessageView} {enc rest : List UInt8}
  {ps : List Parameter}

/-- **The parser reads the slots.** -/
theorem parseSedpMessage_eq (hsize : message.size ≤ uint64Max)
    (hdata : OpenRtdds.parseDataMessage message = .ok data)
    (h : IsParameterList data.payload enc ps rest) (peer : GuidPrefix) :
    parseSedpMessage message peer = receive data enc ps peer message.size := by
  obtain ⟨view, hview, rfl, hin, hwrap⟩ := raw_view hsize hdata
  unfold parseSedpMessage receive
  dsimp only [Raw.DataMessageView.read]
  rw [hview, Guarded.mapError, ok_bind]
  cases announcedKind view.writerId with
  | none => rfl
  | some announced =>
    obtain ⟨kind, expectedReader⟩ := announced
    dsimp only
    have hstart := assemble_noParameters view.context.version view.context.vendorId peer kind
    unfold origin at hstart
    refine require_bind_congr fun _ => require_bind_congr fun _ => ?_
    rw [← hstart]
    exact parsePayload_eq (fun order => parameter_handles order peer)
      (fun order t p => @handle_eq order peer
        (origin view.context.version view.context.vendorId peer kind) t p) hin hwrap h

/-- The endpoint `f` was read from an announcement of `e`. -/
structure ReadFrom (e f : SedpEndpointData) : Prop where
  protocolVersion : f.protocolVersion = e.protocolVersion
  vendorId : f.vendorId = e.vendorId
  participantGuidPrefix : f.participantGuidPrefix = e.participantGuidPrefix
  endpointId : f.endpointId = e.endpointId
  kind : f.kind = e.kind
  topicName : f.topicNameSize = e.topicNameSize ∧
    f.topicName.toList.take e.topicNameSize = e.topicName.toList.take e.topicNameSize
  typeName : f.typeNameSize = e.typeNameSize ∧
    f.typeName.toList.take e.typeNameSize = e.typeName.toList.take e.typeNameSize
  reliability : f.reliability = e.reliability
  durability : f.durability = e.durability
  expectsInlineQos : f.expectsInlineQos = e.expectsInlineQos
  unicastLocators : f.unicastLocators.size = e.unicastLocators.size ∧
    f.unicastLocators.entries = e.unicastLocators.entries
  multicastLocators : f.multicastLocators.size = e.multicastLocators.size ∧
    f.multicastLocators.entries = e.multicastLocators.entries
  maxBlockingTimeNs : e.maxBlockingTimeNs - 1 ≤ f.maxBlockingTimeNs ∧
    f.maxBlockingTimeNs ≤ e.maxBlockingTimeNs

theorem readFrom_assemble {e : SedpEndpointData} {t : (i : Slot) → i.State}
    (h : ∀ i, Holds e i (t i)) :
    ReadFrom e (assemble
      (origin e.protocolVersion e.vendorId e.participantGuidPrefix e.kind) t).endpoint := by
  obtain ⟨topic, htopic, htopicText⟩ := h .topic
  obtain ⟨type, htype, htypeText⟩ := h .type
  obtain ⟨duration, hreliability, hbounds⟩ := h .reliability
  have hendpoint : t .endpoint = some e.endpointId := h .endpoint
  have hdurability : t .durability = some e.durability := h .durability
  have hinline : t .inlineQos = some e.expectsInlineQos := h .inlineQos
  constructor <;>
    simp only [assemble, origin, htopic, htype, hreliability, hendpoint, hdurability, hinline,
      Option.getD_some]
  · exact ⟨trivial, htopicText⟩
  · exact ⟨trivial, htypeText⟩
  · exact h .unicast
  · exact h .multicast
  · exact hbounds

end Receive

end Sedp

open Sedp

/-- **The configurations that `SedpMessageBuilder::build` accepts.** -/
structure SedpAnnouncementConfig.Valid (config : SedpAnnouncementConfig) : Prop where
  endpoint : Announceable config.endpoint
  readerId : config.readerId = entityIdUnknown ∨
    config.readerId = expectedReader config.endpoint.kind
  submessageByteOrder :
    config.submessageByteOrder = .bigEndian ∨ config.submessageByteOrder = .littleEndian
  parameterByteOrder :
    config.parameterByteOrder = .bigEndian ∨ config.parameterByteOrder = .littleEndian
  number : 1 ≤ config.sequenceNumber ∧ config.sequenceNumber ≤ int64Max

variable {config : SedpAnnouncementConfig}

theorem buildSedpMessage_accepts (h : config.Valid) {capacity : ℕ} (hcapacity : 876 ≤ capacity) :
    ∃ m, buildSedpMessage false capacity config = .ok m := by
  obtain ⟨he, hreader, hsub, hparam, hnumber⟩ := h
  obtain ⟨htopicPos, htopic, htopicZeros⟩ := he.topicName
  obtain ⟨htypePos, htype, htypeZeros⟩ := he.typeName
  obtain ⟨w, hw, hlength, hbytes⟩ := writeParameters_eq config.endpoint config.parameterByteOrder
    htopic htype he.blockingSeconds
  have hpayload : supportedSerializedPayload (.bytes w.bytes) = true := by
    rw [hbytes]
    exact (announcedOrder_encapsulation _ hparam).2.2.2
  have hdata : buildDataMessage false capacity (dataConfig config) (.bytes w.bytes) =
      .ok (dataMessageBytes (dataConfig config) w.bytes) :=
    build_accepts he.version hsub hnumber hpayload (by omega) (by omega)
  have hunicast := (validLocators_iff.1 he.unicastLocators).1
  have hmulticast := (validLocators_iff.1 he.multicastLocators).1
  have hlocator := he.hasLocator
  have hconfiguration : validConfiguration config = true := by
    simp only [validConfiguration, Bool.and_eq_true, Bool.or_eq_true, bne_iff_ne, beq_iff_eq,
      validText_iff, validReliability, validDurability]
    exact ⟨⟨⟨⟨⟨⟨⟨⟨he.version, he.guidPrefix⟩, he.endpointId⟩, htopicPos, by omega, htopicZeros⟩,
      htypePos, by omega, htypeZeros⟩, he.reliability⟩, he.durability⟩, hreader⟩, by omega⟩
  refine ⟨dataMessageBytes (dataConfig config) w.bytes, ?_⟩
  unfold buildSedpMessage
  rw [if_neg (by simp [(supportedByteOrder_iff _).2 hsub, (supportedByteOrder_iff _).2 hparam]),
    if_neg (by simp [hconfiguration]),
    if_neg (by simp [he.unicastLocators, he.multicastLocators]), hw]
  dsimp only
  rw [hdata]

theorem validConfiguration_announceable (h : validConfiguration config = true)
    (hunicast : validLocators config.endpoint.unicastLocators = true)
    (hmulticast : validLocators config.endpoint.multicastLocators = true)
    (hseconds : config.endpoint.maxBlockingTimeNs / nanosecondsPerSecond ≤ int32Max) :
    Announceable config.endpoint ∧ (config.readerId = entityIdUnknown ∨
      config.readerId = expectedReader config.endpoint.kind) := by
  simp only [validConfiguration, Bool.and_eq_true, Bool.or_eq_true, bne_iff_ne, beq_iff_eq,
    validText_iff, validReliability, validDurability] at h
  obtain ⟨⟨⟨⟨⟨⟨⟨⟨hversion, hguid⟩, hendpoint⟩, htopicPos, htopic, htopicZeros⟩,
    htypePos, htype, htypeZeros⟩, hreliability⟩, hdurability⟩, hreader⟩, hlocator⟩ := h
  refine ⟨⟨hversion, hguid, hendpoint, ⟨htopicPos, by omega, htopicZeros⟩,
    ⟨htypePos, by omega, htypeZeros⟩, hreliability, hdurability, ?_, hunicast, hmulticast, hseconds⟩,
    hreader⟩
  intro hzero
  exact hlocator (by rw [hzero, Nat.zero_mod])

/-- The writer refuses a blocking time out of range, and nothing else. -/
theorem writeParameters_seconds {e : SedpEndpointData} {order : ByteOrder} {w : ParameterWriter}
    (h : writeParameters e order = some w) :
    e.maxBlockingTimeNs / nanosecondsPerSecond ≤ int32Max := by
  simp only [writeParameters, Option.bind_eq_bind, Option.bind_eq_some_iff] at h
  obtain ⟨_, -, _, -, _, -, _, -, duration, hduration, -⟩ := h
  unfold appendDuration at hduration
  split at hduration
  · cases hduration
  · omega

theorem buildSedpMessage_ok {null : Bool} {capacity : ℕ} {m : List UInt8}
    (h : buildSedpMessage null capacity config = .ok m) : config.Valid ∧
      ∃ payload,
        payload = encapsulation config.parameterByteOrder ++
          (parameterBytes config.parameterByteOrder
            (announcement config.endpoint config.parameterByteOrder) ++
            sentinel config.parameterByteOrder) ∧
        buildDataMessage null capacity (dataConfig config) (.bytes payload) = .ok m := by
  unfold buildSedpMessage at h
  obtain ⟨horders, h⟩ := ite_error_ok h
  obtain ⟨hconfiguration, h⟩ := ite_error_ok h
  obtain ⟨hlocators, h⟩ := ite_error_ok h
  simp only [Bool.or_eq_true, Bool.not_eq_true', not_or, Bool.not_eq_false] at horders hlocators
  rw [Bool.not_eq_true', Bool.not_eq_false] at hconfiguration
  cases hw : writeParameters config.endpoint config.parameterByteOrder with
  | none =>
    rw [hw] at h
    cases h
  | some w =>
    rw [hw] at h
    dsimp only at h
    obtain ⟨hendpoint, hreader⟩ := validConfiguration_announceable hconfiguration hlocators.1
      hlocators.2 (writeParameters_seconds hw)
    obtain ⟨w', hw', -, hbytes⟩ := writeParameters_eq config.endpoint config.parameterByteOrder
      hendpoint.topicName.2.1 hendpoint.typeName.2.1 hendpoint.blockingSeconds
    cases Option.some.inj (hw.symm.trans hw')
    split at h
    · cases h
    · next hdata =>
      cases h
      exact ⟨⟨hendpoint, hreader, (supportedByteOrder_iff _).1 horders.1.2,
        (supportedByteOrder_iff _).1 horders.2, (build_ok hdata).1.number⟩,
        w.bytes, hbytes, hdata⟩

/-- The internal buffer of the builder is never too small: what it reports as an overflow is a
blocking time of more seconds than an `int32_t` holds. -/
theorem buildSedpMessage_noOverflow {null : Bool} {capacity : ℕ}
    (h : buildSedpMessage null capacity config = .error .bufferOverflow) :
    int32Max < config.endpoint.maxBlockingTimeNs / nanosecondsPerSecond := by
  by_contra hseconds
  rw [Nat.not_lt] at hseconds
  unfold buildSedpMessage at h
  dsimp only at h
  split at h
  · cases h
  split at h
  · cases h
  next hconfiguration =>
  split at h
  · cases h
  simp only [Bool.not_eq_true', Bool.not_eq_false, validConfiguration, Bool.and_eq_true,
    validText_iff] at hconfiguration
  obtain ⟨⟨⟨⟨⟨⟨-, -, htopic, -⟩, -, htype, -⟩, -⟩, -⟩, -⟩, -⟩ := hconfiguration
  obtain ⟨w, hw, -⟩ := writeParameters_eq config.endpoint config.parameterByteOrder (by omega)
    (by omega) hseconds
  rw [hw] at h
  dsimp only at h
  split at h
  · injection h with h
    cases h
  · cases h

theorem announcedKind_writer (kind : EndpointKind) :
    announcedKind (announcementWriter kind) = some (kind, expectedReader kind) := by
  cases kind <;> rfl

/-- **A built announcement is read back.** -/
theorem parseSedpMessage_build {null : Bool} {capacity : ℕ} {m : List UInt8}
    (h : buildSedpMessage null capacity config = .ok m) :
    ∃ view, parseSedpMessage (.bytes m) config.endpoint.participantGuidPrefix =
        .ok (view, m.length) ∧
      ReadFrom config.endpoint view.endpoint ∧ view.sequenceNumber = config.sequenceNumber ∧
      view.submessageByteOrder = config.submessageByteOrder ∧
      view.parameterByteOrder = config.parameterByteOrder := by
  obtain ⟨hvalid, payload, hpayload, hbuild⟩ := buildSedpMessage_ok h
  obtain ⟨hzero, htwo, horder, -⟩ := announcedOrder_encapsulation [] hvalid.parameterByteOrder
  have he := hvalid.endpoint
  choose t hread hholds using read_announced config.parameterByteOrder he
  have hfold : (announcement config.endpoint config.parameterByteOrder).foldlM
      (Slots.step slotOf (item (announcedOrder (encapsulation config.parameterByteOrder))
        config.endpoint.participantGuidPrefix)) noParameters = .ok t := by
    rw [horder]
    exact Slots.foldlM_flatMap (announced_slot _ _) (by decide) (fun i => by cases i <;> rfl) hread
  have hfrom := readFrom_assemble hholds
  have hparse := parseSedpMessage_eq (build_ok hbuild).1.size_le (parse_build hbuild)
    (written_announced hvalid.parameterByteOrder hpayload
      (announced_wellFormed _ _ he.topicName.2.1 he.typeName.2.1)) config.endpoint.participantGuidPrefix
  refine ⟨{ endpoint := (assemble (origin config.endpoint.protocolVersion config.endpoint.vendorId
              config.endpoint.participantGuidPrefix config.endpoint.kind) t).endpoint
            sequenceNumber := config.sequenceNumber
            submessageByteOrder := config.submessageByteOrder
            parameterByteOrder := _ }, hparse.trans ?_, hfrom, rfl, rfl, horder⟩
  have hkind : announcedKind (dataConfig config).writerId =
      some (config.endpoint.kind, expectedReader config.endpoint.kind) := announcedKind_writer _
  have hreader : (dataConfig config).readerId = entityIdUnknown ∨
      (dataConfig config).readerId = expectedReader config.endpoint.kind := hvalid.readerId
  have hsource : (dataContext (dataConfig config)).source = config.endpoint.participantGuidPrefix := rfl
  unfold receive
  dsimp only
  rw [hkind]
  dsimp only
  rw [require_pos hreader, ok_bind, require_pos hsource, ok_bind, require_pos hzero, ok_bind,
    require_pos htwo, ok_bind, hfold, ok_bind]
  have htopic : (t .topic).isSome = true := by
    obtain ⟨name, hname, -⟩ := hholds .topic
    rw [hname]
    rfl
  have htype : (t .type).isSome = true := by
    obtain ⟨name, hname, -⟩ := hholds .type
    rw [hname]
    rfl
  rw [require_pos, ok_bind, require_pos]
  · rfl
  · exact (congrArg (validEndpointId · config.endpoint.kind) hfrom.endpointId).trans he.endpointId
  · refine ⟨congrArg Option.isSome (hholds .endpoint), htopic, htype, fun h => he.hasLocator ?_⟩
    rw [← hfrom.unicastLocators.1, ← hfrom.multicastLocators.1]
    exact h.2

/-- **Endpoint announcements make a round trip.** For every configuration of the builder: its internal
buffer never overflows (the error of that name says that the blocking time is out of range), and with a
buffer of 876 bytes it succeeds exactly on the valid configurations. Whatever it builds, the parser
reads the announced endpoint from it, its blocking time rounded down by at most a nanosecond. -/
theorem sedp_round_trip (b : SedpMessageBuilder) (config : SedpAnnouncementConfig) :
    ((b.build config).2.error = some .bufferOverflow →
      int32Max < config.endpoint.maxBlockingTimeNs / nanosecondsPerSecond) ∧
    (876 ≤ b.buffer.data.length → ((b.build config).1 = true ↔ config.Valid)) ∧
    ((b.build config).1 = true → ∃ view,
      parseSedpMessage (.bytes (b.build config).2.message) config.endpoint.participantGuidPrefix =
        .ok (view, (b.build config).2.size) ∧
      ReadFrom config.endpoint view.endpoint ∧
      view.sequenceNumber = config.sequenceNumber ∧
      view.submessageByteOrder = config.submessageByteOrder ∧
      view.parameterByteOrder = config.parameterByteOrder) := by
  unfold SedpMessageBuilder.build
  refine ⟨fun h => ?_, fun hsize => ⟨fun h => ?_, fun hvalid => ?_⟩, fun h => ?_⟩
  · exact buildSedpMessage_noOverflow (b.finish_error h)
  · obtain ⟨m, hbuild, -⟩ := b.finish_true h
    exact (buildSedpMessage_ok hbuild).1
  · exact b.finish_accepts (buildSedpMessage · · config) (by decide)
      (fun _ => buildSedpMessage_accepts hvalid) hsize
  · obtain ⟨m, hbuild, hmessage, hlength⟩ := b.finish_true h
    rw [hmessage, hlength]
    exact parseSedpMessage_build hbuild

end OpenRtdds
