import OpenRtdds.Proof.DataMessage
import OpenRtdds.Proof.ParameterList

/-!
# Participant announcements, written and read

* `Spdp.Slot`, `Spdp.item`, `Spdp.assemble`: a participant announcement as a record of parameters,
  each of which is read on its own.
* `Spdp.handle_eq`: the switch of the parser changes the slot of the parameter.
* `Spdp.announcement`, `Spdp.writeParameters_eq`: the parameters that the builder writes.
* `Spdp.read_announced`: every slot holds what was written.
* `spdp_round_trip`: the builder and the parser, for every configuration.
-/

namespace OpenRtdds

open Lib Guarded Raw

namespace Spdp

section Slots

/-- The parameters of an announcement; `other` are those without a meaning here. -/
inductive Slot where
  | protocol
  | vendor
  | domain
  | guid
  | inlineQos
  | endpoints
  | lease
  | metatrafficUnicast
  | metatrafficMulticast
  | defaultUnicast
  | defaultMulticast
  | name
  | other
  deriving DecidableEq

/-- What the parser keeps of a parameter: the value of one that may occur once, the locators of a
list. -/
@[reducible] def Slot.State : Slot → Type
  | .protocol => Option ProtocolVersion
  | .vendor => Option VendorId
  | .domain => Option ℕ
  | .guid => Option GuidPrefix
  | .inlineQos => Option Bool
  | .endpoints => Option ℕ
  | .lease => Option ℕ
  | .metatrafficUnicast | .metatrafficMulticast | .defaultUnicast | .defaultMulticast =>
    BoundedLocatorList 4
  | .name => Option (Vector UInt8 64 × ℕ)
  | .other => Unit

/-- The slots of the ids that the parser knows. -/
def slots : List (ℕ × Slot) :=
  [(pidProtocolVersion, .protocol), (pidVendorId, .vendor), (pidDomainId, .domain),
    (pidParticipantGuid, .guid), (pidExpectsInlineQos, .inlineQos),
    (pidBuiltinEndpointSet, .endpoints), (pidParticipantLeaseDuration, .lease),
    (pidMetatrafficUnicastLocator, .metatrafficUnicast),
    (pidMetatrafficMulticastLocator, .metatrafficMulticast),
    (pidDefaultUnicastLocator, .defaultUnicast), (pidDefaultMulticastLocator, .defaultMulticast),
    (pidEntityName, .name)]

abbrev slotOf : Parameter → Slot := slotIn slots .other

/-- A locator list. -/
def locators (order : ByteOrder) (list : BoundedLocatorList 4) (p : Parameter) :
    Guarded SpdpError (BoundedLocatorList 4) :=
  appendParsedLocator p.value 0 p.value.length order list

/-- How the value of a parameter that may occur once is read. -/
def readProtocol (p : Parameter) : Guarded SpdpError ProtocolVersion := do
  require (p.value.length = 4) .malformedParameter
  let major ← load p.value 0
  let minor ← load p.value (0 + 1)
  pure ⟨major, minor⟩

def readVendor (p : Parameter) : Guarded SpdpError VendorId := do
  require (p.value.length = 4) .malformedParameter
  copyBytes p.value 0 2

def readNumber (order : ByteOrder) (p : Parameter) : Guarded SpdpError ℕ := do
  require (p.value.length = 4) .malformedParameter
  readWord p.value 0 4 order

def readGuid (p : Parameter) : Guarded SpdpError GuidPrefix := do
  require (p.value.length = 16) .malformedParameter
  let guidPrefix ← copyBytes p.value 0 12
  let entity ← bytesAt p.value (0 + 12) 4
  require (entity = entityIdParticipant.toList) .invalidIdentity
  pure guidPrefix

def readLease (order : ByteOrder) (p : Parameter) : Guarded SpdpError ℕ := do
  require (p.value.length = 8) .malformedParameter
  parseLease p.value 0 order

def readName (order : ByteOrder) (p : Parameter) : Guarded SpdpError (Vector UInt8 64 × ℕ) :=
  parseName p.value 0 p.value.length order (.replicate 64 0)

/-- What a parameter does to its slot. -/
def item (order : ByteOrder) : (i : Slot) → i.State → Parameter → Guarded SpdpError i.State
  | .protocol => once .duplicateParameter readProtocol
  | .vendor => once .duplicateParameter readVendor
  | .domain => once .duplicateParameter (readNumber order)
  | .guid => once .duplicateParameter readGuid
  | .inlineQos => once .duplicateParameter (readFlag .malformedParameter)
  | .endpoints => once .duplicateParameter (readNumber order)
  | .lease => once .duplicateParameter (readLease order)
  | .metatrafficUnicast => locators order
  | .metatrafficMulticast => locators order
  | .defaultUnicast => locators order
  | .defaultMulticast => locators order
  | .name => once .duplicateParameter (readName order)
  | .other => fun _ p =>
    require (p.id = 0 ∨ p.id &&& mustUnderstandMask = 0) .unknownRequiredParameter

/-- The slots before the first parameter. -/
def noParameters : (i : Slot) → i.State
  | .protocol | .vendor | .domain | .guid | .inlineQos | .endpoints | .lease | .name => none
  | .metatrafficUnicast | .metatrafficMulticast | .defaultUnicast | .defaultMulticast => {}
  | .other => ()

/-- The candidate of the parser, with its defaults for what was not announced. -/
def assemble (domainId : ℕ) (t : (i : Slot) → i.State) : Candidate where
  participant :=
    { protocolVersion := Option.getD (t .protocol) {}
      vendorId := Option.getD (t .vendor) (.replicate 2 0)
      guidPrefix := Option.getD (t .guid) (.replicate 12 0)
      domainId := Option.getD (t .domain) domainId
      expectsInlineQos := Option.getD (t .inlineQos) false
      metatrafficUnicast := t .metatrafficUnicast
      metatrafficMulticast := t .metatrafficMulticast
      defaultUnicast := t .defaultUnicast
      defaultMulticast := t .defaultMulticast
      availableBuiltinEndpoints := Option.getD (t .endpoints) 3
      leaseDurationNs := Option.getD (t .lease) 100000000000
      entityName := (Option.getD (t .name) (.replicate 64 0, 0)).1
      entityNameSize := (Option.getD (t .name) (.replicate 64 0, 0)).2 }
  seenProtocol := Option.isSome (t .protocol)
  seenVendor := Option.isSome (t .vendor)
  seenGuid := Option.isSome (t .guid)
  seenDomain := Option.isSome (t .domain)
  seenInline := Option.isSome (t .inlineQos)
  seenEndpoints := Option.isSome (t .endpoints)
  seenLease := Option.isSome (t .lease)
  seenName := Option.isSome (t .name)

theorem assemble_noParameters (domainId : ℕ) :
    assemble domainId noParameters = { participant := { domainId := domainId } } := rfl

variable {order : ByteOrder} {domainId : ℕ} {t : (i : Slot) → i.State}

/-- **The switch changes the slot of the parameter.** -/
theorem handle_eq (p : Parameter) :
    handle (fun m => parameter m order) (assemble domainId t) p =
      Slots.step slotOf (item order) t p >>= fun t => pure (assemble domainId t) := by
  unfold handle
  change parameter p.value order p.id p.value.length 0 (assemble domainId t) = _
  unfold parameter
  refine switch_case (i := .other) rfl (fun h => ?pad) fun h0 =>
    switch_case (i := .protocol) rfl (fun _ => ?_) fun h1 =>
    switch_case (i := .vendor) rfl (fun _ => ?_) fun h2 =>
    switch_case (i := .domain) rfl (fun _ => ?_) fun h3 =>
    switch_case (i := .guid) rfl (fun _ => ?_) fun h4 =>
    switch_case (i := .inlineQos) rfl (fun _ => ?_) fun h5 =>
    switch_case (i := .endpoints) rfl (fun _ => ?_) fun h6 =>
    switch_case (i := .lease) rfl (fun _ => ?_) fun h7 =>
    switch_case (i := .metatrafficUnicast) rfl (fun _ => rfl) fun h8 =>
    switch_case (i := .metatrafficMulticast) rfl (fun _ => rfl) fun h9 =>
    switch_case (i := .defaultUnicast) rfl (fun _ => rfl) fun h10 =>
    switch_case (i := .defaultMulticast) rfl (fun _ => rfl) fun h11 =>
    switch_case (i := .name) rfl (fun _ => ?name) fun h12 => switch_default ?unknown ?other
  case pad =>
    simp only [item, require_pos (Or.inl h : p.id = 0 ∨ p.id &&& mustUnderstandMask = 0)]
    rfl
  case name =>
    simp only [item, once, readName, bind_assoc, pure_bind]
    -- a name is read into the array of the candidate, which no other name has filled
    refine require_bind_congr fun hseen => ?_
    have hnone : t .name = none := Option.isNone_iff_eq_none.1 (Option.isSome_eq_false_iff.1 hseen)
    have hname : (assemble domainId t).participant.entityName = .replicate 64 0 := by
      simp only [assemble, hnone, Option.getD_none]
    rw [hname]
    rfl
  case unknown => simp [slots, h1, h2, h3, h4, h5, h6, h7, h8, h9, h10, h11, h12]
  case other =>
    simp only [item, h0, false_or]
    rfl
  all_goals
    simp only [item, once, readProtocol, readVendor, readNumber, readGuid, readFlag, readLease, single,
      singleParameter, bind_assoc, pure_bind]
    rfl

end Slots

section Announcement

variable (p : SpdpParticipantData) (order : ByteOrder)

/-- The parameters that the builder writes for a slot. -/
def announced : Slot → List Parameter
  | .protocol =>
    [⟨pidProtocolVersion, paddedValue [p.protocolVersion.major, p.protocolVersion.minor]⟩]
  | .vendor => [⟨pidVendorId, paddedValue p.vendorId.toList⟩]
  | .domain => [⟨pidDomainId, paddedValue (storeInt (order == .littleEndian) 4 p.domainId)⟩]
  | .guid =>
    [⟨pidParticipantGuid, paddedValue (p.guidPrefix.toList ++ entityIdParticipant.toList)⟩]
  | .inlineQos => [⟨pidExpectsInlineQos, paddedValue [if p.expectsInlineQos then 1 else 0]⟩]
  | .endpoints =>
    [⟨pidBuiltinEndpointSet,
      paddedValue (storeInt (order == .littleEndian) 4 p.availableBuiltinEndpoints)⟩]
  | .lease => [⟨pidParticipantLeaseDuration, paddedValue (durationValue order p.leaseDurationNs)⟩]
  | .metatrafficUnicast =>
    p.metatrafficUnicast.entries.map (locatorParameter order pidMetatrafficUnicastLocator)
  | .metatrafficMulticast =>
    p.metatrafficMulticast.entries.map (locatorParameter order pidMetatrafficMulticastLocator)
  | .defaultUnicast =>
    p.defaultUnicast.entries.map (locatorParameter order pidDefaultUnicastLocator)
  | .defaultMulticast =>
    p.defaultMulticast.entries.map (locatorParameter order pidDefaultMulticastLocator)
  | .name =>
    if p.entityNameSize = 0 then []
    else [⟨pidEntityName, textValue order (p.entityName.toList.take p.entityNameSize)⟩]
  | .other => []

/-- The slots in the order in which the builder writes them. -/
def writtenSlots : List Slot :=
  [.protocol, .vendor, .domain, .guid, .inlineQos, .endpoints, .lease, .metatrafficUnicast,
    .metatrafficMulticast, .defaultUnicast, .defaultMulticast, .name]

/-- The parameters that the builder writes. -/
def announcement : List Parameter := writtenSlots.flatMap (announced p order)

theorem announced_slot : ∀ i, ∀ q ∈ announced p order i, slotOf q = i := by
  intro i q hq
  cases i with
  | metatrafficUnicast | metatrafficMulticast | defaultUnicast | defaultMulticast =>
    obtain ⟨l, -, rfl⟩ := List.mem_map.1 hq
    rfl
  | name =>
    simp only [announced] at hq
    split at hq
    · cases hq
    · rw [List.mem_singleton.1 hq]
      rfl
  | other => cases hq
  | _ =>
    rw [List.mem_singleton.1 hq]
    rfl

theorem announced_wellFormed (hname : p.entityNameSize ≤ 63) :
    ∀ q ∈ announcement p order, q.WellFormed := by
  have htext : (p.entityName.toList.take p.entityNameSize).length ≤ 63 :=
    (List.length_take_le _ _).trans hname
  intro q hq
  obtain ⟨i, -, hq⟩ := List.mem_flatMap.1 hq
  cases i with
  | metatrafficUnicast | metatrafficMulticast | defaultUnicast | defaultMulticast =>
    obtain ⟨l, -, rfl⟩ := List.mem_map.1 hq
    exact locatorParameter_wellFormed (by decide) l
  | name =>
    simp only [announced] at hq
    split at hq
    · cases hq
    · rw [List.mem_singleton.1 hq]
      refine wellFormed_padded (by decide) ?_
      simp only [List.length_append, storeInt_length, List.length_singleton]
      omega
  | other => cases hq
  | _ =>
    rw [List.mem_singleton.1 hq]
    refine wellFormed_padded (by decide) ?_
    simp [durationValue]

theorem writeName {w : ParameterWriter} {capacity : ℕ} {ps : List Parameter}
    (h : Written w capacity order ps) (hname : p.entityNameSize ≤ 63)
    (hfit : w.bytes.length + 72 ≤ capacity) :
    ∃ w', (if p.entityNameSize ≠ 0 then
        w.append pidEntityName (w.text p.entityName p.entityNameSize) else some w) = some w' ∧
      Written w' capacity order (ps ++ announced p order .name) ∧
      w'.bytes.length ≤ w.bytes.length + 72 := by
  by_cases hzero : p.entityNameSize = 0
  · simp only [announced, hzero, ne_eq, not_true_eq_false, if_false, if_true, List.append_nil]
    exact ⟨w, rfl, h, Nat.le_add_right _ _⟩
  · have hpadded := paddedSize_bounds (p.entityNameSize + 5)
    obtain ⟨w', hw', h', hlen⟩ := h.appendText pidEntityName p.entityName
      p.entityNameSize (by omega) (by omega) (by omega)
    simp only [announced, ne_eq, hzero, not_false_eq_true, if_true]
    exact ⟨w', hw', h', by omega⟩

/-- **The builder writes the announcement**, and its buffer suffices. -/
theorem writeParameters_eq (hname : p.entityNameSize ≤ 63) :
    ∃ w, writeParameters p order = some w ∧ w.bytes.length ≤ 600 ∧
      w.bytes = encapsulation order ++ (parameterBytes order (announcement p order) ++
        sentinel order) := by
  have hcapacity : payloadCapacity = 768 := rfl
  obtain ⟨h₀, hlen₀⟩ := @Written.start order payloadCapacity (by decide)
  unfold writeParameters
  refine bind_succeeds (h₀.append _ (n := 4) (by simp [paddedSize]) (by omega) (by omega))
    fun w₁ h₁ hlen₁ => ?_
  refine bind_succeeds (h₁.append _ (n := 4) (by simp [paddedSize]) (by omega) (by omega))
    fun w₂ h₂ hlen₂ => ?_
  rw [h₂.word]
  refine bind_succeeds (h₂.append _ (n := 4) (by simp [paddedSize]) (by omega) (by omega))
    fun w₃ h₃ hlen₃ => ?_
  refine bind_succeeds (h₃.append _ (n := 16) (by simp [paddedSize]) (by omega) (by omega))
    fun w₄ h₄ hlen₄ => ?_
  refine bind_succeeds (h₄.append _ (n := 4) (by simp [paddedSize]) (by omega) (by omega))
    fun w₅ h₅ hlen₅ => ?_
  rw [h₅.word]
  refine bind_succeeds (h₅.append _ (n := 4) (by simp [paddedSize]) (by omega) (by omega))
    fun w₆ h₆ hlen₆ => ?_
  rw [ParameterWriter.duration, h₆.word, ← durationValue]
  refine bind_succeeds (h₆.append _ (n := 8) (by simp [paddedSize]) (by omega) (by omega))
    fun w₇ h₇ hlen₇ => ?_
  -- the locator lists and the name are at their longest
  refine bind_succeeds (h₇.appendList _ _ (by omega)) fun w₈ h₈ hlen₈ => ?_
  refine bind_succeeds (h₈.appendList _ _ (by omega)) fun w₉ h₉ hlen₉ => ?_
  refine bind_succeeds (h₉.appendList _ _ (by omega)) fun w₁₀ h₁₀ hlen₁₀ => ?_
  refine bind_succeeds (h₁₀.appendList _ _ (by omega)) fun w₁₁ h₁₁ hlen₁₁ => ?_
  obtain ⟨w₁₂, hw₁₂, h₁₂, hlen₁₂⟩ := writeName p order h₁₁ hname (by omega)
  obtain ⟨w₁₃, hw₁₃, hlen₁₃, hbytes⟩ := h₁₂.finish (by omega)
  refine ⟨w₁₃, hw₁₃ ▸ ?_, by omega, hbytes.trans ?_⟩
  · split_ifs at hw₁₂ ⊢
    · exact congrArg (· >>= ParameterWriter.finish) hw₁₂
    · exact congrArg (· >>= ParameterWriter.finish) hw₁₂
  simp only [announcement, writtenSlots, List.flatMap_cons, List.flatMap_nil, announced,
    List.append_assoc, List.nil_append, List.append_nil]

/-- What a slot holds when the announcement has been read. -/
def Holds : (i : Slot) → i.State → Prop
  | .protocol, x => x = some p.protocolVersion
  | .vendor, x => x = some p.vendorId
  | .domain, x => x = some p.domainId
  | .guid, x => x = some p.guidPrefix
  | .inlineQos, x => x = some p.expectsInlineQos
  | .endpoints, x => x = some p.availableBuiltinEndpoints
  | .lease, x => ∃ lease, x = some lease ∧ 1 ≤ lease ∧ p.leaseDurationNs - 1 ≤ lease ∧
      lease ≤ p.leaseDurationNs
  | .metatrafficUnicast, x => x.size = p.metatrafficUnicast.size ∧
      x.entries = p.metatrafficUnicast.entries
  | .metatrafficMulticast, x => x.size = p.metatrafficMulticast.size ∧
      x.entries = p.metatrafficMulticast.entries
  | .defaultUnicast, x => x.size = p.defaultUnicast.size ∧ x.entries = p.defaultUnicast.entries
  | .defaultMulticast, x => x.size = p.defaultMulticast.size ∧
      x.entries = p.defaultMulticast.entries
  | .name, x => (x.getD (.replicate 64 0, 0)).2 = p.entityNameSize ∧
      (x.getD (.replicate 64 0, 0)).1.toList.take p.entityNameSize =
        p.entityName.toList.take p.entityNameSize
  | .other, _ => True

variable {p}

theorem readProtocol_padded (version : ProtocolVersion) :
    readProtocol ⟨pidProtocolVersion, paddedValue [version.major, version.minor]⟩ = .ok version := by
  have hvalue : paddedValue [version.major, version.minor] = [version.major, version.minor, 0, 0] := by
    simp [paddedValue, paddedSize]
  rw [hvalue]
  rfl

theorem readVendor_padded (vendorId : VendorId) :
    readVendor ⟨pidVendorId, paddedValue vendorId.toList⟩ = .ok vendorId := by
  unfold readVendor
  rw [require_pos (by simp [paddedSize]), ok_bind]
  exact (at_paddedValue _).copyBytes

theorem readNumber_padded (id : ℕ) {n : ℕ} (h : n < 2 ^ 32) :
    readNumber order ⟨id, paddedValue (storeInt (order == .littleEndian) 4 n)⟩ = .ok n := by
  unfold readNumber
  rw [require_pos (by simp [paddedSize]), ok_bind]
  exact (at_paddedValue _).readWord h

theorem readGuid_padded (guidPrefix : GuidPrefix) :
    readGuid ⟨pidParticipantGuid, paddedValue (guidPrefix.toList ++ entityIdParticipant.toList)⟩ =
      .ok guidPrefix := by
  obtain ⟨hguid, hentity⟩ := (at_paddedValue (guidPrefix.toList ++ entityIdParticipant.toList)).split
    guidPrefix.length_toList
  unfold readGuid
  dsimp only
  rw [require_pos (by simp [paddedSize]), ok_bind, hguid.copyBytes, ok_bind,
    show bytesAt _ (0 + 12) 4 = ok entityIdParticipant.toList from hentity.bytesAt rfl, ok_bind,
    require_pos rfl]
  rfl

/-- The lease is rounded down by at most a nanosecond. -/
theorem readLease_padded (hlease : 2 ≤ p.leaseDurationNs)
    (hseconds : p.leaseDurationNs / nanosecondsPerSecond ≤ int32Max) :
    ∃ lease, readLease order ⟨pidParticipantLeaseDuration,
        paddedValue (durationValue order p.leaseDurationNs)⟩ = .ok lease ∧
      1 ≤ lease ∧ p.leaseDurationNs - 1 ≤ lease ∧ lease ≤ p.leaseDurationNs := by
  obtain ⟨-, hlow, hhigh⟩ := durationNs_bounds p.leaseDurationNs
  have hmax : int32Max < 2 ^ 31 := by decide
  obtain ⟨hwhole, hfraction⟩ := readWord_duration (at_paddedValue _) hseconds
  refine ⟨_, ?_, ?_, hlow, hhigh⟩
  · unfold readLease parseLease
    dsimp only
    rw [require_pos (by simp [paddedSize]), ok_bind, hwhole, ok_bind,
      require_pos (show p.leaseDurationNs / nanosecondsPerSecond < 2 ^ 31 by omega), ok_bind, hfraction,
      ok_bind, require_pos (by omega)]
    rfl
  · omega

theorem readName_text (hname : p.entityNameSize ≤ 63) :
    ∃ name, readName order ⟨pidEntityName,
        textValue order (p.entityName.toList.take p.entityNameSize)⟩ =
        .ok (name, p.entityNameSize) ∧
      name.toList.take p.entityNameSize = p.entityName.toList.take p.entityNameSize := by
  have hlength : (p.entityName.toList.take p.entityNameSize).length = p.entityNameSize := by
    rw [List.length_take, Vector.length_toList]
    omega
  obtain ⟨name, hfill, htake⟩ := @fill_text SpdpError 64 (.replicate 64 0)
    (p.entityName.toList.take p.entityNameSize) (by omega)
  rw [hlength] at htake
  refine ⟨name, ?_, htake⟩
  unfold readName
  rw [parseName_eq, parseText_textValue _ (Nat.zero_le _) (by omega) (by decide), ok_bind, hfill, hlength]
  rfl

/-- What the builder checks of a participant before it writes anything. -/
structure Announceable (p : SpdpParticipantData) : Prop where
  version : supportedVersion p.protocolVersion = true
  guidPrefix : nonzeroPrefix p.guidPrefix = true
  name : p.entityNameSize ≤ 63
  lease : 2 ≤ p.leaseDurationNs
  leaseSeconds : p.leaseDurationNs / nanosecondsPerSecond ≤ int32Max
  endpoints : p.availableBuiltinEndpoints &&& requiredEndpoints = requiredEndpoints
  hasDefault : p.defaultUnicast.size ≠ 0
  hasMetatraffic : p.metatrafficUnicast.size + p.metatrafficMulticast.size ≠ 0
  metatrafficUnicast : validLocators p.metatrafficUnicast = true
  metatrafficMulticast : validLocators p.metatrafficMulticast = true
  defaultUnicast : validLocators p.defaultUnicast = true
  defaultMulticast : validLocators p.defaultMulticast = true

/-- **Every slot holds what was announced.** -/
theorem read_announced (hp : Announceable p) (hdomain : p.domainId < 2 ^ 32)
    (hendpoints : p.availableBuiltinEndpoints < 2 ^ 32) (i : Slot) :
    ∃ x, (announced p order i).foldlM (item order i) (noParameters i) = .ok x ∧ Holds p i x := by
  cases i with
  | protocol => exact ⟨_, foldlM_once (readProtocol_padded _), rfl⟩
  | vendor => exact ⟨_, foldlM_once (readVendor_padded _), rfl⟩
  | domain => exact ⟨_, foldlM_once (readNumber_padded order _ hdomain), rfl⟩
  | guid => exact ⟨_, foldlM_once (readGuid_padded _), rfl⟩
  | inlineQos => exact ⟨_, foldlM_once (readFlag_padded _ _ _), rfl⟩
  | endpoints => exact ⟨_, foldlM_once (readNumber_padded order _ hendpoints), rfl⟩
  | lease =>
    obtain ⟨lease, hread, hbounds⟩ := readLease_padded order hp.lease hp.leaseSeconds
    exact ⟨_, foldlM_once hread, lease, rfl, hbounds⟩
  | metatrafficUnicast => exact foldlM_validLocators _ _ _ _ hp.metatrafficUnicast
  | metatrafficMulticast => exact foldlM_validLocators _ _ _ _ hp.metatrafficMulticast
  | defaultUnicast => exact foldlM_validLocators _ _ _ _ hp.defaultUnicast
  | defaultMulticast => exact foldlM_validLocators _ _ _ _ hp.defaultMulticast
  | name =>
    simp only [announced]
    by_cases hzero : p.entityNameSize = 0
    · rw [if_pos hzero]
      refine ⟨none, rfl, hzero.symm, ?_⟩
      simp only [hzero, List.take_zero]
    · rw [if_neg hzero]
      obtain ⟨name, hread, htake⟩ := readName_text order hp.name
      exact ⟨_, foldlM_once hread, rfl, htake⟩
  | other => exact ⟨(), rfl, trivial⟩

end Announcement

section Receive

/-- What the parser does with a DATA message whose payload is a parameter list. -/
def receive (data : OpenRtdds.DataMessageView) (enc : List UInt8) (ps : List Parameter)
    (domainId size : ℕ) : Guarded SpdpError (SpdpMessageView × ℕ) := do
  require (data.writerId = entityIdSpdpWriter ∧
    (data.readerId = entityIdUnknown ∨ data.readerId = entityIdSpdpReader)) .invalidIdentity
  require (byteAt enc 0 = 0) .unsupportedRepresentation
  require (byteAt enc 1 = 2 ∨ byteAt enc 1 = 3) .unsupportedRepresentation
  let t ← ps.foldlM (Slots.step slotOf (item (announcedOrder enc))) noParameters
  let c := assemble domainId t
  let p := c.participant
  require (c.seenProtocol ∧ c.seenVendor ∧ c.seenGuid ∧ c.seenEndpoints ∧ p.defaultUnicast.size ≠ 0 ∧
    p.metatrafficUnicast.size + p.metatrafficMulticast.size ≠ 0) .missingRequiredParameter
  require (supportedVersion p.protocolVersion ∧ nonzeroPrefix p.guidPrefix ∧
    p.guidPrefix = data.context.source ∧ p.protocolVersion = data.context.version ∧
    p.vendorId = data.context.vendorId) .invalidIdentity
  require (p.domainId = domainId) .domainMismatch
  pure (
    { participant := p
      sequenceNumber := data.sequenceNumber
      submessageByteOrder := data.submessageByteOrder
      parameterByteOrder := announcedOrder enc }, size)

variable {message : Span} {data : OpenRtdds.DataMessageView} {enc rest : List UInt8}
  {ps : List Parameter}

/-- **The parser reads the slots.** -/
theorem parseSpdpMessage_eq (hsize : message.size ≤ uint64Max)
    (hdata : OpenRtdds.parseDataMessage message = .ok data)
    (h : IsParameterList data.payload enc ps rest) (domainId : ℕ) :
    parseSpdpMessage message domainId = receive data enc ps domainId message.size := by
  obtain ⟨view, hview, rfl, hin, hwrap⟩ := raw_view hsize hdata
  unfold parseSpdpMessage receive
  dsimp only
  rw [hview, Guarded.mapError, ok_bind, ← assemble_noParameters]
  refine require_bind_congr fun _ => ?_
  exact parsePayload_eq parameter_handles (fun order t p => handle_eq p) hin hwrap h

/-- The participant `q` was read from an announcement of `p`. -/
structure ReadFrom (p q : SpdpParticipantData) : Prop where
  protocolVersion : q.protocolVersion = p.protocolVersion
  vendorId : q.vendorId = p.vendorId
  guidPrefix : q.guidPrefix = p.guidPrefix
  domainId : q.domainId = p.domainId
  expectsInlineQos : q.expectsInlineQos = p.expectsInlineQos
  availableBuiltinEndpoints : q.availableBuiltinEndpoints = p.availableBuiltinEndpoints
  metatrafficUnicast : q.metatrafficUnicast.size = p.metatrafficUnicast.size ∧
    q.metatrafficUnicast.entries = p.metatrafficUnicast.entries
  metatrafficMulticast : q.metatrafficMulticast.size = p.metatrafficMulticast.size ∧
    q.metatrafficMulticast.entries = p.metatrafficMulticast.entries
  defaultUnicast : q.defaultUnicast.size = p.defaultUnicast.size ∧
    q.defaultUnicast.entries = p.defaultUnicast.entries
  defaultMulticast : q.defaultMulticast.size = p.defaultMulticast.size ∧
    q.defaultMulticast.entries = p.defaultMulticast.entries
  entityName : q.entityNameSize = p.entityNameSize ∧
    q.entityName.toList.take p.entityNameSize = p.entityName.toList.take p.entityNameSize
  lease : 1 ≤ q.leaseDurationNs ∧ p.leaseDurationNs - 1 ≤ q.leaseDurationNs ∧
    q.leaseDurationNs ≤ p.leaseDurationNs

theorem readFrom_assemble {p : SpdpParticipantData} {t : (i : Slot) → i.State}
    (h : ∀ i, Holds p i (t i)) (domainId : ℕ) : ReadFrom p (assemble domainId t).participant := by
  obtain ⟨lease, hlease, hbounds⟩ := h .lease
  have hget : (assemble domainId t).participant.leaseDurationNs = lease :=
    congrArg (Option.getD · _) hlease
  exact
    { protocolVersion := congrArg (Option.getD · _) (h .protocol)
      vendorId := congrArg (Option.getD · _) (h .vendor)
      guidPrefix := congrArg (Option.getD · _) (h .guid)
      domainId := congrArg (Option.getD · _) (h .domain)
      expectsInlineQos := congrArg (Option.getD · _) (h .inlineQos)
      availableBuiltinEndpoints := congrArg (Option.getD · _) (h .endpoints)
      metatrafficUnicast := h .metatrafficUnicast
      metatrafficMulticast := h .metatrafficMulticast
      defaultUnicast := h .defaultUnicast
      defaultMulticast := h .defaultMulticast
      entityName := h .name
      lease := by rw [hget]; exact hbounds }

end Receive

end Spdp

open Spdp

/-- **The configurations that `SpdpMessageBuilder::build` accepts.** -/
structure SpdpAnnouncementConfig.Valid (config : SpdpAnnouncementConfig) : Prop where
  participant : Announceable config.participant
  submessageByteOrder :
    config.submessageByteOrder = .bigEndian ∨ config.submessageByteOrder = .littleEndian
  parameterByteOrder :
    config.parameterByteOrder = .bigEndian ∨ config.parameterByteOrder = .littleEndian
  number : 1 ≤ config.sequenceNumber ∧ config.sequenceNumber ≤ int64Max

variable {config : SpdpAnnouncementConfig}

theorem buildSpdpMessage_accepts (h : config.Valid) {capacity : ℕ} (hcapacity : 644 ≤ capacity) :
    ∃ m, buildSpdpMessage false capacity config = .ok m := by
  obtain ⟨hp, hsub, hparam, hnumber⟩ := h
  obtain ⟨w, hw, hlength, hbytes⟩ := writeParameters_eq config.participant
    config.parameterByteOrder hp.name
  have hpayload : supportedSerializedPayload (.bytes w.bytes) = true := by
    rw [hbytes]
    exact (announcedOrder_encapsulation _ hparam).2.2.2
  have hdata : buildDataMessage false capacity (dataConfig config) (.bytes w.bytes) =
      .ok (dataMessageBytes (dataConfig config) w.bytes) :=
    build_accepts hp.version hsub hnumber hpayload (by omega) (by omega)
  have hunicast := (validLocators_iff.1 hp.metatrafficUnicast).1
  have hmulticast := (validLocators_iff.1 hp.metatrafficMulticast).1
  have hmetatraffic := hp.hasMetatraffic
  have hconfiguration : validConfiguration config.participant = true := by
    simp only [validConfiguration, Bool.and_eq_true, decide_eq_true_eq, bne_iff_ne, beq_iff_eq]
    exact ⟨⟨⟨⟨⟨⟨hp.version, hp.guidPrefix⟩, hp.name⟩, hp.lease⟩, hp.endpoints⟩, hp.hasDefault⟩,
      by omega⟩
  refine ⟨dataMessageBytes (dataConfig config) w.bytes, ?_⟩
  unfold buildSpdpMessage
  rw [if_neg (by simp [(supportedByteOrder_iff _).2 hsub, (supportedByteOrder_iff _).2 hparam]),
    if_neg (by simp [hconfiguration]),
    if_neg (by simp [hp.metatrafficUnicast, hp.metatrafficMulticast, hp.defaultUnicast,
      hp.defaultMulticast]),
    if_neg (Nat.not_lt.2 hp.leaseSeconds), hw]
  dsimp only
  rw [hdata]

theorem buildSpdpMessage_ok {null : Bool} {capacity : ℕ} {m : List UInt8}
    (h : buildSpdpMessage null capacity config = .ok m) : config.Valid ∧
      ∃ payload,
        payload = encapsulation config.parameterByteOrder ++
          (parameterBytes config.parameterByteOrder
            (announcement config.participant config.parameterByteOrder) ++
            sentinel config.parameterByteOrder) ∧
        buildDataMessage null capacity (dataConfig config) (.bytes payload) = .ok m := by
  unfold buildSpdpMessage at h
  obtain ⟨horders, h⟩ := ite_error_ok h
  obtain ⟨hconfiguration, h⟩ := ite_error_ok h
  obtain ⟨hlocators, h⟩ := ite_error_ok h
  obtain ⟨hseconds, h⟩ := ite_error_ok h
  simp only [Bool.or_eq_true, Bool.not_eq_true', not_or, Bool.not_eq_false] at horders hlocators
  simp only [Bool.not_eq_true', Bool.not_eq_false, validConfiguration, Bool.and_eq_true,
    decide_eq_true_eq, bne_iff_ne, beq_iff_eq] at hconfiguration
  obtain ⟨⟨⟨⟨⟨⟨hversion, hguid⟩, hname⟩, hlease⟩, hendpoints⟩, hdefault⟩, hmetatraffic⟩ :=
    hconfiguration
  obtain ⟨w, hw, -, hbytes⟩ := writeParameters_eq config.participant config.parameterByteOrder hname
  rw [hw] at h
  dsimp only at h
  split at h
  · cases h
  · next hdata =>
    cases h
    refine ⟨⟨⟨hversion, hguid, hname, hlease, by omega, hendpoints, hdefault, ?_, hlocators.1.1.1,
      hlocators.1.1.2, hlocators.1.2, hlocators.2⟩, (supportedByteOrder_iff _).1 horders.1.2,
      (supportedByteOrder_iff _).1 horders.2, (build_ok hdata).1.number⟩,
      w.bytes, hbytes, hdata⟩
    intro hzero
    exact hmetatraffic (by rw [hzero, Nat.zero_mod])

/-- The internal buffer of the builder is never too small. -/
theorem buildSpdpMessage_noOverflow {null : Bool} {capacity : ℕ} {e : SpdpError}
    (h : buildSpdpMessage null capacity config = .error e) : e ≠ .bufferOverflow := by
  unfold buildSpdpMessage at h
  dsimp only at h
  split_ifs at h with _ hconfiguration
  · cases h
    decide
  · cases h
    decide
  · cases h
    decide
  · cases h
    decide
  · simp only [Bool.not_eq_true', Bool.not_eq_false, validConfiguration, Bool.and_eq_true,
      decide_eq_true_eq] at hconfiguration
    obtain ⟨w, hw, -⟩ := writeParameters_eq config.participant config.parameterByteOrder
      hconfiguration.1.1.1.1.2
    rw [hw] at h
    dsimp only at h
    split at h
    · cases h
      exact SpdpError.noConfusion
    · cases h

/-- **A built announcement is read back.** -/
theorem parseSpdpMessage_build (hdomain : config.participant.domainId < 2 ^ 32)
    (hendpoints : config.participant.availableBuiltinEndpoints < 2 ^ 32) {null : Bool} {capacity : ℕ}
    {m : List UInt8} (h : buildSpdpMessage null capacity config = .ok m) :
    ∃ view, parseSpdpMessage (.bytes m) config.participant.domainId = .ok (view, m.length) ∧
      ReadFrom config.participant view.participant ∧ view.sequenceNumber = config.sequenceNumber ∧
      view.submessageByteOrder = config.submessageByteOrder ∧
      view.parameterByteOrder = config.parameterByteOrder := by
  obtain ⟨hvalid, payload, hpayload, hbuild⟩ := buildSpdpMessage_ok h
  obtain ⟨hzero, htwo, horder, -⟩ := announcedOrder_encapsulation [] hvalid.parameterByteOrder
  have hp := hvalid.participant
  choose t hread hholds using
    read_announced config.parameterByteOrder hp hdomain hendpoints
  have hfold : (announcement config.participant config.parameterByteOrder).foldlM
      (Slots.step slotOf (item (announcedOrder (encapsulation config.parameterByteOrder))))
      noParameters = .ok t := by
    rw [horder]
    exact Slots.foldlM_flatMap (announced_slot _ _) (by decide) (fun i => by cases i <;> rfl) hread
  have hfrom := readFrom_assemble hholds config.participant.domainId
  have hparse := parseSpdpMessage_eq (build_ok hbuild).1.size_le (parse_build hbuild)
    (written_announced hvalid.parameterByteOrder hpayload (announced_wellFormed _ _ hp.name))
    config.participant.domainId
  refine ⟨{ participant := (assemble config.participant.domainId t).participant
            sequenceNumber := config.sequenceNumber
            submessageByteOrder := config.submessageByteOrder
            parameterByteOrder := _ }, hparse.trans ?_, hfrom, rfl, rfl, horder⟩
  unfold receive
  rw [require_pos ⟨rfl, .inl rfl⟩, ok_bind, require_pos hzero, ok_bind, require_pos htwo, ok_bind,
    hfold, ok_bind]
  dsimp only
  rw [require_pos, ok_bind, require_pos, ok_bind, require_pos hfrom.domainId]
  · rfl
  · rw [hfrom.protocolVersion, hfrom.guidPrefix, hfrom.vendorId]
    exact ⟨hp.version, hp.guidPrefix, rfl, rfl, rfl⟩
  · rw [hfrom.defaultUnicast.1, hfrom.metatrafficUnicast.1, hfrom.metatrafficMulticast.1]
    exact ⟨congrArg Option.isSome (hholds .protocol), congrArg Option.isSome (hholds .vendor),
      congrArg Option.isSome (hholds .guid), congrArg Option.isSome (hholds .endpoints),
      hp.hasDefault, hp.hasMetatraffic⟩

/-- **Participant announcements make a round trip.** For every configuration of the builder, whose
numbers are of their C++ types: the internal buffer never overflows, and with a buffer of 644 bytes
the builder succeeds exactly on the valid configurations. Whatever it builds, the parser reads the
announced participant from it, its lease rounded down by at most a nanosecond. -/
theorem spdp_round_trip (b : SpdpMessageBuilder) (config : SpdpAnnouncementConfig)
    (hdomain : config.participant.domainId < 2 ^ 32)
    (hendpoints : config.participant.availableBuiltinEndpoints < 2 ^ 32) :
    (b.build config).2.error ≠ some .bufferOverflow ∧
    (644 ≤ b.buffer.data.length → ((b.build config).1 = true ↔ config.Valid)) ∧
    ((b.build config).1 = true → ∃ view,
      parseSpdpMessage (.bytes (b.build config).2.message) config.participant.domainId =
        .ok (view, (b.build config).2.size) ∧
      ReadFrom config.participant view.participant ∧
      view.sequenceNumber = config.sequenceNumber ∧
      view.submessageByteOrder = config.submessageByteOrder ∧
      view.parameterByteOrder = config.parameterByteOrder) := by
  unfold SpdpMessageBuilder.build
  refine ⟨fun h => ?_, fun hsize => ⟨fun h => ?_, fun hvalid => ?_⟩, fun h => ?_⟩
  · exact buildSpdpMessage_noOverflow (b.finish_error h) rfl
  · obtain ⟨m, hbuild, -⟩ := b.finish_true h
    exact (buildSpdpMessage_ok hbuild).1
  · exact b.finish_accepts (buildSpdpMessage · · config) (by decide)
      (fun _ => buildSpdpMessage_accepts hvalid) hsize
  · obtain ⟨m, hbuild, hmessage, hlength⟩ := b.finish_true h
    rw [hmessage, hlength]
    exact parseSpdpMessage_build hdomain hendpoints hbuild

/-- A participant on the loopback address, with a name of three characters. -/
def loopbackParticipant : SpdpParticipantData where
  guidPrefix := .replicate 12 1
  domainId := 7
  metatrafficUnicast := loopbackLocators 7410
  defaultUnicast := loopbackLocators 7411
  entityName := .replicate 64 65
  entityNameSize := 3

theorem loopbackParticipant_valid :
    SpdpAnnouncementConfig.Valid { participant := loopbackParticipant } :=
  ⟨⟨rfl, rfl, by decide, by decide, by decide, by decide, by decide, by decide, by decide, by decide,
    by decide, by decide⟩, .inr rfl, .inr rfl, by decide⟩

theorem loopbackParticipant_round_trip :
    let b : SpdpMessageBuilder := { buffer := .bytes (List.replicate 644 0) }
    let config : SpdpAnnouncementConfig := { participant := loopbackParticipant }
    (b.build config).1 = true ∧ ∃ view,
      parseSpdpMessage (.bytes (b.build config).2.message) 7 = .ok (view, (b.build config).2.size) ∧
        ReadFrom loopbackParticipant view.participant := by
  intro b config
  have hsize : 644 ≤ b.buffer.data.length := by
    simp only [b, Span.data, List.length_replicate, le_refl]
  obtain ⟨-, hdomain, hread⟩ := spdp_round_trip b config (by decide) (by decide)
  have hbuild := (hdomain hsize).2 loopbackParticipant_valid
  obtain ⟨view, hparse, hfrom, -⟩ := hread hbuild
  exact ⟨hbuild, view, hparse, hfrom⟩

end OpenRtdds
