import OpenRtdds.Proof.GraphRecords
import OpenRtdds.Proof.Raw
import OpenRtdds.Spec.Sedp
import OpenRtdds.Spec.Spdp

/-!
# No datagram makes a parser leave its buffers

The discovery parsers and `apply_remote` advance by lengths that the sender chose. Every length is
compared with what remains before it is used, so nothing is read behind the datagram and nothing is
written behind an array.

* `parseParameters_safe`: the walk over a parameter list; what remains of the payload decreases.
* `parseSpdpMessage_safe`, `parseSedpMessage_safe`: the discovery parsers, and the sizes they record.
* `applyRemote_safe`: `GraphCache::apply_remote`, for every state of the cache.
* `parsers_stay_inside`: the resulting statement about all parsers.
-/

namespace OpenRtdds

open Lib Guarded Raw

section Memory

variable {ε β : Type} {post : β → Prop} {m : List UInt8} {i n : ℕ}

theorem load_bind {f : UInt8 → Guarded ε β} (h : i + 1 ≤ m.length) (hf : ∀ b, Safe post (f b)) :
    Safe post (load m i >>= f) := .access_bind h (hf _)

theorem readWord_bind {order : ByteOrder} {f : ℕ → Guarded ε β} (h : i + n ≤ m.length)
    (hf : ∀ k, Safe post (f k)) : Safe post (readWord m i n order >>= f) := .access_bind h (hf _)

theorem copyBytes_bind {f : Vector UInt8 n → Guarded ε β} (h : i + n ≤ m.length)
    (hf : ∀ v, Safe post (f v)) : Safe post (copyBytes m i n >>= f) := .access_bind h (hf _)

theorem bytesAt_bind {f : List UInt8 → Guarded ε β} (h : i + n ≤ m.length)
    (hf : ∀ l : List UInt8, l.length ≤ n → Safe post (f l)) : Safe post (bytesAt m i n >>= f) :=
  .access_bind h (hf _ (List.length_take_le _ _))

variable {value length k : ℕ} {order : ByteOrder}

theorem load_value {f g : UInt8 → Guarded ε β} (hin : value + length ≤ m.length) (hi : i = value + k)
    (hk : k + 1 ≤ length) (hf : ∀ b, Same post (f b) (g b)) :
    Same post (load m i >>= f) (load ((m.drop value).take length) k >>= g) :=
  .access_bind (by omega) (by rwa [length_part hin]) (by rw [hi, byteAt_part (by omega)]) (hf _)

theorem readWord_value {f g : ℕ → Guarded ε β} (hin : value + length ≤ m.length) (hi : i = value + k)
    (hk : k + n ≤ length) (hf : ∀ b, Same post (f b) (g b)) :
    Same post (readWord m i n order >>= f)
      (readWord ((m.drop value).take length) k n order >>= g) :=
  .access_bind (by omega) (by rwa [length_part hin]) (by rw [hi, readAt_part _ hk]) (hf _)

theorem copyBytes_value {f g : Vector UInt8 n → Guarded ε β} (hin : value + length ≤ m.length)
    (hi : i = value + k) (hk : k + n ≤ length) (hf : ∀ b, Same post (f b) (g b)) :
    Same post (copyBytes m i n >>= f) (copyBytes ((m.drop value).take length) k n >>= g) :=
  .access_bind (by omega) (by rwa [length_part hin]) (by rw [hi, copyAt_part hk]) (hf _)

theorem bytesAt_value {f g : List UInt8 → Guarded ε β} (hin : value + length ≤ m.length)
    (hi : i = value + k) (hk : k + n ≤ length)
    (hf : ∀ l : List UInt8, l.length ≤ n → Same post (f l) (g l)) :
    Same post (bytesAt m i n >>= f) (bytesAt ((m.drop value).take length) k n >>= g) := by
  have hpart : (m.drop i).take n = (((m.drop value).take length).drop k).take n := by
    rw [List.drop_take, List.take_take, List.drop_drop, min_eq_left (by omega), hi]
  exact .access_bind (by omega) (by rwa [length_part hin]) hpart (hf _ (List.length_take_le _ _))

end Memory

section Parameters

variable {ε σ : Type} {m : List UInt8} {payload payloadSize : ℕ} {order : ByteOrder}

theorem pushBack_entries {list : BoundedLocatorList 4} (l : Locator) (h : list.size < 4) :
    ∃ list', (list.pushBack l : Guarded ε _) = .ok (some list') ∧ list'.size = list.size + 1 ∧
      list'.entries = list.entries ++ [l] := by
  unfold BoundedLocatorList.pushBack Guarded.store
  rw [if_neg (by omega), dif_pos h]
  refine ⟨_, rfl, rfl, ?_⟩
  simp only [BoundedLocatorList.entries, Vector.toList_set]
  rw [List.take_succ_eq_append_getElem (by simpa using h), List.take_set_of_le (le_refl _),
    List.getElem_set_self]

theorem entries_length {n : ℕ} {list : BoundedLocatorList n} (h : list.size ≤ n) :
    list.entries.length = list.size := by
  rw [BoundedLocatorList.entries, List.length_take, Vector.length_toList]
  exact min_eq_left h

/-- The locators of a list are UDPv4 locators. -/
def BoundedLocatorList.Valid (list : BoundedLocatorList 4) : Prop :=
  ∀ l ∈ list.entries, validUdpV4Locator l = true

/-- A locator is read from the 24 bytes of its parameter and written into a list with room. -/
theorem parseLocator_value {malformedParameter invalidLocator locatorBoundExceeded : ε}
    {value length : ℕ} {output : BoundedLocatorList 4} (h : value + length ≤ m.length) :
    Same (fun list : BoundedLocatorList 4 => output.size ≤ 4 →
        list.size ≤ 4 ∧ (output.Valid → list.Valid))
      (parseLocator malformedParameter invalidLocator locatorBoundExceeded m value length order output)
      (parseLocator malformedParameter invalidLocator locatorBoundExceeded
        ((m.drop value).take length) 0 length order output) := by
  unfold parseLocator
  refine .require_bind fun hlength => readWord_value h rfl (by omega) fun kind => ?_
  refine .ite (fun _ => .ok fun hsize => ⟨hsize, id⟩) fun _ => ?_
  refine readWord_value h (by omega) (by omega) fun port => ?_
  refine copyBytes_value h (by omega) (by omega) fun address => .require_bind fun hvalid => .of_safe ?_
  by_cases hfull : output.size ≥ 4
  · unfold BoundedLocatorList.pushBack
    rw [if_pos hfull]
    exact .error _
  · obtain ⟨list, hpushed, hlist, hentries⟩ := pushBack_entries (ε := ε) { port, address }
      (not_le.1 hfull)
    rw [hpushed]
    refine .ok fun _ => ⟨by omega, fun hold l hl => ?_⟩
    rw [hentries] at hl
    rcases List.mem_append.1 hl with hl | hl
    · exact hold l hl
    · rwa [List.mem_singleton.1 hl]

/-- The text of a parameter and its size without the final zero: what the parsers of a name and of a
string have in common. -/
def parseText (malformedParameter : ε) (least capacity : ℕ) (m : List UInt8) (value length : ℕ)
    (order : ByteOrder) : Guarded ε (List UInt8 × ℕ) := do
  require (8 ≤ length) malformedParameter
  let size ← readWord m value 4 order
  require (least < size) malformedParameter
  let room ← sizeSub length 4
  require (size ≤ room) malformedParameter
  require (size ≤ capacity) malformedParameter
  let lastIndex ← sizeSub (4 + size) 1
  let last ← load m (value + lastIndex)
  require (last = 0) malformedParameter
  let textSize ← sizeSub size 1
  let text ← bytesAt m (value + 4) textSize
  pure (text, textSize)

theorem parseText_value {least capacity value length : ℕ} {malformedParameter : ε}
    (h : value + length ≤ m.length) :
    Same (fun r => r.1.length ≤ r.2 ∧ r.2 < capacity)
      (parseText malformedParameter least capacity m value length order)
      (parseText malformedParameter least capacity ((m.drop value).take length) 0 length order) := by
  unfold parseText
  refine .require_bind fun hlength => readWord_value h rfl (by omega) fun size => ?_
  refine .require_bind fun hpositive => .sizeSub_bind (by omega) ?_
  refine .require_bind fun hroom => .require_bind fun hcapacity => .sizeSub_bind (by omega) ?_
  refine load_value h (by omega) (by omega) fun last => .require_bind fun _ => .sizeSub_bind (by omega) ?_
  exact bytesAt_value h (by omega) (by omega) fun text htext => .ok ⟨htext, by dsimp only; omega⟩

/-- What a parameter handler does: it reads the value that it is given and nothing else, and it keeps an
invariant. -/
def Handles (inv : σ → Prop) (parameter : List UInt8 → ℕ → ℕ → ℕ → σ → Guarded ε σ) : Prop :=
  ∀ m id length value c, value + length ≤ m.length → Same (fun c' => inv c → inv c')
    (parameter m id length value c) (parameter ((m.drop value).take length) id length 0 c)

variable {malformedParameter : ε} {parameter : List UInt8 → ℕ → ℕ → ℕ → σ → Guarded ε σ}
  {inv : σ → Prop}

/-- One parameter: it is inside the payload, and less remains behind it. -/
theorem parameterStep_safe (hpayload : payload + payloadSize ≤ m.length)
    (hwrap : payloadSize + 4 < 2 ^ 64) (hparameter : Handles inv parameter)
    (s : ParameterState σ) (hs : inv s.candidate ∧ s.offset ≤ payloadSize) :
    Safe (fun next => if next.2 then (inv next.1.candidate ∧ next.1.offset ≤ payloadSize) ∧
        payloadSize - next.1.offset < payloadSize - s.offset else inv next.1.candidate)
      (parameterStep malformedParameter m payload payloadSize order (parameter m) s) := by
  obtain ⟨hinv, hoffset⟩ := hs
  unfold parameterStep
  refine .sizeAdd_bind (by omega) (.ite (fun hnext => ?_) fun _ => .ok hinv)
  refine readWord_bind (by omega) fun id => readWord_bind (by omega) fun length => ?_
  refine .ite (fun _ => .ok hinv) fun _ => ?_
  refine .require_bind fun _ => .sizeSub_bind hnext ?_
  refine .require_bind fun hlength => .access_bind (by omega) ?_
  -- the value is inside the payload, so the handler reads inside the message
  refine (hparameter m id length _ _ (by omega)).safe.bind fun candidate hcandidate => ?_
  refine .sizeAdd_bind (by omega) (.ok ?_)
  exact ⟨⟨hcandidate hinv, show s.offset + 4 + length ≤ payloadSize by omega⟩,
    show payloadSize - (s.offset + 4 + length) < payloadSize - s.offset by omega⟩

/-- **The walk over a parameter list** ends and stays inside the payload. -/
theorem parseParameters_safe (hpayload : payload + payloadSize ≤ m.length) (hfour : 4 ≤ payloadSize)
    (hwrap : payloadSize + 4 < 2 ^ 64) (hparameter : Handles inv parameter) {candidate : σ}
    (hinv : inv candidate) :
    Safe inv
      (parseParameters malformedParameter m payload payloadSize order (parameter m) candidate) := by
  unfold parseParameters
  have hloop : ∀ fuel (s : ParameterState σ), inv s.candidate ∧ s.offset ≤ payloadSize →
      payloadSize - s.offset < fuel → Safe (fun s : ParameterState σ => inv s.candidate)
        (Guarded.loop (parameterStep malformedParameter m payload payloadSize order (parameter m))
          fuel s) :=
    Safe.loop (fun s : ParameterState σ => payloadSize - s.offset)
      (parameterStep_safe hpayload hwrap hparameter)
  have hwalk := hloop (payloadSize + 1) { candidate } ⟨hinv, hfour⟩ (by dsimp only; omega)
  exact hwalk.bind fun s hs => .require_bind fun _ => .ok hs

theorem parameterByteOrder_safe {unsupportedRepresentation : ε}
    (hpayload : payload + payloadSize ≤ m.length) :
    Safe (fun _ => 8 ≤ payloadSize)
      (parameterByteOrder unsupportedRepresentation m payload payloadSize) := by
  unfold parameterByteOrder
  refine .require_bind fun hsize => load_bind (by omega) fun first => ?_
  exact .require_bind fun _ => load_bind (by omega) fun second => .require_bind fun _ => .ok hsize

theorem singleParameter_bind {β : Type} {post : β → Prop} {duplicateParameter malformedParameter : ε}
    {seen : Bool} {length size : ℕ} {f g : Unit → Guarded ε β}
    (h : length = size → Same post (f ()) (g ())) :
    Same post (singleParameter duplicateParameter malformedParameter seen length size >>= f)
      (singleParameter duplicateParameter malformedParameter seen length size >>= g) := by
  unfold singleParameter
  rw [bind_assoc, bind_assoc]
  exact .require_bind fun _ => .require_bind h

end Parameters

/-- The payload of an accepted DATA message is inside it, behind the headers. -/
theorem parseDataMessage_safe {message : Span} (hsize : message.size ≤ uint64Max) :
    Safe (fun data : Raw.DataMessageView =>
        data.serializedPayload + data.payloadSize ≤ message.data.length ∧
          data.payloadSize + 4 < 2 ^ 64) (Raw.parseDataMessage message) := by
  refine (parseDataMessage_agrees hsize).safe.mono ?_
  rintro data ⟨-, -, -, hdata⟩
  have hlength : message.data.length ≤ uint64Max := message.length_data_le.trans hsize
  have hheaders := hdata.headers
  have hpayload := hdata.payload
  unfold uint64Max at hlength
  exact ⟨hpayload, by omega⟩

section Spdp

/-- The sizes that the parser records are those of filled cells. -/
structure SpdpParticipantData.Bounded (p : SpdpParticipantData) : Prop where
  metatrafficUnicast : p.metatrafficUnicast.size ≤ 4
  metatrafficMulticast : p.metatrafficMulticast.size ≤ 4
  defaultUnicast : p.defaultUnicast.size ≤ 4
  defaultMulticast : p.defaultMulticast.size ≤ 4
  entityName : p.entityNameSize ≤ 63

namespace Spdp

theorem parseLease_value {m : List UInt8} {order : ByteOrder} {value length : ℕ} (h : value + length ≤ m.length)
    (hlength : length = 8) : Same (fun _ => True) (parseLease m value order)
      (parseLease ((m.drop value).take length) 0 order) := by
  unfold parseLease
  refine readWord_value h rfl (by omega) fun seconds => .require_bind fun _ => ?_
  exact readWord_value h (by omega) (by omega) fun fraction => .require_bind fun _ => .ok trivial

theorem parseName_eq (m : List UInt8) (value length : ℕ) (order : ByteOrder) (name : Vector UInt8 64) :
    parseName m value length order name =
      parseText .malformedParameter 0 64 m value length order >>= fun r =>
        fill name r.1 >>= fun name => pure (name, r.2) := by
  simp only [parseName, parseText, bind_assoc, pure_bind, Nat.pos_iff_ne_zero]

theorem parameter_handles (order : ByteOrder) :
    Handles (fun c : Candidate => c.participant.Bounded) (fun m => parameter m order) := by
  intro m id length value c h
  change Same _ (parameter m order id length value c) (parameter _ order id length 0 c)
  unfold parameter
  refine .ite (fun _ => .ok fun hc => hc) fun _ => ?_
  refine .ite (fun _ => singleParameter_bind fun hlength => ?_) fun _ => ?_
  · refine load_value h rfl (by omega) fun major => load_value h (by omega) (by omega) fun minor => ?_
    exact .ok fun hc => { hc with }
  refine .ite (fun _ => singleParameter_bind fun hlength => ?_) fun _ => ?_
  · exact copyBytes_value h rfl (by omega) fun vendorId => .ok fun hc => { hc with }
  refine .ite (fun _ => singleParameter_bind fun hlength => ?_) fun _ => ?_
  · exact readWord_value h rfl (by omega) fun domainId => .ok fun hc => { hc with }
  refine .ite (fun _ => singleParameter_bind fun hlength => ?_) fun _ => ?_
  · refine copyBytes_value h rfl (by omega) fun guidPrefix => ?_
    refine bytesAt_value h (by omega) (by omega) fun entity _ => ?_
    exact .require_bind fun _ => .ok fun hc => { hc with }
  refine .ite (fun _ => singleParameter_bind fun hlength => ?_) fun _ => ?_
  · exact load_value h rfl (by omega) fun flag => .require_bind fun _ => .ok fun hc => { hc with }
  refine .ite (fun _ => singleParameter_bind fun hlength => ?_) fun _ => ?_
  · exact readWord_value h rfl (by omega) fun endpoints => .ok fun hc => { hc with }
  refine .ite (fun _ => singleParameter_bind fun hlength => ?_) fun _ => ?_
  · exact (parseLease_value h hlength).bind fun lease _ => .ok fun hc => { hc with }
  -- the four locator lists
  refine .ite (fun _ => (parseLocator_value h).bind fun list hlist => .ok fun hc => ?_) fun _ => ?_
  · exact { hc with metatrafficUnicast := (hlist hc.metatrafficUnicast).1 }
  refine .ite (fun _ => (parseLocator_value h).bind fun list hlist => .ok fun hc => ?_) fun _ => ?_
  · exact { hc with metatrafficMulticast := (hlist hc.metatrafficMulticast).1 }
  refine .ite (fun _ => (parseLocator_value h).bind fun list hlist => .ok fun hc => ?_) fun _ => ?_
  · exact { hc with defaultUnicast := (hlist hc.defaultUnicast).1 }
  refine .ite (fun _ => (parseLocator_value h).bind fun list hlist => .ok fun hc => ?_) fun _ => ?_
  · exact { hc with defaultMulticast := (hlist hc.defaultMulticast).1 }
  refine .ite (fun _ => .require_bind fun _ => ?_) fun _ => .require_bind fun _ => .ok fun hc => hc
  rw [parseName_eq, parseName_eq, bind_assoc, bind_assoc]
  refine (parseText_value h).bind fun text htext => .of_safe ?_
  rw [bind_assoc]
  exact .fill_bind (by omega) fun name => .ok fun hc => { hc with entityName := by dsimp only; omega }

end Spdp

/-- **`parse_spdp_message` stays inside the message** and inside the arrays of its view. -/
theorem parseSpdpMessage_safe {message : Span} (hsize : message.size ≤ uint64Max) (domainId : ℕ) :
    Safe (fun r => r.1.participant.Bounded) (parseSpdpMessage message domainId) := by
  unfold parseSpdpMessage
  refine ((parseDataMessage_safe hsize).mapError SpdpError.rtpsError).bind ?_
  rintro data ⟨hpayload, hwrap⟩
  refine .require_bind fun _ => (parameterByteOrder_safe hpayload).bind fun order height => ?_
  have hstart : SpdpParticipantData.Bounded { domainId := domainId } := by
    constructor <;> exact Nat.zero_le _
  refine (parseParameters_safe hpayload (by omega) hwrap (Spdp.parameter_handles order) hstart).bind ?_
  intro c hc
  exact .require_bind fun _ => .require_bind fun _ => .require_bind fun _ => .ok hc

end Spdp

section Sedp

/-- The sizes that the parser records are those of filled cells. -/
structure SedpEndpointData.Bounded (e : SedpEndpointData) : Prop where
  topicName : e.topicNameSize ≤ 255
  typeName : e.typeNameSize ≤ 255
  unicastLocators : e.unicastLocators.size ≤ 4
  multicastLocators : e.multicastLocators.size ≤ 4

/-- What the parser makes of an announcement of a participant. -/
structure SedpEndpointData.Parsed (e : SedpEndpointData) (participant : GuidPrefix) : Prop
    extends e.Bounded where
  participant : e.participantGuidPrefix = participant
  unicast : e.unicastLocators.Valid

namespace Sedp

variable {m : List UInt8} {value length : ℕ}

theorem parseString_eq {capacity : ℕ} (m : List UInt8) (value length : ℕ) (order : ByteOrder)
    (output : Vector UInt8 capacity) :
    parseString m value length order output =
      parseText .malformedParameter 1 capacity m value length order >>= fun r =>
        require (r.1.contains 0 = false) .malformedParameter >>= fun _ =>
          fill output r.1 >>= fun output => pure (output, r.2) := by
  simp only [parseString, parseText, bind_assoc, pure_bind]

theorem parseString_value (h : value + length ≤ m.length) (order : ByteOrder)
    (output : Vector UInt8 256) :
    Same (fun r => r.2 ≤ 255) (parseString m value length order output)
      (parseString ((m.drop value).take length) 0 length order output) := by
  rw [parseString_eq, parseString_eq]
  refine (parseText_value h).bind fun text htext => .require_bind fun _ => .of_safe ?_
  exact .fill_bind (by omega) fun output' => .ok (by dsimp only; omega)

/-- Every parameter of an announcement is read inside its value. -/
theorem parameter_handles (order : ByteOrder) (participant : GuidPrefix) :
    Handles (fun c : Candidate => c.endpoint.Parsed participant)
      (fun m => parameter m order participant) := by
  intro m id length value c h
  change Same _ (parameter m order participant id length value c)
    (parameter _ order participant id length 0 c)
  unfold parameter
  refine .ite (fun _ => .ok fun hc => hc) fun _ => ?_
  refine .ite (fun _ => singleParameter_bind fun hlength => ?_) fun _ => ?_
  · refine copyBytes_value h rfl (by omega) fun guidPrefix => .require_bind fun _ => ?_
    exact copyBytes_value h (by omega) (by omega) fun endpointId => .ok fun hc => { hc with }
  refine .ite (fun _ => singleParameter_bind fun hlength => ?_) fun _ => ?_
  · refine copyBytes_value h rfl (by omega) fun guidPrefix => .require_bind fun _ => ?_
    exact copyBytes_value h (by omega) (by omega) fun entity => .require_bind fun _ => .ok fun hc => hc
  refine .ite (fun _ => .require_bind fun _ => ?_) fun _ => ?_
  · exact (parseString_value h order _).bind fun name hname => .ok fun hc => { hc with topicName := hname }
  refine .ite (fun _ => .require_bind fun _ => ?_) fun _ => ?_
  · exact (parseString_value h order _).bind fun name hname => .ok fun hc => { hc with typeName := hname }
  -- the policies, of which only known kinds are taken
  refine .ite (fun _ => singleParameter_bind fun hlength => ?_) fun _ => ?_
  · refine readWord_value h rfl (by omega) fun bits => ?_
    cases ReliabilityKind.ofBits bits with
    | none => exact .of_safe (.error _)
    | some reliability =>
      simp only [parseDuration, bind_assoc]
      refine readWord_value h (by omega) (by omega) fun seconds => .require_bind fun _ => ?_
      exact readWord_value h (by omega) (by omega) fun fraction => .ok fun hc => { hc with }
  refine .ite (fun _ => singleParameter_bind fun hlength => ?_) fun _ => ?_
  · refine readWord_value h rfl (by omega) fun bits => ?_
    cases DurabilityKind.ofBits bits with
    | none => exact .of_safe (.error _)
    | some durability => exact .ok fun hc => { hc with }
  refine .ite (fun _ => singleParameter_bind fun hlength => ?_) fun _ => ?_
  · exact load_value h rfl (by omega) fun flag => .require_bind fun _ => .ok fun hc => { hc with }
  refine .ite (fun _ => (parseLocator_value h).bind fun list hlist => .ok fun hc => ?_) fun _ => ?_
  · obtain ⟨hsize, hvalid⟩ := hlist hc.unicastLocators
    exact { hc with unicastLocators := hsize, unicast := hvalid hc.unicast }
  refine .ite (fun _ => (parseLocator_value h).bind fun list hlist => .ok fun hc => ?_) fun _ => ?_
  · exact { hc with multicastLocators := (hlist hc.multicastLocators).1 }
  exact .require_bind fun _ => .ok fun hc => hc

end Sedp

/-- **`parse_sedp_message` stays inside the message** and inside the arrays of its view. -/
theorem parseSedpMessage_safe {message : Span} (hsize : message.size ≤ uint64Max)
    (participant : GuidPrefix) :
    Safe (fun r => r.1.endpoint.Parsed participant) (parseSedpMessage message participant) := by
  unfold parseSedpMessage
  refine ((parseDataMessage_safe hsize).mapError SedpError.rtpsError).bind ?_
  rintro data ⟨hpayload, hwrap⟩
  cases Sedp.announcedKind data.writerId with
  | none => exact .error _
  | some announced =>
    refine .require_bind fun _ => .require_bind fun _ => ?_
    refine (parameterByteOrder_safe hpayload).bind fun order height => ?_
    have hstart : SedpEndpointData.Parsed
        { protocolVersion := data.context.version
          vendorId := data.context.vendorId
          participantGuidPrefix := participant
          kind := announced.1 } participant := by
      refine ⟨?_, rfl, fun l hl => absurd hl List.not_mem_nil⟩
      constructor <;> exact Nat.zero_le _
    refine (parseParameters_safe hpayload (by omega) hwrap (Sedp.parameter_handles order participant)
      hstart).bind ?_
    exact fun c hc => .require_bind fun _ => .require_bind fun _ => .ok hc

end Sedp

section Graph

namespace GraphCache

variable {m : List UInt8} {payloadSize position : ℕ}

theorem readText_safe (hm : m.length = payloadSize) (hwrap : payloadSize < 2 ^ 64)
    (capacity position size : ℕ) (emptyAllowed : Bool) :
    Safe (fun _ => True) (readText capacity m payloadSize position size emptyAllowed) := by
  unfold readText
  refine .require_bind fun hcapacity => .require_bind fun _ => .require_bind fun hposition => ?_
  refine .sizeSub_bind hposition (.require_bind fun hremaining => ?_)
  refine bytesAt_bind (by omega) fun text htext => .fill_bind (by omega) fun output => ?_
  exact .sizeAdd_bind (by omega) (.ok trivial)

theorem recordStart_safe (headerSize : ℕ) :
    Safe (fun start => start + headerSize ≤ payloadSize)
      (recordStart headerSize payloadSize position) := by
  unfold recordStart
  refine .require_bind fun hposition => .sizeSub_bind hposition (.require_bind fun hheader => ?_)
  exact .ok (by omega)

variable (participant : GuidPrefix)

theorem readNode_safe (hm : m.length = payloadSize) (hwrap : payloadSize < 2 ^ 64)
    (s : Incoming GraphNodeRecord 8) {index : ℕ} (hindex : index < 8) :
    Safe (fun _ => True) (readNode participant m payloadSize s index) := by
  have htext := fun capacity position size => readText_safe hm hwrap capacity position size false
  unfold readNode
  refine (recordStart_safe 16).bind fun start hstart => ?_
  refine readWord_bind (by omega) fun nodeId => readWord_bind (by omega) fun nameSize => ?_
  refine readWord_bind (by omega) fun namespaceSize => readWord_bind (by omega) fun enclaveSize => ?_
  refine .require_bind fun _ => bytesAt_bind (by omega) fun reserved _ => .require_bind fun _ => ?_
  refine .sizeAdd_bind (by omega) ?_
  refine (htext _ _ _).bind fun name _ => (htext _ _ _).bind fun nameSpace _ => ?_
  refine (htext _ _ _).bind fun enclave _ => .search_bind (by omega) fun duplicate => ?_
  exact .require_bind fun _ => .store_bind hindex fun records => .ok trivial

theorem readEndpoint_safe (hm : m.length = payloadSize) (hwrap : payloadSize < 2 ^ 64)
    (nodes : Vector GraphNodeRecord 8) {nodeCount : ℕ} (hnodes : nodeCount ≤ 8)
    (s : Incoming GraphEndpointRecord 16) {index : ℕ} (hindex : index < 16) :
    Safe (fun _ => True) (readEndpoint participant m payloadSize nodes nodeCount s index) := by
  have htext := fun capacity position size => readText_safe hm hwrap capacity position size false
  unfold readEndpoint
  refine (recordStart_safe 24).bind fun start hstart => ?_
  refine readWord_bind (by omega) fun nodeId => copyBytes_bind (by omega) fun entityId => ?_
  refine load_bind (by omega) fun code => load_bind (by omega) fun conventions => ?_
  refine readWord_bind (by omega) fun topicSize => readWord_bind (by omega) fun typeSize => ?_
  refine readWord_bind (by omega) fun ddsTopicSize => readWord_bind (by omega) fun ddsTypeSize => ?_
  refine .require_bind fun _ => .search_bind hnodes fun known => .require_bind fun _ => ?_
  cases GraphEndpointKind.ofByte code with
  | none => exact .error _
  | some kind =>
    refine .require_bind fun _ => bytesAt_bind (by omega) fun reserved _ => .require_bind fun _ => ?_
    refine .sizeAdd_bind (by omega) ?_
    refine (htext _ _ _).bind fun topic _ => (htext _ _ _).bind fun type _ => ?_
    refine (htext _ _ _).bind fun ddsTopic _ => (htext _ _ _).bind fun ddsType _ => ?_
    refine .search_bind (by omega) fun duplicate => .require_bind fun _ => ?_
    exact .store_bind hindex fun records => .ok trivial

theorem readSnapshot_safe {payload : Span} (hsize : payload.size ≤ uint64Max)
    (number : ℕ) :
    Safe (fun _ => True) (readSnapshot participant payload number) := by
  unfold readSnapshot
  refine .require_bind fun _ => .require_bind fun hnull => .require_bind fun hheader => ?_
  cases payload with
  | null n => exact absurd hnull Bool.true_eq_false_eq_False
  | bytes m =>
    have hwrap : m.length < 2 ^ 64 := Nat.lt_succ_of_le hsize
    dsimp only [Span.data, Span.size] at hheader ⊢
    refine bytesAt_bind (by omega) fun encapsulation _ => .require_bind fun _ => ?_
    refine bytesAt_bind (by omega) fun magic _ => .require_bind fun _ => ?_
    refine bytesAt_bind (by omega) fun version _ => .require_bind fun _ => ?_
    refine bytesAt_bind (by omega) fun reserved _ => .require_bind fun _ => ?_
    refine readWord_bind (by omega) fun nodeCount => readWord_bind (by omega) fun endpointCount => ?_
    refine readWord_bind (by omega) fun generation => .require_bind fun hnodes => ?_
    refine .require_bind fun hendpoints => .require_bind fun _ => ?_
    -- every index of the loops is below the count, and so below the capacity
    refine (Safe.foldlM_range (fun _ _ => True) (fun i s hi _ => ?_) trivial).bind fun nodes _ => ?_
    · exact readNode_safe participant rfl hwrap s (by omega)
    refine (Safe.foldlM_range (fun _ _ => True) (fun i s hi _ => ?_) trivial).bind
      fun endpoints _ => ?_
    · exact readEndpoint_safe participant rfl hwrap nodes.records hnodes s (by omega)
    exact .require_bind fun _ => .ok trivial

variable (cache : GraphCache)

/-- **`apply_remote` stays inside the snapshot** and inside the arrays of the cache. -/
theorem applyRemote_safe {payload : Span} (hsize : payload.size ≤ uint64Max) (number : ℕ) :
    Safe (fun _ => True) (cache.applyRemote participant payload number) := by
  have hread := readSnapshot_yields participant payload number
  have hsafe := readSnapshot_safe participant hsize number
  unfold applyRemote
  generalize readSnapshot participant payload number = result at hread hsafe ⊢
  cases hsafe with
  | error exit => exact .error exit
  | ok _ =>
    have hcommit := cache.commitSnapshot_cases hread.of_ok
    rw [ok_bind]
    generalize cache.commitSnapshot participant _ = outcome at hcommit ⊢
    cases hcommit with
    | applied => exact .ok trivial
    | stale => exact .error _
    | full => exact .error _

end GraphCache

end Graph

/-- **No datagram makes a parser read outside it.** Each parser comes to its end on every byte string
that has a `size_t` length, whatever its output or the cache held before: no read is outside the
datagram, no write is outside an array and no size wraps. A reported error leaves the output alone,
and the content or payload of an accepted view is inside the datagram. -/
theorem parsers_stay_inside (message : Span) (hsize : message.size ≤ uint64Max) :
    (∀ id occurrence previous, (Raw.findSubmessage message id occurrence).Completes previous
      fun view => view.content + view.contentSize ≤ message.data.length) ∧
    (∀ previous, (Raw.parseDataMessage message).Completes previous
      fun view => view.serializedPayload + view.payloadSize ≤ message.data.length) ∧
    (∀ previous, (Raw.parseHeartbeatMessage message).Completes previous
      fun view => parseHeartbeatMessage message = .ok view) ∧
    (∀ previous, (Raw.parseAcknackMessage message).Completes previous
      fun view => parseAcknackMessage message = .ok view) ∧
    (∀ domainId previous, (parseSpdpMessage message domainId).Completes (previous, 0)
      fun result => result.1.participant.Bounded) ∧
    (∀ participant previous, (parseSedpMessage message participant).Completes (previous, 0)
      fun result => result.1.endpoint.Bounded) ∧
    ∀ (cache : GraphCache) participant number,
      (cache.applyRemote participant message number).Completes cache fun _ => True := by
  refine ⟨fun id occurrence => ?_, ?_, ?_, ?_, fun domainId previous => ?_,
    fun participant previous => ?_, fun cache participant sequence => ?_⟩
  · have hfind := (findSubmessage_agrees hsize id occurrence).safe
    exact (hfind.mono fun view ⟨_, _, _, hinside⟩ => hinside.content).completes
  · exact ((parseDataMessage_safe hsize).mono fun view h => h.1).completes
  · have hheartbeat := (parseHeartbeatMessage_agrees hsize).safe
    refine (hheartbeat.mono ?_).completes
    rintro view ⟨_, hview, rfl⟩
    exact hview
  · have hacknack := (parseAcknackMessage_agrees hsize).safe
    refine (hacknack.mono ?_).completes
    rintro view ⟨_, hview, rfl⟩
    exact hview
  · exact (parseSpdpMessage_safe hsize domainId).completes (previous, 0)
  · have hparsed := parseSedpMessage_safe hsize participant
    exact (hparsed.mono fun _ h => h.toBounded).completes (previous, 0)
  · exact (cache.applyRemote_safe participant hsize sequence).completes cache

/-- A DATA message of an empty sample: its payload is the last four bytes. -/
theorem emptySample_inside :
    let message : Span := .bytes (dataMessageBytes {} [0, 1, 0, 0])
    (∃ view, Raw.parseDataMessage message = .ok view ∧ view.serializedPayload = 44 ∧
        view.payloadSize = 4) ∧
      ∀ previous, (Raw.parseDataMessage message).Completes previous
        fun view => view.serializedPayload + view.payloadSize ≤ 48 :=
  ⟨⟨_, rfl, rfl, rfl⟩, (parsers_stay_inside _ (by decide)).2.1⟩

end OpenRtdds
