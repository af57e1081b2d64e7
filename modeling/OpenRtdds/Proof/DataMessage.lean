import OpenRtdds.Spec.DataMessage
import OpenRtdds.Proof.Router

/-!
# What the DATA builder writes, the parser reads

* `findSubmessage_data`: what the router finds in a built message.
* `parse_build`: a message that `build` wrote parses to the values it was built from.
* `build_ok_iff`: the exact domain of `build`.
* `data_message_round_trip`: both, for the builder object.
-/

namespace OpenRtdds

open Lib

/-- The flags of a DATA submessage with a payload and no inline QoS. -/
def dataFlags (order : ByteOrder) : UInt8 := if order == .littleEndian then 0x05 else 0x04

/-- The RTPS header of a DATA message. -/
def dataHeader (c : DataMessageConfig) : List UInt8 :=
  [0x52, 0x54, 0x50, 0x53, c.version.major, c.version.minor] ++ (c.vendorId.toList ++ c.guidPrefix.toList)

/-- The content of the DATA submessage. -/
def dataContent (c : DataMessageConfig) (payload : List UInt8) : List UInt8 :=
  let little := c.submessageByteOrder == .littleEndian
  storeInt little 2 0 ++ (storeInt little 2 16 ++ (c.readerId.toList ++ (c.writerId.toList ++
    (storeInt little 4 (c.sequenceNumber >>> 32) ++
      (storeInt little 4 (c.sequenceNumber &&& 0xFFFFFFFF) ++ payload)))))

theorem dataMessageBytes_eq (c : DataMessageConfig) (payload : List UInt8) :
    dataMessageBytes c payload = dataHeader c ++
      ([submessageIdData, dataFlags c.submessageByteOrder] ++
        (storeInt (c.submessageByteOrder == .littleEndian) 2 (20 + payload.length) ++
          dataContent c payload)) := by
  simp only [dataMessageBytes, dataHeader, dataContent, dataFlags, List.append_assoc]

@[simp] theorem dataHeader_length (c : DataMessageConfig) : (dataHeader c).length = 20 := by
  simp [dataHeader]

@[simp] theorem dataContent_length (c : DataMessageConfig) (payload : List UInt8) :
    (dataContent c payload).length = 20 + payload.length := by
  simp [dataContent]
  omega

theorem dataMessageBytes_length (c : DataMessageConfig) (payload : List UInt8) :
    (dataMessageBytes c payload).length = 44 + payload.length := by
  simp [dataMessageBytes_eq]
  omega

/-- What a successful `build` has checked. -/
structure Built (c : DataMessageConfig) (payload : Span) (m : List UInt8) : Prop where
  bytes : m = dataMessageBytes c payload.data
  version : supportedVersion c.version = true
  order : c.submessageByteOrder = .bigEndian ∨ c.submessageByteOrder = .littleEndian
  number : 1 ≤ c.sequenceNumber ∧ c.sequenceNumber ≤ int64Max
  supported : supportedSerializedPayload payload = true
  size : payload.size = payload.data.length
  fits : 44 + payload.data.length ≤ 65507

variable {c : DataMessageConfig} {payload : Span} {capacity : ℕ}

theorem Built.size_le {m : List UInt8} (h : Built c payload m) :
    (Span.bytes m).size ≤ uint64Max := by
  rw [h.bytes]
  exact (dataMessageBytes_length _ _).trans_le (h.fits.trans (by decide))

theorem build_ok {null : Bool}
    {m : List UInt8} (h : buildDataMessage null capacity c payload = .ok m) :
    Built c payload m ∧ m.length ≤ capacity := by
  unfold buildDataMessage at h
  split_ifs at h with h1 h2 h3 h4 h5 h6 h7 h8
  cases h
  have hpay : supportedSerializedPayload payload = true := by simpa using h5
  have hsize : payload.size = payload.data.length := by
    cases payload with
    | null n => simp [supportedSerializedPayload, Span.isNull] at hpay
    | bytes d => rfl
  refine ⟨⟨rfl, by simpa using h2, ?_, by omega, hpay, hsize, by omega⟩, ?_⟩
  · simpa [supportedByteOrder, or_iff_not_imp_left] using h3
  · rw [dataMessageBytes_length]
    omega

/-- The context every submessage of a built message has. -/
def dataContext (c : DataMessageConfig) : RouteContext :=
  { version := c.version, vendorId := c.vendorId, source := c.guidPrefix }

theorem findSubmessage_data {payload : List UInt8} (hv : supportedVersion c.version = true)
    (ho : c.submessageByteOrder = .bigEndian ∨ c.submessageByteOrder = .littleEndian)
    (hfit : 44 + payload.length ≤ 65507) :
    findSubmessage (.bytes (dataMessageBytes c payload)) submessageIdData 0 = .ok
      { context := dataContext c, id := submessageIdData
        flags := dataFlags c.submessageByteOrder
        byteOrder := c.submessageByteOrder
        content := dataContent c payload
        offset := 20 } := by
  have horder : (if dataFlags c.submessageByteOrder &&& 0x01 ≠ 0 then ByteOrder.littleEndian
      else .bigEndian) = c.submessageByteOrder := by
    rcases ho with ho | ho <;> rw [ho] <;> rfl
  have hlen := dataContent_length c payload
  have hcontext : headerContext (dataHeader c) = dataContext c := headerContext_bytes _ _ _
  rw [dataMessageBytes_eq, ← hlen, ← hcontext]
  exact findSubmessage_single (dataHeader_length c) (validHeader_bytes _ _ _ hv) horder rfl
    (by omega) (by omega)

/-- **What the builder writes, the parser reads.** -/
theorem parse_build {null : Bool}
    {m : List UInt8} (h : buildDataMessage null capacity c payload = .ok m) :
    parseDataMessage (.bytes m) = .ok
      { context := dataContext c
        readerId := c.readerId
        writerId := c.writerId
        sequenceNumber := c.sequenceNumber
        submessageByteOrder := c.submessageByteOrder
        payload := payload.data } := by
  obtain ⟨⟨rfl, hv, ho, hnum, hpay, hsize, hfit⟩, -⟩ := build_ok h
  set p := payload.data with hp
  have hmax : c.sequenceNumber < 2 ^ 63 := lt_of_le_of_lt hnum.2 (by decide)
  -- the fields of the content, one after the other
  obtain ⟨hqosAt, hat⟩ := (At.refl (dataContent c p)).split (storeInt_length _ 2 _)
  obtain ⟨hoffsetAt, hat⟩ := hat.split (storeInt_length _ 2 _)
  obtain ⟨hreaderAt, hat⟩ := hat.split Vector.length_toList
  obtain ⟨hwriterAt, hat⟩ := hat.split Vector.length_toList
  obtain ⟨hhighAt, hat⟩ := hat.split (storeInt_length _ 4 _)
  obtain ⟨hlowAt, hat⟩ := hat.split (storeInt_length _ 4 _)
  have hqos : readAt (dataContent c p) 0 2 c.submessageByteOrder = 0 := hqosAt.readAt (by decide)
  have hoffset : readAt (dataContent c p) 2 2 c.submessageByteOrder = 16 := hoffsetAt.readAt (by decide)
  have hreader : copyAt (dataContent c p) 4 4 = c.readerId := hreaderAt.copyAt
  have hwriter : copyAt (dataContent c p) 8 4 = c.writerId := hwriterAt.copyAt
  have hhigh : readAt (dataContent c p) 12 4 c.submessageByteOrder = c.sequenceNumber >>> 32 :=
    hhighAt.readAt (by omega)
  have hlow : readAt (dataContent c p) 16 4 c.submessageByteOrder =
      c.sequenceNumber &&& 0xFFFFFFFF :=
    hlowAt.readAt (lt_of_le_of_lt Nat.and_le_right (by decide))
  have hdrop : (dataContent c p).drop 20 = p := hat.drop_eq (dataContent_length c p)
  have hflags : dataFlags c.submessageByteOrder &&& 0x04 ≠ 0 ∧
      dataFlags c.submessageByteOrder &&& (0x02 ||| 0x08 ||| 0x10) = 0 := by
    rcases ho with ho | ho <;> rw [ho] <;> decide
  have hfour : 4 ≤ p.length := by
    simp only [supportedSerializedPayload, Bool.and_eq_true, decide_eq_true_eq, hsize] at hpay
    exact hpay.1.1.2
  have hpay' : supportedSerializedPayload (.bytes p) = true := by
    cases payload with
    | null n => simp [supportedSerializedPayload, Span.isNull] at hpay
    | bytes d => exact hpay
  unfold parseDataMessage
  rw [findSubmessage_data hv ho hfit]
  simp only [hqos, hoffset, hreader, hwriter, hhigh, hlow, joinWords, hdrop, dataContent_length, hpay']
  rw [if_neg hflags.1, if_neg (by simp [hflags.2]), if_neg (by omega), if_neg (by omega),
    if_neg (by omega), if_neg (by omega), if_neg (by omega), if_neg (by omega), if_neg (by simp)]

/-- The exact domain of `build`, for a buffer of `capacity` bytes. -/
structure Buildable (capacity : ℕ) (c : DataMessageConfig) (payload : List UInt8) : Prop where
  version : c.version.major = 2 ∧ 1 ≤ c.version.minor ∧ c.version.minor ≤ 5
  order : c.submessageByteOrder = .bigEndian ∨ c.submessageByteOrder = .littleEndian
  number : 1 ≤ c.sequenceNumber ∧ c.sequenceNumber ≤ 2 ^ 63 - 1
  four : 4 ≤ payload.length
  /-- One of the four CDR encapsulations. -/
  encapsulation : byteAt payload 0 = 0 ∧ byteAt payload 1 ≤ 3
  capacity : 44 + payload.length ≤ capacity
  datagram : 44 + payload.length ≤ 65507

theorem supportedVersion_iff (v : ProtocolVersion) :
    supportedVersion v = true ↔ v.major = 2 ∧ 1 ≤ v.minor ∧ v.minor ≤ 5 := by
  have hone : v.minor ≠ 0 ↔ 1 ≤ v.minor := by
    rw [ne_eq, ← UInt8.toNat_inj, UInt8.le_iff_toNat_le]
    exact Nat.one_le_iff_ne_zero.symm
  simp only [supportedVersion, Bool.and_eq_true, beq_iff_eq, bne_iff_ne, decide_eq_true_eq, hone,
    and_assoc]

theorem supportedByteOrder_iff (order : ByteOrder) :
    supportedByteOrder order = true ↔ order = .bigEndian ∨ order = .littleEndian := by
  simp only [supportedByteOrder, Bool.or_eq_true, beq_iff_eq]

/-- A payload with an encapsulation is built if it fits. -/
theorem build_accepts {payload : List UInt8} (hv : supportedVersion c.version = true)
    (ho : c.submessageByteOrder = .bigEndian ∨ c.submessageByteOrder = .littleEndian)
    (hn : 1 ≤ c.sequenceNumber ∧ c.sequenceNumber ≤ int64Max)
    (hp : supportedSerializedPayload (.bytes payload) = true) (hsize : 44 + payload.length ≤ 65507)
    (hcap : 44 + payload.length ≤ capacity) :
    buildDataMessage false capacity c (.bytes payload) = .ok (dataMessageBytes c payload) := by
  have horder : supportedByteOrder c.submessageByteOrder = true := by
    rcases ho with ho | ho <;> rw [ho] <;> rfl
  have hlength : (Span.bytes payload).size = payload.length := rfl
  unfold buildDataMessage
  rw [if_neg (by simp), if_neg (by simp [hv]), if_neg (by simp [horder]), if_neg (by omega),
    if_neg (by simp [hp]), if_neg (by omega), if_neg (by omega), if_neg (by omega)]
  rfl

theorem build_ok_iff {null : Bool} :
    (∃ m, buildDataMessage null capacity c payload = .ok m) ↔
      null = false ∧ Buildable capacity c payload.data := by
  constructor
  · rintro ⟨m, h⟩
    obtain ⟨⟨rfl, hv, ho, hnum, hpay, hsize, hfit⟩, hcap⟩ := build_ok h
    have hnull : null = false := by
      -- a null buffer has capacity 0 or is refused
      cases null with
      | false => rfl
      | true =>
        unfold buildDataMessage at h
        rw [dataMessageBytes_length] at hcap
        rw [if_pos (by simp; omega)] at h
        cases h
    simp only [supportedSerializedPayload, Bool.and_eq_true, decide_eq_true_eq, beq_iff_eq,
      hsize] at hpay
    rw [dataMessageBytes_length] at hcap
    exact ⟨hnull, (supportedVersion_iff _).1 hv, ho, hnum, hpay.1.1.2, ⟨hpay.1.2, hpay.2⟩, hcap, hfit⟩
  · rintro ⟨rfl, hv, ho, hnum, hfour, henc, hcap, hfit⟩
    cases payload with
    | null n =>
      have hnil : (Span.null n).data.length = 0 := rfl
      omega
    | bytes body =>
      have hpay : supportedSerializedPayload (.bytes body) = true := by
        simp only [supportedSerializedPayload, Bool.and_eq_true, decide_eq_true_eq, beq_iff_eq]
        exact ⟨⟨⟨rfl, hfour⟩, henc.1⟩, henc.2⟩
      exact ⟨_, build_accepts ((supportedVersion_iff _).2 hv) ho hnum hpay hfit hcap⟩

namespace MessageBuilder

variable {ε : Type} {invalidArgument : ε} (b : MessageBuilder invalidArgument)
  {result : Except ε (List UInt8)}

theorem finish_true (h : (b.finish result).1 = true) :
    ∃ m, result = .ok m ∧ (b.finish result).2.message = m ∧ (b.finish result).2.size = m.length := by
  cases result with
  | error e => cases h
  | ok m => exact ⟨m, rfl, List.take_left, rfl⟩

theorem finish_error {e : ε} (h : (b.finish result).2.error = some e) : result = .error e := by
  cases result with
  | error e' => exact congrArg Except.error (Option.some.inj h)
  | ok m => cases h

/-- A build that succeeds with `n` bytes succeeds for a builder that has them. -/
theorem finish_accepts (build : Bool → ℕ → Except ε (List UInt8)) {n : ℕ} (hn : 0 < n)
    (hbuild : ∀ capacity, n ≤ capacity → ∃ m, build false capacity = .ok m)
    (hsize : n ≤ b.buffer.data.length) :
    (b.finish (build b.buffer.isNull b.buffer.size)).1 = true := by
  obtain ⟨buffer, size, error⟩ := b
  cases buffer with
  | null _ => exact absurd hsize (Nat.not_le.2 hn)
  | bytes bytes =>
    obtain ⟨m, hm⟩ := hbuild bytes.length hsize
    exact congrArg (fun r => (finish _ r).1) hm

end MessageBuilder

/-- **DATA messages make a round trip and the domain of the builder is exact.** Every builder, with
whatever it held before, succeeds exactly on its domain if it has a buffer; the bytes it then has are
parsed to the values it was given, with no destination and no timestamp; after a failure its size is
0. -/
theorem data_message_round_trip (b : DataMessageBuilder) (c : DataMessageConfig) (payload : Span) :
    ((b.build c payload).1 = true ↔
      b.buffer.isNull = false ∧ Buildable b.buffer.size c payload.data) ∧
    ((b.build c payload).1 = true →
      (b.build c payload).2.size = 44 + payload.data.length ∧
      ∃ view, parseDataMessage (.bytes (b.build c payload).2.message) = .ok view ∧
        view.context.version = c.version ∧ view.context.vendorId = c.vendorId ∧
        view.guidPrefix = c.guidPrefix ∧ view.context.hasDestination = false ∧
        view.context.hasTimestamp = false ∧ view.readerId = c.readerId ∧
        view.writerId = c.writerId ∧ view.sequenceNumber = c.sequenceNumber ∧
        view.submessageByteOrder = c.submessageByteOrder ∧ view.payload = payload.data) ∧
    ((b.build c payload).1 = false → (b.build c payload).2.size = 0) := by
  have hdomain := @build_ok_iff c payload b.buffer.size b.buffer.isNull
  unfold DataMessageBuilder.build MessageBuilder.finish
  cases hbuild : buildDataMessage b.buffer.isNull b.buffer.size c payload with
  | error e =>
    rw [hbuild] at hdomain
    simp only [reduceCtorEq, exists_false, false_iff] at hdomain
    simp only [Bool.false_eq_true, false_iff, IsEmpty.forall_iff, forall_const, and_true]
    exact hdomain
  | ok m =>
    rw [hbuild] at hdomain
    simp only [Except.ok.injEq, exists_eq', true_iff] at hdomain
    have hlen : m.length = 44 + payload.data.length := by
      rw [(build_ok hbuild).1.bytes, dataMessageBytes_length]
    have hmessage : (b.finish (.ok m)).2.message = m := List.take_left
    have hparse := parse_build hbuild
    rw [← hmessage] at hparse
    refine ⟨⟨fun _ => hdomain, fun _ => rfl⟩, fun _ => ⟨hlen, _, hparse, ?_⟩, fun h => by cases h⟩
    exact ⟨rfl, rfl, rfl, rfl, rfl, rfl, rfl, rfl, rfl, rfl⟩

end OpenRtdds
