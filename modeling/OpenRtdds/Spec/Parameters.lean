import OpenRtdds.Spec.Raw

/-!
# Parameter lists

What the builders and parsers of `rtps/spdp.cpp` and `rtps/sedp.cpp` share: locators, the walk over
the parameters of a discovery payload, and the writer of such a payload. The two files have their own
copies; those of the walk differ in what they do with a parameter.

The parsers are modelled over raw memory only, in the way of `Spec.Raw`.
-/

namespace OpenRtdds

open Lib Guarded Raw

section Locators

/-- `rtps::Locator`; the kind is the bits of an `int32_t`. -/
structure Locator where
  kind : BitVec 32 := 1
  port : ℕ := 0
  address : Vector UInt8 16 := .replicate 16 0
  deriving DecidableEq

/-- `valid_udp_v4_locator`. -/
def validUdpV4Locator (locator : Locator) : Bool :=
  !(locator.kind != 1 || locator.port == 0 || decide (locator.port > 65535)) &&
    (locator.address.toList.take 12).all (· == 0) &&
    (locator.address[12] ||| locator.address[13] ||| locator.address[14] ||| locator.address[15]) != 0

/-- `rtps::BoundedLocatorList`. -/
structure BoundedLocatorList (capacity : ℕ) where
  values : Vector Locator capacity := .replicate capacity {}
  size : ℕ := 0

/-- `BoundedLocatorList::push_back`; a full list is not changed. -/
def BoundedLocatorList.pushBack {ε : Type} {capacity : ℕ} (list : BoundedLocatorList capacity)
    (locator : Locator) : Guarded ε (Option (BoundedLocatorList capacity)) :=
  if list.size ≥ capacity then pure none
  else do
    let values ← store list.values list.size locator
    pure (some { values, size := list.size + 1 })

/-- `append_parsed_locator`, with the errors of one of the two files. A locator of another kind than
UDPv4 is skipped. -/
def parseLocator {ε : Type} (malformedParameter invalidLocator locatorBoundExceeded : ε)
    (m : List UInt8) (value length : ℕ) (order : ByteOrder) (output : BoundedLocatorList 4) :
    Guarded ε (BoundedLocatorList 4) := do
  require (length = 24) malformedParameter
  let kind ← readWord m value 4 order
  if kind ≠ 1 then pure output
  else do
    let port ← readWord m (value + 4) 4 order
    let address ← copyBytes m (value + 8) 16
    let locator : Locator := { port, address }
    require (validUdpV4Locator locator) invalidLocator
    let pushed ← output.pushBack locator
    match pushed with
    | none => .error locatorBoundExceeded
    | some output => pure output

end Locators

section Walk

def pidSentinel : ℕ := 0x0001
def pidExpectsInlineQos : ℕ := 0x0043
def pidParticipantGuid : ℕ := 0x0050
def mustUnderstandMask : ℕ := 0x4000
def nanosecondsPerSecond : ℕ := 1000000000

/-- `entity_id_unknown` and `entity_id_participant`. -/
def entityIdUnknown : EntityId := #v[0, 0, 0, 0]

def entityIdParticipant : EntityId := #v[0, 0, 1, 0xC1]

/-- A duration of `int32_t` seconds and a fraction of 2⁻³² seconds, in nanoseconds. -/
def durationNs (seconds fraction : ℕ) : ℕ :=
  seconds * nanosecondsPerSecond + (fraction * nanosecondsPerSecond) >>> 32

/-- The variables of the loop over the parameters. -/
structure ParameterState (σ : Type) where
  candidate : σ
  offset : ℕ := 4
  seenSentinel : Bool := false

variable {ε σ : Type}

/-- The loop condition and the body of the loop; `parameter` is the switch over the id, with the
length of the value and its position. -/
def parameterStep (malformedParameter : ε) (m : List UInt8) (payload payloadSize : ℕ)
    (order : ByteOrder) (parameter : ℕ → ℕ → ℕ → σ → Guarded ε σ) (s : ParameterState σ) :
    Guarded ε (ParameterState σ × Bool) := do
  let next ← sizeAdd s.offset 4
  if next ≤ payloadSize then do
    let id ← readWord m (payload + s.offset) 2 order
    let length ← readWord m (payload + (s.offset + 2)) 2 order
    if id = pidSentinel then pure ({ s with offset := next, seenSentinel := true }, false)
    else do
      require (length &&& 3 = 0) malformedParameter
      let remaining ← sizeSub payloadSize next
      require (length ≤ remaining) malformedParameter
      let value ← address m (payload + next)
      let candidate ← parameter id length value s.candidate
      let offset ← sizeAdd next length
      pure ({ s with candidate, offset }, true)
  else pure (s, false)

/-- The loop over the parameters behind the encapsulation; it has to come to a sentinel. -/
def parseParameters (malformedParameter : ε) (m : List UInt8) (payload payloadSize : ℕ)
    (order : ByteOrder) (parameter : ℕ → ℕ → ℕ → σ → Guarded ε σ) (candidate : σ) : Guarded ε σ := do
  let s ← loop (parameterStep malformedParameter m payload payloadSize order parameter)
    (payloadSize + 1) { candidate }
  require s.seenSentinel malformedParameter
  pure s.candidate

/-- The parameter encapsulation of a discovery payload and its byte order. -/
def parameterByteOrder (unsupportedRepresentation : ε) (m : List UInt8) (payload payloadSize : ℕ) :
    Guarded ε ByteOrder := do
  require (8 ≤ payloadSize) unsupportedRepresentation
  let first ← load m payload
  require (first = 0) unsupportedRepresentation
  let second ← load m (payload + 1)
  require (second = 2 ∨ second = 3) unsupportedRepresentation
  pure (if second = 3 then .littleEndian else .bigEndian)

/-- A parameter that may occur once and has a fixed length. -/
def singleParameter (duplicateParameter malformedParameter : ε) (seen : Bool) (length size : ℕ) :
    Guarded ε Unit := do
  require (seen = false) duplicateParameter
  require (length = size) malformedParameter

end Walk

section Writer

/-- `padded_size`. -/
def paddedSize (size : ℕ) : ℕ := (size + 3) / 4 * 4

/-- `ParameterWriter`: the bytes it has written, whose number is `size_`. -/
structure ParameterWriter where
  capacity : ℕ
  order : ByteOrder
  bytes : List UInt8

/-- The `value_size` bytes at the pointer that `append` returns are written by its caller; here they
are an argument. The bytes behind them are the zeros of the `memset`. -/
def paddedValue (value : List UInt8) : List UInt8 :=
  value ++ List.replicate (paddedSize value.length - value.length) 0

namespace ParameterWriter

/-- `write_u16` and `write_u32` in the byte order of the parameters. -/
def word (w : ParameterWriter) (width value : ℕ) : List UInt8 :=
  storeInt (w.order == .littleEndian) width value

/-- The constructor, which writes the encapsulation. -/
def start (capacity : ℕ) (order : ByteOrder) : ParameterWriter where
  capacity := capacity
  order := order
  bytes := if 4 ≤ capacity then [0, if order = .littleEndian then 3 else 2, 0, 0] else []

/-- `ParameterWriter::append` with the value that its caller writes. -/
def append (w : ParameterWriter) (id : ℕ) (value : List UInt8) : Option ParameterWriter :=
  let length := paddedSize value.length
  if length > 65535 ∨ w.bytes.length > w.capacity ∨ w.capacity - w.bytes.length < 4 + length then none
  else some { w with bytes := w.bytes ++ (w.word 2 id ++ (w.word 2 length ++ paddedValue value)) }

/-- `ParameterWriter::finish`. -/
def finish (w : ParameterWriter) : Option ParameterWriter := w.append pidSentinel []

/-- `append_locator`. -/
def appendLocator (id : ℕ) (w : ParameterWriter) (locator : Locator) : Option ParameterWriter :=
  w.append id (w.word 4 locator.kind.toNat ++ (w.word 4 locator.port ++ locator.address.toList))

end ParameterWriter

/-- The locators of a list: `list[0]` to `list[size - 1]`. -/
def BoundedLocatorList.entries {capacity : ℕ} (list : BoundedLocatorList capacity) : List Locator :=
  list.values.toList.take list.size

/-- `valid_locators`. -/
def validLocators {capacity : ℕ} (list : BoundedLocatorList capacity) : Bool :=
  decide (list.size ≤ capacity) && list.entries.all validUdpV4Locator

/-- The loops that append the locators of a list. -/
def ParameterWriter.appendList {capacity : ℕ} (w : ParameterWriter) (id : ℕ)
    (list : BoundedLocatorList capacity) : Option ParameterWriter :=
  list.entries.foldlM (appendLocator id) w

/-- The two words of a duration: the seconds and the fraction of 2⁻³² seconds. -/
def ParameterWriter.duration (w : ParameterWriter) (durationNs : ℕ) : List UInt8 :=
  w.word 4 (durationNs / nanosecondsPerSecond) ++
    w.word 4 (((durationNs % nanosecondsPerSecond) <<< 32) / nanosecondsPerSecond)

/-- The encoding of a text with its size and its final zero. -/
def ParameterWriter.text {capacity : ℕ} (w : ParameterWriter) (text : Vector UInt8 capacity)
    (size : ℕ) : List UInt8 :=
  w.word 4 (size + 1) ++ (text.toList.take size ++ [0])

end Writer

end OpenRtdds
