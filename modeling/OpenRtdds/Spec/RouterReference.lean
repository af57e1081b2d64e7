import OpenRtdds.Spec.Router

/-!
# A reference for routing

What `find_submessage` is for, in two passes: split the bytes after the RTPS header into submessages
(`Splits`), then fold the INFO submessages before the wanted one into the context of the header.
-/

namespace OpenRtdds

open Lib

/-- A submessage of a message, with the offset of its header. -/
structure Submessage where
  id : UInt8
  flags : UInt8
  content : List UInt8
  offset : ℕ

namespace Submessage

/-- Flag bit 0 says that the integers of a submessage are little-endian. -/
def order (s : Submessage) : ByteOrder := if s.flags &&& 0x01 ≠ 0 then .littleEndian else .bigEndian

/-- The length field of a submessage header, in the byte order of its flags. -/
def declared (flags l0 l1 : UInt8) : ℕ :=
  if flags &&& 0x01 ≠ 0 then l0.toNat + 256 * l1.toNat else 256 * l0.toNat + l1.toNat

/-- A length of zero means that the submessage extends to the end of the message, except for PAD and
INFO_TS, which are then empty. -/
def toEnd (id : UInt8) (length : ℕ) : Prop :=
  length = 0 ∧ id ≠ submessageIdPad ∧ id ≠ submessageIdInfoTimestamp

instance (id : UInt8) (length : ℕ) : Decidable (toEnd id length) :=
  inferInstanceAs (Decidable (_ ∧ _))

/-- INFO_SRC, INFO_DST and INFO_TS change the context of what follows. -/
def isInfo (s : Submessage) : Bool :=
  s.id == submessageIdInfoDestination || s.id == submessageIdInfoSource ||
    s.id == submessageIdInfoTimestamp

/-- An INFO submessage has the size of its kind, and an INFO_SRC a supported version. -/
structure WellFormed (s : Submessage) : Prop where
  destination : s.id = submessageIdInfoDestination → s.content.length = 12
  source : s.id = submessageIdInfoSource → s.content.length = 20 ∧
    supportedVersion ⟨byteAt s.content 4, byteAt s.content 5⟩ = true
  timestamp : s.id = submessageIdInfoTimestamp →
    s.content.length = if s.flags &&& 0x02 ≠ 0 then 0 else 8

/-- The context after a submessage. -/
def effect (c : RouteContext) (s : Submessage) : RouteContext :=
  if s.id = submessageIdInfoDestination then
    { c with
      destination := copyAt s.content 0 12
      hasDestination := nonzeroPrefix (copyAt s.content 0 12) }
  else if s.id = submessageIdInfoSource then
    { c with
      version := ⟨byteAt s.content 4, byteAt s.content 5⟩
      vendorId := copyAt s.content 6 2
      source := copyAt s.content 8 12 }
  else if s.id = submessageIdInfoTimestamp then
    if s.flags &&& 0x02 ≠ 0 then { c with hasTimestamp := false }
    else { c with
      timestamp := ⟨BitVec.ofNat 32 (readAt s.content 0 4 s.order), readAt s.content 4 4 s.order⟩
      hasTimestamp := true }
  else c

/-- What the router reports for a submessage in a context. -/
def view (c : RouteContext) (s : Submessage) : RoutedSubmessageView :=
  { context := c, id := s.id, flags := s.flags, byteOrder := s.order, content := s.content,
    offset := s.offset }

end Submessage

/-- **The bytes split completely into submessages**, the first of which is at `offset`. -/
inductive Splits : ℕ → List UInt8 → List Submessage → Prop where
  | done (offset : ℕ) : Splits offset [] []
  | next {offset : ℕ} {id flags l0 l1 : UInt8} {content rest : List UInt8} {subs : List Submessage}
      (length : Submessage.declared flags l0 l1 = content.length)
      (inside : ¬ Submessage.toEnd id content.length)
      (tail : Splits (offset + 4 + content.length) rest subs) :
      Splits offset (id :: flags :: l0 :: l1 :: (content ++ rest)) (⟨id, flags, content, offset⟩ :: subs)
  | last {offset : ℕ} {id flags l0 l1 : UInt8} {content : List UInt8}
      (zero : Submessage.toEnd id (Submessage.declared flags l0 l1)) :
      Splits offset (id :: flags :: l0 :: l1 :: content) [⟨id, flags, content, offset⟩]

/-- The RTPS header of a message is valid. -/
structure ValidHeader (m : List UInt8) : Prop where
  size : 20 ≤ m.length
  magic : m.take 4 = [0x52, 0x54, 0x50, 0x53]
  version : supportedVersion ⟨byteAt m 4, byteAt m 5⟩ = true

/-- The context that the RTPS header sets. -/
def headerContext (m : List UInt8) : RouteContext :=
  { version := ⟨byteAt m 4, byteAt m 5⟩, vendorId := copyAt m 6 2, source := copyAt m 8 12 }

/-- The context that the INFO submessages of a list leave. -/
def contextAfter (c : RouteContext) (subs : List Submessage) : RouteContext :=
  (subs.filter Submessage.isInfo).foldl Submessage.effect c

end OpenRtdds
