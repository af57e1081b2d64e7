import OpenRtdds.Lib.Bytes
import OpenRtdds.Spec.Types

/-!
# Routing of compound RTPS messages

`rtps/message_router.cpp`: one walk over the submessages of a message, which keeps the
INFO context and remembers the wanted occurrence of a submessage.
-/

namespace OpenRtdds

open Lib

/-- An integer of `width` bytes at offset `i`. -/
def readAt (m : List UInt8) (i width : ℕ) (order : ByteOrder) : ℕ :=
  loadInt (order == .littleEndian) width fun k => byteAt m (i + k)

/-- `n` bytes copied from offset `i`. -/
def copyAt (m : List UInt8) (i n : ℕ) : Vector UInt8 n := Vector.ofFn fun k => byteAt m (i + k)

def submessageIdPad : UInt8 := 0x01
def submessageIdAcknack : UInt8 := 0x06
def submessageIdHeartbeat : UInt8 := 0x07
def submessageIdInfoTimestamp : UInt8 := 0x09
def submessageIdInfoSource : UInt8 := 0x0C
def submessageIdInfoDestination : UInt8 := 0x0E
def submessageIdData : UInt8 := 0x15

/-- `rtps::MessageRouteError` without `none`. -/
inductive MessageRouteError where
  | invalidArgument
  | truncated
  | invalidProtocol
  | unsupportedVersion
  | malformedSubmessage
  | invalidInfoSubmessage
  | submessageNotFound
  deriving DecidableEq

/-- `rtps::RtpsTimestamp`; the seconds are the bits of an `int32_t`. -/
structure RtpsTimestamp where
  seconds : BitVec 32 := 0
  fraction : ℕ := 0
  deriving DecidableEq

/-- `nonzero_prefix`. -/
def nonzeroPrefix (p : GuidPrefix) : Bool := p.toList.any (· != 0)

/-- The version check of every parser and builder: 2.1 to 2.5. -/
def supportedVersion (v : ProtocolVersion) : Bool :=
  v.major == 2 && v.minor != 0 && decide (v.minor ≤ 5)

/-- `RouteContext`. -/
structure RouteContext where
  version : ProtocolVersion
  vendorId : VendorId
  source : GuidPrefix
  destination : GuidPrefix := .replicate 12 0
  hasDestination : Bool := false
  timestamp : RtpsTimestamp := {}
  hasTimestamp : Bool := false

/-- `apply_info`: the effect of an INFO submessage on the context. -/
def applyInfo (id flags : UInt8) (order : ByteOrder) (content : List UInt8) (c : RouteContext) :
    Except MessageRouteError RouteContext :=
  if id = submessageIdInfoDestination then
    if content.length ≠ 12 then .error .invalidInfoSubmessage
    else
      let destination := copyAt content 0 12
      .ok { c with destination, hasDestination := nonzeroPrefix destination }
  else if id = submessageIdInfoSource then
    if content.length ≠ 20 then .error .invalidInfoSubmessage
    else
      let version : ProtocolVersion := ⟨byteAt content 4, byteAt content 5⟩
      if !supportedVersion version then .error .unsupportedVersion
      else .ok { c with version, vendorId := copyAt content 6 2, source := copyAt content 8 12 }
  else if id = submessageIdInfoTimestamp then
    if flags &&& 0x02 ≠ 0 then
      if content.length ≠ 0 then .error .invalidInfoSubmessage
      else .ok { c with hasTimestamp := false }
    else if content.length ≠ 8 then .error .invalidInfoSubmessage
    else .ok { c with
      timestamp := ⟨BitVec.ofNat 32 (readAt content 0 4 order), readAt content 4 4 order⟩
      hasTimestamp := true }
  else .ok c

/-- `rtps::RoutedSubmessageView`; the content is the bytes its pointer and size delimit. -/
structure RoutedSubmessageView where
  context : RouteContext
  id : UInt8
  flags : UInt8
  byteOrder : ByteOrder
  content : List UInt8
  offset : ℕ

/-- The variables of the loop of `find_submessage`. -/
structure RouteState where
  context : RouteContext
  candidate : Option RoutedSubmessageView := none
  occurrence : ℕ := 0
  offset : ℕ := 20

/-- One submessage; the flag says that it extends to the end of the message. -/
def routeStep (message : List UInt8) (wantedId : UInt8) (wantedOccurrence : ℕ) (s : RouteState) :
    Except MessageRouteError (RouteState × Bool) :=
  if message.length - s.offset < 4 then .error .malformedSubmessage
  else
    let id := byteAt message s.offset
    let flags := byteAt message (s.offset + 1)
    let order : ByteOrder := if flags &&& 0x01 ≠ 0 then .littleEndian else .bigEndian
    let declared := readAt message (s.offset + 2) 2 order
    let contentOffset := s.offset + 4
    let available := message.length - contentOffset
    let extendsToEnd :=
      decide (declared = 0) && !(id == submessageIdPad || id == submessageIdInfoTimestamp)
    let contentSize := if extendsToEnd then available else declared
    if contentSize > available then .error .truncated
    else
      let content := (message.drop contentOffset).take contentSize
      let candidate := if id = wantedId ∧ s.occurrence = wantedOccurrence then
          some { context := s.context, id, flags, byteOrder := order, content, offset := s.offset }
        else s.candidate
      let occurrence := if id = wantedId then s.occurrence + 1 else s.occurrence
      match applyInfo id flags order content s.context with
      | .error e => .error e
      | .ok context =>
        .ok ({ context, candidate, occurrence, offset := contentOffset + contentSize }, extendsToEnd)

/-- The loop `while (offset < message_size)`; every submessage has at least four bytes. -/
def routeLoop (message : List UInt8) (wantedId : UInt8) (wantedOccurrence : ℕ) :
    ℕ → RouteState → Except MessageRouteError RouteState
  | 0, s => .ok s
  | fuel + 1, s =>
    if s.offset < message.length then
      match routeStep message wantedId wantedOccurrence s with
      | .error e => .error e
      | .ok (s', extendsToEnd) =>
        if extendsToEnd then .ok s' else routeLoop message wantedId wantedOccurrence fuel s'
    else .ok s

/-- `find_submessage`. -/
def findSubmessage (message : Span) (wantedId : UInt8) (wantedOccurrence : ℕ) :
    Except MessageRouteError RoutedSubmessageView :=
  let bytes := message.data
  if message.isNull && message.size != 0 then .error .invalidArgument
  else if bytes.length < 20 then .error .truncated
  else if (bytes.take 4) ≠ [0x52, 0x54, 0x50, 0x53] then .error .invalidProtocol
  else if !supportedVersion ⟨byteAt bytes 4, byteAt bytes 5⟩ then .error .unsupportedVersion
  else
    match routeLoop bytes wantedId wantedOccurrence bytes.length
        { context :=
          { version := ⟨byteAt bytes 4, byteAt bytes 5⟩
            vendorId := copyAt bytes 6 2
            source := copyAt bytes 8 12 } } with
    | .error e => .error e
    | .ok s =>
      if s.offset ≠ bytes.length then .error .malformedSubmessage
      else match s.candidate with
        | none => .error .submessageNotFound
        | some view => .ok view

end OpenRtdds
