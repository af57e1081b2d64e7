import OpenRtdds.Lib.Memory
import OpenRtdds.Spec.Cdr

/-!
# CDR primitives on memory

`CdrWriter` and `CdrReader` of `serialization/cdr.cpp` with the memory that they touch: the buffer, and the
variables of the caller that a read assigns. An access outside of the buffer, or of what the caller has
provided, has no result; `Spec/Cdr` gives the same operations without the memory.

The value of a floating-point number is its bit pattern, which the code copies to and from an integer.
-/

namespace OpenRtdds

open Lib

/-- Writes behind a pointer; nothing can be written through a null pointer. -/
def Span.store (s : Span) (start : ℕ) (bytes : List UInt8) : Option Span :=
  if s.isNull then if bytes.isEmpty then some s else none
  else (stores s.data start bytes).map .bytes

/-- A value, as an operation of the writer takes it. -/
inductive CdrValue where
  | bool (value : Bool)
  | uint8 (value : UInt8)
  | int16 (value : Int16)
  | uint16 (value : UInt16)
  | int32 (value : Int32)
  | uint32 (value : UInt32)
  | int64 (value : Int64)
  | uint64 (value : UInt64)
  | float32 (bits : UInt32)
  | float64 (bits : UInt64)
  | bytes (data : Span)
  | string (value : Span) (maxCharacters : ℕ)
  deriving DecidableEq

/-- `serialization::CdrWriter` with its buffer. -/
structure BufferWriter where
  buffer : Span
  offset : ℕ := 0
  origin : ℕ := 0
  byteOrder : ByteOrder := .littleEndian
  error : Option CdrError := none
  initialized : Bool := false
  deriving DecidableEq

namespace BufferWriter

/-- The constructor. -/
def construct (buffer : Span) : BufferWriter :=
  { buffer, error := if buffer.isNull && buffer.size != 0 then some .invalidArgument else none }

/-- `fail`: records the first error. -/
def fail (w : BufferWriter) (error : CdrError) : BufferWriter :=
  if w.error.isNone then { w with error := some error } else w

/-- `begin`. -/
def begin (w : BufferWriter) (byteOrder : ByteOrder) : Option (Bool × BufferWriter) :=
  let w := { w with offset := 0, origin := 0, byteOrder, initialized := false, error := none }
  if w.buffer.isNull && w.buffer.size != 0 then some (false, w.fail .invalidArgument)
  else if byteOrder ≠ .bigEndian ∧ byteOrder ≠ .littleEndian then some (false, w.fail .invalidArgument)
  else if w.buffer.size < encapsulationSize then some (false, w.fail .overflow)
  else (w.buffer.store 0 [0, if byteOrder = .littleEndian then 1 else 0, 0, 0]).map fun buffer =>
    (true, { w with
      buffer, offset := encapsulationSize, origin := encapsulationSize, initialized := true })

/-- `reserve`: the aligned start of the next `width` bytes, with zeros up to it. -/
def reserve (w : BufferWriter) (alignment width : ℕ) : Option (Option ℕ × BufferWriter) :=
  if w.error.isSome then some (none, w)
  else if !w.initialized then some (none, w.fail .notInitialized)
  else
    (alignedPosition w.offset w.origin alignment).elim (some (none, w.fail .overflow)) fun start =>
      if start > w.buffer.size ∨ width > w.buffer.size - start then some (none, w.fail .overflow)
      else (w.buffer.store w.offset (.replicate (start - w.offset) 0)).map fun buffer =>
        (some start, { w with buffer })

/-- What `write_integral`, `write_bytes` and `write_string` do with the bytes of a value: they reserve the
place, store the bytes there in order and move the cursor behind them. -/
def append (w : BufferWriter) (alignment : ℕ) (bytes : List UInt8) : Option (Bool × BufferWriter) :=
  (w.reserve alignment bytes.length).bind fun r =>
    r.1.elim (some (false, r.2)) fun start =>
      (r.2.buffer.store start bytes).map fun buffer =>
        (true, { r.2 with buffer, offset := start + bytes.length })

/-- The bytes `store_integral` writes. -/
def integral (w : BufferWriter) (value width : ℕ) : List UInt8 :=
  storeInt (w.byteOrder == .littleEndian) width value

/-- `write_integral`. -/
def writeIntegral (w : BufferWriter) (value width alignment : ℕ) : Option (Bool × BufferWriter) :=
  w.append alignment (w.integral value width)

def writeUint8 (w : BufferWriter) (value : UInt8) := w.writeIntegral value.toNat 1 1

def writeBool (w : BufferWriter) (value : Bool) := w.writeUint8 (if value then 1 else 0)

def writeUint16 (w : BufferWriter) (value : UInt16) := w.writeIntegral value.toNat 2 2

def writeInt16 (w : BufferWriter) (value : Int16) := w.writeUint16 value.toUInt16

def writeUint32 (w : BufferWriter) (value : UInt32) := w.writeIntegral value.toNat 4 4

def writeInt32 (w : BufferWriter) (value : Int32) := w.writeUint32 value.toUInt32

def writeUint64 (w : BufferWriter) (value : UInt64) := w.writeIntegral value.toNat 8 8

def writeInt64 (w : BufferWriter) (value : Int64) := w.writeUint64 value.toUInt64

def writeFloat32 (w : BufferWriter) (bits : UInt32) := w.writeUint32 bits

def writeFloat64 (w : BufferWriter) (bits : UInt64) := w.writeUint64 bits

/-- `write_bytes`. -/
def writeBytes (w : BufferWriter) (data : Span) : Option (Bool × BufferWriter) :=
  if data.isNull && data.size != 0 then some (false, w.fail .invalidArgument)
  else w.append 1 data.data

/-- `write_string`: the length with the terminator, the characters, a NUL. -/
def writeString (w : BufferWriter) (value : Span) (maxCharacters : ℕ) : Option (Bool × BufferWriter) :=
  if value.isNull && value.size != 0 then some (false, w.fail .invalidArgument)
  else if value.size > maxCharacters then some (false, w.fail .boundExceeded)
  else if value.size ≥ uint32Max then some (false, w.fail .boundExceeded)
  else
    let serializedLength := value.size + 1
    if serializedLength > uint64Max - 4 then some (false, w.fail .boundExceeded)
    else w.append 4 (w.integral serializedLength 4 ++ value.data ++ [0])

/-- The operation that writes a value. -/
def write (w : BufferWriter) : CdrValue → Option (Bool × BufferWriter)
  | .bool value => w.writeBool value
  | .uint8 value => w.writeUint8 value
  | .int16 value => w.writeInt16 value
  | .uint16 value => w.writeUint16 value
  | .int32 value => w.writeInt32 value
  | .uint32 value => w.writeUint32 value
  | .int64 value => w.writeInt64 value
  | .uint64 value => w.writeUint64 value
  | .float32 bits => w.writeFloat32 bits
  | .float64 bits => w.writeFloat64 bits
  | .bytes data => w.writeBytes data
  | .string value maxCharacters => w.writeString value maxCharacters

end BufferWriter

/-- A call of the writer. -/
inductive WriterCall where
  | begin (byteOrder : ByteOrder)
  | write (value : CdrValue)

/-- One call of a writer; it puts out its result and `size()`. -/
def BufferWriter.perform (w : BufferWriter) : WriterCall → Option (BufferWriter × (Bool × ℕ))
  | .begin byteOrder => (w.begin byteOrder).map fun r => (r.2, r.1, r.2.offset)
  | .write value => (w.write value).map fun r => (r.2, r.1, r.2.offset)

/-- A read, with the variables of the caller that it assigns: what they hold before the call, and after
it. A destination has as many bytes as the caller says. A view is a position in the buffer and a length. -/
inductive ReadCall where
  | bool (value : Bool)
  | uint8 (value : UInt8)
  | int16 (value : Int16)
  | uint16 (value : UInt16)
  | int32 (value : Int32)
  | uint32 (value : UInt32)
  | int64 (value : Int64)
  | uint64 (value : UInt64)
  | float32 (bits : UInt32)
  | float64 (bits : UInt64)
  | bytes (destination : Span)
  | string (destination : Span) (maxCharacters length : ℕ)
  | stringView (data maxCharacters length : ℕ)
  deriving DecidableEq

namespace CdrReader

/-- The constructor. -/
def construct (buffer : Span) : CdrReader :=
  { buffer, error := if buffer.isNull && buffer.size != 0 then some .invalidArgument else none }

/-- `begin`, with its reads of the first two bytes. -/
def beginChecked (r : CdrReader) : Option (Bool × CdrReader) :=
  let r := { r with offset := 0, origin := 0, initialized := false, error := none }
  if r.buffer.isNull && r.buffer.size != 0 then some (false, r.fail .invalidArgument)
  else if r.buffer.size < encapsulationSize then some (false, r.fail .underflow)
  else (loads r.buffer.data 0 2).map fun header =>
    if byteAt header 0 ≠ 0 ∨ byteAt header 1 ≠ 0 ∧ byteAt header 1 ≠ 1 then
      (false, r.fail .unsupportedEncoding)
    else (true, { r with
      byteOrder := if byteAt header 1 = 1 then .littleEndian else .bigEndian
      offset := encapsulationSize
      origin := encapsulationSize
      initialized := true })

/-- `load_integral`. -/
def loadIntegralChecked (r : CdrReader) (start width : ℕ) : Option ℕ :=
  (loads r.buffer.data start width).map fun bytes =>
    loadInt (r.byteOrder == .littleEndian) width (byteAt bytes)

/-- `read_integral`. -/
def readIntegralChecked (r : CdrReader) (width alignment : ℕ) : Option (Option ℕ × CdrReader) :=
  (r.locate alignment width).1.elim (some (none, (r.locate alignment width).2)) fun place =>
    (r.loadIntegralChecked place.1 width).map fun value => (some value, { r with offset := place.2 })

/-- An integer of `width` bytes is read into a variable. -/
def readInto {α : Type} (r : CdrReader) (width : ℕ) (decode : ℕ → α) (value : α) :
    Option ((Bool × α) × CdrReader) :=
  (r.readIntegralChecked width width).map fun d =>
    (d.1.elim (false, value) fun decoded => (true, decode decoded), d.2)

def readUint8Into (r : CdrReader) (value : UInt8) := r.readInto 1 UInt8.ofNat value

/-- `read_bool`: a byte above 1 is not consumed. -/
def readBoolInto (r : CdrReader) (value : Bool) : Option ((Bool × Bool) × CdrReader) :=
  (r.readUint8Into 0).map fun d =>
    if !d.1.1 then ((false, value), d.2)
    else if d.1.2 > 1 then ((false, value), { d.2 with offset := r.offset }.fail .invalidData)
    else ((true, d.1.2 == 1), d.2)

def readUint16Into (r : CdrReader) (value : UInt16) := r.readInto 2 UInt16.ofNat value

def readInt16Into (r : CdrReader) (value : Int16) := r.readInto 2 (fun bits => (UInt16.ofNat bits).toInt16) value

def readUint32Into (r : CdrReader) (value : UInt32) := r.readInto 4 UInt32.ofNat value

def readInt32Into (r : CdrReader) (value : Int32) := r.readInto 4 (fun bits => (UInt32.ofNat bits).toInt32) value

def readUint64Into (r : CdrReader) (value : UInt64) := r.readInto 8 UInt64.ofNat value

def readInt64Into (r : CdrReader) (value : Int64) := r.readInto 8 (fun bits => (UInt64.ofNat bits).toInt64) value

def readFloat32Into (r : CdrReader) (bits : UInt32) := r.readUint32Into bits

def readFloat64Into (r : CdrReader) (bits : UInt64) := r.readUint64Into bits

/-- `read_bytes` into a destination. -/
def readBytesInto (r : CdrReader) (destination : Span) : Option ((Bool × Span) × CdrReader) :=
  if destination.isNull && destination.size != 0 then some ((false, destination), r.fail .invalidArgument)
  else
    (r.locate 1 destination.size).1.elim (some ((false, destination), (r.locate 1 destination.size).2))
      fun place => (loads r.buffer.data place.1 destination.size).bind fun bytes =>
        (destination.store 0 bytes).map fun destination => ((true, destination), { r with offset := place.2 })

/-- The part of `read_string` and `read_string_view` before the value is handed over: where the characters
start, and the length with the terminator. `read_string` has a `capacity` for both. -/
def locateString (r : CdrReader) (maxCharacters : ℕ) (capacity : Option ℕ) :
    Option (Option (ℕ × ℕ) × CdrReader) :=
  (r.locate 4 4).1.elim (some (none, (r.locate 4 4).2)) fun place =>
    (r.loadIntegralChecked place.1 4).bind fun serializedLength =>
      if serializedLength = 0 then some (none, r.fail .invalidData)
      else if serializedLength - 1 > maxCharacters then some (none, r.fail .boundExceeded)
      else if capacity.any fun capacity => decide (serializedLength > capacity) then
        some (none, r.fail .boundExceeded)
      else if place.2 > r.buffer.size ∨ serializedLength > r.buffer.size - place.2 then
        some (none, r.fail .underflow)
      else (loads r.buffer.data (place.2 + serializedLength - 1) 1).map fun terminator =>
        if byteAt terminator 0 ≠ 0 then (none, r.fail .invalidData)
        else (some (place.2, serializedLength), r)

/-- `read_string` into a destination and a length. -/
def readStringInto (r : CdrReader) (destination : Span) (maxCharacters length : ℕ) :
    Option ((Bool × (Span × ℕ)) × CdrReader) :=
  if destination.isNull && destination.size != 0 then
    some ((false, destination, length), r.fail .invalidArgument)
  else
    (r.locateString maxCharacters (some destination.size)).bind fun found =>
      found.1.elim (some ((false, destination, length), found.2)) fun place =>
        (loads r.buffer.data place.1 place.2).bind fun bytes =>
          (destination.store 0 bytes).map fun destination =>
            ((true, destination, place.2 - 1), { r with offset := place.1 + place.2 })

/-- `read_string_view` into a position of the buffer and a length. -/
def readStringViewInto (r : CdrReader) (data maxCharacters length : ℕ) :
    Option ((Bool × (ℕ × ℕ)) × CdrReader) :=
  (r.locateString maxCharacters none).map fun found =>
    found.1.elim ((false, data, length), found.2) fun place =>
      ((true, place.1, place.2 - 1), { r with offset := place.1 + place.2 })

/-- One read. -/
def read (r : CdrReader) : ReadCall → Option ((Bool × ReadCall) × CdrReader)
  | .bool value => (r.readBoolInto value).map (Prod.map (Prod.map id .bool) id)
  | .uint8 value => (r.readUint8Into value).map (Prod.map (Prod.map id .uint8) id)
  | .int16 value => (r.readInt16Into value).map (Prod.map (Prod.map id .int16) id)
  | .uint16 value => (r.readUint16Into value).map (Prod.map (Prod.map id .uint16) id)
  | .int32 value => (r.readInt32Into value).map (Prod.map (Prod.map id .int32) id)
  | .uint32 value => (r.readUint32Into value).map (Prod.map (Prod.map id .uint32) id)
  | .int64 value => (r.readInt64Into value).map (Prod.map (Prod.map id .int64) id)
  | .uint64 value => (r.readUint64Into value).map (Prod.map (Prod.map id .uint64) id)
  | .float32 bits => (r.readFloat32Into bits).map (Prod.map (Prod.map id .float32) id)
  | .float64 bits => (r.readFloat64Into bits).map (Prod.map (Prod.map id .float64) id)
  | .bytes destination => (r.readBytesInto destination).map (Prod.map (Prod.map id .bytes) id)
  | .string destination maxCharacters length =>
    (r.readStringInto destination maxCharacters length).map
      (Prod.map (Prod.map id fun v => .string v.1 maxCharacters v.2) id)
  | .stringView data maxCharacters length =>
    (r.readStringViewInto data maxCharacters length).map
      (Prod.map (Prod.map id fun v => .stringView v.1 maxCharacters v.2) id)

end CdrReader

/-- A call of the reader. -/
inductive ReaderCall where
  | begin
  | read (call : ReadCall)

/-- What a call of the reader puts out: its result, the call with the variables as they are after it, and
`position()`. -/
structure ReadOutcome where
  ok : Bool
  call : ReaderCall
  position : ℕ

/-- One call of a reader. -/
def CdrReader.perform (r : CdrReader) : ReaderCall → Option (CdrReader × ReadOutcome)
  | .begin => r.beginChecked.map fun d => (d.2, ⟨d.1, .begin, d.2.offset⟩)
  | .read call => (r.read call).map fun d => (d.2, ⟨d.1.1, .read d.1.2, d.2.offset⟩)

end OpenRtdds
