import OpenRtdds.Lib.Bytes
import OpenRtdds.Spec.Types

/-!
# CDR primitives

`CdrWriter` and `CdrReader` of `serialization/cdr.hpp` and `cdr.cpp`: XCDR1 PLAIN_CDR with a
four-byte encapsulation header, alignment counted from the byte after it, and sticky errors.

A writer is modelled by the bytes it has written, `buffer_[0, offset_)`; what the caller's
buffer holds behind them is never read.
-/

namespace OpenRtdds

open Lib

/-- `serialization::CdrError` without `none`. -/
inductive CdrError where
  | invalidArgument
  | notInitialized
  | overflow
  | underflow
  | unsupportedEncoding
  | invalidData
  | boundExceeded
  deriving DecidableEq

/-- `encapsulation_size`. -/
def encapsulationSize : ℕ := 4

/-- `is_power_of_two`. -/
def isPowerOfTwo (value : ℕ) : Bool := value != 0 && value &&& (value - 1) == 0

/-- `aligned_position`. -/
def alignedPosition (offset origin alignment : ℕ) : Option ℕ :=
  if offset < origin || !isPowerOfTwo alignment then none
  else
    let remainder := (offset - origin) &&& (alignment - 1)
    let padding := if remainder = 0 then 0 else alignment - remainder
    if offset > uint64Max - padding then none else some (offset + padding)

/-- `serialization::CdrWriter`. -/
structure CdrWriter where
  capacity : ℕ
  bufferIsNull : Bool := false
  written : List UInt8 := []
  origin : ℕ := 0
  byteOrder : ByteOrder := .littleEndian
  error : Option CdrError := none
  initialized : Bool := false
  deriving DecidableEq

namespace CdrWriter

/-- `size()`, which is `offset_`. -/
def size (w : CdrWriter) : ℕ := w.written.length

/-- `fail`: records the first error. -/
def fail (w : CdrWriter) (error : CdrError) : CdrWriter :=
  if w.error.isNone then { w with error := some error } else w

/-- `begin`. -/
def begin (w : CdrWriter) (byteOrder : ByteOrder) : Bool × CdrWriter :=
  let w := { w with written := [], origin := 0, byteOrder, initialized := false, error := none }
  if w.bufferIsNull && w.capacity != 0 then (false, w.fail .invalidArgument)
  else if byteOrder ≠ .bigEndian ∧ byteOrder ≠ .littleEndian then (false, w.fail .invalidArgument)
  else if w.capacity < encapsulationSize then (false, w.fail .overflow)
  else (true, { w with
    written := [0, if byteOrder = .littleEndian then 1 else 0, 0, 0]
    origin := encapsulationSize
    initialized := true })

/-- `reserve`: the aligned start of the next `width` bytes. -/
def reserve (w : CdrWriter) (alignment width : ℕ) : Option ℕ × CdrWriter :=
  if w.error.isSome then (none, w)
  else if !w.initialized then (none, w.fail .notInitialized)
  else match alignedPosition w.size w.origin alignment with
    | none => (none, w.fail .overflow)
    | some start =>
      if start > w.capacity ∨ width > w.capacity - start then (none, w.fail .overflow)
      else (some start, w)

/-- The zeros `reserve` wrote before `start` and the bytes the caller wrote there. -/
def store (w : CdrWriter) (start : ℕ) (bytes : List UInt8) : CdrWriter :=
  { w with written := w.written ++ (List.replicate (start - w.size) 0 ++ bytes) }

/-- The bytes `store_integral` writes. -/
def integral (w : CdrWriter) (value width : ℕ) : List UInt8 :=
  storeInt (w.byteOrder == .littleEndian) width value

/-- `write_integral`. -/
def writeIntegral (w : CdrWriter) (value width alignment : ℕ) : Bool × CdrWriter :=
  match w.reserve alignment width with
  | (none, w) => (false, w)
  | (some start, w) => (true, w.store start (w.integral value width))

def writeUint8 (w : CdrWriter) (value : ℕ) : Bool × CdrWriter := w.writeIntegral value 1 1

def writeBool (w : CdrWriter) (value : Bool) : Bool × CdrWriter := w.writeUint8 (if value then 1 else 0)

def writeUint16 (w : CdrWriter) (value : ℕ) : Bool × CdrWriter := w.writeIntegral value 2 2

def writeUint32 (w : CdrWriter) (value : ℕ) : Bool × CdrWriter := w.writeIntegral value 4 4

def writeUint64 (w : CdrWriter) (value : ℕ) : Bool × CdrWriter := w.writeIntegral value 8 8

/-- `write_string`: the length with the terminator, the characters, a NUL. -/
def writeString (w : CdrWriter) (value : Span) (maxCharacters : ℕ) : Bool × CdrWriter :=
  if value.isNull && value.size != 0 then (false, w.fail .invalidArgument)
  else if value.size > maxCharacters then (false, w.fail .boundExceeded)
  else if value.size ≥ uint32Max then (false, w.fail .boundExceeded)
  else
    let serializedLength := value.size + 1
    if serializedLength > uint64Max - 4 then (false, w.fail .boundExceeded)
    else match w.reserve 4 (4 + serializedLength) with
      | (none, w) => (false, w)
      | (some start, w) => (true, w.store start (w.integral serializedLength 4 ++ value.data ++ [0]))

end CdrWriter

/-- `serialization::CdrReader`. -/
structure CdrReader where
  buffer : Span
  offset : ℕ := 0
  origin : ℕ := 0
  byteOrder : ByteOrder := .littleEndian
  error : Option CdrError := none
  initialized : Bool := false
  deriving DecidableEq

namespace CdrReader

/-- `fail`: records the first error. -/
def fail (r : CdrReader) (error : CdrError) : CdrReader :=
  if r.error.isNone then { r with error := some error } else r

/-- `remaining`. -/
def remaining (r : CdrReader) : ℕ := r.buffer.size - r.offset

/-- `begin`. -/
def begin (r : CdrReader) : Bool × CdrReader :=
  let r := { r with offset := 0, origin := 0, initialized := false, error := none }
  if r.buffer.isNull && r.buffer.size != 0 then (false, r.fail .invalidArgument)
  else if r.buffer.size < encapsulationSize then (false, r.fail .underflow)
  else if byteAt r.buffer.data 0 ≠ 0 ∨ byteAt r.buffer.data 1 ≠ 0 ∧ byteAt r.buffer.data 1 ≠ 1 then
    (false, r.fail .unsupportedEncoding)
  else (true, { r with
    byteOrder := if byteAt r.buffer.data 1 = 1 then .littleEndian else .bigEndian
    offset := encapsulationSize
    origin := encapsulationSize
    initialized := true })

/-- `locate`: start and end of the next aligned `width` bytes. -/
def locate (r : CdrReader) (alignment width : ℕ) : Option (ℕ × ℕ) × CdrReader :=
  if r.error.isSome then (none, r)
  else if !r.initialized then (none, r.fail .notInitialized)
  else match alignedPosition r.offset r.origin alignment with
    | none => (none, r.fail .underflow)
    | some start =>
      if start > r.buffer.size ∨ width > r.buffer.size - start then (none, r.fail .underflow)
      else (some (start, start + width), r)

/-- `load_integral`. -/
def loadIntegral (r : CdrReader) (start width : ℕ) : ℕ :=
  loadInt (r.byteOrder == .littleEndian) width fun k => byteAt r.buffer.data (start + k)

/-- `read_integral`. -/
def readIntegral (r : CdrReader) (width alignment : ℕ) : Option ℕ × CdrReader :=
  match r.locate alignment width with
  | (none, r) => (none, r)
  | (some (start, stop), r) => (some (r.loadIntegral start width), { r with offset := stop })

def readUint8 (r : CdrReader) : Option ℕ × CdrReader := r.readIntegral 1 1

/-- `read_bool`: a byte above 1 is not consumed. -/
def readBool (r : CdrReader) : Option Bool × CdrReader :=
  match r.readUint8 with
  | (none, r) => (none, r)
  | (some encoded, r') =>
    if encoded > 1 then (none, { r' with offset := r.offset }.fail .invalidData)
    else (some (encoded == 1), r')

def readUint16 (r : CdrReader) : Option ℕ × CdrReader := r.readIntegral 2 2

def readUint32 (r : CdrReader) : Option ℕ × CdrReader := r.readIntegral 4 4

def readUint64 (r : CdrReader) : Option ℕ × CdrReader := r.readIntegral 8 8

/-- `read_string_view`: the characters without the terminator. -/
def readStringView (r : CdrReader) (maxCharacters : ℕ) : Option (List UInt8) × CdrReader :=
  match r.locate 4 4 with
  | (none, r) => (none, r)
  | (some (lengthStart, dataStart), r) =>
    let serializedLength := r.loadIntegral lengthStart 4
    if serializedLength = 0 then (none, r.fail .invalidData)
    else
      let characterCount := serializedLength - 1
      if characterCount > maxCharacters then (none, r.fail .boundExceeded)
      else if dataStart > r.buffer.size ∨ serializedLength > r.buffer.size - dataStart then
        (none, r.fail .underflow)
      else if byteAt r.buffer.data (dataStart + characterCount) ≠ 0 then (none, r.fail .invalidData)
      else (some ((r.buffer.data.drop dataStart).take characterCount),
        { r with offset := dataStart + serializedLength })

end CdrReader

end OpenRtdds
