import OpenRtdds.Proof.Cdr
import OpenRtdds.Proof.Layout
import OpenRtdds.Spec.CdrBuffer

/-!
# Failures of the CDR primitives

A call of the writer or of the reader either fails, and then only records the first error, or it moves the
cursor forward inside of the buffer. No call leaves the memory.

* `BufferWriter.Valid`, `CdrReader.Valid`: what holds after every run of calls.
* `append_eq`: the place that a write needs, and what it leaves there. `writeValue_eq`: every write is an
  `append` of the bytes of its value, or its argument is refused.
* `append_contents`, `writeIntegral_contents`, `writeString_contents`, `readIntegralChecked_eq`: with the
  memory the operations are those of `Spec/Cdr`.
* `WriteEffect`, `ReadEffect`: what a write and a read leave behind. `write_effect`, `read_effect`.
* `cdr_failures_atomic_sticky`.
-/

namespace OpenRtdds

open Lib

theorem Span.size_of_real {s : Span} (h : s.isNull = false) : s.size = s.data.length := by
  cases s with
  | null n => cases h
  | bytes d => rfl

/-- A span with room that passes the null check is no null pointer. -/
theorem Span.real_of_room {s : Span} (hnull : ¬ (s.isNull && s.size != 0) = true) (hroom : 4 ≤ s.size) :
    s.isNull = false := by
  have hne : (s.size != 0) = true := bne_iff_ne.2 (by omega)
  rwa [hne, Bool.and_true, Bool.not_eq_true] at hnull

theorem Span.store_eq {s : Span} {start : ℕ} {bytes : List UInt8} (hreal : s.isNull = false)
    (hfits : start + bytes.length ≤ s.size) : s.store start bytes = some (.bytes (splice s.data start bytes)) := by
  unfold Span.store
  rw [hreal, if_neg Bool.false_ne_true, stores_eq (by rw [← s.size_of_real hreal]; exact hfits), Option.map_some]

namespace CdrValue

/-- The place of a value: its alignment and its encoded size. -/
def slot : CdrValue → Slot
  | .bool _ => ⟨1, 1⟩
  | .uint8 _ => ⟨1, 1⟩
  | .int16 _ => ⟨2, 2⟩
  | .uint16 _ => ⟨2, 2⟩
  | .int32 _ => ⟨4, 4⟩
  | .uint32 _ => ⟨4, 4⟩
  | .int64 _ => ⟨8, 8⟩
  | .uint64 _ => ⟨8, 8⟩
  | .float32 _ => ⟨4, 4⟩
  | .float64 _ => ⟨8, 8⟩
  | .bytes data => ⟨1, data.size⟩
  | .string value _ => ⟨4, 4 + (value.size + 1)⟩

/-- The arguments respect the bound of the operation: there are characters or bytes behind the pointer, and
a string is within its bound and that of its length field. -/
def Respects : CdrValue → Prop
  | .bytes data => data.isNull = true → data.size = 0
  | .string value bound =>
    (value.isNull = true → value.size = 0) ∧ value.size ≤ bound ∧ value.size < uint32Max
  | _ => True

/-- The bytes of a value. -/
def chunk (little : Bool) : CdrValue → Chunk
  | .bool value => intChunk little 1 (if value then 1 else 0)
  | .uint8 value => intChunk little 1 value.toNat
  | .int16 value => intChunk little 2 value.toUInt16.toNat
  | .uint16 value => intChunk little 2 value.toNat
  | .int32 value => intChunk little 4 value.toUInt32.toNat
  | .uint32 value => intChunk little 4 value.toNat
  | .int64 value => intChunk little 8 value.toUInt64.toNat
  | .uint64 value => intChunk little 8 value.toNat
  | .float32 bits => intChunk little 4 bits.toNat
  | .float64 bits => intChunk little 8 bits.toNat
  | .bytes data => ⟨1, data.data⟩
  | .string value _ => stringChunk little value.data

theorem size_of_usable {s : Span} (h : s.isNull = true → s.size = 0) : s.size = s.data.length := by
  cases s with
  | null n => exact h rfl
  | bytes d => rfl

theorem chunk_slot (little : Bool) {v : CdrValue} (h : v.Respects) : (v.chunk little).slot = v.slot := by
  cases v with
  | bytes data =>
    have hsize : data.size = data.data.length := size_of_usable h
    simp only [chunk, Chunk.slot, slot, hsize]
  | string value bound =>
    have hsize : value.size = value.data.length := size_of_usable h.1
    simp only [chunk, slot, stringChunk_slot, hsize]
  | _ => exact intChunk_slot _ _ _

theorem chunk_align (little : Bool) (v : CdrValue) : IntWidth (v.chunk little).align := by
  unfold IntWidth
  cases v with
  | bytes data => exact .inl rfl
  | string value bound => exact .inr (.inr (.inl rfl))
  | bool value => exact .inl rfl
  | uint8 value => exact .inl rfl
  | int16 value => exact .inr (.inl rfl)
  | uint16 value => exact .inr (.inl rfl)
  | int32 value => exact .inr (.inr (.inl rfl))
  | uint32 value => exact .inr (.inr (.inl rfl))
  | float32 bits => exact .inr (.inr (.inl rfl))
  | _ => exact .inr (.inr (.inr rfl))

end CdrValue

namespace BufferWriter

/-- What holds of a writer after every run of calls. -/
structure Valid (w : BufferWriter) : Prop where
  fits : w.offset ≤ w.buffer.size
  machine : w.buffer.size ≤ uint64Max
  begun : w.initialized = true → w.buffer.isNull = false ∧ w.origin = 4 ∧ 4 ≤ w.offset

/-- **What a write leaves behind.** It fails and records the first error, or it stores a chunk at the cursor
and moves behind it. -/
inductive WriteEffect (w : BufferWriter) : Bool × BufferWriter → Prop
  | failed (error : CdrError) (hfirst : ∀ first, w.error = some first → error = first) :
    WriteEffect w (false, { w with error := some error })
  | stored (stop : ℕ) (bytes : List UInt8) (hgood : w.error = none) (hbegun : w.initialized = true)
      (hstop : stop = w.offset + bytes.length) (hfits : stop ≤ w.buffer.size) :
    WriteEffect w (true, { w with buffer := .bytes (splice w.buffer.data w.offset bytes), offset := stop })

/-- The writer behind a chunk. -/
def appended (w : BufferWriter) (c : Chunk) : BufferWriter :=
  { w with
    buffer := .bytes (splice w.buffer.data w.offset (c.placed (w.offset - 4)))
    offset := 4 + c.slot.after (w.offset - 4) }

variable {w : BufferWriter}

theorem fail_eq (w : BufferWriter) (error : CdrError) :
    w.fail error = { w with error := some (w.error.getD error) } := by
  obtain ⟨_, _, _, _, _ | first, _⟩ := w <;> rfl

theorem fail_of_error (h : w.error.isSome = true) (error : CdrError) : w.fail error = w :=
  if_neg (by rw [Option.isNone_eq_false_iff.2 h]; exact Bool.false_ne_true)

theorem fail_effect (w : BufferWriter) (error : CdrError) : WriteEffect w (false, w.fail error) := by
  rw [fail_eq]
  exact .failed _ fun first hfirst => by rw [hfirst, Option.getD_some]

theorem reserve_eq (h : w.Valid) (hgood : w.error = none) (hbegun : w.initialized = true) {a : ℕ}
    (ha : IntWidth a) (width : ℕ) :
    w.reserve a width =
      if 4 + (Slot.mk a width).after (w.offset - 4) ≤ w.buffer.size then
        some (some (4 + alignUp a (w.offset - 4)), { w with
          buffer := .bytes (splice w.buffer.data w.offset
            (.replicate (alignUp a (w.offset - 4) - (w.offset - 4)) 0)) })
      else some (none, w.fail .overflow) := by
  obtain ⟨hreal, horigin, hheader⟩ := h.begun hbegun
  have hmachine := h.machine
  have hslot : (Slot.mk a width).after (w.offset - 4) = alignUp a (w.offset - 4) + width := rfl
  have hle := le_alignUp a (w.offset - 4)
  have hposition : alignedPosition w.offset 4 a = if 4 + alignUp a (w.offset - 4) > uint64Max then none
      else some (4 + alignUp a (w.offset - 4)) := alignedPosition_eq ha hheader
  unfold reserve
  rw [if_neg (by simp [hgood]), if_neg (by simp [hbegun]), horigin, hposition]
  by_cases hfits : 4 + (Slot.mk a width).after (w.offset - 4) ≤ w.buffer.size
  · have hpadding : 4 + alignUp a (w.offset - 4) - w.offset = alignUp a (w.offset - 4) - (w.offset - 4) := by
      omega
    rw [if_neg (by omega), Option.elim_some, if_neg (by omega), if_pos hfits, hpadding,
      Span.store_eq hreal (by rw [List.length_replicate]; omega), Option.map_some]
  · rw [if_neg hfits]
    by_cases hover : 4 + alignUp a (w.offset - 4) > uint64Max
    · rw [if_pos hover, Option.elim_none]
    · rw [if_neg hover, Option.elim_some, if_pos (by omega)]

/-- **A write stores its chunk if it fits.** -/
theorem append_eq (h : w.Valid) (hgood : w.error = none) (hbegun : w.initialized = true) (c : Chunk)
    (ha : IntWidth c.align) :
    w.append c.align c.bytes =
      if 4 + c.slot.after (w.offset - 4) ≤ w.buffer.size then some (true, w.appended c)
      else some (false, w.fail .overflow) := by
  obtain ⟨hreal, -, hheader⟩ := h.begun hbegun
  have hsize := w.buffer.size_of_real hreal
  have hslot : c.slot.after (w.offset - 4) = alignUp c.align (w.offset - 4) + c.bytes.length := rfl
  have hle := le_alignUp c.align (w.offset - 4)
  unfold append
  rw [reserve_eq h hgood hbegun ha]
  by_cases hfits : 4 + c.slot.after (w.offset - 4) ≤ w.buffer.size
  · set padding : List UInt8 := .replicate (alignUp c.align (w.offset - 4) - (w.offset - 4)) 0 with hpadding
    have hlength : padding.length = alignUp c.align (w.offset - 4) - (w.offset - 4) := List.length_replicate
    have hstart : w.offset + padding.length = 4 + alignUp c.align (w.offset - 4) := by omega
    have hspliced : (splice w.buffer.data w.offset padding).length = w.buffer.data.length :=
      splice_length (by omega)
    have hstore : (Span.bytes (splice w.buffer.data w.offset padding)).store
        (4 + alignUp c.align (w.offset - 4)) c.bytes =
        some (.bytes (splice w.buffer.data w.offset (padding ++ c.bytes))) := by
      rw [Span.store_eq rfl ?_]
      · rw [← hstart]
        exact congrArg (some ∘ Span.bytes) (splice_splice padding c.bytes (by omega))
      · change _ ≤ (splice w.buffer.data w.offset padding).length
        omega
    rw [if_pos hfits, if_pos (by exact hfits), Option.bind_some]
    dsimp only
    rw [Option.elim_some, hstore, Option.map_some, Nat.add_assoc]
    rfl
  · rw [if_neg hfits, if_neg (by exact hfits), Option.bind_some]
    rfl

theorem append_refused (hbad : w.error.isSome = true ∨ w.initialized = false) (a : ℕ) (bytes : List UInt8) :
    w.append a bytes = some (false, w.fail .notInitialized) := by
  unfold append reserve
  by_cases herror : w.error.isSome = true
  · rw [if_pos herror, fail_of_error herror]
    rfl
  · have hbegun : w.initialized = false := hbad.resolve_left herror
    rw [if_neg herror, hbegun]
    rfl

/-- **Every write is an `append` of its chunk**, or its argument is refused. -/
theorem writeValue_eq (w : BufferWriter) {v : CdrValue} (h : v.Respects) :
    w.write v = w.append (v.chunk (w.byteOrder == .littleEndian)).align
      (v.chunk (w.byteOrder == .littleEndian)).bytes := by
  cases v with
  | bytes data =>
    change w.writeBytes data = _
    unfold writeBytes
    rw [if_neg]
    · rfl
    · simpa [CdrValue.Respects] using h
  | string value bound =>
    obtain ⟨hnull, hbound, hlength⟩ := h
    have hmachine : uint32Max + 5 ≤ uint64Max := by decide
    change w.writeString value bound = _
    unfold writeString
    rw [if_neg (by simpa using hnull), if_neg (by omega), if_neg (by omega)]
    dsimp only
    rw [if_neg (by omega), CdrValue.size_of_usable hnull]
    rfl
  | bool value => cases value <;> rfl
  | _ => rfl

theorem writeValue_refused (w : BufferWriter) {v : CdrValue} (h : ¬ v.Respects) :
    ∃ error, w.write v = some (false, w.fail error) := by
  cases v with
  | bytes data =>
    refine ⟨.invalidArgument, ?_⟩
    change w.writeBytes data = _
    unfold writeBytes
    rw [if_pos]
    simpa [CdrValue.Respects] using h
  | string value bound =>
    change ∃ error, w.writeString value bound = _
    unfold writeString
    by_cases hnull : (value.isNull && value.size != 0) = true
    · rw [if_pos hnull]
      exact ⟨_, rfl⟩
    · rw [if_neg hnull]
      by_cases hbound : value.size > bound
      · rw [if_pos hbound]
        exact ⟨_, rfl⟩
      · rw [if_neg hbound]
        refine ⟨_, if_pos ?_⟩
        by_contra hlength
        refine h ⟨by simpa using hnull, by omega, by omega⟩
  | _ => exact absurd trivial h

/-- **The writes**: every one has a result, and that effect. -/
theorem write_effect (h : w.Valid) (v : CdrValue) : ∃ r, w.write v = some r ∧ WriteEffect w r := by
  by_cases hv : v.Respects
  swap
  · obtain ⟨error, hwrite⟩ := w.writeValue_refused hv
    exact ⟨_, hwrite, w.fail_effect error⟩
  set c := v.chunk (w.byteOrder == .littleEndian) with hc
  have hwrite : w.write v = w.append c.align c.bytes := w.writeValue_eq hv
  have halign : IntWidth c.align := v.chunk_align _
  rw [hwrite]
  by_cases hbad : w.error.isSome = true ∨ w.initialized = false
  · exact ⟨_, append_refused hbad _ _, w.fail_effect _⟩
  obtain ⟨hgood, hbegun⟩ := not_or.1 hbad
  rw [Option.not_isSome_iff_eq_none] at hgood
  rw [Bool.not_eq_false] at hbegun
  rw [append_eq h hgood hbegun c halign]
  by_cases hfits : 4 + c.slot.after (w.offset - 4) ≤ w.buffer.size
  · rw [if_pos hfits]
    have hheader := (h.begun hbegun).2.2
    have hle := c.slot.le_after (w.offset - 4)
    have hlength := c.placed_length (w.offset - 4)
    exact ⟨_, rfl, .stored _ _ hgood hbegun (by omega) hfits⟩
  · rw [if_neg hfits]
    exact ⟨_, rfl, w.fail_effect _⟩

section Effect

variable {r : Bool × BufferWriter}

theorem WriteEffect.size (h : WriteEffect w r) (hv : w.Valid) : r.2.buffer.size = w.buffer.size := by
  cases h with
  | failed error hfirst => rfl
  | stored stop bytes hgood hbegun hstop hfits =>
    have hsize := w.buffer.size_of_real (hv.begun hbegun).1
    exact (splice_length (by omega)).trans hsize.symm

theorem WriteEffect.valid (h : WriteEffect w r) (hv : w.Valid) : r.2.Valid := by
  have hsize := h.size hv
  cases h with
  | failed error hfirst => exact ⟨hv.fits, hv.machine, hv.begun⟩
  | stored stop bytes hgood hbegun hstop hfits =>
    refine ⟨hsize.symm ▸ hfits, hsize.symm ▸ hv.machine, fun _ => ⟨rfl, (hv.begun hbegun).2.1, ?_⟩⟩
    have hheader := (hv.begun hbegun).2.2
    change 4 ≤ stop
    omega

theorem WriteEffect.le (h : WriteEffect w r) : w.offset ≤ r.2.offset := by
  cases h with
  | failed error hfirst => exact le_rfl
  | stored stop bytes hgood hbegun hstop hfits => exact hstop.symm ▸ Nat.le_add_right _ _

theorem WriteEffect.written (h : WriteEffect w r) (hv : w.Valid) :
    r.2.buffer.data.take w.offset = w.buffer.data.take w.offset := by
  cases h with
  | failed error hfirst => rfl
  | stored stop bytes hgood hbegun hstop hfits =>
    have hsize := w.buffer.size_of_real (hv.begun hbegun).1
    exact splice_take (hsize ▸ hv.fits)

/-- A write that fails only records the first error. -/
theorem WriteEffect.atomic (h : WriteEffect w r) (hfail : r.1 = false) :
    ∃ error, r.2 = { w with error := some error } ∧ ∀ first, w.error = some first → error = first := by
  cases h with
  | failed error hfirst => exact ⟨error, rfl, hfirst⟩
  | stored stop bytes hgood hbegun hstop hfits => cases hfail

/-- After an error nothing changes. -/
theorem WriteEffect.sticky (h : WriteEffect w r) {error : CdrError} (herror : w.error = some error) :
    r = (false, w) := by
  cases h with
  | failed error' hfirst =>
    rw [hfirst error herror, ← herror]
  | stored stop bytes hgood hbegun hstop hfits =>
    rw [herror] at hgood
    cases hgood

end Effect

theorem begin_valid (h : w.Valid) (order : ByteOrder) : ∃ r, w.begin order = some r ∧ r.2.Valid ∧
    r.2.buffer.size = w.buffer.size := by
  have hfailed : ∀ error, ({ w with
      offset := 0, origin := 0, byteOrder := order, initialized := false, error := none }.fail error).Valid :=
    fun error => ⟨Nat.zero_le _, h.machine, fun hbegun => Bool.noConfusion hbegun⟩
  unfold begin
  dsimp only
  split
  · exact ⟨_, rfl, hfailed _, rfl⟩
  next hnull =>
  split
  · exact ⟨_, rfl, hfailed _, rfl⟩
  split
  · exact ⟨_, rfl, hfailed _, rfl⟩
  next hsmall =>
  have hroom : 4 ≤ w.buffer.size := Nat.le_of_not_lt hsmall
  have hreal := Span.real_of_room hnull hroom
  have hsize := w.buffer.size_of_real hreal
  have hlength : ∀ header : List UInt8, header.length = 4 →
      (Span.bytes (splice w.buffer.data 0 header)).size = w.buffer.size := fun header hheader =>
    (splice_length (by omega)).trans hsize.symm
  rw [Span.store_eq hreal (by simpa using hroom), Option.map_some]
  refine ⟨_, rfl, ⟨?_, ?_, fun _ => ⟨rfl, rfl, le_rfl⟩⟩, hlength _ rfl⟩
  · rw [hlength _ rfl]
    exact hroom
  · rw [hlength _ rfl]
    exact h.machine

theorem perform_valid (h : w.Valid) (call : WriterCall) :
    ∃ r, w.perform call = some r ∧ r.1.Valid ∧ r.1.buffer.size = w.buffer.size := by
  cases call with
  | begin order =>
    obtain ⟨r, hbegin, hvalid, hsize⟩ := begin_valid h order
    exact ⟨(r.2, r.1, r.2.offset), congrArg (Option.map _) hbegin, hvalid, hsize⟩
  | write value =>
    obtain ⟨r, hwrite, heffect⟩ := write_effect h value
    exact ⟨(r.2, r.1, r.2.offset), congrArg (Option.map _) hwrite, heffect.valid h, heffect.size h⟩

theorem construct_valid {buffer : Span} (hmachine : buffer.size ≤ uint64Max) : (construct buffer).Valid :=
  ⟨Nat.zero_le _, hmachine, fun hbegun => Bool.noConfusion hbegun⟩

/-- **Every run of calls has a result.** -/
theorem run_valid {buffer : Span} (hmachine : buffer.size ≤ uint64Max) (calls : List WriterCall) :
    ∃ r, attempt perform (construct buffer) calls = some r ∧ r.1.Valid ∧ r.1.buffer.size = buffer.size :=
  attempt_inv (P := fun w : BufferWriter => w.Valid ∧ w.buffer.size = buffer.size)
    (fun w call hw => by
      obtain ⟨r, hr, hvalid, hsize⟩ := perform_valid hw.1 call
      exact ⟨r, hr, hvalid, hsize.trans hw.2⟩)
    ⟨construct_valid hmachine, rfl⟩ calls

section Contents

/-- The writer without the memory behind its cursor, as `Spec/Cdr` has it. -/
def contents (w : BufferWriter) : CdrWriter where
  capacity := w.buffer.size
  bufferIsNull := w.buffer.isNull
  written := w.buffer.data.take w.offset
  origin := w.origin
  byteOrder := w.byteOrder
  error := w.error
  initialized := w.initialized

theorem fail_contents (w : BufferWriter) (error : CdrError) :
    (w.fail error).contents = w.contents.fail error := by
  unfold fail CdrWriter.fail
  split
  next hnone => exact (if_pos hnone).symm
  next hsome => exact (if_neg hsome).symm

/-- **An `append` refines the writer without the memory**: it reserves and stores the same. -/
theorem append_contents (h : w.Valid) (c : Chunk) (ha : IntWidth c.align) {width : ℕ}
    (hwidth : c.bytes.length = width) : ∃ r, w.append c.align c.bytes = some r ∧
    (w.contents.reserve c.align width = (none, r.2.contents) ∧ r.1 = false ∨
      ∃ start, w.contents.reserve c.align width = (some start, w.contents) ∧
        w.contents.store start c.bytes = r.2.contents ∧ r.1 = true) := by
  subst hwidth
  by_cases hbad : w.error.isSome = true ∨ w.initialized = false
  · refine ⟨_, append_refused hbad _ _, .inl ⟨?_, rfl⟩⟩
    unfold CdrWriter.reserve
    rw [fail_contents]
    by_cases herror : w.contents.error.isSome = true
    · rw [if_pos herror, ← fail_contents, fail_of_error herror]
    · have hnotBegun : w.contents.initialized = false := hbad.resolve_left herror
      rw [if_neg herror, hnotBegun]
      rfl
  obtain ⟨hgood, hbegun⟩ := not_or.1 hbad
  rw [Option.not_isSome_iff_eq_none] at hgood
  rw [Bool.not_eq_false] at hbegun
  obtain ⟨hreal, horigin, hheader⟩ := h.begun hbegun
  have hoffset : w.offset ≤ w.buffer.data.length := w.buffer.size_of_real hreal ▸ h.fits
  have hsize : w.contents.size = w.offset := List.length_take_of_le hoffset
  have hposition : w.contents.position = w.offset - 4 := congrArg (· - 4) hsize
  have hcontents : w.contents.Good := ⟨hgood, hbegun, horigin, hheader.trans hsize.ge, h.machine⟩
  rw [append_eq h hgood hbegun c ha, CdrWriter.reserve_eq hcontents ha, hposition]
  by_cases hfits : 4 + c.slot.after (w.offset - 4) ≤ w.buffer.size
  · refine ⟨_, if_pos hfits, .inr ⟨_, if_pos hfits, ?_, rfl⟩⟩
    have hlength := c.placed_length (w.offset - 4)
    have hle := c.slot.le_after (w.offset - 4)
    have hstop : w.offset + (c.placed (w.offset - 4)).length = 4 + c.slot.after (w.offset - 4) := by omega
    have htake : (w.appended c).buffer.data.take (w.appended c).offset =
        w.buffer.data.take w.offset ++ c.placed (w.offset - 4) := by
      change (splice _ _ _).take (4 + c.slot.after (w.offset - 4)) = _
      rw [← hstop]
      exact splice_take_end hoffset
    have hcapacity : (w.appended c).buffer.size = w.buffer.size :=
      (WriteEffect.stored _ _ hgood hbegun hstop.symm hfits : WriteEffect w (true, w.appended c)).size h
    rw [← hposition, CdrWriter.store_eq hcontents c.align c.bytes]
    unfold CdrWriter.put contents
    rw [hcapacity, hreal, htake, encode, encode, List.append_nil, ← hposition]
    rfl
  · exact ⟨_, if_neg hfits, .inl ⟨(if_neg hfits).trans (by rw [fail_contents]), rfl⟩⟩

/-- `write_integral` on memory refines the one without. -/
theorem writeIntegral_contents (h : w.Valid) {width : ℕ} (hw : IntWidth width) (value : ℕ) :
    ∃ r, w.writeIntegral value width width = some r ∧
      w.contents.writeIntegral value width width = (r.1, r.2.contents) := by
  obtain ⟨⟨done, w'⟩, happend, hresult⟩ := append_contents h ⟨width, w.integral value width⟩ hw
    (storeInt_length _ _ _)
  refine ⟨_, happend, ?_⟩
  unfold CdrWriter.writeIntegral
  obtain ⟨hreserve, rfl⟩ | ⟨start, hreserve, hstore, rfl⟩ := hresult
  · rw [hreserve]
  · rw [hreserve, ← hstore]
    rfl

/-- `write_string` on memory refines the one without. -/
theorem writeString_contents (h : w.Valid) (value : Span) (bound : ℕ) :
    ∃ r, w.writeString value bound = some r ∧
      w.contents.writeString value bound = (r.1, r.2.contents) := by
  unfold writeString CdrWriter.writeString
  by_cases hnull : (value.isNull && value.size != 0) = true
  · rw [if_pos hnull, if_pos hnull]
    exact ⟨_, rfl, by rw [fail_contents]⟩
  rw [if_neg hnull, if_neg hnull]
  by_cases hbound : value.size > bound
  · rw [if_pos hbound, if_pos hbound]
    exact ⟨_, rfl, by rw [fail_contents]⟩
  rw [if_neg hbound, if_neg hbound]
  by_cases hfield : value.size ≥ uint32Max
  · rw [if_pos hfield, if_pos hfield]
    exact ⟨_, rfl, by rw [fail_contents]⟩
  have hmachine : uint32Max + 5 ≤ uint64Max := by decide
  have hroom : ¬ value.size + 1 > uint64Max - 4 := by omega
  rw [if_neg hfield, if_neg hfield]
  dsimp only
  rw [if_neg hroom, if_neg hroom]
  have hsize : value.size = value.data.length := CdrValue.size_of_usable (by simpa using hnull)
  have hlength : (w.integral (value.size + 1) 4 ++ value.data ++ [0]).length = 4 + (value.size + 1) := by
    simp only [integral, List.length_append, storeInt_length, List.length_singleton]
    omega
  obtain ⟨⟨done, w'⟩, happend, hresult⟩ := append_contents h
    ⟨4, w.integral (value.size + 1) 4 ++ value.data ++ [0]⟩ (.inr (.inr (.inl rfl))) hlength
  refine ⟨_, happend, ?_⟩
  obtain ⟨hreserve, rfl⟩ | ⟨start, hreserve, hstore, rfl⟩ := hresult
  · rw [hreserve]
  · rw [hreserve, ← hstore]
    rfl

/-- **The writer on memory refines the one without**: from every state that calls lead to, a write of an
integer or a string has the result of the other and leaves its contents. -/
theorem buffer_writes_refine {buffer : Span} (hmachine : buffer.size ≤ uint64Max) (calls : List WriterCall) :
    ∃ w out, attempt perform (construct buffer) calls = some (w, out) ∧
      (∀ width value, IntWidth width → ∃ r, w.writeIntegral value width width = some r ∧
        w.contents.writeIntegral value width width = (r.1, r.2.contents)) ∧
      ∀ value bound, ∃ r, w.writeString value bound = some r ∧
        w.contents.writeString value bound = (r.1, r.2.contents) := by
  obtain ⟨r, hrun, hvalid, -⟩ := run_valid hmachine calls
  exact ⟨r.1, r.2, hrun, fun width value hw => writeIntegral_contents hvalid hw value,
    writeString_contents hvalid⟩

/-- After `begin` and an octet in a buffer of sixteen bytes, a string is written behind the padding. -/
theorem text_after_octet_refines :
    ∃ w, attempt perform (construct (.bytes (.replicate 16 255)))
        [.begin .littleEndian, .write (.uint8 7)] = some (w, [(true, 4), (true, 5)]) ∧
      ∃ w', w.writeString (.bytes [104, 105]) 5 = some (true, w') ∧
        w'.contents.written = [0, 1, 0, 0, 7, 0, 0, 0, 3, 0, 0, 0, 104, 105, 0] ∧
        w.contents.writeString (.bytes [104, 105]) 5 = (true, w'.contents) := by
  have hstate : attempt perform (construct (.bytes (.replicate 16 255)))
      [.begin .littleEndian, .write (.uint8 7)] = some
        ({ buffer := .bytes ([0, 1, 0, 0, 7] ++ .replicate 11 255), offset := 5, origin := 4,
           initialized := true }, [(true, 4), (true, 5)]) := by decide
  obtain ⟨w, out, hrun, -, hstring⟩ := @buffer_writes_refine (.bytes (.replicate 16 255)) (by decide)
    [.begin .littleEndian, .write (.uint8 7)]
  obtain ⟨rfl, rfl⟩ := Prod.mk.inj (Option.some.inj (hrun.symm.trans hstate))
  obtain ⟨r, hwrite, hcontents⟩ := hstring (.bytes [104, 105]) 5
  cases hwrite
  exact ⟨_, hstate, _, rfl, rfl, hcontents⟩

end Contents

end BufferWriter

namespace CdrReader

/-- What holds of a reader after every run of calls. -/
structure Valid (r : CdrReader) : Prop where
  fits : r.offset ≤ r.buffer.size
  machine : r.buffer.size ≤ uint64Max
  begun : r.initialized = true → r.buffer.isNull = false ∧ r.origin = 4 ∧ 4 ≤ r.offset

/-- **What a read leaves behind.** It fails, assigns nothing and records the first error, or it moves the
cursor forward. -/
inductive ReadEffect {α : Type} (r : CdrReader) (value : α) : (Bool × α) × CdrReader → Prop
  | failed (error : CdrError) (hfirst : ∀ first, r.error = some first → error = first) :
    ReadEffect r value ((false, value), { r with error := some error })
  | assigned (value' : α) (stop : ℕ) (hgood : r.error = none) (hle : r.offset ≤ stop)
      (hfits : stop ≤ r.buffer.size) : ReadEffect r value ((true, value'), { r with offset := stop })

variable {α : Type} {r : CdrReader}

theorem fail_eq (r : CdrReader) (error : CdrError) :
    r.fail error = { r with error := some (r.error.getD error) } := by
  obtain ⟨_, _, _, _, _ | first, _⟩ := r <;> rfl

theorem fail_of_error (h : r.error.isSome = true) (error : CdrError) : r.fail error = r :=
  if_neg (by rw [Option.isNone_eq_false_iff.2 h]; exact Bool.false_ne_true)

theorem fail_effect (r : CdrReader) (error : CdrError) (value : α) :
    ReadEffect r value ((false, value), r.fail error) := by
  rw [fail_eq]
  exact .failed _ fun first hfirst => by rw [hfirst, Option.getD_some]

/-- `locate` fails, or finds a place in the buffer at or behind the cursor. -/
theorem locate_cases (h : r.Valid) {a : ℕ} (ha : IntWidth a) (width : ℕ) :
    (∃ error, r.locate a width = (none, r.fail error)) ∨
      ∃ start, r.error = none ∧ r.offset ≤ start ∧ start + width ≤ r.buffer.data.length ∧
        r.buffer.data.length = r.buffer.size ∧ r.locate a width = (some (start, start + width), r) := by
  unfold locate
  by_cases herror : r.error.isSome = true
  · rw [if_pos herror]
    exact .inl ⟨.underflow, by rw [fail_of_error herror]⟩
  rw [if_neg herror]
  cases hbegun : r.initialized with
  | false => exact .inl ⟨.notInitialized, rfl⟩
  | true =>
    obtain ⟨hreal, horigin, hheader⟩ := h.begun hbegun
    have hsize := r.buffer.size_of_real hreal
    have hle := le_alignUp a (r.offset - 4)
    have hposition : alignedPosition r.offset 4 a = if 4 + alignUp a (r.offset - 4) > uint64Max then none
        else some (4 + alignUp a (r.offset - 4)) := alignedPosition_eq ha hheader
    rw [if_neg (by simp), horigin, hposition]
    by_cases hover : 4 + alignUp a (r.offset - 4) > uint64Max
    · rw [if_pos hover]
      exact .inl ⟨.underflow, rfl⟩
    rw [if_neg hover]
    dsimp only
    by_cases hfits : 4 + alignUp a (r.offset - 4) > r.buffer.size ∨
        width > r.buffer.size - (4 + alignUp a (r.offset - 4))
    · rw [if_pos hfits]
      exact .inl ⟨.underflow, rfl⟩
    · rw [if_neg hfits]
      rw [Option.not_isSome_iff_eq_none] at herror
      exact .inr ⟨4 + alignUp a (r.offset - 4), herror, by omega, by omega, hsize.symm, rfl⟩

theorem loadIntegralChecked_eq {start width : ℕ} (h : start + width ≤ r.buffer.data.length) :
    r.loadIntegralChecked start width = some (r.loadIntegral start width) := by
  unfold loadIntegralChecked loadIntegral
  rw [loads_eq h, Option.map_some]
  congr 1
  exact loadInt_congr _ fun k hk => byteAt_part hk

/-- **`read_integral` stays inside of the buffer**: it is the one without the memory. -/
theorem readIntegralChecked_eq (h : r.Valid) {width : ℕ} (hw : IntWidth width) :
    r.readIntegralChecked width width = some (r.readIntegral width width) := by
  unfold readIntegralChecked readIntegral
  rcases locate_cases h hw width with ⟨error, hlocate⟩ | ⟨start, -, -, hfits, -, hlocate⟩
  · rw [hlocate]
    rfl
  · rw [hlocate]
    dsimp only
    rw [Option.elim_some, loadIntegralChecked_eq hfits, Option.map_some]

theorem readInto_effect (h : r.Valid) {width : ℕ} (hw : IntWidth width) (decode : ℕ → α) (value : α) :
    ∃ d, r.readInto width decode value = some d ∧ ReadEffect r value d := by
  unfold readInto
  rw [readIntegralChecked_eq h hw, Option.map_some]
  refine ⟨_, rfl, ?_⟩
  unfold readIntegral
  rcases locate_cases h hw width with ⟨error, hlocate⟩ | ⟨start, hgood, hle, hfits, hsize, hlocate⟩
  · rw [hlocate]
    exact r.fail_effect error value
  · rw [hlocate]
    exact .assigned _ _ hgood (by omega) (by omega)

/-- `read_bool` moves back when it fails. -/
theorem readBoolInto_effect (h : r.Valid) (value : Bool) :
    ∃ d, r.readBoolInto value = some d ∧ ReadEffect r value d := by
  obtain ⟨d, hread, heffect⟩ : ∃ d, r.readUint8Into 0 = some d ∧ ReadEffect r 0 d :=
    readInto_effect h (.inl rfl) UInt8.ofNat 0
  unfold readBoolInto
  rw [hread, Option.map_some]
  refine ⟨_, rfl, ?_⟩
  cases heffect with
  | failed error hfirst => exact .failed error hfirst
  | assigned encoded stop hgood hle hfits =>
    dsimp only
    rw [if_neg (by simp)]
    by_cases hinvalid : encoded > 1
    · rw [if_pos hinvalid]
      exact r.fail_effect .invalidData value
    · rw [if_neg hinvalid]
      exact .assigned _ stop hgood hle hfits

theorem store_usable {destination : Span} {bytes : List UInt8}
    (hnull : ¬ (destination.isNull && destination.size != 0) = true)
    (hlength : bytes.length ≤ destination.size) :
    ∃ stored, destination.store 0 bytes = some stored ∧ stored.data = splice destination.data 0 bytes := by
  cases hreal : destination.isNull with
  | false => exact ⟨_, Span.store_eq hreal (by omega), rfl⟩
  | true =>
    rw [hreal, Bool.true_and, bne_iff_ne, not_not] at hnull
    have hnil : bytes = [] := List.eq_nil_of_length_eq_zero (by omega)
    refine ⟨destination, ?_, by rw [hnil, splice_nil]⟩
    unfold Span.store
    rw [hreal, if_pos rfl, hnil]
    rfl

theorem readBytesInto_effect (h : r.Valid) (destination : Span) :
    ∃ d, r.readBytesInto destination = some d ∧ ReadEffect r destination d := by
  unfold readBytesInto
  by_cases hnull : (destination.isNull && destination.size != 0) = true
  · rw [if_pos hnull]
    exact ⟨_, rfl, r.fail_effect _ _⟩
  rw [if_neg hnull]
  rcases locate_cases h (.inl rfl : IntWidth 1) destination.size with
    ⟨error, hlocate⟩ | ⟨start, hgood, hle, hfits, hsize, hlocate⟩
  · rw [hlocate]
    exact ⟨_, rfl, r.fail_effect error _⟩
  · have hread := List.length_take_le destination.size (r.buffer.data.drop start)
    obtain ⟨stored, hstore, -⟩ := store_usable hnull hread
    rw [hlocate]
    dsimp only
    rw [Option.elim_some, loads_eq hfits, Option.bind_some, hstore, Option.map_some]
    exact ⟨_, rfl, .assigned _ _ hgood (by omega) (by omega)⟩

/-- A string is refused, or its characters and the terminator are in the buffer. This is what `read_string_view`
finds, except that the capacity may be too small for it. -/
theorem locateString_cases (h : r.Valid) (bound : ℕ) (capacity : Option ℕ) :
    (∃ error, r.locateString bound capacity = some (none, r.fail error) ∧
        (r.readStringView bound = (none, r.fail error) ∨ ∃ c, capacity = some c ∧
          ∀ text r', r.readStringView bound = (some text, r') → c < text.length + 1)) ∨
      ∃ start text, r.error = none ∧ r.offset ≤ start ∧
        start + (text.length + 1) ≤ r.buffer.data.length ∧ r.buffer.data.length = r.buffer.size ∧
        (∀ c, capacity = some c → text.length + 1 ≤ c) ∧
        (r.buffer.data.drop start).take (text.length + 1) = text ++ [0] ∧
        r.locateString bound capacity = some (some (start, text.length + 1), r) ∧
        r.readStringView bound = (some text, { r with offset := start + (text.length + 1) }) := by
  unfold locateString readStringView
  rcases locate_cases h (.inr (.inr (.inl rfl)) : IntWidth 4) 4 with
    ⟨error, hlocate⟩ | ⟨start, hgood, hle, hfits, hsize, hlocate⟩
  · rw [hlocate]
    exact .inl ⟨error, rfl, .inl rfl⟩
  rw [hlocate]
  dsimp only
  rw [Option.elim_some, loadIntegralChecked_eq hfits, Option.bind_some]
  set length := r.loadIntegral start 4 with hlength
  by_cases hzero : length = 0
  · rw [if_pos hzero, if_pos hzero]
    exact .inl ⟨_, rfl, .inl rfl⟩
  rw [if_neg hzero, if_neg hzero]
  by_cases hbound : length - 1 > bound
  · rw [if_pos hbound, if_pos hbound]
    exact .inl ⟨_, rfl, .inl rfl⟩
  rw [if_neg hbound, if_neg hbound]
  -- the one check that the view does not make
  by_cases hcapacity : (capacity.any fun c => decide (length > c)) = true
  · rw [if_pos hcapacity]
    obtain ⟨c, hc, hless⟩ := (Option.any_eq_true _ _).1 hcapacity
    refine .inl ⟨_, rfl, .inr ⟨c, hc, fun text r' hview => ?_⟩⟩
    split_ifs at hview with hroom <;> cases hview
    have hshort := of_decide_eq_true hless
    rw [List.length_take, List.length_drop]
    omega
  rw [if_neg hcapacity]
  by_cases hroom : start + 4 > r.buffer.size ∨ length > r.buffer.size - (start + 4)
  · rw [if_pos hroom, if_pos hroom]
    exact .inl ⟨_, rfl, .inl rfl⟩
  have hinside : start + 4 + length - 1 + 1 ≤ r.buffer.data.length := by omega
  have hlast : start + 4 + length - 1 = start + 4 + (length - 1) := by omega
  have hbyte : byteAt ((r.buffer.data.drop (start + 4 + length - 1)).take 1) 0 =
      byteAt r.buffer.data (start + 4 + (length - 1)) := by
    rw [hlast]
    exact byteAt_part Nat.one_pos
  rw [if_neg hroom, if_neg hroom, loads_eq hinside, Option.map_some, hbyte]
  by_cases hterminated : byteAt r.buffer.data (start + 4 + (length - 1)) ≠ 0
  · rw [if_pos hterminated, if_pos hterminated]
    exact .inl ⟨_, rfl, .inl rfl⟩
  rw [if_neg hterminated, if_neg hterminated]
  set text := (r.buffer.data.drop (start + 4)).take (length - 1) with htext
  have hcount : text.length + 1 = length := by
    rw [htext, List.length_take, List.length_drop]
    omega
  refine .inr ⟨start + 4, text, hgood, by omega, by omega, hsize, fun c hc => ?_, ?_, ?_, ?_⟩
  · rw [hc] at hcapacity
    simpa [hcount] using hcapacity
  · have hterminator : (r.buffer.data.drop (start + 4))[length - 1]? = some 0 := by
      have hlt : start + 4 + (length - 1) < r.buffer.data.length := by omega
      rw [byteAt, List.getD_eq_getElem?_getD, List.getElem?_eq_getElem hlt, not_not] at hterminated
      rw [List.getElem?_drop, List.getElem?_eq_getElem hlt]
      exact congrArg some hterminated
    rw [hcount, ← Nat.sub_add_cancel (Nat.pos_of_ne_zero hzero), List.take_add_one, hterminator]
    rfl
  · rw [hcount]
  · rw [hcount]

theorem readStringInto_effect (h : r.Valid) (destination : Span) (bound length : ℕ) :
    ∃ d, r.readStringInto destination bound length = some d ∧
      ReadEffect r (destination, length) d := by
  unfold readStringInto
  by_cases hnull : (destination.isNull && destination.size != 0) = true
  · rw [if_pos hnull]
    exact ⟨_, rfl, r.fail_effect _ _⟩
  rw [if_neg hnull]
  rcases locateString_cases h bound (some destination.size) with
    ⟨error, hlocate, -⟩ | ⟨start, text, hgood, hle, hfits, hsize, hcapacity, -, hlocate, -⟩
  · rw [hlocate, Option.bind_some]
    exact ⟨_, rfl, r.fail_effect error _⟩
  · have hread := (List.length_take_le (text.length + 1) (r.buffer.data.drop start)).trans (hcapacity _ rfl)
    obtain ⟨stored, hstore, -⟩ := store_usable hnull hread
    rw [hlocate, Option.bind_some]
    dsimp only
    rw [Option.elim_some, loads_eq hfits, Option.bind_some, hstore, Option.map_some]
    exact ⟨_, rfl, .assigned _ _ hgood (by omega) (by omega)⟩

theorem readStringViewInto_effect (h : r.Valid) (data bound length : ℕ) :
    ∃ d, r.readStringViewInto data bound length = some d ∧ ReadEffect r (data, length) d := by
  unfold readStringViewInto
  rcases locateString_cases h bound none with
    ⟨error, hlocate, -⟩ | ⟨start, text, hgood, hle, hfits, hsize, -, -, hlocate, -⟩
  · rw [hlocate, Option.map_some]
    exact ⟨_, rfl, r.fail_effect error _⟩
  · rw [hlocate, Option.map_some]
    exact ⟨_, rfl, .assigned _ _ hgood (by omega) (by omega)⟩

theorem lift_effect {β : Type} {value : α} {d : Option ((Bool × α) × CdrReader)} (f : α → β)
    (h : ∃ e, d = some e ∧ ReadEffect r value e) :
    ∃ e, d.map (Prod.map (Prod.map id f) id) = some e ∧ ReadEffect r (f value) e := by
  obtain ⟨e, rfl, heffect⟩ := h
  refine ⟨_, rfl, ?_⟩
  cases heffect with
  | failed error hfirst => exact .failed error hfirst
  | assigned value' stop hgood hle hfits => exact .assigned _ stop hgood hle hfits

/-- **The reads**: every one has a result, and that effect. -/
theorem read_effect (h : r.Valid) (call : ReadCall) : ∃ d, r.read call = some d ∧ ReadEffect r call d := by
  have h1 : IntWidth 1 := .inl rfl
  have h2 : IntWidth 2 := .inr (.inl rfl)
  have h4 : IntWidth 4 := .inr (.inr (.inl rfl))
  have h8 : IntWidth 8 := .inr (.inr (.inr rfl))
  cases call with
  | bool value => exact lift_effect _ (readBoolInto_effect h value)
  | uint8 value => exact lift_effect _ (readInto_effect h h1 _ value)
  | int16 value => exact lift_effect _ (readInto_effect h h2 _ value)
  | uint16 value => exact lift_effect _ (readInto_effect h h2 _ value)
  | int32 value => exact lift_effect _ (readInto_effect h h4 _ value)
  | uint32 value => exact lift_effect _ (readInto_effect h h4 _ value)
  | int64 value => exact lift_effect _ (readInto_effect h h8 _ value)
  | uint64 value => exact lift_effect _ (readInto_effect h h8 _ value)
  | float32 bits => exact lift_effect _ (readInto_effect h h4 _ bits)
  | float64 bits => exact lift_effect _ (readInto_effect h h8 _ bits)
  | bytes destination => exact lift_effect _ (readBytesInto_effect h destination)
  | string destination bound length =>
    exact lift_effect (fun v => ReadCall.string v.1 bound v.2)
      (readStringInto_effect h destination bound length)
  | stringView data bound length =>
    exact lift_effect (fun v => ReadCall.stringView v.1 bound v.2)
      (readStringViewInto_effect h data bound length)

section Effect

variable {value : α} {d : (Bool × α) × CdrReader}

theorem ReadEffect.valid (h : ReadEffect r value d) (hv : r.Valid) : d.2.Valid := by
  cases h with
  | failed error hfirst => exact ⟨hv.fits, hv.machine, hv.begun⟩
  | assigned value' stop hgood hle hfits =>
    refine ⟨hfits, hv.machine, fun hbegun => ?_⟩
    obtain ⟨hreal, horigin, hheader⟩ := hv.begun hbegun
    exact ⟨hreal, horigin, hheader.trans hle⟩

theorem ReadEffect.buffer (h : ReadEffect r value d) : d.2.buffer = r.buffer := by
  cases h with
  | failed error hfirst => rfl
  | assigned value' stop hgood hle hfits => rfl

theorem ReadEffect.le (h : ReadEffect r value d) : r.offset ≤ d.2.offset := by
  cases h with
  | failed error hfirst => exact le_rfl
  | assigned value' stop hgood hle hfits => exact hle

theorem ReadEffect.atomic (h : ReadEffect r value d) (hfail : d.1.1 = false) : d.1.2 = value ∧
    ∃ error, d.2 = { r with error := some error } ∧ ∀ first, r.error = some first → error = first := by
  cases h with
  | failed error hfirst => exact ⟨rfl, error, rfl, hfirst⟩
  | assigned value' stop hgood hle hfits => cases hfail

theorem ReadEffect.sticky (h : ReadEffect r value d) {error : CdrError} (herror : r.error = some error) :
    d = ((false, value), r) := by
  cases h with
  | failed error' hfirst => rw [hfirst error herror, ← herror]
  | assigned value' stop hgood hle hfits =>
    rw [herror] at hgood
    cases hgood

end Effect

theorem beginChecked_valid (h : r.Valid) :
    ∃ d, r.beginChecked = some d ∧ d.2.Valid ∧ d.2.buffer = r.buffer := by
  have hfailed : ∀ error,
      ({ r with offset := 0, origin := 0, initialized := false, error := none }.fail error).Valid :=
    fun error => ⟨Nat.zero_le _, h.machine, fun hbegun => Bool.noConfusion hbegun⟩
  unfold beginChecked
  dsimp only
  split
  · exact ⟨_, rfl, hfailed _, rfl⟩
  next hnull =>
  split
  · exact ⟨_, rfl, hfailed _, rfl⟩
  next hsmall =>
  have hroom : 4 ≤ r.buffer.size := Nat.le_of_not_lt hsmall
  have hreal := Span.real_of_room hnull hroom
  have hsize := r.buffer.size_of_real hreal
  rw [loads_eq (by omega), Option.map_some]
  refine ⟨_, rfl, ?_⟩
  split
  · exact ⟨hfailed _, rfl⟩
  · exact ⟨⟨hroom, h.machine, fun _ => ⟨hreal, rfl, le_rfl⟩⟩, rfl⟩

theorem perform_valid (h : r.Valid) (call : ReaderCall) :
    ∃ d, r.perform call = some d ∧ d.1.Valid ∧ d.1.buffer = r.buffer := by
  cases call with
  | begin =>
    obtain ⟨d, hbegin, hvalid, hbuffer⟩ := beginChecked_valid h
    exact ⟨(d.2, ⟨d.1, .begin, d.2.offset⟩), congrArg (Option.map _) hbegin, hvalid, hbuffer⟩
  | read call =>
    obtain ⟨d, hread, heffect⟩ := read_effect h call
    exact ⟨(d.2, ⟨d.1.1, .read d.1.2, d.2.offset⟩), congrArg (Option.map _) hread, heffect.valid h,
      heffect.buffer⟩

theorem construct_valid {buffer : Span} (hmachine : buffer.size ≤ uint64Max) : (construct buffer).Valid :=
  ⟨Nat.zero_le _, hmachine, fun hbegun => Bool.noConfusion hbegun⟩

/-- **Every run of calls has a result.** -/
theorem run_valid {buffer : Span} (hmachine : buffer.size ≤ uint64Max) (calls : List ReaderCall) :
    ∃ d, attempt perform (construct buffer) calls = some d ∧ d.1.Valid ∧ d.1.buffer = buffer :=
  attempt_inv (P := fun r : CdrReader => r.Valid ∧ r.buffer = buffer)
    (fun r call hr => by
      obtain ⟨d, hd, hvalid, hbuffer⟩ := perform_valid hr.1 call
      exact ⟨d, hd, hvalid, hbuffer.trans hr.2⟩)
    ⟨construct_valid hmachine, rfl⟩ calls

end CdrReader

/-- **CDR failures are atomic and sticky.** After any calls of a writer or a reader over any buffer, all of
which stay inside of the memory: the cursor is inside of the buffer; the next write or read has a result, too,
and does not move the cursor back; if it fails, only an error is recorded, and only the first one; after an
error any run of writes or reads fails and changes nothing. A write leaves the bytes before the cursor as they
are, and a read that fails the variables of the caller. -/
theorem cdr_failures_atomic_sticky (buffer : Span) (hmachine : buffer.size ≤ uint64Max) :
    (∀ calls, ∃ w out, attempt BufferWriter.perform (.construct buffer) calls = some (w, out) ∧
      w.offset ≤ buffer.size ∧ w.buffer.size = buffer.size ∧
      (∀ value, ∃ ok w', w.write value = some (ok, w') ∧ w.offset ≤ w'.offset ∧ w'.offset ≤ buffer.size ∧
        w'.buffer.data.take w.offset = w.buffer.data.take w.offset ∧
        (ok = false → ∃ error, w' = { w with error := some error } ∧
          ∀ first, w.error = some first → error = first)) ∧
      (∀ error, ∀ values : List CdrValue, w.error = some error → attempt BufferWriter.perform w (values.map .write) =
        some (w, values.map fun _ => (false, w.offset)))) ∧
    (∀ calls, ∃ r out, attempt CdrReader.perform (.construct buffer) calls = some (r, out) ∧
      r.offset ≤ buffer.size ∧ r.buffer = buffer ∧
      (∀ call, ∃ ok call' r', r.read call = some ((ok, call'), r') ∧ r.offset ≤ r'.offset ∧
        r'.offset ≤ buffer.size ∧ r'.buffer = buffer ∧
        (ok = false → call' = call ∧ ∃ error, r' = { r with error := some error } ∧
          ∀ first, r.error = some first → error = first)) ∧
      (∀ error, ∀ reads : List ReadCall, r.error = some error → attempt CdrReader.perform r (reads.map .read) =
        some (r, reads.map fun call => ⟨false, .read call, r.offset⟩))) := by
  refine ⟨fun calls => ?_, fun calls => ?_⟩
  · obtain ⟨⟨w, out⟩, hrun, hvalid, hsize⟩ := BufferWriter.run_valid hmachine calls
    dsimp only at hvalid hsize
    refine ⟨w, out, hrun, hsize ▸ hvalid.fits, hsize, fun value => ?_, fun error values herror => ?_⟩
    · obtain ⟨⟨ok, w'⟩, hwrite, heffect⟩ := BufferWriter.write_effect hvalid value
      have hfits := (heffect.valid hvalid).fits
      rw [heffect.size hvalid, hsize] at hfits
      exact ⟨ok, w', hwrite, heffect.le, hfits, heffect.written hvalid, heffect.atomic⟩
    · have hstep : ∀ call ∈ values.map WriterCall.write, w.perform call = some (w, false, w.offset) := by
        intro call hcall
        obtain ⟨value, -, rfl⟩ := List.mem_map.1 hcall
        obtain ⟨r, hwrite, heffect⟩ := BufferWriter.write_effect hvalid value
        rw [heffect.sticky herror] at hwrite
        exact congrArg (Option.map _) hwrite
      rw [attempt_const hstep, List.map_map]
      rfl
  · obtain ⟨⟨r, out⟩, hrun, hvalid, hbuffer⟩ := CdrReader.run_valid hmachine calls
    dsimp only at hvalid hbuffer
    refine ⟨r, out, hrun, hbuffer ▸ hvalid.fits, hbuffer, fun call => ?_, fun error reads herror => ?_⟩
    · obtain ⟨⟨⟨ok, call'⟩, r'⟩, hread, heffect⟩ := CdrReader.read_effect hvalid call
      have hsame := heffect.buffer.trans hbuffer
      exact ⟨ok, call', r', hread, heffect.le, hsame ▸ (heffect.valid hvalid).fits, hsame, heffect.atomic⟩
    · have hstep : ∀ call ∈ reads.map ReaderCall.read, r.perform call =
          some (r, ⟨false, call, r.offset⟩) := by
        intro call hcall
        obtain ⟨read, -, rfl⟩ := List.mem_map.1 hcall
        obtain ⟨d, hread, heffect⟩ := CdrReader.read_effect hvalid read
        rw [heffect.sticky herror] at hread
        exact congrArg (Option.map _) hread
      rw [attempt_const hstep, List.map_map]
      rfl

/-- A buffer of eight bytes in which only one integer has its place: the second write fails, and the ones
after it, too. -/
theorem full_buffer_refuses :
    ∃ w out, attempt BufferWriter.perform (.construct (.bytes (.replicate 8 255)))
        [.begin .littleEndian, .write (.uint32 0x12345678), .write (.uint8 255)] = some (w, out) ∧
      w.error = some .overflow ∧ ∀ values : List CdrValue,
        attempt BufferWriter.perform w (values.map .write) =
          some (w, values.map fun _ => (false, w.offset)) := by
  obtain ⟨w, out, hrun, -, -, -, hsticky⟩ := (cdr_failures_atomic_sticky (.bytes (.replicate 8 255))
    (by decide)).1 [.begin .littleEndian, .write (.uint32 0x12345678), .write (.uint8 255)]
  have herror : w.error = some .overflow := by
    obtain rfl := congrArg Prod.fst (Option.some.inj hrun)
    rfl
  exact ⟨w, out, hrun, herror, fun values => hsticky .overflow values herror⟩

end OpenRtdds
