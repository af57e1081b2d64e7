import OpenRtdds.Spec.Format

/-!
# What the CDR primitives write and read

The body of a CDR sample, counted from the byte after the encapsulation header, is a list of
aligned chunks (`Lib/Wire`). A writer without an error appends one chunk per call; a reader
whose buffer holds a chunk at its position reads it back.

* `writeIntegral_put`, `writeString_put`: a write appends its chunk if it fits.
* `readIntegral_chunk`, `readStringView_chunk`: a read returns the value of the chunk.
-/

namespace OpenRtdds

open Lib

@[simp] theorem intChunk_slot (little : Bool) (width value : ℕ) :
    (intChunk little width value).slot = ⟨width, width⟩ := by
  simp [intChunk, Chunk.slot]

@[simp] theorem stringChunk_slot (little : Bool) (text : List UInt8) :
    (stringChunk little text).slot = ⟨4, 4 + (text.length + 1)⟩ := by
  simp [stringChunk, Chunk.slot]

/-- The widths of integers. -/
def IntWidth (width : ℕ) : Prop := width = 1 ∨ width = 2 ∨ width = 4 ∨ width = 8

theorem IntWidth.powerOfTwo {a : ℕ} (h : IntWidth a) : isPowerOfTwo a = true := by
  rcases h with rfl | rfl | rfl | rfl <;> decide

theorem IntWidth.and_mod {a : ℕ} (h : IntWidth a) (x : ℕ) : x &&& (a - 1) = x % a := by
  rcases h with rfl | rfl | rfl | rfl
  · exact Nat.and_two_pow_sub_one_eq_mod x 0
  · exact Nat.and_two_pow_sub_one_eq_mod x 1
  · exact Nat.and_two_pow_sub_one_eq_mod x 2
  · exact Nat.and_two_pow_sub_one_eq_mod x 3

theorem alignedPosition_eq {a offset origin : ℕ} (ha : IntWidth a) (ho : origin ≤ offset) :
    alignedPosition offset origin a =
      if origin + alignUp a (offset - origin) > uint64Max then none
      else some (origin + alignUp a (offset - origin)) := by
  have hlt : (offset - origin) % a < a :=
    Nat.mod_lt _ (by rcases ha with rfl | rfl | rfl | rfl <;> decide)
  have hsmall : a ≤ 8 := by rcases ha with rfl | rfl | rfl | rfl <;> decide
  unfold alignedPosition
  rw [if_neg (by simp [ha.powerOfTwo]; omega), ha.and_mod]
  have hmax : 8 ≤ uint64Max := by decide
  by_cases hz : (offset - origin) % a = 0
  · simp only [hz, if_true, alignUp, Nat.add_zero, Nat.sub_zero]
    rw [Nat.add_sub_cancel' ho]
  · simp only [hz, if_false, alignUp]
    have hsum : origin + (offset - origin + (a - (offset - origin) % a)) =
        offset + (a - (offset - origin) % a) := by omega
    rw [hsum]
    have hiff : offset > uint64Max - (a - (offset - origin) % a) ↔
        offset + (a - (offset - origin) % a) > uint64Max := by omega
    simp only [hiff]

namespace CdrWriter

/-- A writer after `begin` and before any error. -/
structure Good (w : CdrWriter) : Prop where
  error : w.error = none
  initialized : w.initialized = true
  origin : w.origin = 4
  begun : 4 ≤ w.size
  machine : w.capacity ≤ uint64Max

/-- The number of body bytes written. -/
def position (w : CdrWriter) : ℕ := w.size - 4

/-- The writer after it appended chunks. -/
def put (w : CdrWriter) (cs : List Chunk) : CdrWriter :=
  { w with written := w.written ++ encode w.position cs }

/-- The chunks fit into the buffer. -/
def Fits (w : CdrWriter) (cs : List Chunk) : Prop := 4 + endOfChunks cs w.position ≤ w.capacity

variable {w : CdrWriter}

@[simp] theorem put_nil (w : CdrWriter) : w.put [] = w := by simp [put, encode]

theorem put_size (h : w.Good) (cs : List Chunk) :
    (w.put cs).size = 4 + endOfChunks cs w.position := by
  have hb := h.begun
  have hle := le_endOfChunks cs w.position
  have hlen : (w.put cs).size = w.size + (endOfChunks cs w.position - w.position) := by
    simp only [put, size, List.length_append, encode_length]
  rw [hlen]
  unfold position at hle ⊢
  omega

theorem put_position (h : w.Good) (cs : List Chunk) :
    (w.put cs).position = endOfChunks cs w.position := by
  rw [position, put_size h]
  omega

theorem Good.put (h : w.Good) (cs : List Chunk) : (w.put cs).Good where
  error := h.error
  initialized := h.initialized
  origin := h.origin
  begun := by rw [put_size h]; omega
  machine := h.machine

theorem put_append (h : w.Good) (cs ds : List Chunk) : (w.put cs).put ds = w.put (cs ++ ds) := by
  have hp := put_position h cs
  unfold CdrWriter.put at hp ⊢
  simp only [encode_append, ← List.append_assoc]
  rw [hp]

theorem fits_append (h : w.Good) (cs ds : List Chunk) :
    w.Fits (cs ++ ds) ↔ w.Fits cs ∧ (w.put cs).Fits ds := by
  unfold Fits
  rw [endOfChunks_append, put_position h]
  have hle := le_endOfChunks ds (endOfChunks cs w.position)
  have hcap : (w.put cs).capacity = w.capacity := rfl
  rw [hcap]
  omega

/-- `reserve` succeeds exactly if the slot fits. -/
theorem reserve_eq (h : w.Good) {a : ℕ} (ha : IntWidth a) (width : ℕ) :
    w.reserve a width =
      if 4 + (Slot.mk a width).after w.position ≤ w.capacity
      then (some (4 + alignUp a w.position), w) else (none, w.fail .overflow) := by
  have hm := h.machine
  unfold reserve
  rw [if_neg (by simp [h.error]), if_neg (by simp [h.initialized]), h.origin]
  have hslot : (Slot.mk a width).after w.position = alignUp a w.position + width := rfl
  have hposition : alignedPosition w.size 4 a = if 4 + alignUp a w.position > uint64Max then none
      else some (4 + alignUp a w.position) := alignedPosition_eq ha h.begun
  by_cases hover : 4 + alignUp a w.position > uint64Max
  · rw [hposition, if_pos hover, if_neg (by omega)]
  · rw [hposition, if_neg hover]
    simp only
    by_cases hfit : 4 + (Slot.mk a width).after w.position ≤ w.capacity
    · rw [if_neg (by omega), if_pos hfit]
    · rw [if_pos (by omega), if_neg hfit]

theorem store_eq (h : w.Good) (a : ℕ) (bytes : List UInt8) :
    w.store (4 + alignUp a w.position) bytes = w.put [⟨a, bytes⟩] := by
  have hb := h.begun
  have hpad : 4 + alignUp a w.position - w.size = alignUp a w.position - w.position := by
    unfold position
    omega
  simp only [store, CdrWriter.put, encode, Chunk.placed, hpad, List.append_nil]

/-- A write of an integer appends its chunk if it fits. -/
theorem writeIntegral_put (h : w.Good) {width : ℕ} (hw : IntWidth width) (value : ℕ)
    (hfit : w.Fits [intChunk (w.byteOrder == .littleEndian) width value]) :
    w.writeIntegral value width width =
      (true, w.put [intChunk (w.byteOrder == .littleEndian) width value]) := by
  unfold Fits at hfit
  rw [endOfChunks_cons, endOfChunks_nil, intChunk_slot] at hfit
  unfold writeIntegral
  rw [reserve_eq h hw, if_pos hfit]
  simp only [store_eq h]
  rfl

/-- A write of a string within its bound appends its chunk if it fits. -/
theorem writeString_put (h : w.Good) {value : Span} {text : List UInt8} {bound : ℕ}
    (hdata : value.data = text) (hsize : value.size = text.length) (hbound : text.length ≤ bound)
    (hmax : text.length < uint32Max)
    (hfit : w.Fits [stringChunk (w.byteOrder == .littleEndian) text]) :
    w.writeString value bound =
      (true, w.put [stringChunk (w.byteOrder == .littleEndian) text]) := by
  have hnull : ¬ (value.isNull && value.size != 0) = true := by
    cases value with
    | bytes d => simp [Span.isNull]
    | null n =>
      have : text = [] := hdata.symm
      simp [hsize, this]
  have hmachine : uint32Max + 5 ≤ uint64Max := by decide
  unfold Fits at hfit
  rw [endOfChunks_cons, endOfChunks_nil, stringChunk_slot] at hfit
  unfold writeString
  rw [if_neg hnull, if_neg (by omega), if_neg (by omega)]
  simp only
  rw [if_neg (by omega), hsize, reserve_eq h (by unfold IntWidth; omega), if_pos hfit]
  simp only [store_eq h, hdata]
  rfl

theorem begin_good {capacity : ℕ} (h : 4 ≤ capacity) (hm : capacity ≤ uint64Max) {order : ByteOrder}
    (ho : order = .bigEndian ∨ order = .littleEndian) :
    ∃ w, CdrWriter.begin { capacity } order = (true, w) ∧ w.Good ∧ w.byteOrder = order ∧
      w.capacity = capacity ∧
      w.written = [0, if order = .littleEndian then 1 else 0, 0, 0] := by
  unfold CdrWriter.begin
  simp only [Bool.false_and, Bool.false_eq_true, if_false]
  rw [if_neg (by tauto), if_neg (by unfold encapsulationSize; omega)]
  exact ⟨_, rfl, ⟨rfl, rfl, rfl, le_rfl, hm⟩, rfl, rfl, rfl⟩

end CdrWriter

theorem byteAt_drop (m : List UInt8) (i k : ℕ) : byteAt (m.drop i) k = byteAt m (i + k) := by
  simp [byteAt, List.getD]

namespace CdrReader

/-- A reader after `begin` and before any error. -/
structure Good (r : CdrReader) : Prop where
  error : r.error = none
  initialized : r.initialized = true
  origin : r.origin = 4
  begun : 4 ≤ r.offset
  real : r.buffer.isNull = false
  header : 4 ≤ r.buffer.size
  machine : r.buffer.size ≤ uint64Max

/-- The number of body bytes read, and the body. -/
def position (r : CdrReader) : ℕ := r.offset - 4

def body (r : CdrReader) : List UInt8 := r.buffer.data.drop 4

/-- The reader after it read chunks. -/
def moved (r : CdrReader) (cs : List Chunk) : CdrReader :=
  { r with offset := 4 + endOfChunks cs r.position }

/-- The chunks stand at the position of the reader. -/
def Holds (r : CdrReader) (cs : List Chunk) : Prop := Lib.Holds r.body r.position cs

variable {r : CdrReader}

@[simp] theorem moved_nil (h : r.Good) : r.moved [] = r := by
  have := h.begun
  have hoff : 4 + r.position = r.offset := by unfold position; omega
  simp only [moved, endOfChunks_nil, hoff]

@[simp] theorem moved_position (r : CdrReader) (cs : List Chunk) :
    (r.moved cs).position = endOfChunks cs r.position := by
  simp only [moved, position]
  omega

theorem Good.moved (h : r.Good) (cs : List Chunk) : (r.moved cs).Good where
  error := h.error
  initialized := h.initialized
  origin := h.origin
  begun := by simp only [CdrReader.moved]; omega
  real := h.real
  header := h.header
  machine := h.machine

theorem moved_moved (r : CdrReader) (cs ds : List Chunk) : (r.moved cs).moved ds = r.moved (cs ++ ds) := by
  have hp := moved_position r cs
  simp only [moved] at hp ⊢
  rw [hp, endOfChunks_append]

theorem holds_append (r : CdrReader) (cs ds : List Chunk) :
    r.Holds (cs ++ ds) ↔ r.Holds cs ∧ (r.moved cs).Holds ds := by
  unfold Holds
  rw [Lib.Holds.append_iff, moved_position]
  rfl

theorem Good.size_eq (h : r.Good) : r.buffer.size = r.buffer.data.length := by
  have := h.real
  cases hb : r.buffer with
  | null n => rw [hb] at this; cases this
  | bytes d => rfl

/-- `locate` succeeds exactly if the slot lies in the buffer. -/
theorem locate_eq (h : r.Good) {a : ℕ} (ha : IntWidth a) (width : ℕ) :
    r.locate a width =
      if 4 + (Slot.mk a width).after r.position ≤ r.buffer.size
      then (some (4 + alignUp a r.position, 4 + (Slot.mk a width).after r.position), r)
      else (none, r.fail .underflow) := by
  have hm := h.machine
  unfold locate
  rw [if_neg (by simp [h.error]), if_neg (by simp [h.initialized]), h.origin]
  have hslot : (Slot.mk a width).after r.position = alignUp a r.position + width := rfl
  have hposition : alignedPosition r.offset 4 a = if 4 + alignUp a r.position > uint64Max then none
      else some (4 + alignUp a r.position) := alignedPosition_eq ha h.begun
  by_cases hover : 4 + alignUp a r.position > uint64Max
  · rw [hposition, if_pos hover, if_neg (by omega)]
  · rw [hposition, if_neg hover]
    simp only
    by_cases hfit : 4 + (Slot.mk a width).after r.position ≤ r.buffer.size
    · rw [if_neg (by omega), if_pos hfit, hslot, Nat.add_assoc]
    · rw [if_pos (by omega), if_neg hfit]

theorem Holds.bytes (hg : r.Good) {c : Chunk} {cs : List Chunk} (h : r.Holds (c :: cs)) :
    4 + c.slot.after r.position ≤ r.buffer.size ∧
      ∃ rest, r.buffer.data.drop (4 + alignUp c.align r.position) = c.bytes ++ rest := by
  obtain ⟨hle, rest, hrest⟩ := Lib.Holds.head h
  unfold body at hle hrest
  rw [List.length_drop] at hle
  rw [List.drop_drop] at hrest
  have hsize := hg.size_eq
  have hheader := hg.header
  exact ⟨by omega, rest, hrest⟩

theorem loadIntegral_eq {width value start : ℕ} {rest : List UInt8}
    (hbytes : r.buffer.data.drop start =
      storeInt (r.byteOrder == .littleEndian) width value ++ rest)
    (hvalue : value < 2 ^ (8 * width)) : r.loadIntegral start width = value := by
  unfold loadIntegral
  refine (loadInt_congr _ ?_).trans ((load_store _ width value).trans (Nat.mod_eq_of_lt hvalue))
  intro k hk
  rw [← byteAt_drop, hbytes]
  unfold byteAt
  rw [List.getD_append _ _ _ _ (by rw [storeInt_length]; exact hk)]

/-- A read of an integer where its chunk stands returns the integer. -/
theorem readIntegral_chunk (h : r.Good) {width value : ℕ} (hw : IntWidth width)
    (hvalue : value < 2 ^ (8 * width))
    (hc : r.Holds [intChunk (r.byteOrder == .littleEndian) width value]) :
    r.readIntegral width width =
      (some value, r.moved [intChunk (r.byteOrder == .littleEndian) width value]) := by
  obtain ⟨hle, rest, hrest⟩ := hc.bytes h
  rw [intChunk_slot] at hle
  unfold readIntegral
  rw [locate_eq h hw, if_pos hle]
  have hload : r.loadIntegral (4 + alignUp width r.position) width = value :=
    loadIntegral_eq hrest hvalue
  simp only [hload, moved, endOfChunks_cons, endOfChunks_nil, intChunk_slot]

/-- A read of a string where its chunk stands returns the characters. -/
theorem readStringView_chunk (h : r.Good) {text : List UInt8} {bound : ℕ}
    (hbound : text.length ≤ bound) (hmax : text.length < uint32Max)
    (hc : r.Holds [stringChunk (r.byteOrder == .littleEndian) text]) :
    r.readStringView bound =
      (some text, r.moved [stringChunk (r.byteOrder == .littleEndian) text]) := by
  obtain ⟨hle, rest, hrest⟩ := hc.bytes h
  rw [stringChunk_slot] at hle
  set start := 4 + alignUp 4 r.position with hstart
  have hafter : 4 + (Slot.mk 4 (4 + (text.length + 1))).after r.position =
      start + 4 + (text.length + 1) := by
    simp only [Slot.after]
    omega
  rw [hafter] at hle
  have hlocate : r.locate 4 4 = (some (start, start + 4), r) := by
    rw [locate_eq h (by unfold IntWidth; omega)]
    exact if_pos (by simp only [Slot.after]; omega)
  have hfront : r.buffer.data.drop start =
      storeInt (r.byteOrder == .littleEndian) 4 (text.length + 1) ++ (text ++ ([0] ++ rest)) := by
    rw [show r.buffer.data.drop start = _ from hrest]
    simp [stringChunk]
  have hdata : r.buffer.data.drop (start + 4) = text ++ ([0] ++ rest) := by
    rw [← List.drop_drop, hfront, List.drop_left' (by simp)]
  have hlength : r.loadIntegral start 4 = text.length + 1 :=
    loadIntegral_eq hfront (by unfold uint32Max at hmax; omega)
  have hzero : byteAt r.buffer.data (start + 4 + text.length) = 0 := by
    rw [← byteAt_drop, hdata]
    simp [byteAt, List.getD]
  unfold readStringView
  simp only [hlocate, hlength, Nat.add_sub_cancel]
  rw [if_neg (by omega), if_neg (by omega), if_neg (by omega), if_neg (by simp [hzero]), hdata,
    List.take_left]
  simp only [moved, endOfChunks_cons, endOfChunks_nil, stringChunk_slot, hafter]

theorem begin_good (data : List UInt8) (hsize : 4 ≤ data.length) (hm : data.length ≤ uint64Max)
    {order : ByteOrder} (ho : order = .bigEndian ∨ order = .littleEndian) (h0 : byteAt data 0 = 0)
    (h1 : byteAt data 1 = if order = .littleEndian then 1 else 0) :
    ∃ r, CdrReader.begin { buffer := .bytes data } = (true, r) ∧ r.Good ∧ r.byteOrder = order ∧
      r.position = 0 ∧ r.buffer = .bytes data := by
  unfold CdrReader.begin
  have hfirst : ¬ (byteAt data 0 ≠ 0 ∨ byteAt data 1 ≠ 0 ∧ byteAt data 1 ≠ 1) := by
    rw [h0, h1]
    split <;> simp
  have hshort : ¬ data.length < encapsulationSize := Nat.not_lt.2 hsize
  refine ⟨_, (if_neg (by simp [Span.isNull])).trans ((if_neg hshort).trans (if_neg hfirst)),
    ⟨rfl, rfl, rfl, le_rfl, rfl, hsize, hm⟩, ?_, rfl, rfl⟩
  rw [show byteAt (Span.bytes data).data 1 = _ from h1]
  rcases ho with rfl | rfl <;> simp

end CdrReader

end OpenRtdds
