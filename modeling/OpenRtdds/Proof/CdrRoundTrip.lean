import OpenRtdds.Proof.CdrBuffer

/-!
# CDR primitives round trip

The values that a writer has accepted stand in its buffer as a list of aligned chunks (`Lib/Wire`), and a
reader over these bytes finds the chunks one by one.

* `Laid`: what a writer has in its buffer while every write succeeds. `Laid.write`: a write succeeds if its
  argument is within the bound and its chunk fits.
* `Progress`: a run of writes either has succeeded so far, or it has an error.
* `ReadBy`, `Returned`: the reads that correspond to a value, and that return it. `read_chunk`, `read_chunks`:
  where the chunk of a value stands, such a read returns the value.
* `cdr_round_trip`.
-/

namespace OpenRtdds

open Lib

/-- The encapsulation header. -/
def cdrHeader (order : ByteOrder) : List UInt8 := [0, if order = .littleEndian then 1 else 0, 0, 0]

/-- The places of values. -/
def slotsOf (values : List CdrValue) : List Slot := values.map CdrValue.slot

/-- The chunks of values. -/
def chunksOf (order : ByteOrder) (values : List CdrValue) : List Chunk :=
  values.map (CdrValue.chunk (order == .littleEndian))

theorem chunksOf_snoc (order : ByteOrder) (values : List CdrValue) (v : CdrValue) :
    chunksOf order (values ++ [v]) = chunksOf order values ++ [v.chunk (order == .littleEndian)] :=
  List.map_append

theorem slotsOf_snoc (values : List CdrValue) (v : CdrValue) : slotsOf (values ++ [v]) = slotsOf values ++ [v.slot] :=
  List.map_append

theorem endOf_slotsOf_snoc (values : List CdrValue) (v : CdrValue) :
    endOf (slotsOf (values ++ [v])) 0 = v.slot.after (endOf (slotsOf values) 0) := by
  rw [slotsOf_snoc, endOf_append]
  rfl

theorem slots_chunksOf (order : ByteOrder) {values : List CdrValue} (h : ∀ v ∈ values, v.Respects) :
    (chunksOf order values).map Chunk.slot = slotsOf values := by
  unfold chunksOf slotsOf
  rw [List.map_map]
  exact List.map_congr_left fun v hv => CdrValue.chunk_slot _ (h v hv)

namespace BufferWriter

/-- **What a writer has in its buffer** after it has accepted `values`. -/
structure Laid (w : BufferWriter) (order : ByteOrder) (capacity : ℕ) (values : List CdrValue) : Prop where
  valid : w.Valid
  good : w.error = none
  begun : w.initialized = true
  byteOrder : w.byteOrder = order
  size : w.buffer.size = capacity
  respects : ∀ v ∈ values, v.Respects
  offset : w.offset = 4 + endOf (slotsOf values) 0
  contents : w.buffer.data.take w.offset = cdrHeader order ++ encode 0 (chunksOf order values)

variable {w : BufferWriter} {order : ByteOrder} {capacity : ℕ} {values : List CdrValue} {v : CdrValue}

theorem Laid.write (h : w.Laid order capacity values) (hv : v.Respects)
    (hfits : 4 + v.slot.after (endOf (slotsOf values) 0) ≤ capacity) :
    ∃ w', w.write v = some (true, w') ∧ w'.Laid order capacity (values ++ [v]) := by
  set c := v.chunk (w.byteOrder == .littleEndian) with hc
  have hchunk : c = v.chunk (order == .littleEndian) := by rw [hc, h.byteOrder]
  have hslot : c.slot = v.slot := CdrValue.chunk_slot _ hv
  have hposition : w.offset - 4 = endOf (slotsOf values) 0 := by
    have := h.offset
    omega
  have hroom : 4 + c.slot.after (w.offset - 4) ≤ w.buffer.size := by rw [hslot, hposition, h.size]; exact hfits
  have hwrite : w.write v = some (true, w.appended c) := by
    rw [w.writeValue_eq hv, ← hc, append_eq h.valid h.good h.begun c (v.chunk_align _), if_pos hroom]
  have hheader := (h.valid.begun h.begun).2.2
  have hsize := w.buffer.size_of_real (h.valid.begun h.begun).1
  have hplaced := c.placed_length (w.offset - 4)
  have hle := c.slot.le_after (w.offset - 4)
  have hoffset : w.offset + (c.placed (w.offset - 4)).length = 4 + c.slot.after (w.offset - 4) := by omega
  have heffect : WriteEffect w (true, w.appended c) := .stored _ _ h.good h.begun hoffset.symm hroom
  refine ⟨_, hwrite, heffect.valid h.valid, h.good, h.begun, h.byteOrder,
    (heffect.size h.valid).trans h.size, ?_, ?_, ?_⟩
  · intro u hu
    rcases List.mem_append.1 hu with hu | hu
    · exact h.respects u hu
    · exact List.mem_singleton.1 hu ▸ hv
  · change 4 + c.slot.after (w.offset - 4) = _
    rw [endOf_slotsOf_snoc, hslot, hposition]
  · change (splice w.buffer.data w.offset (c.placed (w.offset - 4))).take (4 + c.slot.after (w.offset - 4)) = _
    have hend : endOfChunks (chunksOf order values) 0 = w.offset - 4 := by
      rw [hposition, endOfChunks, slots_chunksOf order h.respects]
    rw [← hoffset, splice_take_end (hsize ▸ h.valid.fits), h.contents, chunksOf_snoc, encode_append, hend,
      List.append_assoc, encode, encode, List.append_nil, hchunk]

theorem Laid.refuse (h : w.Laid order capacity values)
    (hv : ¬ (v.Respects ∧ 4 + v.slot.after (endOf (slotsOf values) 0) ≤ capacity)) :
    ∃ error, w.write v = some (false, w.fail error) := by
  by_cases hrespects : v.Respects
  swap
  · exact w.writeValue_refused hrespects
  refine ⟨.overflow, ?_⟩
  have hslot : (v.chunk (w.byteOrder == .littleEndian)).slot = v.slot := CdrValue.chunk_slot _ hrespects
  have hposition : w.offset - 4 = endOf (slotsOf values) 0 := by
    have := h.offset
    omega
  rw [w.writeValue_eq hrespects, append_eq h.valid h.good h.begun _ (v.chunk_align _), if_neg]
  rw [hslot, hposition, h.size]
  exact fun hfits => hv ⟨hrespects, hfits⟩

theorem begin_laid {memory : List UInt8} (hmachine : memory.length ≤ uint64Max) (hroom : 4 ≤ memory.length)
    (horder : order = .bigEndian ∨ order = .littleEndian) :
    ∃ w, (construct (.bytes memory)).perform (.begin order) = some (w, true, 4) ∧
      w.Laid order memory.length [] := by
  have hstore : (Span.bytes memory).store 0 (cdrHeader order) = some (.bytes (splice memory 0 (cdrHeader order))) :=
    Span.store_eq rfl (by simpa [cdrHeader, Span.size] using hroom)
  have hlength : (splice memory 0 (cdrHeader order)).length = memory.length :=
    splice_length (by simpa [cdrHeader] using hroom)
  have hbegin : (construct (.bytes memory)).begin order = some (true,
      { buffer := .bytes (splice memory 0 (cdrHeader order)), offset := 4, origin := 4, byteOrder := order,
        initialized := true }) := by
    unfold begin
    dsimp only
    rw [if_neg (by simp [construct, Span.isNull]), if_neg (by tauto),
      if_neg (by simpa [construct, Span.size, encapsulationSize] using hroom)]
    change (Span.store (.bytes memory) 0 (cdrHeader order)).map _ = _
    rw [hstore]
    rfl
  refine ⟨_, congrArg (Option.map _) hbegin, ⟨?_, ?_, fun _ => ⟨rfl, rfl, le_rfl⟩⟩, rfl, rfl, rfl, hlength,
    fun v hv => absurd hv List.not_mem_nil, rfl, ?_⟩
  · exact hroom.trans hlength.ge
  · exact hlength.le.trans hmachine
  · have htake : (splice memory 0 (cdrHeader order)).take (0 + (cdrHeader order).length) =
        memory.take 0 ++ cdrHeader order := splice_take_end (Nat.zero_le _)
    exact htake.trans (List.append_nil _).symm

theorem begin_refused {memory : List UInt8} (hroom : memory.length < 4)
    (horder : order = .bigEndian ∨ order = .littleEndian) :
    ∃ w, (construct (.bytes memory)).perform (.begin order) = some (w, false, 0) ∧ w.Valid ∧
      w.error.isSome = true := by
  have hbegin : (construct (.bytes memory)).begin order = some (false,
      { buffer := .bytes memory, byteOrder := order, error := some .overflow }) := by
    unfold begin
    dsimp only
    rw [if_neg (by simp [construct, Span.isNull]), if_neg (by tauto),
      if_pos (by simpa [construct, Span.size, encapsulationSize] using hroom)]
    rfl
  have hmachine : memory.length ≤ uint64Max := hroom.le.trans (by decide)
  exact ⟨_, congrArg (Option.map _) hbegin, ⟨Nat.zero_le _, hmachine, fun hbegun => Bool.noConfusion hbegun⟩, rfl⟩

/-- The position after each of the slots. -/
def ends : ℕ → List Slot → List ℕ
  | _, [] => []
  | x, s :: l => s.after x :: ends (s.after x) l

theorem ends_concat (x : ℕ) (l : List Slot) (s : Slot) : ends x (l ++ [s]) = ends x l ++ [s.after (endOf l x)] := by
  induction l generalizing x with
  | nil => rfl
  | cons t l ih => exact congrArg (t.after x :: ·) (ih (t.after x))

/-- **A run of writes after `begin`**: while every call succeeds, the values are laid down; after a failure
there is an error. -/
structure Progress (w : BufferWriter) (order : ByteOrder) (capacity : ℕ) (values : List CdrValue)
    (out : List (Bool × ℕ)) : Prop where
  valid : w.Valid
  length : out.length = values.length + 1
  laid : (∀ o ∈ out, o.1 = true) → w.Laid order capacity values ∧
    out = (true, 4) :: (ends 0 (slotsOf values)).map fun x => (true, 4 + x)
  failed : ∀ o ∈ out, o.1 = false → w.error.isSome = true

/-- A further write succeeds if nothing has failed, and its value is within its bound and fits. -/
theorem Progress.write {w' : BufferWriter} {out : List (Bool × ℕ)} {ok : Bool}
    (h : w.Progress order capacity values out) (hwrite : w.write v = some (ok, w')) :
    w'.Progress order capacity (values ++ [v]) (out ++ [(ok, w'.offset)]) ∧
      (ok = true ↔ (∀ o ∈ out, o.1 = true) ∧ v.Respects ∧
        4 + v.slot.after (endOf (slotsOf values) 0) ≤ capacity) := by
  obtain ⟨_, hsome, heffect⟩ := write_effect h.valid v
  cases hwrite.symm.trans hsome
  have hvalid := heffect.valid h.valid
  have hlength : (out ++ [(ok, w'.offset)]).length = (values ++ [v]).length + 1 := by
    rw [List.length_append, List.length_append, h.length]
    rfl
  have hfailed : ok = false → w'.Progress order capacity (values ++ [v]) (out ++ [(ok, w'.offset)]) := by
    rintro rfl
    obtain ⟨error, hw', -⟩ := heffect.atomic rfl
    refine ⟨hvalid, hlength, fun hall => ?_, fun _ _ _ => ?_⟩
    · cases hall _ (List.mem_append_right _ List.mem_cons_self)
    · rw [show w' = _ from hw']
      rfl
  by_cases hall : ∀ o ∈ out, o.1 = true
  swap
  · obtain ⟨o, ho, hne⟩ : ∃ o ∈ out, o.1 ≠ true := by simpa using hall
    obtain ⟨error, herror⟩ := Option.isSome_iff_exists.1 (h.failed o ho (Bool.eq_false_iff.2 hne))
    have hok : ok = false := congrArg Prod.fst (heffect.sticky herror)
    exact ⟨hfailed hok, iff_of_false (by simp [hok]) fun hright => hall hright.1⟩
  obtain ⟨hlaid, hout⟩ := h.laid hall
  by_cases hv : v.Respects ∧ 4 + v.slot.after (endOf (slotsOf values) 0) ≤ capacity
  swap
  · obtain ⟨error, hrefused⟩ := hlaid.refuse hv
    cases hwrite.symm.trans hrefused
    exact ⟨hfailed rfl, iff_of_false Bool.false_ne_true fun hright => hv hright.2⟩
  obtain ⟨_, hsome', hlaid'⟩ := hlaid.write hv.1 hv.2
  cases hwrite.symm.trans hsome'
  refine ⟨⟨hvalid, hlength, fun _ => ⟨hlaid', ?_⟩, fun o ho hfail => ?_⟩, iff_of_true rfl ⟨hall, hv⟩⟩
  · rw [hlaid'.offset, endOf_slotsOf_snoc, hout, slotsOf_snoc, ends_concat, List.map_append]
    rfl
  · rcases List.mem_append.1 ho with ho | ho
    · cases (hall o ho).symm.trans hfail
    · cases List.mem_singleton.1 ho
      cases hfail

theorem run_writes {memory : List UInt8} (hmachine : memory.length ≤ uint64Max)
    (horder : order = .bigEndian ∨ order = .littleEndian) (values : List CdrValue) :
    ∃ w out, attempt perform (construct (.bytes memory)) (.begin order :: values.map .write) = some (w, out) ∧
      w.Progress order memory.length values out := by
  induction values using List.reverseRecOn with
  | nil =>
    by_cases hroom : 4 ≤ memory.length
    · obtain ⟨w, hbegin, hlaid⟩ := begin_laid hmachine hroom horder
      refine ⟨w, [(true, 4)], attempt_cons hbegin, hlaid.valid, rfl, fun _ => ⟨hlaid, rfl⟩, fun o ho hfail => ?_⟩
      cases List.mem_singleton.1 ho
      cases hfail
    · obtain ⟨w, hbegin, hvalid, herror⟩ := begin_refused (Nat.lt_of_not_le hroom) horder
      refine ⟨w, [(false, 0)], attempt_cons hbegin, hvalid, rfl, fun hall => ?_, fun _ _ _ => herror⟩
      cases hall _ List.mem_cons_self
  | append_singleton values v ih =>
    obtain ⟨w, out, hrun, hprogress⟩ := ih
    obtain ⟨⟨ok, w'⟩, hwrite, -⟩ := write_effect hprogress.valid v
    have hstep : w.perform (.write v) = some (w', ok, w'.offset) := congrArg (Option.map _) hwrite
    refine ⟨w', out ++ [(ok, w'.offset)], ?_, (hprogress.write hwrite).1⟩
    rw [List.map_append, ← List.cons_append, attempt_append hrun, List.map_singleton, attempt_cons hstep]
    rfl

end BufferWriter

/-- **The reads that correspond to a value**: of its kind and with its bound, into a destination that has
place for it. -/
inductive ReadBy : CdrValue → ReadCall → Prop
  | bool (value previous : Bool) : ReadBy (.bool value) (.bool previous)
  | uint8 (value previous : UInt8) : ReadBy (.uint8 value) (.uint8 previous)
  | int16 (value previous : Int16) : ReadBy (.int16 value) (.int16 previous)
  | uint16 (value previous : UInt16) : ReadBy (.uint16 value) (.uint16 previous)
  | int32 (value previous : Int32) : ReadBy (.int32 value) (.int32 previous)
  | uint32 (value previous : UInt32) : ReadBy (.uint32 value) (.uint32 previous)
  | int64 (value previous : Int64) : ReadBy (.int64 value) (.int64 previous)
  | uint64 (value previous : UInt64) : ReadBy (.uint64 value) (.uint64 previous)
  | float32 (value previous : UInt32) : ReadBy (.float32 value) (.float32 previous)
  | float64 (value previous : UInt64) : ReadBy (.float64 value) (.float64 previous)
  | bytes (data destination : Span) (hsize : destination.size = data.size)
      (husable : destination.isNull = true → destination.size = 0) : ReadBy (.bytes data) (.bytes destination)
  | string (value destination : Span) (bound length : ℕ) (hreal : destination.isNull = false)
      (hroom : value.size + 1 ≤ destination.size) :
    ReadBy (.string value bound) (.string destination bound length)
  | stringView (value : Span) (data bound length : ℕ) :
    ReadBy (.string value bound) (.stringView data bound length)

/-- **What a read over `buffer` has returned is the value.** -/
inductive Returned (buffer : List UInt8) : CdrValue → ReadCall → Prop
  | bool (value : Bool) : Returned buffer (.bool value) (.bool value)
  | uint8 (value : UInt8) : Returned buffer (.uint8 value) (.uint8 value)
  | int16 (value : Int16) : Returned buffer (.int16 value) (.int16 value)
  | uint16 (value : UInt16) : Returned buffer (.uint16 value) (.uint16 value)
  | int32 (value : Int32) : Returned buffer (.int32 value) (.int32 value)
  | uint32 (value : UInt32) : Returned buffer (.uint32 value) (.uint32 value)
  | int64 (value : Int64) : Returned buffer (.int64 value) (.int64 value)
  | uint64 (value : UInt64) : Returned buffer (.uint64 value) (.uint64 value)
  | float32 (bits : UInt32) : Returned buffer (.float32 bits) (.float32 bits)
  | float64 (bits : UInt64) : Returned buffer (.float64 bits) (.float64 bits)
  | bytes (data destination : Span) (h : destination.data = data.data) :
    Returned buffer (.bytes data) (.bytes destination)
  | string (value destination : Span) (bound : ℕ) (rest : List UInt8)
      (h : destination.data = value.data ++ 0 :: rest) :
    Returned buffer (.string value bound) (.string destination bound value.size)
  | stringView (value : Span) (data bound : ℕ) (h : (buffer.drop data).take value.size = value.data) :
    Returned buffer (.string value bound) (.stringView data bound value.size)

namespace CdrReader

variable {α : Type} {r : CdrReader}

theorem valid_of_holds (h : r.Good) {cs : List Chunk} (hc : r.Holds cs) : r.Valid := by
  refine ⟨?_, h.machine, fun _ => ⟨h.real, h.origin, h.begun⟩⟩
  have hinside := hc.1
  have hsize := h.size_eq
  have hheader := h.header
  unfold position body at hinside
  rw [List.length_drop] at hinside
  omega

theorem readInto_value (h : r.Good) {width bits : ℕ} {decode : ℕ → α} {value previous : α} (hw : IntWidth width)
    (hbits : bits < 2 ^ (8 * width)) (hc : r.Holds [intChunk (r.byteOrder == .littleEndian) width bits])
    (hdecode : decode bits = value) :
    r.readInto width decode previous =
      some ((true, value), r.moved [intChunk (r.byteOrder == .littleEndian) width bits]) := by
  unfold readInto
  rw [readIntegralChecked_eq (valid_of_holds h hc) hw, readIntegral_chunk h hw hbits hc, Option.map_some, ← hdecode]
  rfl

theorem readBoolInto_chunk (h : r.Good) {value : Bool}
    (hc : r.Holds [intChunk (r.byteOrder == .littleEndian) 1 (if value then 1 else 0)]) (previous : Bool) :
    r.readBoolInto previous =
      some ((true, value), r.moved [intChunk (r.byteOrder == .littleEndian) 1 (if value then 1 else 0)]) := by
  have hvalue : (if value then 1 else 0) < 2 ^ (8 * 1) := by cases value <;> decide
  unfold readBoolInto readUint8Into
  rw [readInto_value h (.inl rfl) hvalue hc rfl, Option.map_some]
  cases value <;> rfl

theorem readBytesInto_chunk (h : r.Good) {data : List UInt8} (hc : r.Holds [⟨1, data⟩]) {destination : Span}
    (hsize : destination.size = data.length) (husable : destination.isNull = true → destination.size = 0) :
    ∃ stored, r.readBytesInto destination = some ((true, stored), r.moved [⟨1, data⟩]) ∧
      stored.data = data := by
  obtain ⟨hfits, rest, hrest⟩ := hc.bytes h
  have hlocate : r.locate 1 destination.size =
      (some (4 + alignUp 1 r.position, 4 + (Slot.mk 1 data.length).after r.position), r) := by
    rw [hsize, locate_eq h (.inl rfl)]
    exact if_pos hfits
  have hinside : 4 + alignUp 1 r.position + data.length ≤ r.buffer.data.length := by
    have hreal := h.size_eq
    have hslot : (Chunk.slot ⟨1, data⟩).after r.position = alignUp 1 r.position + data.length := rfl
    omega
  have hloads : loads r.buffer.data (4 + alignUp 1 r.position) destination.size = some data := by
    rw [hsize, loads_eq hinside, show r.buffer.data.drop (4 + alignUp 1 r.position) = _ from hrest, List.take_left]
  have hnull : ¬ (destination.isNull && destination.size != 0) = true := by simpa using husable
  have hlength : destination.data.length = data.length := (CdrValue.size_of_usable husable).symm.trans hsize
  obtain ⟨stored, hstore, hdata⟩ := store_usable hnull hsize.ge
  refine ⟨stored, ?_, ?_⟩
  swap
  · rw [hdata, splice, List.take_zero, List.nil_append, List.drop_of_length_le (by omega), List.append_nil]
  unfold readBytesInto
  rw [if_neg hnull, hlocate]
  dsimp only
  rw [Option.elim_some, hloads, Option.bind_some, hstore, Option.map_some]
  rfl

theorem locateString_chunk (h : r.Good) {text : List UInt8} {bound : ℕ} {capacity : Option ℕ}
    (hbound : text.length ≤ bound) (hmax : text.length < uint32Max)
    (hcapacity : ∀ c, capacity = some c → text.length + 1 ≤ c)
    (hc : r.Holds [stringChunk (r.byteOrder == .littleEndian) text]) :
    ∃ start, r.locateString bound capacity = some (some (start, text.length + 1), r) ∧
      (r.buffer.data.drop start).take (text.length + 1) = text ++ [0] ∧
      start + (text.length + 1) ≤ r.buffer.data.length ∧
      { r with offset := start + (text.length + 1) } =
        r.moved [stringChunk (r.byteOrder == .littleEndian) text] := by
  have hview := readStringView_chunk h hbound hmax hc
  rcases locateString_cases (valid_of_holds h hc) bound capacity with
    ⟨error, -, hrefused⟩ | ⟨start, text', -, -, hinside, -, -, htext, hlocate, hview'⟩
  · rcases hrefused with hnone | ⟨c, hc, hless⟩
    · cases hnone.symm.trans hview
    · exact absurd (hcapacity c hc) (Nat.not_le.2 (hless _ _ hview))
  · obtain ⟨htext', hmoved⟩ := Prod.mk.inj (hview'.symm.trans hview)
    obtain rfl := Option.some.inj htext'
    exact ⟨start, hlocate, htext, hinside, hmoved⟩

/-- **Where the chunk of a value stands, a read that corresponds returns the value.** -/
theorem read_chunk (h : r.Good) {v : CdrValue} {call : ReadCall} (hv : v.Respects) (hby : ReadBy v call)
    (hc : r.Holds [v.chunk (r.byteOrder == .littleEndian)]) :
    ∃ call', r.read call = some ((true, call'), r.moved [v.chunk (r.byteOrder == .littleEndian)]) ∧
      Returned r.buffer.data v call' := by
  have h1 : IntWidth 1 := .inl rfl
  have h2 : IntWidth 2 := .inr (.inl rfl)
  have h4 : IntWidth 4 := .inr (.inr (.inl rfl))
  have h8 : IntWidth 8 := .inr (.inr (.inr rfl))
  cases hby with
  | bool value previous => exact ⟨_, congrArg (Option.map _) (readBoolInto_chunk h hc previous), .bool value⟩
  | uint8 value previous =>
    exact ⟨_, congrArg (Option.map _) (readInto_value h h1 value.toNat_lt hc UInt8.ofNat_toNat), .uint8 value⟩
  | int16 value previous =>
    have hdecode : (UInt16.ofNat value.toUInt16.toNat).toInt16 = value := by
      rw [UInt16.ofNat_toNat, Int16.toInt16_toUInt16]
    exact ⟨_, congrArg (Option.map _) (readInto_value h h2 value.toUInt16.toNat_lt hc hdecode), .int16 value⟩
  | uint16 value previous =>
    exact ⟨_, congrArg (Option.map _) (readInto_value h h2 value.toNat_lt hc UInt16.ofNat_toNat), .uint16 value⟩
  | int32 value previous =>
    have hdecode : (UInt32.ofNat value.toUInt32.toNat).toInt32 = value := by
      rw [UInt32.ofNat_toNat, Int32.toInt32_toUInt32]
    exact ⟨_, congrArg (Option.map _) (readInto_value h h4 value.toUInt32.toNat_lt hc hdecode), .int32 value⟩
  | uint32 value previous =>
    exact ⟨_, congrArg (Option.map _) (readInto_value h h4 value.toNat_lt hc UInt32.ofNat_toNat), .uint32 value⟩
  | int64 value previous =>
    have hdecode : (UInt64.ofNat value.toUInt64.toNat).toInt64 = value := by
      rw [UInt64.ofNat_toNat, Int64.toInt64_toUInt64]
    exact ⟨_, congrArg (Option.map _) (readInto_value h h8 value.toUInt64.toNat_lt hc hdecode), .int64 value⟩
  | uint64 value previous =>
    exact ⟨_, congrArg (Option.map _) (readInto_value h h8 value.toNat_lt hc UInt64.ofNat_toNat), .uint64 value⟩
  | float32 value previous =>
    exact ⟨_, congrArg (Option.map _) (readInto_value h h4 value.toNat_lt hc UInt32.ofNat_toNat), .float32 value⟩
  | float64 value previous =>
    exact ⟨_, congrArg (Option.map _) (readInto_value h h8 value.toNat_lt hc UInt64.ofNat_toNat), .float64 value⟩
  | bytes data destination hsize husable =>
    obtain ⟨stored, hread, hdata⟩ :=
      readBytesInto_chunk h hc (hsize.trans (CdrValue.size_of_usable hv)) husable
    exact ⟨_, congrArg (Option.map _) hread, .bytes data stored hdata⟩
  | string value destination bound length hreal hroom =>
    have hsize := CdrValue.size_of_usable hv.1
    have hcapacity : ∀ c, some destination.size = some c → value.data.length + 1 ≤ c := by
      rintro c ⟨⟩
      rw [← hsize]
      exact hroom
    obtain ⟨start, hlocate, htext, hinside, hmoved⟩ :=
      locateString_chunk h (hsize ▸ hv.2.1) (hsize ▸ hv.2.2) hcapacity hc
    have hread : r.readStringInto destination bound length = some ((true,
        .bytes (splice destination.data 0 (value.data ++ [0])), value.size),
        r.moved [stringChunk (r.byteOrder == .littleEndian) value.data]) := by
      unfold readStringInto
      rw [if_neg (by simp [hreal]), hlocate, Option.bind_some]
      dsimp only
      rw [Option.elim_some, loads_eq hinside, Option.bind_some, htext,
        Span.store_eq hreal (by rw [List.length_append, List.length_singleton]; omega), Option.map_some, hmoved,
        Nat.add_sub_cancel, hsize]
    refine ⟨_, congrArg (Option.map _) hread, .string value _ bound
      (destination.data.drop (0 + (value.data ++ [0]).length)) ?_⟩
    change splice destination.data 0 (value.data ++ [0]) = _
    unfold splice
    rw [List.take_zero, List.nil_append, List.append_assoc]
    rfl
  | stringView value data bound length =>
    have hsize := CdrValue.size_of_usable hv.1
    have hcapacity : ∀ c, (none : Option ℕ) = some c → value.data.length + 1 ≤ c := nofun
    obtain ⟨start, hlocate, htext, hinside, hmoved⟩ :=
      locateString_chunk h (hsize ▸ hv.2.1) (hsize ▸ hv.2.2) hcapacity hc
    have hread : r.readStringViewInto data bound length = some ((true, start, value.size),
        r.moved [stringChunk (r.byteOrder == .littleEndian) value.data]) := by
      unfold readStringViewInto
      rw [hlocate, Option.map_some]
      dsimp only
      rw [Option.elim_some, hmoved, Nat.add_sub_cancel, hsize]
    refine ⟨_, congrArg (Option.map _) hread, .stringView value start bound ?_⟩
    have htake := congrArg (List.take value.data.length) htext
    rw [List.take_take, Nat.min_eq_left (Nat.le_succ _), List.take_left] at htake
    rw [hsize, htake]

/-- **Where the chunks of values stand, reads that correspond return the values.** -/
theorem read_chunks (h : r.Good) {values : List CdrValue} {calls : List ReadCall}
    (hv : ∀ v ∈ values, v.Respects) (hby : List.Forall₂ ReadBy values calls)
    (hc : r.Holds (chunksOf r.byteOrder values)) :
    ∃ reads, attempt perform r (calls.map .read) = some (r.moved (chunksOf r.byteOrder values), reads) ∧
      List.Forall₂ (fun v o => ∃ call, o.call = .read call ∧ Returned r.buffer.data v call) values reads ∧
      reads.map (fun o => (o.ok, o.position)) =
        (BufferWriter.ends r.position (slotsOf values)).map fun x => (true, 4 + x) := by
  induction hby generalizing r with
  | nil => exact ⟨[], congrArg (fun r => some (r, [])) (moved_nil h).symm, .nil, rfl⟩
  | @cons v call values calls hfirst _ ih =>
    set c := v.chunk (r.byteOrder == .littleEndian) with hchunk
    have hrespects : v.Respects := hv v List.mem_cons_self
    have hslot : c.slot = v.slot := CdrValue.chunk_slot _ hrespects
    obtain ⟨hhead, htail⟩ := (r.holds_append [c] (chunksOf r.byteOrder values)).1 hc
    obtain ⟨call', hread, hreturned⟩ := read_chunk h hrespects hfirst hhead
    obtain ⟨reads, hrun, hall, hmap⟩ := ih (h.moved [c]) (fun u hu => hv u (List.mem_cons_of_mem _ hu)) htail
    have hstep : r.perform (.read call) = some (r.moved [c], ⟨true, .read call', (r.moved [c]).offset⟩) :=
      congrArg (Option.map _) hread
    refine ⟨⟨true, .read call', (r.moved [c]).offset⟩ :: reads, ?_, .cons ⟨call', rfl, hreturned⟩ hall, ?_⟩
    · rw [List.map_cons, attempt_cons hstep, hrun, Option.map_some, moved_moved]
      rfl
    · have hposition : (r.moved [c]).position = v.slot.after r.position := by
        rw [moved_position, endOfChunks_cons, endOfChunks_nil, hslot]
      have hoffset : (r.moved [c]).offset = 4 + v.slot.after r.position := by
        change 4 + endOfChunks [c] r.position = _
        rw [endOfChunks_cons, endOfChunks_nil, hslot]
      rw [List.map_cons, hmap, hposition, hoffset]
      rfl

theorem beginChecked_eq {data : List UInt8} (hsize : 4 ≤ data.length) :
    (construct (.bytes data)).beginChecked = some (CdrReader.begin { buffer := .bytes data }) := by
  have hbyte : ∀ k < 2, byteAt (data.take 2) k = byteAt data k := fun k hk =>
    (byteAt_part (i := 0) hk).trans (congrArg (byteAt data) (Nat.zero_add k))
  have hroom : ¬ data.length < encapsulationSize := Nat.not_lt.2 hsize
  have hreal : ¬ (false && data.length != 0) = true := Bool.false_ne_true
  have hloads : loads data 0 2 = some (data.take 2) := loads_eq (by omega)
  unfold beginChecked CdrReader.begin
  refine (if_neg hreal).trans ((if_neg hroom).trans ?_)
  refine Eq.trans ?_ (congrArg some ((if_neg hreal).trans (if_neg hroom)).symm)
  change (loads data 0 2).map _ = _
  rw [hloads, Option.map_some, hbyte 0 (by decide), hbyte 1 (by decide)]
  change some (if byteAt data 0 ≠ 0 ∨ byteAt data 1 ≠ 0 ∧ byteAt data 1 ≠ 1 then _ else _) =
    some (if byteAt data 0 ≠ 0 ∨ byteAt data 1 ≠ 0 ∧ byteAt data 1 ≠ 1 then _ else _)
  split
  · rfl
  · rfl

end CdrReader

/-- **CDR primitives round trip.** In either byte order and for every buffer, a run of writes after `begin`:
a write succeeds exactly if no call before it has failed, its arguments respect its bound, and its aligned
start plus its encoded size is within the buffer. If all succeed, a reader over the bytes that were written
succeeds with the reads that correspond, is at the same position after each of them, returns the values and
has nothing left; every byte that belongs to no value is zero. -/
theorem cdr_round_trip (memory : List UInt8) (hmachine : memory.length ≤ uint64Max) (order : ByteOrder)
    (horder : order = .bigEndian ∨ order = .littleEndian) (values : List CdrValue) :
    ∃ w out, attempt BufferWriter.perform (.construct (.bytes memory))
        (.begin order :: values.map .write) = some (w, out) ∧
      (∀ before v after, values = before ++ v :: after →
        (out[before.length + 1]?.map Prod.fst = some true ↔
          (∀ o ∈ out.take (before.length + 1), o.1 = true) ∧ v.Respects ∧
            4 + alignUp v.slot.align (endOf (slotsOf before) 0) + v.slot.width ≤ memory.length)) ∧
      ((∀ o ∈ out, o.1 = true) →
        (∀ calls, List.Forall₂ ReadBy values calls →
          ∃ r reads, attempt CdrReader.perform (.construct (.bytes (w.buffer.data.take w.offset)))
              (.begin :: calls.map .read) = some (r, reads) ∧
            reads.map (fun o => (o.ok, o.position)) = out ∧
            List.Forall₂ (fun v o => ∃ call, o.call = .read call ∧
              Returned (w.buffer.data.take w.offset) v call) values reads.tail ∧
            r.remaining = 0) ∧
        ∀ i, 4 ≤ i → (∀ before v after, values = before ++ v :: after →
            i < 4 + alignUp v.slot.align (endOf (slotsOf before) 0) ∨
              4 + v.slot.after (endOf (slotsOf before) 0) ≤ i) →
          byteAt (w.buffer.data.take w.offset) i = 0) := by
  obtain ⟨w, out, hrun, hvalid, -, hlaid, -⟩ := BufferWriter.run_writes hmachine horder values
  refine ⟨w, out, hrun, ?_, fun hok => ⟨fun calls hby => ?_, fun i hi hout => ?_⟩⟩
  · rintro before v after rfl
    -- the run up to the value
    obtain ⟨w₁, out₁, hbefore, hprogress⟩ := BufferWriter.run_writes hmachine horder before
    obtain ⟨⟨ok, w₂⟩, hwrite, -⟩ := BufferWriter.write_effect hprogress.valid v
    have hstep : w₁.perform (.write v) = some (w₂, ok, w₂.offset) := congrArg (Option.map _) hwrite
    rw [List.map_append, ← List.cons_append, attempt_append hbefore, List.map_cons, attempt_cons hstep,
      Option.map_map] at hrun
    obtain ⟨⟨w₃, out₃⟩, -, heq⟩ := Option.map_eq_some_iff.1 hrun
    obtain ⟨-, rfl⟩ := Prod.mk.inj heq
    have hget : (out₁ ++ (ok, w₂.offset) :: out₃)[out₁.length]? = some (ok, w₂.offset) := by
      rw [List.getElem?_append_right le_rfl, Nat.sub_self]
      rfl
    dsimp only
    rw [← hprogress.length, List.take_left, hget, Option.map_some, Option.some_inj, Nat.add_assoc]
    exact (hprogress.write hwrite).2
  · obtain ⟨hlaid, hout⟩ := hlaid hok
    have hbytes := hlaid.contents
    set bytes := w.buffer.data.take w.offset with hdef
    have hcount : bytes.length = w.offset := by
      have hsize := w.buffer.size_of_real (hvalid.begun hlaid.begun).1
      have hfits := hvalid.fits
      rw [hdef, List.length_take]
      omega
    have hheader := (hvalid.begun hlaid.begun).2.2
    have hmachine' : bytes.length ≤ uint64Max := hcount.le.trans (hvalid.fits.trans hvalid.machine)
    have hbody : bytes.drop 4 = encode 0 (chunksOf order values) := by
      rw [hbytes]
      rfl
    obtain ⟨r, hbegin, hgood, hr, hposition, hbuffer⟩ := CdrReader.begin_good bytes (by omega) hmachine' horder
      (by rw [hbytes]; rfl) (by rw [hbytes]; rfl)
    have hholds : r.Holds (chunksOf r.byteOrder values) := by
      unfold CdrReader.Holds CdrReader.body
      rw [hbuffer, hposition, hr]
      change Lib.Holds (bytes.drop 4) 0 _
      rw [hbody]
      exact .of_encode _
    obtain ⟨reads, hreads, hreturned, htrace⟩ := CdrReader.read_chunks hgood hlaid.respects hby hholds
    have hstart : (CdrReader.construct (.bytes bytes)).perform .begin = some (r, ⟨true, .begin, r.offset⟩) := by
      change (CdrReader.beginChecked _).map _ = _
      rw [CdrReader.beginChecked_eq (by omega), hbegin]
      rfl
    have hoffset : r.offset = 4 := by
      have hbegun := hgood.begun
      unfold CdrReader.position at hposition
      omega
    refine ⟨r.moved (chunksOf r.byteOrder values), ⟨true, .begin, r.offset⟩ :: reads, ?_, ?_, ?_, ?_⟩
    · rw [attempt_cons hstart, hreads, Option.map_some]
    · rw [List.map_cons, htrace, hposition, hoffset, hout]
    · rw [hbuffer] at hreturned
      exact hreturned
    · have hend : endOfChunks (chunksOf r.byteOrder values) r.position = endOf (slotsOf values) 0 := by
        rw [hposition, endOfChunks, slots_chunksOf _ hlaid.respects]
      change r.buffer.size - (4 + endOfChunks (chunksOf r.byteOrder values) r.position) = 0
      rw [hend, hbuffer, ← hlaid.offset]
      exact Nat.sub_eq_zero_of_le hcount.le
  · obtain ⟨hlaid, -⟩ := hlaid hok
    rw [hlaid.contents]
    obtain ⟨k, rfl⟩ := Nat.exists_eq_add_of_le hi
    unfold byteAt
    rw [List.getD_append_right _ _ _ _ (by rw [cdrHeader]; exact Nat.le_add_right 4 k)]
    change (encode 0 (chunksOf order values)).getD (4 + k - 4) 0 = 0
    rw [Nat.add_sub_cancel_left]
    refine encode_padding fun before c after hsplit => ?_
    obtain ⟨before', rest, rfl, rfl, hrest⟩ := List.map_eq_append_iff.1 hsplit
    obtain ⟨v, after', rfl, rfl, -⟩ := List.map_eq_cons_iff.1 hrest
    have hslot : (v.chunk (order == .littleEndian)).slot = v.slot :=
      CdrValue.chunk_slot _ (hlaid.respects v (List.mem_append_right _ List.mem_cons_self))
    have hend : endOfChunks (before'.map (CdrValue.chunk (order == .littleEndian))) 0 =
        endOf (slotsOf before') 0 := by
      have hslots := slots_chunksOf order fun u hu => hlaid.respects u (List.mem_append_left _ hu)
      exact congrArg (endOf · 0) hslots
    have halign : (v.chunk (order == .littleEndian)).align = v.slot.align := congrArg Slot.align hslot
    rw [hend, hslot, halign]
    rcases hout before' v after' rfl with hless | hmore
    · exact .inl (by omega)
    · exact .inr (by omega)

/-- The bytes of an octet, a `bool` and a string with their padding are read back. -/
theorem octet_and_text_read_back :
    ∃ w out, attempt BufferWriter.perform (.construct (.bytes (.replicate 32 255)))
        [.begin .bigEndian, .write (.uint8 7), .write (.string (.bytes [65, 66]) 4), .write (.bool true)] =
          some (w, out) ∧
      ∃ r reads, attempt CdrReader.perform (.construct (.bytes (w.buffer.data.take w.offset)))
          [.begin, .read (.uint8 0), .read (.stringView 0 4 0), .read (.bool false)] = some (r, reads) ∧
        reads.map (fun o => (o.ok, o.position)) = out ∧ r.remaining = 0 := by
  obtain ⟨w, out, hrun, -, hread⟩ := cdr_round_trip (.replicate 32 255) (by decide) .bigEndian (.inl rfl)
    [.uint8 7, .string (.bytes [65, 66]) 4, .bool true]
  have hok : ∀ o ∈ out, o.1 = true := by
    obtain rfl := congrArg Prod.snd (Option.some.inj hrun)
    decide
  obtain ⟨r, reads, hreads, htrace, -, hend⟩ := (hread hok).1
    [.uint8 0, .stringView 0 4 0, .bool false]
    (.cons (.uint8 7 0) (.cons (.stringView _ 0 4 0) (.cons (.bool true false) .nil)))
  exact ⟨w, out, hrun, r, reads, hreads, htrace, hend⟩

end OpenRtdds
