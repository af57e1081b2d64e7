import OpenRtdds.Proof.Serialize

/-!
# The largest size of a type

The analysis computes the size of one value, with every string and sequence at its bound.
Shorter strings change the padding of everything behind them, but a slot that starts no later
also ends no later, so no value of the type takes more.

* `messageChunks_slots`: the chunks of a value lie within the slots of the type, and fill them
  if the value is at its bounds.
* `Descriptor.serialize_outcome`: what `serialize_xcdr1` answers for a message within bounds.
* `maximumSerializedSize_sound_exact`: what this says about `maximum_serialized_size`.
-/

namespace OpenRtdds

open Lib

/-- A comparison of lists of slots that follows from a comparison of lengths. -/
structure Measures (within : ℕ → ℕ → Prop) (R : List Slot → List Slot → Prop) : Prop where
  same : ∀ n, within n n
  refl : ∀ l, R l l
  append : ∀ {a b c d}, R a b → R c d → R (a ++ c) (b ++ d)
  text : ∀ {m n}, within m n → R [⟨4, 4 + (m + 1)⟩] [⟨4, 4 + (n + 1)⟩]
  repeated : ∀ {ls : List (List Slot)} {l n}, (∀ x ∈ ls, R x l) → within ls.length n →
    R ls.flatten (List.replicate n l).flatten

theorem measures_le : Measures (· ≤ ·) Within where
  same := le_refl
  refl := .refl
  append := .append
  text h := .cons ⟨rfl, by simpa using h⟩ .nil
  repeated := by
    intro ls l n hls
    induction ls generalizing n with
    | nil => intro _; exact .nil
    | cons x ls ih =>
      intro hn
      obtain ⟨n, rfl⟩ : ∃ k, n = k + 1 := ⟨n - 1, by simp at hn; omega⟩
      rw [List.forall_mem_cons] at hls
      exact .append hls.1 (ih hls.2 (by simpa using hn))

theorem measures_eq : Measures (· = ·) (· = ·) where
  same _ := rfl
  refl _ := rfl
  append h h' := by rw [h, h']
  text h := by rw [h]
  repeated h hn := by rw [List.eq_replicate_of_mem h, hn]

section Slots

variable {N : Type} {within : ℕ → ℕ → Prop} {R : List Slot → List Slot → Prop} {little : Bool}
  {inBounds : Pointer → N → Prop} {chunks : Pointer → N → List Chunk}
  {slots : Pointer → List Slot} {member : Member}

theorem elementChunks_slots (hR : Measures within R)
    (hnested : ∀ p m, inBounds p m → R ((chunks p m).map Chunk.slot) (slots p))
    {e : Element Text N} (he : ElementMeets (bounded within) inBounds member e) :
    R ((elementChunks little chunks member e).map Chunk.slot) (elementSlots slots member) := by
  cases he with
  | scalar width hwidth _ =>
    simp only [elementChunks, elementSlots, hwidth, Option.getD_some, List.map_cons, List.map_nil,
      intChunk_slot]
    exact hR.refl _
  | text htype hlen =>
    simp only [elementChunks, elementSlots, htype, scalarLayout, List.map_cons, List.map_nil,
      stringChunk_slot]
    exact hR.text hlen
  | nested htype hp hm =>
    simp only [elementChunks, elementSlots, htype, scalarLayout, hp, Option.elim]
    exact hnested _ _ hm

theorem fieldChunks_slots (hR : Measures within R)
    (hnested : ∀ p m, inBounds p m → R ((chunks p m).map Chunk.slot) (slots p))
    {field : Field Text N} (hf : FieldMeets (bounded within) inBounds member field) :
    R ((fieldChunks little chunks member field).map Chunk.slot) (fieldSlots slots member) := by
  cases hf with
  | single harray he =>
    simp only [fieldChunks, fieldSlots, harray, Bool.false_and, Bool.false_eq_true, if_false,
      List.nil_append, List.replicate_one, List.flatten_cons, List.flatten_nil, List.append_nil]
    exact elementChunks_slots hR hnested he
  | @array es harray hcount hes =>
    simp only [fieldChunks, fieldSlots, harray, Bool.true_and, if_true, List.map_append,
      List.map_flatMap]
    have hcount' : within es.length member.arraySize := by
      simp only [bounded] at hcount
      split at hcount
      · exact hcount
      · rw [hcount]
        exact hR.same _
    refine hR.append ?_ ?_
    · cases member.isUpperBound <;> simp [hR.refl]
    · refine hR.repeated ?_ ((List.length_map _).symm ▸ hcount')
      simp only [List.forall_mem_map]
      exact fun e he => elementChunks_slots hR hnested (hes e he)

end Slots

/-- **The chunks of a value and the slots of its type** compare as their lengths do. -/
theorem messageChunks_slots {within : ℕ → ℕ → Prop} {R : List Slot → List Slot → Prop}
    (hR : Measures within R) (memory : Memory) (little : Bool) (depth : ℕ) :
    ∀ {pointer : Pointer} {m : Message Text depth}, Meets (bounded within) memory depth pointer m →
      R ((messageChunks little memory depth pointer m).map Chunk.slot)
        (messageSlots memory depth pointer) := by
  induction depth with
  | zero => intro _ m; cases m
  | succ depth ih =>
    intro pointer m hm
    simp only [messageChunks, messageSlots]
    change List.Forall₂ _ (memory pointer).list m at hm
    generalize (memory pointer).list = members at hm ⊢
    induction hm with
    | nil => exact hR.refl _
    | cons hfield _ ihm =>
      simp only [List.zipWith_cons_cons, List.flatten_cons, List.map_append, List.flatMap_cons]
      refine hR.append (fieldChunks_slots hR ?_ hfield) ihm
      intro p m hm
      exact ih hm

theorem Meets.imp {S : Type} {c d : Checks S} (hscalar : ∀ {m b}, c.scalar m b → d.scalar m b)
    (htext : ∀ {m s}, c.text m s → d.text m s) (harray : ∀ {m n}, c.array m n → d.array m n)
    {memory : Memory} (depth : ℕ) : ∀ {pointer : Pointer} {v : Message S depth},
    Meets c memory depth pointer v → Meets d memory depth pointer v := by
  induction depth with
  | zero => intro _ v; cases v
  | succ depth ih =>
    intro pointer v hv
    have helement : ∀ {member e}, ElementMeets c (Meets c memory depth) member e →
        ElementMeets d (Meets d memory depth) member e := by
      rintro member _ (⟨width, hw, h⟩ | ⟨ht, h⟩ | ⟨ht, hp, h⟩)
      · exact .scalar width hw (hscalar h)
      · exact .text ht (htext h)
      · exact .nested ht hp (ih h)
    refine List.Forall₂.imp ?_ hv
    rintro member _ (⟨ha, he⟩ | ⟨ha, hn, hes⟩)
    · exact .single ha (helement he)
    · exact .array ha (harray hn) fun e he => helement (hes e he)

namespace Descriptor

variable {language : TypeSupportLanguage} (D : Descriptor language)

/-- The bytes of a value: the encapsulation header and the chunks. -/
def encoding (order : ByteOrder) (m : Message Text maximumTypeNestingDepth) : List UInt8 :=
  [0, if order = .littleEndian then 1 else 0, 0, 0] ++
    encode 0 (messageChunks (order == .littleEndian) D.memory maximumTypeNestingDepth D.root m)

theorem encoding_length (order : ByteOrder) (m : Message Text maximumTypeNestingDepth) :
    (D.encoding order m).length = 4 + endOf
      ((messageChunks (order == .littleEndian) D.memory maximumTypeNestingDepth D.root m).map
        Chunk.slot) 0 := by
  simp [encoding, encode_length, endOfChunks]
  omega

/-- The value of a message. -/
abbrev value (v : Sample language) : Message Text maximumTypeNestingDepth :=
  Message.view (stringsOf language) maximumTypeNestingDepth v

variable {order : ByteOrder} {v : Sample language} {capacity : ℕ}

theorem encoding_length_le {m : Message Text maximumTypeNestingDepth}
    (hm : Meets (bounded (· ≤ ·)) D.memory maximumTypeNestingDepth D.root m) :
    (D.encoding order m).length ≤ D.info.maximumSerializedSize := by
  obtain ⟨-, -, -, hsize, -⟩ := D.analysed
  rw [encoding_length, hsize]
  exact Nat.add_le_add_left (endOf_le (messageChunks_slots measures_le _ _ _ hm) le_rfl) 4

theorem encoding_length_eq (hv : D.AtBounds v) :
    (D.encoding order (value v)).length = D.info.maximumSerializedSize := by
  obtain ⟨-, -, -, hsize, -⟩ := D.analysed
  rw [encoding_length, hsize, messageChunks_slots measures_eq _ _ _ hv]
  rfl

/-- `serialize_xcdr1` into a buffer for the largest message is the walk, behind the header. -/
theorem serialize_eq (ho : order = .bigEndian ∨ order = .littleEndian)
    (v : Sample language) (hcap : D.info.maximumSerializedSize ≤ capacity)
    (hm : capacity ≤ uint64Max) :
    ∃ w : CdrWriter, w.Good ∧ w.byteOrder = order ∧ w.capacity = capacity ∧
      w.written = [0, if order = .littleEndian then 1 else 0, 0, 0] ∧
      D.serialize v capacity order =
        (serializeMembers (stringsOf language) D.memory _ D.root v w).map CdrWriter.written := by
  obtain ⟨-, -, -, hsize, -⟩ := D.analysed
  obtain ⟨info, hinfo, -⟩ := D.accepts hcap hm
  obtain ⟨w, hbegin, hgood, horder, hcapacity, hwritten⟩ := CdrWriter.begin_good (by omega) hm ho
  refine ⟨w, hgood, horder, hcapacity, hwritten, ?_⟩
  unfold serialize serializeXcdr1
  rw [if_neg (by tauto), D.handle_data, hinfo]
  simp only [hbegin, if_true]
  rfl

/-- **Serialization of a message within its bounds** into a buffer for the largest one. -/
theorem serialize_outcome (ho : order = .bigEndian ∨ order = .littleEndian) (hv : D.InBounds v)
    (hcap : D.info.maximumSerializedSize ≤ capacity) (hm : capacity ≤ uint64Max) :
    (D.Ready v ∧ D.serialize v capacity order = .ok (D.encoding order (value v))) ∨
      (¬ D.Ready v ∧ ∃ e, D.serialize v capacity order = .error e ∧ e.error ≠ .outputTooSmall) := by
  obtain ⟨-, -, hadm, -, -⟩ := D.analysed
  obtain ⟨w, hgood, horder, hcapacity, hwritten, hserialize⟩ := D.serialize_eq ho v hcap hm
  have hposition : w.position = 0 := by simp [CdrWriter.position, CdrWriter.size, hwritten]
  have hfits : w.Fits (messageChunks (order == .littleEndian) D.memory maximumTypeNestingDepth D.root
      (value v)) := by
    have hle : (D.encoding order (value v)).length ≤ _ := D.encoding_length_le hv
    rw [encoding_length] at hle
    unfold CdrWriter.Fits
    rw [hposition, hcapacity]
    exact hle.trans hcap
  rw [hserialize]
  rcases serializeMembers_writes (stringsOf_lawful language) (order == .littleEndian) _
      hadm.allMembers hv w hgood (by rw [horder]) hfits with ⟨hready, heq⟩ | ⟨hno, e, heq, he⟩
  · refine .inl ⟨hready, ?_⟩
    rw [heq]
    simp only [Except.map, CdrWriter.put, hposition, hwritten]
    rfl
  · exact .inr ⟨hno, e, by rw [heq]; rfl, he⟩

/-- **A message that is serialized** is within its bounds and can be read, and the bytes are those of
its value. -/
theorem serialize_ok (hv : D.Typed v) (ho : order = .bigEndian ∨ order = .littleEndian)
    (hcap : D.info.maximumSerializedSize ≤ capacity) (hm : capacity ≤ uint64Max)
    {bytes : List UInt8} (h : D.serialize v capacity order = .ok bytes) :
    D.InBounds v ∧ D.Ready v ∧ bytes = D.encoding order (value v) := by
  obtain ⟨w, -, -, -, -, hserialize⟩ := D.serialize_eq ho v hcap hm
  have hin : D.InBounds v := by
    rw [hserialize] at h
    cases hwalk : serializeMembers (stringsOf language) D.memory _ D.root v w with
    | error e =>
      rw [hwalk] at h
      cases h
    | ok w' => exact serializeMembers_bounded (stringsOf_lawful language) _ hv hwalk
  rcases D.serialize_outcome ho hin hcap hm with ⟨hready, heq⟩ | ⟨-, e, heq, -⟩
  · rw [heq] at h
    cases h
    exact ⟨hin, hready, rfl⟩
  · rw [heq] at h
    cases h

theorem serialize_ready (hv : D.Typed v)
    (hm : capacity ≤ uint64Max) {bytes : List UInt8} (h : D.serialize v capacity order = .ok bytes) :
    D.InBounds v ∧ D.Ready v := by
  obtain ⟨name, hname, -⟩ := D.analysed
  have hanalysis : (order = .bigEndian ∨ order = .littleEndian) ∧
      ∃ info, analyzeTypeSupport D.memory D.handle capacity = .ok info := by
    unfold serialize serializeXcdr1 at h
    split at h
    · cases h
    rename_i ho
    refine ⟨by tauto, ?_⟩
    cases hinfo : analyzeTypeSupport D.memory D.handle capacity with
    | ok info => exact ⟨info, rfl⟩
    | error e =>
      rw [hinfo] at h
      cases hdata : D.handle.data <;> rw [hdata] at h <;> cases h
  obtain ⟨ho, info, hinfo⟩ := hanalysis
  -- the analysis with the buffer as the limit makes another descriptor of the type
  have hlanguage : info.language = language := by
    obtain ⟨p, hname', -⟩ := analyzeTypeSupport_ok hm hinfo
    rw [hname, Except.ok.injEq, Prod.mk.injEq] at hname'
    exact hname'.1.symm
  let D' : Descriptor language := ⟨D.memory, D.handle, capacity, info, hinfo, hlanguage, hm⟩
  obtain ⟨-, -, -, -, hlimit⟩ := D'.analysed
  have hok := D'.serialize_ok hv ho hlimit hm h
  exact ⟨hok.1, hok.2.1⟩

theorem AtBounds.inBounds {D : Descriptor language} (h : D.AtBounds v) :
    D.InBounds v := by
  refine Meets.imp (c := bounded (· = ·)) (d := bounded (· ≤ ·)) id (fun h => le_of_eq h) ?_ _ h
  intro member n hn
  simp only [bounded] at hn ⊢
  split at hn <;> rename_i hupper <;> simp only [hupper] <;> first | exact hn.le | exact hn

end Descriptor

/-- **`maximum_serialized_size` is sound and exact.** A message within its bounds never fails for
want of space in a buffer of that size, and takes at most that size. A message at its bounds
takes exactly that size if the codec can read it: its arrays have the callbacks for that and
counts of 32 bits, and its strings are terminated. -/
theorem maximumSerializedSize_sound_exact {language : TypeSupportLanguage} (D : Descriptor language)
    {order : ByteOrder} (ho : order = .bigEndian ∨ order = .littleEndian) (v : Sample language) :
    (D.InBounds v →
      (∀ e, D.serialize v D.info.maximumSerializedSize order = .error e →
        e.error ≠ .outputTooSmall) ∧
      ∀ bytes, D.serialize v D.info.maximumSerializedSize order = .ok bytes →
        bytes.length ≤ D.info.maximumSerializedSize) ∧
    (D.AtBounds v →
      ((∃ bytes, D.serialize v D.info.maximumSerializedSize order = .ok bytes ∧
        bytes.length = D.info.maximumSerializedSize) ↔ D.Ready v)) := by
  obtain ⟨-, -, -, -, hlimit⟩ := D.analysed
  have houtcome : D.InBounds v → _ := fun hv =>
    D.serialize_outcome ho hv le_rfl (hlimit.trans D.machine)
  refine ⟨fun hv => ?_, fun hv => ?_⟩
  · rcases houtcome hv with ⟨-, heq⟩ | ⟨-, e, heq, he⟩
    · rw [heq]
      refine ⟨fun e he => (nomatch he), fun bytes hbytes => ?_⟩
      cases hbytes
      exact D.encoding_length_le hv
    · rw [heq]
      refine ⟨fun e' he' => ?_, fun bytes hbytes => (nomatch hbytes)⟩
      cases he'
      exact he
  · rcases houtcome hv.inBounds with ⟨hready, heq⟩ | ⟨hno, e, heq, -⟩
    · exact ⟨fun _ => hready, fun _ => ⟨_, heq, D.encoding_length_eq hv⟩⟩
    · refine ⟨?_, fun h => absurd h hno⟩
      rintro ⟨bytes, hbytes, -⟩
      rw [heq] at hbytes
      cases hbytes

/-- A type of booleans, a string and an array of nested messages, in one of the languages. -/
def sampleMemory (identifier : Identifier) (booleans : ArrayCallbacks) : Memory := fun pointer =>
  if pointer = 0 then {
    messageNamespace := some ['p'], messageName := some ['M'], sizeOf := 72, memberCount := 3
    members := some #v[
      { typeId := .boolean, isArray := true, arraySize := 2, isUpperBound := true
        callbacks := booleans },
      { typeId := .string, stringUpperBound := 3, offset := 40 },
      { typeId := .message, members := some ⟨some identifier, some 1⟩, isArray := true
        arraySize := 2, offset := 68, callbacks := { size := true, getConst := true, get := true } }] }
  else {
    messageNamespace := some ['p'], messageName := some ['N'], sizeOf := 2, memberCount := 1
    members := some #v[{ typeId := .uint16 }] }

/-- The type in C++, where a sequence of booleans has no elements in place. -/
def sampleDescriptor : Descriptor .introspectionCpp where
  memory := sampleMemory .introspectionCpp { size := true, fetch := true, assign := true }
  handle := ⟨some .introspectionCpp, some 0⟩
  limit := 64
  info := ⟨.introspectionCpp, 24, 4, 2, ['p', ':', ':', 'd', 'd', 's', '_', ':', ':', 'M', '_']⟩
  accepted := rfl
  introspection := rfl
  machine := by decide

/-- A message of the type at its bounds. -/
def fullSample : Sample .introspectionCpp :=
  [.array [.scalar 1, .scalar 0], .single (.text ⟨[97, 98, 99], 15, by decide⟩),
    .array [.nested [.single (.scalar 7)], .nested [.single (.scalar 258)]]]

theorem fullSample_atBounds : sampleDescriptor.AtBounds fullSample := by
  refine .cons (.array rfl rfl ?_) (.cons (.single rfl (.text rfl rfl)) (.cons (.array rfl rfl ?_) .nil))
  · refine List.forall_mem_cons.2 ⟨?_, List.forall_mem_singleton.2 ?_⟩ <;>
      exact .scalar 1 rfl (by simp [bounded, scalarLayout])
  · refine List.forall_mem_cons.2 ⟨?_, List.forall_mem_singleton.2 ?_⟩ <;>
      exact .nested rfl rfl (.cons (.single rfl (.scalar 2 rfl (by simp [bounded, scalarLayout]))) .nil)

theorem fullSample_ready : sampleDescriptor.Ready fullSample := by
  refine .cons (.array rfl ⟨rfl, by decide⟩ ?_) (.cons (.single rfl (.text rfl rfl))
    (.cons (.array rfl ⟨rfl, by decide⟩ ?_) .nil))
  · refine List.forall_mem_cons.2 ⟨?_, List.forall_mem_singleton.2 ?_⟩ <;> exact .scalar 1 rfl trivial
  · refine List.forall_mem_cons.2 ⟨?_, List.forall_mem_singleton.2 ?_⟩ <;>
      exact .nested rfl rfl (.cons (.single rfl (.scalar 2 rfl trivial)) .nil)

/-- The message at its bounds takes the 24 bytes the analysis says. -/
theorem fullSample_size :
    sampleDescriptor.AtBounds fullSample ∧ sampleDescriptor.info.maximumSerializedSize = 24 ∧
      ∃ bytes, sampleDescriptor.serialize fullSample 24 .littleEndian = .ok bytes ∧
        bytes.length = 24 :=
  ⟨fullSample_atBounds, rfl,
    ((maximumSerializedSize_sound_exact sampleDescriptor (.inr rfl) fullSample).2
      fullSample_atBounds).2 fullSample_ready⟩

/-- A C++ type with one array of `n` bytes. -/
def arrayMemory (n : ℕ) : Memory := fun _ => {
  messageNamespace := some ['p'], messageName := some ['A'], sizeOf := n, memberCount := 1
  members := some #v[
    { typeId := .uint8, isArray := true, arraySize := n
      callbacks := { size := true, getConst := true, get := true } }] }

theorem arrayMemory_slots (n : ℕ) :
    endOf (messageSlots (arrayMemory n) maximumTypeNestingDepth 0) 0 = n := by
  have hbytes : ∀ k x, endOf (List.replicate k [(⟨1, 1⟩ : Slot)]).flatten x = x + k := by
    intro k
    induction k with
    | zero => intro x; rfl
    | succ k ih =>
      intro x
      rw [List.replicate_succ, List.flatten_cons, endOf_append, ih]
      simp only [endOf_cons, endOf_nil, Slot.after, alignUp_one]
      omega
  have hshape : messageSlots (arrayMemory n) maximumTypeNestingDepth 0 =
      (List.replicate n [(⟨1, 1⟩ : Slot)]).flatten ++ [] := rfl
  rw [hshape, List.append_nil, hbytes, Nat.zero_add]

theorem arrayMemory_accepted {n : ℕ} (hn : 0 < n) (hm : 4 + n ≤ uint64Max) :
    ∃ D : Descriptor .introspectionCpp, D.memory = arrayMemory n ∧ D.root = 0 := by
  have hadm : Admitted (arrayMemory n) .introspectionCpp maximumTypeNestingDepth [] 0 := by
    refine ⟨?_, List.not_mem_nil, List.forall_mem_singleton.2 ⟨hn, rfl, fun _ => hn, ?_, trivial⟩⟩
    · simp [MessageMembers.wellFormed, arrayMemory]
      omega
    · intro _ h
      cases h
  obtain ⟨info, hinfo, hlanguage⟩ := analyzeTypeSupport_accepts hm
    (show deriveTypeName (arrayMemory n) ⟨some .introspectionCpp, some 0⟩ = .ok (_, 0, _) from rfl)
    hadm (by rw [arrayMemory_slots])
  exact ⟨⟨arrayMemory n, ⟨some .introspectionCpp, some 0⟩, 4 + n, info, hinfo, hlanguage, hm⟩,
    rfl, rfl⟩

variable {D : Descriptor .introspectionCpp}

theorem arrayMemory_generated {n : ℕ}
    (hD : D.memory = arrayMemory n) (hroot : D.root = 0) : D.Generated := by
  rw [Descriptor.Generated, hD, hroot]
  exact List.forall_mem_singleton.2 ⟨rfl, fun h => nomatch h⟩

/-- The only message of the type, with zeros. -/
def zeros (n : ℕ) : Sample .introspectionCpp := [.array (List.replicate n (.scalar 0))]

theorem zeros_atBounds {n : ℕ} (hD : D.memory = arrayMemory n)
    (hroot : D.root = 0) : D.AtBounds (zeros n) := by
  unfold Descriptor.AtBounds
  rw [hD, hroot]
  refine .cons (.array rfl ?_ ?_) .nil
  · simp [bounded]
  · intro e he
    obtain ⟨x, hx, rfl⟩ := List.mem_map.1 he
    rw [List.eq_of_mem_replicate hx]
    exact .scalar 1 rfl (by simp [bounded, scalarLayout])

theorem zeros_refused {n : ℕ} (hn : uint32Max < n)
    (hD : D.memory = arrayMemory n) (hroot : D.root = 0) {order : ByteOrder}
    (ho : order = .bigEndian ∨ order = .littleEndian) {capacity : ℕ}
    (hcap : D.info.maximumSerializedSize ≤ capacity) (hm : capacity ≤ uint64Max) :
    D.serialize (zeros n) capacity order =
      .error { error := .fieldBoundExceeded, bytesProcessed := 4 } := by
  obtain ⟨w, -, -, -, hwritten, heq⟩ := D.serialize_eq ho (zeros n) hcap hm
  have hsize : w.size = 4 := by simp [CdrWriter.size, hwritten]
  rw [heq, hD, hroot]
  change (serializeFields (serializeField cppStrings _) [_] [.array (List.replicate n (.scalar 0))]
    w).map CdrWriter.written = _
  simp only [serializeFields]
  rw [serializeField_many rfl rfl (by rw [List.length_replicate]; exact hn), hsize]
  rfl

/-- The bounded sequence of bytes without any callbacks. -/
def bareDescriptor : Descriptor .introspectionCpp where
  memory := fun _ => {
    messageNamespace := some ['p'], messageName := some ['B'], sizeOf := 24, memberCount := 1
    members := some #v[{ typeId := .uint8, isArray := true, arraySize := 1, isUpperBound := true }] }
  handle := ⟨some .introspectionCpp, some 0⟩
  limit := 9
  info := ⟨.introspectionCpp, 9, 4, 1, ['p', ':', ':', 'd', 'd', 's', '_', ':', ':', 'B', '_']⟩
  accepted := rfl
  introspection := rfl
  machine := by decide

/-- **Two accepted types whose message at its bounds does not serialize**: an array of 2³² bytes,
and a sequence without callbacks. -/
theorem fullArray_and_bareSequence_refused :
    (∃ D : Descriptor .introspectionCpp, D.AtBounds (zeros 4294967296) ∧ D.Generated ∧
      D.serialize (zeros 4294967296) D.info.maximumSerializedSize .littleEndian =
        .error { error := .fieldBoundExceeded, bytesProcessed := 4 }) ∧
    (bareDescriptor.AtBounds [.array [.scalar 0]] ∧
      bareDescriptor.serialize [.array [.scalar 0]] bareDescriptor.info.maximumSerializedSize
        .littleEndian = .error { error := .callbackMissing, bytesProcessed := 4 }) := by
  refine ⟨?_, .cons (.array rfl rfl ?_) .nil, rfl⟩
  · obtain ⟨D, hD, hroot⟩ := arrayMemory_accepted (n := 4294967296) (by decide) (by decide)
    obtain ⟨-, -, -, -, hlimit⟩ := D.analysed
    exact ⟨D, zeros_atBounds hD hroot, arrayMemory_generated hD hroot,
      zeros_refused (by decide) hD hroot (.inr rfl) le_rfl (hlimit.trans D.machine)⟩
  · exact List.forall_mem_singleton.2 (.scalar 1 rfl (by simp [bounded, scalarLayout]))

end OpenRtdds
