import OpenRtdds.Spec.RouterReference

/-!
# Reading behind a field

A built message is a chain of fields, and a parser reads at offsets. Each lemma moves a read past
the fields before it, or reads back the field that it starts at.

* `byteAt_skip`, `readAt_skip`, `copyAt_skip`: reading behind a field.
* `byteAt_left`, `readAt_left`, `copyAt_left`: reading before the rest of a message.
* `readAt_storeInt`, `copyAt_toList`: reading a field.
* `At`: some bytes are at a position of a message; `At.split` takes them apart, and `At.readAt`, `At.copyAt`
  read a field.
* `copyAt_slice`, `storeInt_readAt`: what was read is written back as the bytes of the message.
* `byteAt_part`, `readAt_part`, `copyAt_part`: reading a part of the message.
* `joinWords`, `splitWords`: a sequence number is the join of its two words.
* `headerContext_bytes`: the context of a written RTPS header.
-/

namespace OpenRtdds

open Lib

variable {x rest : List UInt8} {i : ℕ}

theorem byteAt_skip (h : x.length ≤ i) : byteAt (x ++ rest) i = byteAt rest (i - x.length) := by
  simp only [byteAt, List.getD, List.getElem?_append_right h]

theorem byteAt_left (h : i < x.length) : byteAt (x ++ rest) i = byteAt x i := by
  simp only [byteAt, List.getD, List.getElem?_append_left h]

theorem readAt_skip (width : ℕ) (order : ByteOrder) (h : x.length ≤ i) :
    readAt (x ++ rest) i width order = readAt rest (i - x.length) width order := by
  apply loadInt_congr
  intro k _
  rw [byteAt_skip (by omega)]
  congr 1
  omega

theorem copyAt_skip (n : ℕ) (h : x.length ≤ i) :
    copyAt (x ++ rest) i n = copyAt rest (i - x.length) n := by
  apply Vector.ext
  intro k _
  simp only [copyAt, Vector.getElem_ofFn]
  rw [byteAt_skip (by omega)]
  congr 1
  omega

theorem readAt_left {width : ℕ} (order : ByteOrder) (h : i + width ≤ x.length) :
    readAt (x ++ rest) i width order = readAt x i width order := by
  apply loadInt_congr
  intro k _
  rw [byteAt_left (by omega)]

theorem copyAt_left {n : ℕ} (h : i + n ≤ x.length) : copyAt (x ++ rest) i n = copyAt x i n := by
  apply Vector.ext
  intro k _
  simp only [copyAt, Vector.getElem_ofFn]
  rw [byteAt_left (by omega)]

theorem readAt_storeInt (order : ByteOrder) (width value : ℕ) :
    readAt (storeInt (order == .littleEndian) width value ++ rest) 0 width order =
      value % 2 ^ (8 * width) := by
  rw [← load_store (order == .littleEndian) width value]
  apply loadInt_congr
  intro k hk
  have hlen := storeInt_length (order == .littleEndian) width value
  rw [Nat.zero_add, byteAt_left (by omega)]
  rfl

theorem copyAt_toList {n : ℕ} (v : Vector UInt8 n) : copyAt (v.toList ++ rest) 0 n = v := by
  apply Vector.ext
  intro k hk
  have hlen : v.toList.length = n := v.length_toList
  simp only [copyAt, Vector.getElem_ofFn, Nat.zero_add]
  rw [byteAt_left (by omega)]
  simp [byteAt, List.getD, hk]

section At

/-- The bytes `x` are at position `i` of the message. -/
def At (m : List UInt8) (i : ℕ) (x : List UInt8) : Prop :=
  ∃ before rest, m = before ++ (x ++ rest) ∧ before.length = i

namespace At

variable {m x y : List UInt8} {i : ℕ}

theorem refl (x : List UInt8) : At x 0 x := ⟨[], [], (List.append_nil x).symm, rfl⟩

theorem left (h : At m i (x ++ y)) : At m i x := by
  obtain ⟨before, rest, rfl, hi⟩ := h
  exact ⟨before, y ++ rest, by rw [List.append_assoc], hi⟩

theorem right (h : At m i (x ++ y)) : At m (i + x.length) y := by
  obtain ⟨before, rest, rfl, hi⟩ := h
  exact ⟨before ++ x, rest, by simp only [List.append_assoc], by rw [List.length_append, hi]⟩

theorem split (h : At m i (x ++ y)) {n : ℕ} (hn : x.length = n) : At m i x ∧ At m (i + n) y :=
  ⟨h.left, hn ▸ h.right⟩

theorem flatMap {α : Type} {bytes : α → List UInt8} {l : List α} (h : At m i (l.flatMap bytes)) {k : ℕ}
    (hk : k < l.length) : At m (i + ((l.take k).flatMap bytes).length) (bytes l[k]) := by
  rw [← List.take_append_drop k l, List.flatMap_append, List.drop_eq_getElem_cons hk,
    List.flatMap_cons] at h
  exact h.right.left

theorem le (h : At m i x) : i + x.length ≤ m.length := by
  obtain ⟨before, rest, rfl, hi⟩ := h
  simp only [List.length_append]
  omega

theorem of_part {rest : List UInt8} {n : ℕ} (hin : i + n ≤ m.length)
    (h : (m.drop i).take n = y ++ (x ++ rest)) : At m (i + y.length) x := by
  refine ⟨m.take i ++ y, rest ++ m.drop (i + n), ?_, ?_⟩
  · rw [List.append_assoc, ← List.append_assoc x, ← List.append_assoc y, ← h, ← List.drop_drop,
      List.take_append_drop, List.take_append_drop]
  · rw [List.length_append, List.length_take]
    omega

theorem take_eq (h : At m i x) : (m.drop i).take x.length = x := by
  obtain ⟨before, rest, rfl, hi⟩ := h
  rw [List.drop_left' hi, List.take_left]

theorem drop_eq (h : At m i x) (hlength : m.length = i + x.length) : m.drop i = x := by
  obtain ⟨before, rest, rfl, hi⟩ := h
  simp only [List.length_append] at hlength
  rw [List.drop_left' hi, List.eq_nil_of_length_eq_zero (by omega : rest.length = 0), List.append_nil]

theorem readAt {order : ByteOrder} {width value : ℕ}
    (h : At m i (storeInt (order == .littleEndian) width value)) (hlt : value < 2 ^ (8 * width)) :
    readAt m i width order = value := by
  obtain ⟨before, rest, rfl, hi⟩ := h
  rw [readAt_skip _ _ hi.le, hi, Nat.sub_self]
  exact (readAt_storeInt order width value).trans (Nat.mod_eq_of_lt hlt)

theorem copyAt {n : ℕ} {v : Vector UInt8 n} (h : At m i v.toList) : copyAt m i n = v := by
  obtain ⟨before, rest, rfl, hi⟩ := h
  rw [copyAt_skip _ hi.le, hi, Nat.sub_self]
  exact copyAt_toList v

end At

end At

section Slice

variable {m : List UInt8} {i n : ℕ}

theorem map_byteAt (h : i + n ≤ m.length) :
    (List.range n).map (fun k => byteAt m (i + k)) = (m.drop i).take n := by
  apply List.ext_getElem
  · simp only [List.length_map, List.length_range, List.length_take, List.length_drop]
    omega
  · intro k hk _
    have hkn : k < n := by simpa using hk
    have hget : i + k < m.length := by omega
    simp [byteAt, List.getD, hget]

theorem copyAt_slice (h : i + n ≤ m.length) : (copyAt m i n).toList = (m.drop i).take n := by
  rw [← map_byteAt h]
  apply List.ext_getElem
  · simp
  · intro k _ _
    simp [copyAt]

theorem storeInt_readAt (order : ByteOrder) (h : i + n ≤ m.length) :
    storeInt (order == .littleEndian) n (readAt m i n order) = (m.drop i).take n := by
  rw [← map_byteAt h]
  exact store_load _ _ _

theorem length_part (h : i + n ≤ m.length) : ((m.drop i).take n).length = n := by
  rw [List.length_take, List.length_drop]
  omega

theorem byteAt_part {k : ℕ} (h : k < n) : byteAt ((m.drop i).take n) k = byteAt m (i + k) := by
  simp only [byteAt, List.getD, List.getElem?_take, List.getElem?_drop, if_pos h]

theorem readAt_part {k width : ℕ} (order : ByteOrder) (h : k + width ≤ n) :
    readAt ((m.drop i).take n) k width order = readAt m (i + k) width order := by
  apply loadInt_congr
  intro j _
  rw [byteAt_part (by omega), Nat.add_assoc]

theorem copyAt_part {k width : ℕ} (h : k + width ≤ n) :
    copyAt ((m.drop i).take n) k width = copyAt m (i + k) width := by
  apply Vector.ext
  intro j _
  simp only [copyAt, Vector.getElem_ofFn]
  rw [byteAt_part (by omega), Nat.add_assoc]

theorem readAt_lt (m : List UInt8) (i n : ℕ) (order : ByteOrder) :
    readAt m i n order < 2 ^ (8 * n) :=
  loadInt_lt _ _ _

end Slice

theorem joinWords (n : ℕ) : (n >>> 32) <<< 32 ||| (n &&& 0xFFFFFFFF) = n := by
  have hlow : n &&& 0xFFFFFFFF = n % 2 ^ 32 := Nat.and_two_pow_sub_one_eq_mod n 32
  have hlt : n % 2 ^ 32 < 2 ^ 32 := Nat.mod_lt _ (by decide)
  rw [hlow, ← Nat.shiftLeft_add_eq_or_of_lt hlt, Nat.shiftRight_eq_div_pow, Nat.shiftLeft_eq]
  omega

theorem splitWords {high low : ℕ} (h : low < 2 ^ 32) :
    (high <<< 32 ||| low) >>> 32 = high ∧ (high <<< 32 ||| low) &&& 0xFFFFFFFF = low := by
  rw [← Nat.shiftLeft_add_eq_or_of_lt h]
  have hlow : ∀ n, n &&& 0xFFFFFFFF = n % 2 ^ 32 := fun n => Nat.and_two_pow_sub_one_eq_mod n 32
  rw [hlow, Nat.shiftRight_eq_div_pow, Nat.shiftLeft_eq]
  omega

theorem ValidHeader.append {m : List UInt8} (h : ValidHeader m) (rest : List UInt8) :
    ValidHeader (m ++ rest) := by
  have hsize := h.size
  refine ⟨by rw [List.length_append]; omega, ?_, ?_⟩
  · rw [List.take_append_of_le_length (by omega)]
    exact h.magic
  · rw [byteAt_left (by omega), byteAt_left (by omega)]
    exact h.version

theorem headerContext_append {m : List UInt8} (h : 20 ≤ m.length) (rest : List UInt8) :
    headerContext (m ++ rest) = headerContext m := by
  unfold headerContext
  rw [byteAt_left (by omega), byteAt_left (by omega), copyAt_left (by omega), copyAt_left (by omega)]

section Header

variable (version : ProtocolVersion) (vendorId : VendorId) (guidPrefix : GuidPrefix)

/-- A written header sets the context that it was written from. -/
theorem headerContext_bytes :
    headerContext ([0x52, 0x54, 0x50, 0x53, version.major, version.minor] ++
      (vendorId.toList ++ guidPrefix.toList)) =
      { version := version, vendorId := vendorId, source := guidPrefix } := by
  have hat := At.refl ([0x52, 0x54, 0x50, 0x53, version.major, version.minor] ++
    (vendorId.toList ++ guidPrefix.toList))
  obtain ⟨-, hat⟩ := hat.split (n := 6) rfl
  obtain ⟨hvendor, hsource⟩ := hat.split Vector.length_toList
  unfold headerContext
  rw [hvendor.copyAt, hsource.copyAt]
  rfl

theorem validHeader_bytes (h : supportedVersion version = true) :
    ValidHeader ([0x52, 0x54, 0x50, 0x53, version.major, version.minor] ++
      (vendorId.toList ++ guidPrefix.toList)) :=
  ⟨by simp, rfl, h⟩

end Header

end OpenRtdds
