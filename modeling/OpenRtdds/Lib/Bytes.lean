import Mathlib.Tactic
import Mathlib.Data.Nat.Bitwise

/-!
# Integers in either byte order

The two loops that move an integer of `width` bytes to and from memory: byte `i` holds
the bits `8 * k` to `8 * k + 7`, where `k` is `i` in little-endian order and
`width - 1 - i` in big-endian order.

* `storeInt`, `loadInt`: the loops.
* `loadInt_testBit`: the bits of a loaded integer are the bits of its bytes.
* `load_store`: loading what was stored gives the integer back, modulo `256 ^ width`.
* `store_load`: storing what was loaded gives the bytes back.
-/

namespace OpenRtdds.Lib

/-- Which eight bits of an integer the byte `i` holds. -/
def shiftIndex (little : Bool) (width i : ℕ) : ℕ := if little then i else width - 1 - i

/-- The bytes of the low `8 * width` bits of `value`. -/
def storeInt (little : Bool) (width value : ℕ) : List UInt8 :=
  (List.range width).map fun i => UInt8.ofNat (value >>> (shiftIndex little width i * 8))

/-- The integer of `width` bytes, read through `byte`. -/
def loadInt (little : Bool) (width : ℕ) (byte : ℕ → UInt8) : ℕ :=
  (List.range width).foldl
    (fun value i => value ||| (byte i).toNat <<< (shiftIndex little width i * 8)) 0

@[simp] theorem storeInt_length (little : Bool) (width value : ℕ) :
    (storeInt little width value).length = width := by
  simp [storeInt]

theorem storeInt_getD (little : Bool) {width value i : ℕ} (h : i < width) :
    (storeInt little width value).getD i 0 =
      UInt8.ofNat (value >>> (shiftIndex little width i * 8)) := by
  simp [storeInt, List.getD, h]

theorem shiftIndex_lt (little : Bool) {width i : ℕ} (h : i < width) :
    shiftIndex little width i < width := by
  unfold shiftIndex
  split <;> omega

/-- The byte order only permutes the groups of eight bits. -/
theorem shiftIndex_invol (little : Bool) {width k : ℕ} (h : k < width) :
    shiftIndex little width (shiftIndex little width k) = k := by
  unfold shiftIndex
  split <;> omega

theorem foldl_or_testBit (f : ℕ → ℕ) (j : ℕ) : ∀ (l : List ℕ) (a : ℕ),
    (l.foldl (fun value i => value ||| f i) a).testBit j =
      (a.testBit j || l.any fun i => (f i).testBit j) := by
  intro l
  induction l with
  | nil => intro a; simp
  | cons i l ih =>
    intro a
    rw [List.foldl_cons, ih, Nat.testBit_or, List.any_cons, Bool.or_assoc]

theorem byte_testBit_ge (b : UInt8) {k : ℕ} (h : 8 ≤ k) : b.toNat.testBit k = false := by
  apply Nat.testBit_lt_two_pow
  calc b.toNat < 2 ^ 8 := b.toNat_lt
    _ ≤ 2 ^ k := Nat.pow_le_pow_right (by omega) h

/-- **The bits of a loaded integer.** -/
theorem loadInt_testBit (little : Bool) (width : ℕ) (byte : ℕ → UInt8) (j : ℕ) :
    (loadInt little width byte).testBit j =
      (decide (j < 8 * width) && (byte (shiftIndex little width (j / 8))).toNat.testBit (j % 8)) := by
  unfold loadInt
  rw [foldl_or_testBit, Nat.zero_testBit, Bool.false_or, Bool.eq_iff_iff]
  simp only [List.any_eq_true, List.mem_range, Bool.and_eq_true, decide_eq_true_eq,
    Nat.testBit_shiftLeft]
  constructor
  · rintro ⟨i, hi, hge, hb⟩
    -- the bit lies inside the byte, so the byte is the one of its group
    have hlt : j - shiftIndex little width i * 8 < 8 := by
      by_contra hn
      rw [byte_testBit_ge _ (by omega)] at hb
      exact Bool.false_ne_true hb
    have hs := shiftIndex_lt little hi
    have hdiv : j / 8 = shiftIndex little width i := by omega
    have hmod : j - shiftIndex little width i * 8 = j % 8 := by omega
    refine ⟨by omega, ?_⟩
    rw [hdiv, shiftIndex_invol little hi, ← hmod]
    exact hb
  · rintro ⟨hj, hb⟩
    have hk : j / 8 < width := by omega
    refine ⟨shiftIndex little width (j / 8), shiftIndex_lt little hk, ?_, ?_⟩
    · rw [shiftIndex_invol little hk]; omega
    · rw [shiftIndex_invol little hk]
      have : j - j / 8 * 8 = j % 8 := by omega
      rw [this]; exact hb

theorem loadInt_lt (little : Bool) (width : ℕ) (byte : ℕ → UInt8) :
    loadInt little width byte < 2 ^ (8 * width) := by
  apply Nat.lt_pow_two_of_testBit
  intro j hj
  rw [loadInt_testBit]
  simp only [show ¬ j < 8 * width by omega, decide_false, Bool.false_and]

theorem loadInt_congr (little : Bool) {width : ℕ} {byte byte' : ℕ → UInt8}
    (h : ∀ i, i < width → byte i = byte' i) :
    loadInt little width byte = loadInt little width byte' := by
  apply Nat.eq_of_testBit_eq
  intro j
  rw [loadInt_testBit, loadInt_testBit]
  by_cases hj : j < 8 * width
  · rw [h _ (shiftIndex_lt little (show j / 8 < width by omega))]
  · simp [hj]

/-- **Store, then load.** -/
theorem load_store (little : Bool) (width value : ℕ) :
    loadInt little width (fun i => (storeInt little width value).getD i 0) = value % 2 ^ (8 * width) := by
  apply Nat.eq_of_testBit_eq
  intro j
  rw [loadInt_testBit, Nat.testBit_mod_two_pow]
  by_cases hj : j < 8 * width
  · have hk : j / 8 < width := by omega
    rw [storeInt_getD little (shiftIndex_lt little hk), shiftIndex_invol little hk,
      UInt8.toNat_ofNat', Nat.testBit_mod_two_pow, Nat.testBit_shiftRight]
    have h8 : j % 8 < 8 := by omega
    have hj' : j / 8 * 8 + j % 8 = j := by omega
    rw [hj']
    simp [hj, h8]
  · simp [hj]

/-- **Load, then store.** -/
theorem store_load (little : Bool) (width : ℕ) (byte : ℕ → UInt8) :
    storeInt little width (loadInt little width byte) = (List.range width).map byte := by
  apply List.map_congr_left
  intro i hi
  have hi := List.mem_range.1 hi
  have hs := shiftIndex_lt little hi
  apply UInt8.toNat_inj.1
  apply Nat.eq_of_testBit_eq
  intro j
  rw [UInt8.toNat_ofNat', Nat.testBit_mod_two_pow, Nat.testBit_shiftRight, loadInt_testBit]
  by_cases hj : j < 8
  · have hdiv : (shiftIndex little width i * 8 + j) / 8 = shiftIndex little width i := by omega
    have hmod : (shiftIndex little width i * 8 + j) % 8 = j := by omega
    have hlt : shiftIndex little width i * 8 + j < 8 * width := by omega
    rw [hdiv, hmod, shiftIndex_invol little hi]
    simp [hj, hlt]
  · rw [byte_testBit_ge (byte i) (by omega)]
    simp [hj]

end OpenRtdds.Lib
