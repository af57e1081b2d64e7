import Mathlib.Tactic
import OpenRtdds.Lib.Compact
import OpenRtdds.Spec.Types

/-!
# SequenceNumberSet and the control messages

`rtps/reliability_messages.hpp`: the bitmap of an ACKNACK and the HEARTBEAT and
ACKNACK records. The bitmap is eight 32-bit words, most significant bit first; its
class keeps the invariants that are fields of `SequenceNumberSet` here.
-/

namespace OpenRtdds

open Lib

/-- The eight words of a bitmap. -/
abbrev Bitmap := Fin 8 → BitVec 32

namespace Bitmap

/-- `1U << (31U - bit_index)`. -/
def mask (offset : ℕ) : BitVec 32 := 1#32 <<< (31 - offset % 32)

def set (b : Bitmap) (offset : ℕ) : Bitmap :=
  Function.update b (wrap (offset / 32)) (b (wrap (offset / 32)) ||| mask offset)

def test (b : Bitmap) (offset : ℕ) : Bool := (b (wrap (offset / 32)) &&& mask offset) != 0

theorem mask_eq (offset : ℕ) : mask offset = BitVec.twoPow 32 (31 - offset % 32) := by
  rw [mask, BitVec.twoPow_eq]

theorem test_eq (b : Bitmap) (offset : ℕ) :
    b.test offset = (b (wrap (offset / 32))).getLsbD (31 - offset % 32) := by
  unfold test
  rw [mask_eq, BitVec.and_twoPow]
  cases h : (b (wrap (offset / 32))).getLsbD (31 - offset % 32) with
  | false => simp
  | true =>
    have hlt : 31 - offset % 32 < 32 := by omega
    have hne : BitVec.twoPow 32 (31 - offset % 32) ≠ 0 := by
      intro he
      have := congrArg (fun v => v.getLsbD (31 - offset % 32)) he
      simp [hlt] at this
    simpa using hne

theorem test_zero (offset : ℕ) : test (fun _ => 0) offset = false := by simp [test]

theorem test_set (b : Bitmap) {i j : ℕ} (hi : i < 256) (hj : j < 256) :
    (b.set i).test j = (decide (j = i) || b.test j) := by
  rw [test_eq, test_eq]
  unfold set
  by_cases hw : j / 32 = i / 32
  · rw [hw, Function.update_self, BitVec.getLsbD_or, mask_eq, BitVec.getLsbD_twoPow, Bool.or_comm]
    congr 1
    rw [Bool.eq_iff_iff]
    simp only [Bool.and_eq_true, decide_eq_true_eq]
    omega
  · rw [Function.update_of_ne (wrap_ne (by omega) (by omega) hw)]
    have : j ≠ i := fun h => hw (by rw [h])
    simp [this]

end Bitmap

/-- `valid_sequence_number`. -/
def validSequenceNumber (sequenceNumber : ℕ) : Bool :=
  sequenceNumber != 0 && decide (sequenceNumber ≤ int64Max)

/-- `rtps::SequenceNumberSet`. -/
structure SequenceNumberSet where
  bitmapBase : ℕ := 1
  numBits : ℕ := 0
  bitmap : Bitmap := fun _ => 0
  base_valid : validSequenceNumber bitmapBase = true := by decide
  bits_le : numBits ≤ 256 := by decide
  last_valid : numBits ≠ 0 → bitmapBase + (numBits - 1) ≤ int64Max := by decide
  tail : ∀ k, numBits ≤ k → k < 256 → bitmap.test k = false := by
    intro k _ _; exact Bitmap.test_zero k

namespace SequenceNumberSet

/-- A set as its constructor leaves it. -/
def empty : SequenceNumberSet := {}

/-- `SequenceNumberSet::reset`; a refused reset leaves the set alone. -/
def reset (s : SequenceNumberSet) (bitmapBase numBits : ℕ) : Bool × SequenceNumberSet :=
  if h1 : (!validSequenceNumber bitmapBase || decide (numBits > 256)) = true then (false, s)
  else if h2 : (numBits != 0 && decide (bitmapBase > int64Max - (numBits - 1))) = true then (false, s)
  else (true,
    { bitmapBase, numBits
      bitmap := fun _ => 0
      base_valid := by simp at h1; exact h1.1
      bits_le := by simp at h1; exact h1.2
      last_valid := by
        intro hn
        simp only [bne_iff_ne, ne_eq, Bool.and_eq_true, decide_eq_true_eq, not_and, not_lt,
          gt_iff_lt] at h2
        simp only [Bool.or_eq_true, Bool.not_eq_true', decide_eq_true_eq, not_or,
          Bool.not_eq_false, not_lt, gt_iff_lt] at h1
        have := h2 hn
        unfold int64Max at *
        omega
      tail := fun k _ _ => Bitmap.test_zero k })

/-- `SequenceNumberSet::set`. -/
def set (s : SequenceNumberSet) (offset : ℕ) : Bool × SequenceNumberSet :=
  if h : offset ≥ s.numBits then (false, s)
  else (true,
    { s with
      bitmap := s.bitmap.set offset
      tail := by
        intro k hk hk'
        have hs := s.bits_le
        rw [Bitmap.test_set _ (by omega) hk', s.tail k hk hk']
        simp only [Bool.or_false, decide_eq_false_iff_not]
        omega })

/-- `SequenceNumberSet::test`. -/
def test (s : SequenceNumberSet) (offset : ℕ) : Bool :=
  if offset ≥ s.numBits then false else s.bitmap.test offset

theorem reset_ok (s : SequenceNumberSet) (base bits : ℕ) (h1 : 1 ≤ base) (h2 : base ≤ int64Max)
    (h3 : bits ≤ 256) (h4 : base + bits ≤ int64Max + 1) :
    (s.reset base bits).1 = true ∧ (s.reset base bits).2.bitmapBase = base ∧
      (s.reset base bits).2.numBits = bits ∧ (s.reset base bits).2.bitmap = fun _ => 0 := by
  have hv : validSequenceNumber base = true := by
    simp only [validSequenceNumber, bne_iff_ne, ne_eq, Bool.and_eq_true, decide_eq_true_eq]
    omega
  have hb : ¬ (bits != 0 && decide (base > int64Max - (bits - 1))) = true := by
    simp only [bne_iff_ne, ne_eq, Bool.and_eq_true, decide_eq_true_eq, not_and, not_lt, gt_iff_lt]
    omega
  unfold reset
  rw [dif_neg (by simp [hv]; exact h3), dif_neg hb]
  exact ⟨rfl, rfl, rfl, rfl⟩

@[simp] theorem set_base (s : SequenceNumberSet) (k : ℕ) : (s.set k).2.bitmapBase = s.bitmapBase := by
  unfold set; split <;> rfl

@[simp] theorem set_numBits (s : SequenceNumberSet) (k : ℕ) : (s.set k).2.numBits = s.numBits := by
  unfold set; split <;> rfl

theorem set_test (s : SequenceNumberSet) {j k : ℕ} (hk : k < s.numBits) (hj : j < s.numBits) :
    (s.set k).2.test j = (decide (j = k) || s.test j) := by
  have hs := s.bits_le
  unfold test
  rw [set_numBits, if_neg (by omega), if_neg (by omega)]
  unfold set
  rw [dif_neg (by omega)]
  exact Bitmap.test_set _ (by omega) (by omega)

theorem foldl_set (p : ℕ → Bool) : ∀ (l : List ℕ) (s : SequenceNumberSet),
    let t := l.foldl (fun t k => if p k then (t.set k).2 else t) s
    t.bitmapBase = s.bitmapBase ∧ t.numBits = s.numBits ∧
      ∀ j, j < s.numBits → t.test j = (s.test j || (decide (j ∈ l) && p j)) := by
  intro l
  induction l with
  | nil => exact fun s => ⟨rfl, rfl, fun j _ => by simp⟩
  | cons k l ih =>
    intro s
    simp only [List.foldl_cons]
    obtain ⟨hbase, hbits, htest⟩ := ih (if p k then (s.set k).2 else s)
    cases hp : p k with
    | false =>
      simp only [hp, Bool.false_eq_true, if_false] at hbase hbits htest ⊢
      refine ⟨hbase, hbits, fun j hj => ?_⟩
      rw [htest j hj]
      by_cases hjk : j = k
      · simp [hjk, hp]
      · simp [hjk]
    | true =>
      simp only [hp, if_true, set_base, set_numBits] at hbase hbits htest ⊢
      refine ⟨hbase, hbits, fun j hj => ?_⟩
      rw [htest j hj]
      by_cases hk : k < s.numBits
      · rw [set_test s hk hj]
        by_cases hjk : j = k
        · simp [hjk, hp]
        · simp [hjk]
      · -- a refused offset is not below the size
        have hne : j ≠ k := by omega
        have hsame : (s.set k).2 = s := by
          unfold set
          rw [dif_pos (by omega)]
        simp [hsame, hne]

theorem ext_test {s t : SequenceNumberSet} (hbase : s.bitmapBase = t.bitmapBase)
    (hbits : s.numBits = t.numBits) (htest : ∀ k, k < s.numBits → s.test k = t.test k) : s = t := by
  have hbitmap : s.bitmap = t.bitmap := by
    funext i
    apply BitVec.eq_of_getLsbD_eq
    intro b hb
    have hi := i.isLt
    -- the bit is the one of an offset, and beyond the size both are clear
    have hoffset : ∀ c : Bitmap, c.test (i * 32 + (31 - b)) = (c i).getLsbD b := by
      intro c
      have hword : (i * 32 + (31 - b)) / 32 = i := by omega
      have hbit : 31 - (i * 32 + (31 - b)) % 32 = b := by omega
      have hwrap : (wrap (i : ℕ) : Fin 8) = i := Fin.ext (Nat.mod_eq_of_lt hi)
      rw [Bitmap.test_eq, hword, hbit, hwrap]
    rw [← hoffset, ← hoffset]
    by_cases hk : i * 32 + (31 - b) < s.numBits
    · have hsame := htest _ hk
      unfold test at hsame
      rwa [if_neg (by omega), if_neg (by omega)] at hsame
    · rw [s.tail _ (by omega) (by omega), t.tail _ (by omega) (by omega)]
  cases s
  cases t
  simp only at hbase hbits hbitmap
  subst hbase hbits hbitmap
  rfl

end SequenceNumberSet

/-- `rtps::ReliabilityMessageHeader`. -/
structure ReliabilityMessageHeader where
  version : ProtocolVersion := {}
  vendorId : VendorId := .replicate 2 0
  guidPrefix : GuidPrefix := .replicate 12 0
  submessageByteOrder : ByteOrder := .littleEndian

/-- `rtps::HeartbeatConfig` and `rtps::HeartbeatView`: the two records have the same
fields and differ in their defaults only. -/
structure Heartbeat where
  header : ReliabilityMessageHeader := {}
  readerId : EntityId := .replicate 4 0
  writerId : EntityId := .replicate 4 0
  firstSequenceNumber : ℕ := 1
  lastSequenceNumber : ℕ := 0
  count : BitVec 32 := 1
  finalFlag : Bool := false
  livelinessFlag : Bool := false

/-- `rtps::AckNackConfig` and `rtps::AckNackView`. -/
structure AckNack where
  header : ReliabilityMessageHeader := {}
  readerId : EntityId := .replicate 4 0
  writerId : EntityId := .replicate 4 0
  readerState : SequenceNumberSet := .empty
  count : BitVec 32 := 1
  finalFlag : Bool := false

end OpenRtdds
