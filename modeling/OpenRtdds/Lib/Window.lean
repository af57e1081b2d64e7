import Mathlib.Tactic
import Mathlib.Data.Set.Basic
import OpenRtdds.Lib.Compact

/-!
# A circular bit window over an unbounded set

`n` bits record which of the numbers `base, …, base + n - 1` are members of a set.
The bit of `base` is stored at the index `head`, the others follow it cyclically.
When the bit of `base` is set the window moves: the bit is cleared for its new
number, and `head` and `base` advance.

* `Window.mark`, `Window.shift`, `Window.settle`: the operations; `settle` is the
  loop that moves the window while the bit of `base` is set.
* `Tracks init R w`: the window represents the set `R` of numbers from `init` on.
* `Tracks.mark`, `Tracks.shift`, `Tracks.settle`: the operations keep it.
* `settle_at_zero`: `n` iterations are enough, the loop ends at a clear bit, so
  (`Tracks.isLeast`) `base` is the least number from `init` on that is not in `R`.
-/

namespace OpenRtdds.Lib

variable {n : ℕ} [NeZero n]

/-- A circular window: the bits, the index of the first one, and its number. -/
structure Window (n : ℕ) where
  cells : Fin n → Bool
  head : ℕ
  base : ℕ

namespace Window

/-- The bit of the number `base + k`. -/
def bitAt (w : Window n) (k : ℕ) : Bool := w.cells (wrap (w.head + k))

/-- Set the bit of the number `base + k`. -/
def mark (w : Window n) (k : ℕ) : Window n :=
  { w with cells := Function.update w.cells (wrap (w.head + k)) true }

/-- Clear the bit of `base` and move the window by one. -/
def shift (w : Window n) : Window n where
  cells := Function.update w.cells (wrap w.head) false
  head := (w.head + 1) % n
  base := w.base + 1

/-- Move the window while the bit of `base` is set, at most `fuel` times. -/
def settle : ℕ → Window n → Window n
  | 0, w => w
  | fuel + 1, w => if w.bitAt 0 then settle fuel w.shift else w

theorem wrap_add_ne (h : ℕ) {j k : ℕ} (hj : j < n) (hk : k < n) (hjk : j ≠ k) :
    (wrap (h + j) : Fin n) ≠ wrap (h + k) := by
  intro he
  have hv : (h + j) % n = (h + k) % n := congrArg Fin.val he
  have hm : j ≡ k [MOD n] := Nat.ModEq.add_left_cancel' h hv
  exact hjk (Nat.ModEq.eq_of_lt_of_lt hm hj hk)

theorem wrap_mod_add (i k : ℕ) : (wrap (i % n + k) : Fin n) = wrap (i + k) :=
  Fin.ext (Nat.mod_add_mod i n k)

theorem mark_at (w : Window n) {j k : ℕ} (hj : j < n) (hk : k < n) :
    (w.mark k).bitAt j = if j = k then true else w.bitAt j := by
  simp only [mark, bitAt]
  split
  next h => rw [h, Function.update_self]
  next h => rw [Function.update_of_ne (wrap_add_ne _ hj hk h)]

/-- After a shift the bit of the last number is clear, the others have moved down. -/
theorem shift_at (w : Window n) {k : ℕ} (hk : k < n) :
    w.shift.bitAt k = if k + 1 = n then false else w.bitAt (k + 1) := by
  unfold shift bitAt
  simp only [wrap_mod_add]
  have hidx : w.head + 1 + k = w.head + (k + 1) := by omega
  rw [hidx]
  split
  next h =>
    have : (wrap (w.head + (k + 1)) : Fin n) = wrap w.head := by
      rw [h]; exact Fin.ext (Nat.add_mod_right _ _)
    rw [this, Function.update_self]
  next h =>
    have hne := wrap_add_ne (n := n) w.head (j := k + 1) (k := 0) (by omega) (by omega) (by omega)
    exact Function.update_of_ne hne _ _

@[simp] theorem mark_base (w : Window n) (k : ℕ) : (w.mark k).base = w.base := rfl

@[simp] theorem shift_base (w : Window n) : w.shift.base = w.base + 1 := rfl

theorem settle_of_clear (fuel : ℕ) {w : Window n} (h : w.bitAt 0 = false) : settle fuel w = w := by
  cases fuel with
  | zero => rfl
  | succ fuel => simp [settle, h]

theorem base_le_settle (fuel : ℕ) (w : Window n) : w.base ≤ (settle fuel w).base := by
  induction fuel generalizing w with
  | zero => exact le_rfl
  | succ fuel ih =>
    unfold settle
    split
    · exact (Nat.le_succ w.base).trans (ih w.shift)
    · exact le_rfl

theorem base_lt_settle (fuel : ℕ) {w : Window n} (h : w.bitAt 0 = true) :
    w.base < (settle (fuel + 1) w).base := by
  rw [settle, if_pos h]
  exact base_le_settle fuel w.shift

/-- The number of set bits. -/
def weight (w : Window n) : ℕ := (Finset.univ.filter fun i => w.cells i = true).card

omit [NeZero n] in
theorem weight_le (w : Window n) : w.weight ≤ n := by
  unfold weight
  exact (Finset.card_le_univ _).trans_eq (Fintype.card_fin n)

theorem weight_shift {w : Window n} (h : w.bitAt 0 = true) : w.shift.weight + 1 = w.weight := by
  unfold weight shift
  have hm : wrap w.head ∈ Finset.univ.filter fun i => w.cells i = true := by
    simpa [bitAt] using h
  rw [← Finset.card_erase_add_one hm]
  congr 2
  ext i
  by_cases hi : i = wrap w.head
  · simp [hi]
  · simp [hi]

/-- **The loop ends**: with fuel for every set bit, the window stops at a clear bit. -/
theorem settle_at_zero {fuel : ℕ} {w : Window n} (h : w.weight ≤ fuel) :
    (settle fuel w).bitAt 0 = false := by
  induction fuel generalizing w with
  | zero =>
    -- no bit is set at all
    have he : Finset.univ.filter (fun i => w.cells i = true) = ∅ := by
      rw [← Finset.card_eq_zero]; exact Nat.le_zero.1 h
    have hc := Finset.filter_eq_empty_iff.1 he (Finset.mem_univ (wrap (w.head + 0)))
    simpa [settle, bitAt] using hc
  | succ fuel ih =>
    unfold settle
    split
    next hb => exact ih (by have := weight_shift hb; omega)
    next hb => simpa using hb

end Window

/-- **The window represents `R`**: it holds every number from `init` up to `base`, it
holds none from `base + n` on, and the bits say which ones it holds in between. -/
structure Tracks (init : ℕ) (R : Set ℕ) (w : Window n) : Prop where
  low : init ≤ w.base
  below : ∀ s, init ≤ s → s < w.base → s ∈ R
  inside : ∀ s ∈ R, init ≤ s ∧ s < w.base + n
  bit : ∀ k, k < n → (w.bitAt k = true ↔ w.base + k ∈ R)

namespace Tracks

variable {init : ℕ} {R : Set ℕ} {w : Window n}

theorem empty (init head : ℕ) : Tracks init ∅ (⟨fun _ => false, head, init⟩ : Window n) where
  low := le_rfl
  below := by intro s h1 h2; simp only at h2; omega
  inside := by intro s hs; exact absurd hs (Set.notMem_empty s)
  bit := by intro k _; simp [Window.bitAt]

/-- Marking an offset inserts its number. -/
theorem mark (h : Tracks init R w) {k : ℕ} (hk : k < n) :
    Tracks init (insert (w.base + k) R) (w.mark k) where
  low := h.low
  below := fun s h1 h2 => Set.mem_insert_of_mem _ (h.below s h1 h2)
  inside := by
    intro s hs
    have hl := h.low
    rcases Set.mem_insert_iff.1 hs with rfl | hs
    · simp only [Window.mark_base]; omega
    · exact h.inside s hs
  bit := by
    intro j hj
    rw [Window.mark_at w hj hk, Window.mark_base, Set.mem_insert_iff]
    by_cases he : j = k
    · simp [he]
    · rw [if_neg he, h.bit j hj]
      constructor
      · exact Or.inr
      · rintro (h' | h')
        · omega
        · exact h'

/-- Moving over a set bit changes nothing in the set. -/
theorem shift (h : Tracks init R w) (hb : w.bitAt 0 = true) : Tracks init R w.shift where
  low := by have := h.low; rw [Window.shift_base]; omega
  below := by
    intro s h1 h2
    rw [Window.shift_base] at h2
    by_cases he : s = w.base
    · rw [he]; simpa using (h.bit 0 (Nat.pos_of_neZero n)).1 hb
    · exact h.below s h1 (by omega)
  inside := by
    intro s hs
    have := h.inside s hs
    rw [Window.shift_base]; omega
  bit := by
    intro k hk
    rw [Window.shift_at w hk, Window.shift_base]
    split
    next he =>
      -- the new last number is above everything the set holds
      refine ⟨fun hf => absurd hf Bool.false_ne_true, fun hm => ?_⟩
      have := (h.inside _ hm).2
      omega
    next he =>
      rw [h.bit (k + 1) (by omega), show w.base + 1 + k = w.base + (k + 1) by omega]

theorem settle (fuel : ℕ) (h : Tracks init R w) : Tracks init R (Window.settle fuel w) := by
  induction fuel generalizing w with
  | zero => exact h
  | succ fuel ih =>
    unfold Window.settle
    split
    next hb => exact ih (h.shift hb)
    next => exact h

/-- **With a clear first bit, `base` is the first missing number.** -/
theorem isLeast (h : Tracks init R w) (hb : w.bitAt 0 = false) :
    IsLeast {s | init ≤ s ∧ s ∉ R} w.base := by
  refine ⟨⟨h.low, fun hm => ?_⟩, fun s hs => ?_⟩
  · have := (h.bit 0 (Nat.pos_of_neZero n)).2 hm
    rw [hb] at this
    exact Bool.false_ne_true this
  · by_contra hlt
    exact hs.2 (h.below s hs.1 (by omega))

end Tracks

end OpenRtdds.Lib
