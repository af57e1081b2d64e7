import Mathlib.Tactic
import OpenRtdds.Lib.Window

/-!
# A ring of fixed capacity

A ring of `n` cells holds `size` entries from the index `head` on, cyclically.

* `contents`: the entries of a ring, oldest first.
* `contents_push`, `contents_overwrite`, `contents_pop`: appending to a ring with room,
  appending to a full ring (which loses the oldest entry), removing the oldest entry.
* `contents_getElem?`, `contents_popMany`: reading an entry, and removing several ones at once.
-/

namespace OpenRtdds.Lib

variable {α : Type*} {n : ℕ} [NeZero n]

/-- The entries of a ring, oldest first. -/
def contents (cells : Fin n → α) (head size : ℕ) : List α :=
  (List.range size).map fun k => cells (wrap (head + k))

@[simp] theorem contents_length (cells : Fin n → α) (head size : ℕ) :
    (contents cells head size).length = size := by
  simp [contents]

theorem contents_succ (cells : Fin n → α) (head size : ℕ) :
    contents cells head (size + 1) = contents cells head size ++ [cells (wrap (head + size))] := by
  simp [contents, List.range_succ]

theorem contents_cons (cells : Fin n → α) (head size : ℕ) :
    contents cells head (size + 1) = cells (wrap head) :: contents cells (head + 1) size := by
  simp only [contents, List.range_succ_eq_map, List.map_cons, List.map_map, Nat.add_zero]
  congr 1
  apply List.map_congr_left
  intro k _
  have hk : head + (k + 1) = head + 1 + k := by omega
  simp only [Function.comp_apply, Nat.succ_eq_add_one, hk]

theorem contents_mod (cells : Fin n → α) (head size : ℕ) :
    contents cells (head % n) size = contents cells head size := by
  simp only [contents, Window.wrap_mod_add]

/-- Writing the cell at offset `k` does not change the entries at the `size` offsets after `j`
if they are others. -/
theorem contents_update (cells : Fin n → α) (head j size k : ℕ) (hk : k < n) (hj : j + size ≤ n)
    (h : k < j ∨ j + size ≤ k) (x : α) :
    contents (Function.update cells (wrap (head + k)) x) (head + j) size =
      contents cells (head + j) size := by
  apply List.map_congr_left
  intro i hi
  have hi' : i < size := List.mem_range.1 hi
  have hne : (wrap (head + (j + i)) : Fin n) ≠ wrap (head + k) :=
    Window.wrap_add_ne head (by omega) hk (by omega)
  rw [← Nat.add_assoc] at hne
  exact Function.update_of_ne hne _ _

/-- **Appending to a ring with room.** -/
theorem contents_push (cells : Fin n → α) (head : ℕ) {size : ℕ} (h : size < n) (x : α) :
    contents (Function.update cells (wrap (head + size)) x) head (size + 1) =
      contents cells head size ++ [x] := by
  have hold := contents_update cells head 0 size size h (by omega)
    (Or.inr (by omega)) x
  rw [contents_succ, Function.update_self]
  simp only [Nat.add_zero] at hold
  rw [hold]

/-- **Appending to a full ring** loses the oldest entry. -/
theorem contents_overwrite (cells : Fin n → α) (head : ℕ) (x : α) :
    contents (Function.update cells (wrap head) x) ((head + 1) % n) n =
      (contents cells head n).tail ++ [x] := by
  obtain ⟨m, hm⟩ : ∃ m, n = m + 1 := ⟨n - 1, by have := Nat.pos_of_neZero n; omega⟩
  have hold := contents_update cells head 1 m 0 (by omega)
    (by omega) (Or.inl (by omega)) x
  simp only [Nat.add_zero] at hold
  have hlast : (wrap (head + 1 + m) : Fin n) = wrap head := by
    apply Fin.ext
    rw [wrap_val, wrap_val, Nat.add_assoc, Nat.add_comm 1 m, ← hm, Nat.add_mod_right]
  have hsucc : ∀ (c : Fin n → α) (h : ℕ), contents c h n = contents c h (m + 1) := by
    intro c h; rw [← hm]
  rw [contents_mod, hsucc, hsucc, contents_succ, contents_cons, List.tail_cons, hold, hlast,
    Function.update_self]

/-- **Removing the oldest entry.** -/
theorem contents_pop (cells : Fin n → α) (head : ℕ) {size : ℕ} (h : size ≠ 0) :
    contents cells ((head + 1) % n) (size - 1) = (contents cells head size).tail := by
  obtain ⟨m, rfl⟩ := Nat.exists_eq_succ_of_ne_zero h
  rw [contents_mod, Nat.succ_eq_add_one, contents_cons, List.tail_cons, Nat.add_sub_cancel]

theorem contents_getElem? (cells : Fin n → α) (head : ℕ) {size k : ℕ} (hk : k < size) :
    (contents cells head size)[k]? = some (cells (wrap (head + k))) := by
  unfold contents
  rw [List.getElem?_map, List.getElem?_range hk]
  rfl

/-- **Removing several entries.** -/
theorem contents_popMany (cells : Fin n → α) (head size k : ℕ) :
    contents cells ((head + k) % n) (size - k) = (contents cells head size).drop k := by
  rw [contents_mod]
  apply List.ext_getElem?
  intro i
  rw [List.getElem?_drop]
  by_cases hi : i < size - k
  · rw [contents_getElem? _ _ hi, contents_getElem? _ _ (by omega), Nat.add_assoc]
  · rw [List.getElem?_eq_none (by rw [contents_length]; omega),
      List.getElem?_eq_none (by rw [contents_length]; omega)]

end OpenRtdds.Lib
