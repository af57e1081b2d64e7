import Mathlib.Tactic
import Mathlib.Data.List.Basic

/-!
# In-place compaction of a fixed array

A fixed array of `n` cells holds its live entries in the cells below a size. One
pass over the live cells keeps some of them (possibly changed) and drops the
others; kept entries are copied down to the next free cell, so the array is read
and written by the same loop.

* `live`: the live entries of an array, as a list.
* `compactLoop`: the pass, with an accumulator fed by every entry it visits.
* `foldlM_range_succ`, `foldlM_error`, `ite_error_ok`: inversion of the checking loops and
  checks that run before such a pass.
* `compact_live`, `compact_acc`: the pass computes what a pass over a *copy* of
  the array would: the new live entries are the kept ones in order, and the
  accumulator saw the original entries in order.
-/

namespace OpenRtdds.Lib

variable {α γ : Type*} {n : ℕ} [NeZero n]

/-- The cell an index names; indices are taken modulo the length of the array. -/
def wrap (i : ℕ) : Fin n := Fin.ofNat n i

@[simp] theorem wrap_val (i : ℕ) : (wrap i : Fin n).val = i % n := rfl

theorem wrap_ne {i j : ℕ} (hi : i < n) (hj : j < n) (h : i ≠ j) : (wrap i : Fin n) ≠ wrap j := by
  intro he
  have hv := congrArg Fin.val he
  rw [wrap_val, wrap_val, Nat.mod_eq_of_lt hi, Nat.mod_eq_of_lt hj] at hv
  exact h hv

/-- The first `size` entries of an array, in index order. -/
def live (cells : Fin n → α) (size : ℕ) : List α :=
  (List.range size).map fun i => cells (wrap i)

/-- The state of a compaction pass: the array, the next free cell, the accumulator. -/
abbrev Pass (n : ℕ) (α γ : Type*) := (Fin n → α) × ℕ × γ

/-- One iteration at `index`: a kept entry is copied to the next free cell. -/
def compactStep (keep : ℕ → α → Option α) (emit : ℕ → α → γ → γ) (s : Pass n α γ) (index : ℕ) :
    Pass n α γ :=
  let x := s.1 (wrap index)
  match keep index x with
  | some y => (Function.update s.1 (wrap s.2.1) y, s.2.1 + 1, emit index x s.2.2)
  | none => (s.1, s.2.1, emit index x s.2.2)

/-- **The compaction pass** over the cells below `size`. -/
def compactLoop (keep : ℕ → α → Option α) (emit : ℕ → α → γ → γ) (cells : Fin n → α) (size : ℕ)
    (acc : γ) : Pass n α γ :=
  (List.range size).foldl (compactStep keep emit) (cells, 0, acc)

theorem live_length (cells : Fin n → α) (size : ℕ) : (live cells size).length = size := by
  simp [live]

theorem live_zero (cells : Fin n → α) : live cells 0 = [] := rfl

theorem live_succ (cells : Fin n → α) (size : ℕ) :
    live cells (size + 1) = live cells size ++ [cells (wrap size)] := by
  simp [live, List.range_succ]

variable {size : ℕ}

theorem live_head? (cells : Fin n → α) (h : size ≠ 0) :
    (live cells size).head? = some (cells (wrap 0)) := by
  obtain ⟨m, rfl⟩ := Nat.exists_eq_succ_of_ne_zero h
  simp [live, List.range_succ_eq_map]

/-- Writing the cell just above the live ones leaves them alone. -/
theorem live_update (cells : Fin n → α) (h : size < n) (x : α) :
    live (Function.update cells (wrap size) x) size = live cells size := by
  unfold live
  apply List.map_congr_left
  intro i hi
  have hi' : i < size := List.mem_range.1 hi
  rw [Function.update_of_ne (wrap_ne (lt_trans hi' h) h (by omega))]

theorem live_push (cells : Fin n → α) (h : size < n) (x : α) :
    live (Function.update cells (wrap size) x) (size + 1) = live cells size ++ [x] := by
  rw [live_succ, live_update cells h, Function.update_self]

theorem compactStep_none {keep : ℕ → α → Option α} (emit : ℕ → α → γ → γ) {s : Pass n α γ} {index : ℕ}
    (h : keep index (s.1 (wrap index)) = none) : compactStep keep emit s index =
      (s.1, s.2.1, emit index (s.1 (wrap index)) s.2.2) := by
  simp only [compactStep, h]

theorem compactStep_some {keep : ℕ → α → Option α} (emit : ℕ → α → γ → γ) {s : Pass n α γ} {index : ℕ}
    {y : α} (h : keep index (s.1 (wrap index)) = some y) : compactStep keep emit s index =
      (Function.update s.1 (wrap s.2.1) y, s.2.1 + 1,
        emit index (s.1 (wrap index)) s.2.2) := by
  simp only [compactStep, h]

theorem compactLoop_succ (keep : ℕ → α → Option α) (emit : ℕ → α → γ → γ) (cells : Fin n → α)
    (size : ℕ) (acc : γ) : compactLoop keep emit cells (size + 1) acc =
      compactStep keep emit (compactLoop keep emit cells size acc) size := by
  simp [compactLoop, List.range_succ, List.foldl_append]

/-- The loop invariant after the cells below `size`: the kept entries are in place,
the cells from `size` on are untouched, and the next free cell is not above `size`. -/
theorem compactLoop_inv (keep : ℕ → α → Option α) (emit : ℕ → α → γ → γ) (cells : Fin n → α)
    (acc : γ) : ∀ size, size ≤ n →
      (compactLoop keep emit cells size acc).2.1 ≤ size ∧
      live (compactLoop keep emit cells size acc).1 (compactLoop keep emit cells size acc).2.1 =
        (List.range size).filterMap (fun i => keep i (cells (wrap i))) ∧
      (∀ j, size ≤ j → j < n →
        (compactLoop keep emit cells size acc).1 (wrap j) = cells (wrap j)) ∧
      (compactLoop keep emit cells size acc).2.2 =
        (List.range size).foldl (fun a i => emit i (cells (wrap i)) a) acc := by
  intro size
  induction size with
  | zero => intro _; simp [compactLoop, live]
  | succ size ih =>
    intro hn
    obtain ⟨hd, hl, hrest, hacc⟩ := ih (by omega)
    rw [compactLoop_succ]
    set s := compactLoop keep emit cells size acc
    have hx : s.1 (wrap size) = cells (wrap size) := hrest size le_rfl (by omega)
    rw [List.range_succ, List.filterMap_append, List.foldl_append]
    -- a dropped entry moves nothing; a kept one lands in the next free cell, at or below `size`
    cases hk : keep size (cells (wrap size)) with
    | none =>
      rw [compactStep_none emit (by rw [hx]; exact hk), hx]
      refine ⟨by simp only; omega, by simp [hk, hl], ?_, by simp [hacc]⟩
      intro j hj hjn
      exact hrest j (by omega) hjn
    | some y =>
      rw [compactStep_some emit (by rw [hx]; exact hk), hx]
      refine ⟨by simp only; omega, ?_, ?_, by simp [hacc]⟩
      · simp only
        rw [live_push _ (by omega), hl]
        simp [hk]
      · intro j hj hjn
        simp only
        rw [Function.update_of_ne (wrap_ne hjn (by omega) (by omega)), hrest j (by omega) hjn]

/-- A pass over the array by index is a pass over the list of its live entries. -/
theorem range_filterMap_live (cells : Fin n → α) (size : ℕ) (f : α → Option γ) :
    (List.range size).filterMap (fun i => f (cells (wrap i))) = (live cells size).filterMap f := by
  rw [live, List.filterMap_map]
  rfl

theorem ite_error_ok {ε α : Type*} {c : Prop} [Decidable c] {e : ε} {r : Except ε α} {a : α}
    (h : (if c then .error e else r) = .ok a) : ¬ c ∧ r = .ok a := by
  by_cases hc : c
  · rw [if_pos hc] at h
    cases h
  · rw [if_neg hc] at h
    exact ⟨hc, h⟩

/-- A loop that stops with an error stops in one of its iterations. -/
theorem foldlM_error {ε σ ι : Type*} {f : σ → ι → Except ε σ} {l : List ι} {s : σ} {e : ε}
    (h : l.foldlM f s = .error e) : ∃ s' i, i ∈ l ∧ f s' i = .error e := by
  induction l generalizing s with
  | nil => simp [pure, Except.pure] at h
  | cons i l ih =>
    rw [List.foldlM_cons] at h
    cases hf : f s i with
    | error e' =>
      rw [hf] at h
      exact ⟨s, i, List.mem_cons_self, by rw [hf]; exact h⟩
    | ok s' =>
      rw [hf] at h
      obtain ⟨t, j, hj, ht⟩ := ih h
      exact ⟨t, j, List.mem_cons_of_mem i hj, ht⟩

theorem foldlM_range_succ {ε σ : Type*} {f : σ → ℕ → Except ε σ} {s t : σ}
    (h : (List.range (size + 1)).foldlM f s = .ok t) :
    ∃ m, (List.range size).foldlM f s = .ok m ∧ f m size = .ok t := by
  rw [List.range_succ, List.foldlM_append] at h
  cases hm : (List.range size).foldlM f s with
  | error e => rw [hm] at h; cases h
  | ok m =>
    rw [hm] at h
    refine ⟨m, rfl, ?_⟩
    cases hf : f m size with
    | error e => simp [bind, Except.bind, hf] at h
    | ok t' => simpa [bind, Except.bind, hf, pure, Except.pure] using h

theorem compact_size_le (keep : ℕ → α → Option α) (emit : ℕ → α → γ → γ) (cells : Fin n → α)
    (acc : γ) (h : size ≤ n) : (compactLoop keep emit cells size acc).2.1 ≤ size :=
  (compactLoop_inv keep emit cells acc size h).1

/-- **The live entries after the pass** are the kept ones, in order. -/
theorem compact_live (keep : ℕ → α → Option α) (emit : ℕ → α → γ → γ) (cells : Fin n → α)
    (acc : γ) (h : size ≤ n) :
    live (compactLoop keep emit cells size acc).1 (compactLoop keep emit cells size acc).2.1 =
      (List.range size).filterMap (fun i => keep i (cells (wrap i))) :=
  (compactLoop_inv keep emit cells acc size h).2.1

/-- **The accumulator** saw the entries the array held before the pass. -/
theorem compact_acc (keep : ℕ → α → Option α) (emit : ℕ → α → γ → γ) (cells : Fin n → α)
    (acc : γ) (h : size ≤ n) : (compactLoop keep emit cells size acc).2.2 =
      (List.range size).foldl (fun a i => emit i (cells (wrap i)) a) acc :=
  (compactLoop_inv keep emit cells acc size h).2.2.2

end OpenRtdds.Lib
