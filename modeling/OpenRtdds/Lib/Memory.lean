import Mathlib.Tactic

/-!
# Checked memory

A block of memory is the list of its cells. A program that reads or writes outside of the block has no
result, so that a program with a result has touched cells of the block only.

* `loads`, `stores`: the loops that read and write consecutive cells. `loads_eq`, `stores_eq`: inside of the
  block they have a result.
* `splice`: a block with some of its cells replaced. `splice_take`, `splice_splice`.
* `attempt`: a run of steps that may have no result. `attempt_inv`: steps that have a result where an
  invariant holds, and keep it. `attempt_const`: steps that change nothing.
-/

namespace OpenRtdds.Lib

variable {α σ ε ω : Type*}

/-- The `count` cells from `start` on. -/
def loads (block : List α) : ℕ → ℕ → Option (List α)
  | _, 0 => some []
  | start, count + 1 => block[start]?.bind fun cell => (loads block (start + 1) count).map (cell :: ·)

/-- The block after `cells` were written from `start` on. -/
def stores : List α → ℕ → List α → Option (List α)
  | block, _, [] => some block
  | block, start, cell :: cells =>
    if start < block.length then stores (block.set start cell) (start + 1) cells else none

/-- The block with `cells` in the place of those from `start` on. -/
def splice (block : List α) (start : ℕ) (cells : List α) : List α :=
  block.take start ++ (cells ++ block.drop (start + cells.length))

section Splice

variable {block cells : List α} {start : ℕ}

@[simp] theorem splice_nil : splice block start [] = block := by
  rw [splice, List.nil_append, List.length_nil, Nat.add_zero, List.take_append_drop]

theorem splice_length (h : start + cells.length ≤ block.length) :
    (splice block start cells).length = block.length := by
  simp only [splice, List.length_append, List.length_take, List.length_drop]
  omega

theorem splice_take (h : start ≤ block.length) : (splice block start cells).take start = block.take start := by
  have hlength : (block.take start).length = start := List.length_take_of_le h
  rw [splice, List.take_left' hlength]

theorem splice_take_end (h : start ≤ block.length) :
    (splice block start cells).take (start + cells.length) = block.take start ++ cells := by
  have hlength : (block.take start).length = start := List.length_take_of_le h
  rw [splice, ← List.append_assoc]
  exact List.take_left' (by rw [List.length_append, hlength])

theorem splice_splice (front back : List α) (h : start + front.length + back.length ≤ block.length) :
    splice (splice block start front) (start + front.length) back = splice block start (front ++ back) := by
  have htake : (splice block start front).take (start + front.length) = block.take start ++ front :=
    splice_take_end (by omega)
  have hlength : (block.take start ++ front).length = start + front.length := by
    rw [List.length_append, List.length_take_of_le (by omega)]
  unfold splice at htake ⊢
  rw [htake, ← List.append_assoc, ← List.append_assoc, ← List.drop_drop, List.drop_left' hlength,
    List.drop_drop, List.length_append]
  simp only [List.append_assoc, Nat.add_assoc]

end Splice

theorem loads_eq {block : List α} {start count : ℕ} (h : start + count ≤ block.length) :
    loads block start count = some ((block.drop start).take count) := by
  induction count generalizing start with
  | zero => rfl
  | succ count ih =>
    have hstart : start < block.length := by omega
    rw [loads, List.getElem?_eq_getElem hstart, Option.bind_some, ih (by omega), Option.map_some,
      List.drop_eq_getElem_cons hstart, List.take_succ_cons]

theorem stores_eq {block cells : List α} {start : ℕ} (h : start + cells.length ≤ block.length) :
    stores block start cells = some (splice block start cells) := by
  induction cells generalizing block start with
  | nil => rw [stores, splice_nil]
  | cons cell cells ih =>
    rw [List.length_cons] at h
    have hstart : start < block.length := by omega
    have hset : block.set start cell = splice block start [cell] := by
      rw [List.set_eq_take_append_cons_drop, if_pos hstart]
      rfl
    rw [stores, if_pos hstart, ih (by rw [List.length_set]; omega), hset]
    congr 1
    exact splice_splice [cell] cells (by rw [List.length_singleton]; omega)

/-- The state after the events, and what each of them put out, if no step fails to have a result. -/
def attempt (step : σ → ε → Option (σ × ω)) : σ → List ε → Option (σ × List ω)
  | s, [] => some (s, [])
  | s, e :: es => (step s e).bind fun r => (attempt step r.1 es).map fun t => (t.1, r.2 :: t.2)

section Attempt

variable {step : σ → ε → Option (σ × ω)} {s t : σ} {e : ε} {es fs : List ε} {out : List ω}

theorem attempt_cons {o : ω} (h : step s e = some (t, o)) :
    attempt step s (e :: es) = (attempt step t es).map fun r => (r.1, o :: r.2) := by
  rw [attempt, h, Option.bind_some]

theorem attempt_append (h : attempt step s es = some (t, out)) :
    attempt step s (es ++ fs) = (attempt step t fs).map fun r => (r.1, out ++ r.2) := by
  induction es generalizing s out with
  | nil =>
    obtain ⟨rfl, rfl⟩ := Prod.mk.inj (Option.some.inj h)
    rw [List.nil_append]
    cases attempt step s fs with
    | none => rfl
    | some r => rfl
  | cons e es ih =>
    obtain ⟨⟨s', o⟩, hstep, hrest⟩ := Option.bind_eq_some_iff.1 h
    obtain ⟨⟨t', out'⟩, hes, heq⟩ := Option.map_eq_some_iff.1 hrest
    obtain ⟨rfl, rfl⟩ := Prod.mk.inj heq
    rw [List.cons_append, attempt_cons hstep, ih hes, Option.map_map]
    rfl

/-- **The invariant rule.** -/
theorem attempt_inv {P : σ → Prop} (hstep : ∀ s e, P s → ∃ r, step s e = some r ∧ P r.1) (h : P s)
    (es : List ε) : ∃ r, attempt step s es = some r ∧ P r.1 := by
  induction es generalizing s with
  | nil => exact ⟨(s, []), rfl, h⟩
  | cons e es ih =>
    obtain ⟨⟨s', o⟩, hs', hP⟩ := hstep s e h
    obtain ⟨r, hr, hP'⟩ := ih hP
    refine ⟨(r.1, o :: r.2), ?_, hP'⟩
    rw [attempt_cons hs', hr, Option.map_some]

/-- **Steps that change nothing.** -/
theorem attempt_const {f : ε → ω} (hstep : ∀ e ∈ es, step s e = some (s, f e)) :
    attempt step s es = some (s, es.map f) := by
  induction es with
  | nil => rfl
  | cons e es ih =>
    rw [attempt_cons (hstep e List.mem_cons_self), ih fun e he => hstep e (List.mem_cons_of_mem _ he),
      Option.map_some, List.map_cons]

end Attempt

end OpenRtdds.Lib
