import Mathlib.Tactic

/-!
# Computations that may fault

Code over raw memory returns a value, fails with an error of its own, or faults: it uses a cell
outside a buffer, a size wraps around, or a loop does not end. `Guarded` makes the fault an outcome,
so that its absence can be stated and proved.

* `access`, `store`, `fill`, `fetch`, `search`, `sizeAdd`, `sizeSub`: the operations that can fault.
* `loop`: a loop that faults if its fuel does not suffice.
* `Safe`: the computation does not fault, and a value it returns satisfies a postcondition.
* `Same`: two computations have the same outcome, and it is no fault.
* `Agrees`: the computation does not fault and has the outcome of one without faults.
* `Safe.loop`, `Safe.foldlM_range`: the invariant rules.
* `Yields`: what a computation can end with, unless it faults.
* `Completes`: what the caller of a safe computation sees.
-/

namespace OpenRtdds.Lib

/-- The outcome of a computation over raw memory. -/
inductive Guarded (ε α : Type) where
  | ok (value : α)
  | error (error : ε)
  | fault

namespace Guarded

variable {ε ε' α β σ τ : Type}

protected def bind (c : Guarded ε α) (f : α → Guarded ε β) : Guarded ε β :=
  match c with
  | ok a => f a
  | error e => error e
  | fault => fault

instance : Monad (Guarded ε) where
  pure := ok
  bind := Guarded.bind

instance : LawfulMonad (Guarded ε) :=
  LawfulMonad.mk' (Guarded ε)
    (fun c => by cases c <;> rfl)
    (fun _ _ => rfl)
    (fun c _ _ => by cases c <;> rfl)

@[simp] theorem ok_bind (a : α) (f : α → Guarded ε β) : ok a >>= f = f a := rfl

@[simp] theorem error_bind (e : ε) (f : α → Guarded ε β) : error e >>= f = error e := rfl

@[simp] theorem map_ok (f : α → β) (a : α) : f <$> (ok a : Guarded ε α) = ok (f a) := rfl

@[simp] theorem pure_eq (a : α) : (pure a : Guarded ε α) = ok a := rfl

/-- The same outcome with another error. -/
def mapError (g : ε → ε') : Guarded ε α → Guarded ε' α
  | ok a => ok a
  | error e => error (g e)
  | fault => fault

/-- A call that writes its output on success only: the error and the output after the call. -/
def into (previous : α) : Guarded ε α → Option (Option ε × α)
  | ok a => some (none, a)
  | error e => some (some e, previous)
  | fault => none

/-- The call ends without a fault: it writes an output with the postcondition, or it reports an error
and leaves its output. -/
def Completes (c : Guarded ε α) (previous : α) (post : α → Prop) : Prop :=
  ∃ error output, c.into previous = some (error, output) ∧
    (error = none → post output) ∧ (error ≠ none → output = previous)

section Operations

/-- Fails with the error unless the condition holds. -/
def require (p : Prop) [Decidable p] (e : ε) : Guarded ε Unit := if p then ok () else error e

/-- Faults unless the condition holds. -/
def guard (p : Prop) [Decidable p] : Guarded ε Unit := if p then ok () else fault

/-- A value that is computed from the `n` cells at `i` of the memory. -/
def access (memory : List β) (i n : ℕ) (value : α) : Guarded ε α :=
  if i + n ≤ memory.length then ok value else fault

/-- The sum of two 64-bit sizes. -/
def sizeAdd (a b : ℕ) : Guarded ε ℕ := if a + b < 2 ^ 64 then ok (a + b) else fault

/-- The difference of two sizes. -/
def sizeSub (a b : ℕ) : Guarded ε ℕ := if b ≤ a then ok (a - b) else fault

/-- Writes the cell `i` of an array. -/
def store {n : ℕ} (v : Vector α n) (i : ℕ) (a : α) : Guarded ε (Vector α n) :=
  if h : i < n then ok (v.set i a) else fault

/-- Writes the first cells of an array. -/
def fill {n : ℕ} (v : Vector α n) (values : List α) : Guarded ε (Vector α n) :=
  if values.length ≤ n then ok (v.mapIdx fun k a => values.getD k a) else fault

/-- Reads the cell `i` of an array. -/
def fetch {n : ℕ} (v : Vector α n) (i : ℕ) : Guarded ε α := if h : i < n then ok v[i] else fault

/-- Looks for a value in the first `count` cells of an array. -/
def search {n : ℕ} (v : Vector α n) (count : ℕ) (p : α → Bool) : Guarded ε Bool :=
  if count ≤ n then ok ((v.toList.take count).any p) else fault

/-- A loop whose body says whether to go on. -/
def loop (body : σ → Guarded ε (σ × Bool)) : ℕ → σ → Guarded ε σ
  | 0, _ => fault
  | fuel + 1, s => do
    let next ← body s
    if next.2 then loop body fuel next.1 else pure next.1

end Operations

section Equations

theorem require_pos {p : Prop} [Decidable p] (h : p) (e : ε) : require p e = ok () := if_pos h

theorem require_neg {p : Prop} [Decidable p] (h : ¬ p) (e : ε) : require p e = error e := if_neg h

theorem access_of_le {memory : List β} {i n : ℕ} (h : i + n ≤ memory.length) (value : α) :
    (access memory i n value : Guarded ε α) = ok value := if_pos h

theorem sizeAdd_of_lt {a b : ℕ} (h : a + b < 2 ^ 64) : (sizeAdd a b : Guarded ε ℕ) = ok (a + b) :=
  if_pos h

theorem sizeSub_of_le {a b : ℕ} (h : b ≤ a) : (sizeSub a b : Guarded ε ℕ) = ok (a - b) := if_pos h

theorem loop_succ (body : σ → Guarded ε (σ × Bool)) (fuel : ℕ) (s : σ) :
    loop body (fuel + 1) s =
      body s >>= fun next => if next.2 then loop body fuel next.1 else pure next.1 := rfl

theorem bind_eq_ok {c : Guarded ε α} {f : α → Guarded ε β} {b : β} :
    c >>= f = ok b ↔ ∃ a, c = ok a ∧ f a = ok b := by
  cases c with
  | ok a => exact ⟨fun h => ⟨a, rfl, h⟩, fun ⟨a', ha, h⟩ => ok.inj ha ▸ h⟩
  | error e => exact iff_of_false (fun h => by cases h) fun ⟨_, h, _⟩ => by cases h
  | fault => exact iff_of_false (fun h => by cases h) fun ⟨_, h, _⟩ => by cases h

theorem map_eq_ok {f : α → β} {c : Guarded ε α} {b : β} : f <$> c = ok b ↔ ∃ a, c = ok a ∧ f a = b := by
  rw [map_eq_pure_bind, bind_eq_ok]
  simp only [pure_eq, ok.injEq]

theorem require_bind_eq_ok {p : Prop} [Decidable p] {e : ε} {f : Unit → Guarded ε β} {b : β} :
    require p e >>= f = ok b ↔ p ∧ f () = ok b := by
  by_cases hp : p
  · rw [require_pos hp, ok_bind, and_iff_right hp]
  · rw [require_neg hp, error_bind]
    exact iff_of_false (fun h => by cases h) fun h => hp h.1

/-- What follows a check may use it. -/
theorem require_bind_congr {p : Prop} [Decidable p] {e : ε} {f g : Unit → Guarded ε β}
    (h : p → f () = g ()) : require p e >>= f = require p e >>= g := by
  by_cases hp : p
  · rw [require_pos hp, ok_bind, ok_bind, h hp]
  · rw [require_neg hp, error_bind, error_bind]

/-- A loop over a list without errors and faults is a fold. -/
theorem foldlM_ok {f : σ → α → Guarded ε σ} {g : σ → α → σ} {l : List α} :
    ∀ s, (∀ s, ∀ a ∈ l, f s a = ok (g s a)) → l.foldlM f s = ok (l.foldl g s) := by
  induction l with
  | nil => exact fun _ _ => rfl
  | cons a l ih =>
    intro s h
    rw [List.foldlM_cons, h s a List.mem_cons_self, ok_bind, List.foldl_cons]
    exact ih _ fun t b hb => h t b (List.mem_cons_of_mem a hb)

theorem foldlM_range_exists {f : σ → ℕ → Guarded ε σ} (inv : ℕ → σ → Prop) {n : ℕ}
    (hstep : ∀ i s, i < n → inv i s → ∃ s', f s i = ok s' ∧ inv (i + 1) s') {s : σ} (h0 : inv 0 s) :
    ∃ t, (List.range n).foldlM f s = ok t ∧ inv n t := by
  induction n with
  | zero => exact ⟨s, rfl, h0⟩
  | succ n ih =>
    obtain ⟨t, ht, hinv⟩ := ih fun i s hi => hstep i s (by omega)
    obtain ⟨u, hu, hlast⟩ := hstep n t (by omega) hinv
    refine ⟨u, ?_, hlast⟩
    rw [List.range_succ, List.foldlM_append, ht, ok_bind, List.foldlM_cons, hu]
    rfl

end Equations

/-- **No fault**, and the postcondition of a value that is returned. -/
inductive Safe (post : α → Prop) : Guarded ε α → Prop
  | ok {a : α} (h : post a) : Safe post (.ok a)
  | error (e : ε) : Safe post (.error e)

namespace Safe

variable {post : α → Prop} {post' : β → Prop}

variable {c : Guarded ε α} {n : ℕ}

theorem mono {post₂ : α → Prop} (h : Safe post c) (himp : ∀ a, post a → post₂ a) :
    Safe post₂ c := by
  cases h with
  | ok h => exact .ok (himp _ h)
  | error e => exact .error e

theorem bind {f : α → Guarded ε β} (h : Safe post c)
    (hf : ∀ a, post a → Safe post' (f a)) : Safe post' (c >>= f) := by
  cases h with
  | ok h => exact hf _ h
  | error e => exact .error e

theorem mapError (h : Safe post c) (g : ε → ε') : Safe post (c.mapError g) := by
  cases h with
  | ok h => exact .ok h
  | error e => exact .error (g e)

theorem ite {p : Prop} [Decidable p] {d : Guarded ε α} (h : p → Safe post c)
    (h' : ¬ p → Safe post d) : Safe post (if p then c else d) := by
  split
  · exact h ‹p›
  · exact h' ‹¬ p›

theorem require (p : Prop) [Decidable p] (e : ε) : Safe (fun _ => p) (Guarded.require p e) := by
  unfold Guarded.require
  exact ite (fun h => .ok h) fun _ => .error e

theorem require_bind {p : Prop} [Decidable p] {e : ε} {f : Unit → Guarded ε β}
    (h : p → Safe post' (f ())) : Safe post' (Guarded.require p e >>= f) :=
  (require p e).bind fun _ hp => h hp

theorem access_bind {memory : List τ} {i : ℕ} {value : α} {f : α → Guarded ε β}
    (h : i + n ≤ memory.length) (hf : Safe post' (f value)) :
    Safe post' (Guarded.access memory i n value >>= f) := by
  rwa [access_of_le h, ok_bind]

theorem sizeAdd_bind {a b : ℕ} {f : ℕ → Guarded ε β} (h : a + b < 2 ^ 64)
    (hf : Safe post' (f (a + b))) : Safe post' (Guarded.sizeAdd a b >>= f) := by
  rwa [sizeAdd_of_lt h, ok_bind]

theorem sizeSub_bind {a b : ℕ} {f : ℕ → Guarded ε β} (h : b ≤ a) (hf : Safe post' (f (a - b))) :
    Safe post' (Guarded.sizeSub a b >>= f) := by
  rwa [sizeSub_of_le h, ok_bind]

theorem store_bind {i : ℕ} {v : Vector α n} {a : α} {f : Vector α n → Guarded ε β} (h : i < n)
    (hf : ∀ v', Safe post' (f v')) : Safe post' (Guarded.store v i a >>= f) := by
  unfold Guarded.store
  rw [dif_pos h]
  exact hf _

theorem fill_bind {v : Vector α n} {values : List α} {f : Vector α n → Guarded ε β}
    (h : values.length ≤ n) (hf : ∀ v', Safe post' (f v')) :
    Safe post' (Guarded.fill v values >>= f) := by
  unfold Guarded.fill
  rw [if_pos h]
  exact hf _

theorem search_bind {count : ℕ} {v : Vector α n} {p : α → Bool} {f : Bool → Guarded ε β}
    (h : count ≤ n) (hf : ∀ b, Safe post' (f b)) : Safe post' (Guarded.search v count p >>= f) := by
  unfold Guarded.search
  rw [if_pos h]
  exact hf _

/-- **The rule for loops**: an invariant and a measure that decreases while the loop goes on. -/
theorem loop {body : σ → Guarded ε (σ × Bool)} {inv post : σ → Prop} (measure : σ → ℕ)
    (hbody : ∀ s, inv s → Safe
      (fun next => if next.2 then inv next.1 ∧ measure next.1 < measure s else post next.1)
      (body s)) : ∀ fuel s, inv s → measure s < fuel → Safe post (Guarded.loop body fuel s) := by
  intro fuel
  induction fuel with
  | zero => exact fun s _ hlt => absurd hlt (Nat.not_lt_zero _)
  | succ fuel ih =>
    intro s hs hlt
    rw [loop_succ]
    refine (hbody s hs).bind fun next hnext => ?_
    split at hnext
    next hagain =>
      rw [if_pos hagain]
      exact ih next.1 hnext.1 (by omega)
    next hend =>
      rw [if_neg hend]
      exact .ok hnext

/-- **The rule for counting loops**: an invariant that may mention the index. -/
theorem foldlM_range {f : σ → ℕ → Guarded ε σ} (inv : ℕ → σ → Prop)
    (hstep : ∀ i s, i < n → inv i s → Safe (inv (i + 1)) (f s i)) {s : σ} (h0 : inv 0 s) :
    Safe (inv n) ((List.range n).foldlM f s) := by
  induction n with
  | zero => exact .ok h0
  | succ n ih =>
    rw [List.range_succ, List.foldlM_append]
    refine (ih fun i s hi => hstep i s (by omega)).bind fun t ht => ?_
    have hlast := hstep n t (by omega) ht
    rw [List.foldlM_cons]
    exact hlast.bind fun u hu => .ok hu

/-- A call without a fault completes, whatever its output held before. -/
theorem completes (h : Safe post c) (previous : α) :
    c.Completes previous post := by
  cases h with
  | ok h => exact ⟨none, _, rfl, fun _ => h, fun hne => absurd rfl hne⟩
  | error e =>
    exact ⟨some e, previous, rfl, fun hne => absurd hne (Option.some_ne_none e), fun _ => rfl⟩

end Safe

/-- **The same outcome**, which is no fault, and the postcondition of the value. -/
structure Same (post : α → Prop) (c d : Guarded ε α) : Prop where
  eq : c = d
  safe : Safe post c

namespace Same

variable {post : α → Prop} {post' : β → Prop}

variable {c : Guarded ε α}

theorem of_safe (h : Safe post c) : Same post c c := ⟨rfl, h⟩

theorem ok {a : α} (h : post a) : Same post (.ok a : Guarded ε α) (.ok a) := .of_safe (.ok h)

theorem bind {d : Guarded ε α} {f g : α → Guarded ε β} (h : Same post c d)
    (hf : ∀ a, post a → Same post' (f a) (g a)) : Same post' (c >>= f) (d >>= g) := by
  obtain ⟨rfl, h⟩ := h
  cases h with
  | ok h => exact hf _ h
  | error e => exact .of_safe (.error e)

theorem ite {p : Prop} [Decidable p] {c' d d' : Guarded ε α} (h : p → Same post c c')
    (h' : ¬ p → Same post d d') : Same post (if p then c else d) (if p then c' else d') := by
  split
  · exact h ‹p›
  · exact h' ‹¬ p›

theorem require_bind {p : Prop} [Decidable p] {e : ε} {f g : Unit → Guarded ε β}
    (h : p → Same post' (f ()) (g ())) :
    Same post' (Guarded.require p e >>= f) (Guarded.require p e >>= g) :=
  (of_safe (.require p e)).bind fun _ hp => h hp

theorem sizeSub_bind {a b : ℕ} {f g : ℕ → Guarded ε β} (h : b ≤ a)
    (hf : Same post' (f (a - b)) (g (a - b))) :
    Same post' (Guarded.sizeSub a b >>= f) (Guarded.sizeSub a b >>= g) := by
  rwa [sizeSub_of_le h, ok_bind, ok_bind]

theorem access_bind {memory memory' : List τ} {i i' n : ℕ} {value value' : α} {f g : α → Guarded ε β}
    (h : i + n ≤ memory.length) (h' : i' + n ≤ memory'.length) (hvalue : value = value')
    (hf : Same post' (f value) (g value)) :
    Same post' (Guarded.access memory i n value >>= f) (Guarded.access memory' i' n value' >>= g) := by
  rwa [access_of_le h, access_of_le h', ok_bind, ok_bind, ← hvalue]

end Same

/-- **No fault**, and the outcome of a computation without faults, up to a relation of the values. -/
inductive Agrees (R : α → β → Prop) : Guarded ε α → Except ε β → Prop
  | ok {a : α} {b : β} (h : R a b) : Agrees R (.ok a) (.ok b)
  | error (e : ε) : Agrees R (.error e) (.error e)

namespace Agrees

variable {R : α → β → Prop} {γ δ : Type} {S : γ → δ → Prop}

variable {r : Except ε δ}

theorem bind {c : Guarded ε α} {f : α → Guarded ε γ} {d : Except ε β}
    (h : Agrees R c d) (herror : ∀ e, d = .error e → r = .error e)
    (hok : ∀ a b, d = .ok b → R a b → Agrees S (f a) r) : Agrees S (c >>= f) r := by
  cases h with
  | ok h => exact hok _ _ rfl h
  | error e =>
    rw [herror e rfl]
    exact .error e

theorem require_ite {p q : Prop} [Decidable p] [Decidable q] {e : ε} {f : Unit → Guarded ε γ}
    (hq : q ↔ ¬ p) (h : p → Agrees S (f ()) r) :
    Agrees S (Guarded.require p e >>= f) (if q then .error e else r) := by
  by_cases hp : p
  · rw [require_pos hp, ok_bind, if_neg fun hq' => hq.1 hq' hp]
    exact h hp
  · rw [require_neg hp, error_bind, if_pos (hq.2 hp)]
    exact .error e

theorem access_bind {memory : List τ} {i n : ℕ} {value : α} {f : α → Guarded ε γ}
    (h : i + n ≤ memory.length) (hf : Agrees S (f value) r) :
    Agrees S (Guarded.access memory i n value >>= f) r := by
  rwa [access_of_le h, ok_bind]

theorem safe {c : Guarded ε α} {d : Except ε β} (h : Agrees R c d) :
    Safe (fun a => ∃ b, d = .ok b ∧ R a b) c := by
  cases h with
  | ok h => exact .ok ⟨_, rfl, h⟩
  | error e => exact .error e

end Agrees

/-- **What the computation can end with**, unless it faults: values with the postcondition, and errors with
the property `exit`. -/
inductive Yields (exit : ε → Prop) (post : α → Prop) : Guarded ε α → Prop
  | ok {a : α} (h : post a) : Yields exit post (ok a)
  | error {e : ε} (h : exit e) : Yields exit post (error e)
  | fault : Yields exit post fault

namespace Yields

variable {exit : ε → Prop} {post : α → Prop} {post' : β → Prop}

theorem of_ok {a : α} (h : Yields exit post (.ok a)) : post a := by
  cases h with
  | ok h => exact h

theorem mono {c : Guarded ε α} {post₂ : α → Prop} (h : Yields exit post c) (himp : ∀ a, post a → post₂ a) :
    Yields exit post₂ c := by
  cases h with
  | ok h => exact .ok (himp _ h)
  | error h => exact .error h
  | fault => exact .fault

theorem bind {c : Guarded ε α} {f : α → Guarded ε β} (h : Yields exit post c)
    (hf : ∀ a, post a → Yields exit post' (f a)) : Yields exit post' (c >>= f) := by
  cases h with
  | ok h => exact hf _ h
  | error h => exact .error h
  | fault => exact .fault

theorem require_bind {p : Prop} [Decidable p] {e : ε} {f : Unit → Guarded ε β} (he : exit e)
    (hf : p → Yields exit post' (f ())) : Yields exit post' (require p e >>= f) := by
  by_cases hp : p
  · rw [require_pos hp, ok_bind]
    exact hf hp
  · rw [require_neg hp, error_bind]
    exact .error he

theorem ite_bind {p : Prop} [Decidable p] {a : α} {f : α → Guarded ε β} (hf : p → Yields exit post' (f a)) :
    Yields exit post' ((if p then Guarded.ok a else .fault) >>= f) := by
  split
  next hp => exact hf hp
  next => exact .fault

theorem store_bind {n i : ℕ} {v : Vector α n} {a : α} {f : Vector α n → Guarded ε β}
    (hf : ∀ h : i < n, Yields exit post' (f (v.set i a))) : Yields exit post' (store v i a >>= f) := by
  unfold Guarded.store
  split
  next hi => exact hf hi
  next => exact .fault

theorem foldlM_range {f : σ → ℕ → Guarded ε σ} (inv : ℕ → σ → Prop) {n : ℕ}
    (hstep : ∀ i s, i < n → inv i s → Yields exit (inv (i + 1)) (f s i)) {s : σ} (h0 : inv 0 s) :
    Yields exit (inv n) ((List.range n).foldlM f s) := by
  induction n with
  | zero => exact .ok h0
  | succ n ih =>
    rw [List.range_succ, List.foldlM_append]
    refine (ih fun i s hi => hstep i s (by omega)).bind fun t ht => ?_
    rw [List.foldlM_cons]
    exact (hstep n t (by omega) ht).bind fun u hu => .ok hu

end Yields

end Guarded

end OpenRtdds.Lib
