import OpenRtdds.Lib.Run
import OpenRtdds.Lib.Table

/-!
# Pools of slots with generations

A pool hands out slots. A slot keeps a generation that is advanced each time it is taken, and a handle
names a slot, the generation it was taken with, and the epoch of the pool. A handle is accepted while its
slot is taken and both numbers agree.

The log of a pool is the list of what has happened to its handles.

* `allocate`, `release`, `write`, `slotOf`: the operations, and the slot of a handle that is accepted.
* `accepted_taken`, `accepted_released`, `accepted_write`: what they do to the accepted handles.
* `LiveIn`: a handle has been created and not destroyed since.
* `Tracked`: the accepted handles are the live ones.
* `Counted`: as long as the generations do not wrap they count the allocations, so that no handle is
  created twice, and one that has been destroyed is never live again.
* `Accumulated`: the data of a slot is what the writes through its present handle have made of it.
-/

namespace OpenRtdds.Lib.Pool

/-- A slot of a pool. -/
structure PoolSlot (α : Type) where
  data : α
  generation : UInt32 := 0
  used : Bool := false

/-- A handle to a slot. -/
structure SlotHandle where
  slot : ℕ := 0
  slotGeneration : UInt32 := 0
  contextGeneration : UInt32 := 0
  deriving DecidableEq

section Operations

variable {α : Type} {n : ℕ}

/-- The next generation; zero is left out. -/
def nextGeneration (current : UInt32) : UInt32 := if current = 0xFFFFFFFF then 1 else current + 1

/-- Takes the first slot that is not taken, with new data. -/
def allocate (pool : Vector (PoolSlot α) n) (data : α) : Option (Fin n × Vector (PoolSlot α) n) :=
  (pool.findFinIdx? fun s => !s.used).map fun i =>
    (i, setSlot pool i { data, generation := nextGeneration (pool.get i).generation, used := true })

/-- Gives a slot back. -/
def release (pool : Vector (PoolSlot α) n) (i : Fin n) (data : α) : Vector (PoolSlot α) n :=
  setSlot pool i { pool.get i with data, used := false }

/-- Changes the data of a slot. -/
def write (pool : Vector (PoolSlot α) n) (i : Fin n) (data : α) : Vector (PoolSlot α) n :=
  setSlot pool i { pool.get i with data }

/-- The slot of a handle that is accepted. -/
def slotOf (pool : Vector (PoolSlot α) n) (epoch : UInt32) (h : SlotHandle) : Option (Fin n) :=
  if h.contextGeneration ≠ epoch then none
  else if hslot : h.slot < n then
    let slot := pool.get ⟨h.slot, hslot⟩
    if slot.used && slot.generation == h.slotGeneration then some ⟨h.slot, hslot⟩ else none
  else none

/-- The handle of a slot. -/
def handleAt (pool : Vector (PoolSlot α) n) (epoch : UInt32) (i : Fin n) : SlotHandle where
  slot := i
  slotGeneration := (pool.get i).generation
  contextGeneration := epoch

variable {pool : Vector (PoolSlot α) n} {epoch : UInt32} {h g : SlotHandle} {i : Fin n}

/-- **A handle is accepted if it is the handle of a slot that is taken.** -/
theorem slotOf_eq_some : slotOf pool epoch h = some i ↔
    (pool.get i).used = true ∧ h = handleAt pool epoch i := by
  constructor
  · intro hslot
    unfold slotOf at hslot
    split at hslot
    · cases hslot
    next hepoch =>
      split at hslot
      next hbound =>
        dsimp only at hslot
        split at hslot
        next htaken =>
          obtain rfl := Option.some.inj hslot
          obtain ⟨hused, hgeneration⟩ := Bool.and_eq_true_iff.1 htaken
          refine ⟨hused, ?_⟩
          unfold handleAt
          rw [beq_iff_eq.1 hgeneration, ← not_not.1 hepoch]
        · cases hslot
      · cases hslot
  · rintro ⟨hused, rfl⟩
    unfold slotOf handleAt
    dsimp only
    rw [if_neg (not_not.2 rfl), dif_pos i.2]
    change (if (pool.get i).used && (pool.get i).generation == (pool.get i).generation then some i
      else none) = some i
    rw [hused, beq_self_eq_true, Bool.and_self, if_pos rfl]

theorem accepted_iff : slotOf pool epoch h ≠ none ↔
    ∃ i, (pool.get i).used = true ∧ h = handleAt pool epoch i := by
  rw [Option.ne_none_iff_exists']
  exact exists_congr fun i => slotOf_eq_some

theorem handleAt_inj {j : Fin n} (heq : handleAt pool epoch i = handleAt pool epoch j) : i = j :=
  Fin.ext (congrArg SlotHandle.slot heq)

theorem handleAt_setSlot {j : Fin n} (hne : i ≠ j) (slot : PoolSlot α) :
    handleAt (setSlot pool i slot) epoch j = handleAt pool epoch j := by
  unfold handleAt
  rw [setSlot_get_of_ne pool hne]

/-- **The slot that is taken**: its handle is accepted in addition. -/
theorem accepted_taken {slot : PoolSlot α} (hfree : (pool.get i).used = false)
    (hused : slot.used = true) :
    slotOf (setSlot pool i slot) epoch g ≠ none ↔
      g = handleAt (setSlot pool i slot) epoch i ∨ slotOf pool epoch g ≠ none := by
  rw [accepted_iff, accepted_iff]
  constructor
  · rintro ⟨j, hj, rfl⟩
    by_cases hji : i = j
    · exact .inl (hji ▸ rfl)
    · rw [setSlot_get_of_ne pool hji] at hj
      exact .inr ⟨j, hj, handleAt_setSlot hji slot⟩
  · rintro (rfl | ⟨j, hj, rfl⟩)
    · exact ⟨i, by rw [setSlot_get_self]; exact hused, rfl⟩
    · have hji : i ≠ j := by
        rintro rfl
        rw [hfree] at hj
        cases hj
      refine ⟨j, ?_, (handleAt_setSlot hji slot).symm⟩
      rw [setSlot_get_of_ne pool hji]
      exact hj

/-- **The slot that is given back**: its handle is not accepted any more. -/
theorem accepted_released {data : α} :
    slotOf (release pool i data) epoch g ≠ none ↔
      g ≠ handleAt pool epoch i ∧ slotOf pool epoch g ≠ none := by
  unfold release
  rw [accepted_iff, accepted_iff]
  constructor
  · rintro ⟨j, hj, rfl⟩
    have hji : i ≠ j := by
      rintro rfl
      rw [setSlot_get_self] at hj
      cases hj
    rw [setSlot_get_of_ne pool hji] at hj
    rw [handleAt_setSlot hji]
    exact ⟨fun heq => hji (handleAt_inj heq).symm, j, hj, rfl⟩
  · rintro ⟨hne, j, hj, rfl⟩
    have hji : i ≠ j := fun heq => hne (heq ▸ rfl)
    refine ⟨j, ?_, (handleAt_setSlot hji _).symm⟩
    rw [setSlot_get_of_ne pool hji]
    exact hj

theorem write_get (pool : Vector (PoolSlot α) n) (i j : Fin n) (data : α) :
    ((write pool i data).get j).used = (pool.get j).used ∧
      ((write pool i data).get j).generation = (pool.get j).generation := by
  unfold write
  by_cases hji : i = j
  · rw [hji, setSlot_get_self]
    exact ⟨rfl, rfl⟩
  · rw [setSlot_get_of_ne pool hji]
    exact ⟨rfl, rfl⟩

theorem handleAt_write (pool : Vector (PoolSlot α) n) (i j : Fin n) (data : α) :
    handleAt (write pool i data) epoch j = handleAt pool epoch j := by
  unfold handleAt
  rw [(write_get pool i j data).2]

theorem accepted_write {data : α} :
    slotOf (write pool i data) epoch g ≠ none ↔ slotOf pool epoch g ≠ none := by
  rw [accepted_iff, accepted_iff]
  refine exists_congr fun j => ?_
  rw [(write_get pool i j data).1, handleAt_write]

end Operations

section Log

/-- What happens to a handle. -/
inductive PoolEvent where
  | created (h : SlotHandle)
  | destroyed (h : SlotHandle)
  | written (h : SlotHandle)
  deriving DecidableEq

/-- **The handle has been created and not destroyed since.** -/
def LiveIn (log : List PoolEvent) (h : SlotHandle) : Prop :=
  ∃ before after, log = before ++ .created h :: after ∧ .destroyed h ∉ after

variable {log : List PoolEvent} {e : PoolEvent} {h g : SlotHandle}

theorem not_liveIn_nil : ¬ LiveIn [] h := by
  rintro ⟨before, after, heq, -⟩
  exact List.append_ne_nil_of_right_ne_nil before (List.cons_ne_nil _ after) heq.symm

theorem liveIn_snoc : LiveIn (log ++ [e]) h ↔ e = .created h ∨ LiveIn log h ∧ e ≠ .destroyed h := by
  constructor
  · rintro ⟨before, after, heq, hafter⟩
    rcases snoc_eq_append_cons heq with ⟨he, -⟩ | ⟨rest, rfl, rfl⟩
    · exact .inl he
    · rw [List.mem_append, not_or, List.mem_singleton] at hafter
      exact .inr ⟨⟨before, rest, rfl, hafter.1⟩, fun heq => hafter.2 heq.symm⟩
  · rintro (rfl | ⟨⟨before, after, rfl, hafter⟩, he⟩)
    · exact ⟨log, [], rfl, List.not_mem_nil⟩
    · refine ⟨before, after ++ [e], by rw [List.append_assoc, List.cons_append], ?_⟩
      rw [List.mem_append, List.mem_singleton]
      exact not_or.2 ⟨hafter, fun heq => he heq.symm⟩

/-- A handle that has been created and is not live has been destroyed. -/
theorem destroyed_of_not_liveIn (hcreated : .created h ∈ log) (hdead : ¬ LiveIn log h) :
    .destroyed h ∈ log := by
  obtain ⟨before, after, rfl⟩ := List.append_of_mem hcreated
  by_contra hnot
  exact hdead ⟨before, after, rfl,
    fun hmem => hnot (List.mem_append_right _ (List.mem_cons_of_mem _ hmem))⟩

theorem LiveIn.created (hlive : LiveIn log h) : .created h ∈ log := by
  obtain ⟨before, after, rfl, -⟩ := hlive
  exact List.mem_append_right _ List.mem_cons_self

theorem liveIn_created : LiveIn (log ++ [.created g]) h ↔ h = g ∨ LiveIn log h := by
  rw [liveIn_snoc, PoolEvent.created.injEq, eq_comm]
  simp

theorem liveIn_destroyed : LiveIn (log ++ [.destroyed g]) h ↔ h ≠ g ∧ LiveIn log h := by
  rw [liveIn_snoc, Ne, PoolEvent.destroyed.injEq]
  simp [and_comm, eq_comm]

theorem liveIn_written : LiveIn (log ++ [.written g]) h ↔ LiveIn log h := by
  rw [liveIn_snoc]
  simp

end Log

section Tracked

variable {α : Type} {n : ℕ} {pool : Vector (PoolSlot α) n} {epoch : UInt32} {log : List PoolEvent}
  {i : Fin n}

/-- **The accepted handles are the live ones.** -/
def Tracked (pool : Vector (PoolSlot α) n) (epoch : UInt32) (log : List PoolEvent) : Prop :=
  ∀ h, slotOf pool epoch h ≠ none ↔ LiveIn log h

namespace Tracked

theorem of_unused (h : Tracked pool epoch log) (hunused : ∀ i, (pool.get i).used = false)
    (g : SlotHandle) : ¬ LiveIn log g := by
  rw [← h g, accepted_iff]
  rintro ⟨i, hi, -⟩
  rw [hunused i] at hi
  cases hi

theorem initial {pool : Vector (PoolSlot α) n} (hunused : ∀ i, (pool.get i).used = false) :
    Tracked pool epoch [] := by
  intro g
  rw [accepted_iff]
  refine iff_of_false ?_ not_liveIn_nil
  rintro ⟨i, hi, -⟩
  rw [hunused i] at hi
  cases hi

theorem taken (h : Tracked pool epoch log) {slot : PoolSlot α} (hfree : (pool.get i).used = false)
    (hused : slot.used = true) :
    Tracked (setSlot pool i slot) epoch (log ++ [.created (handleAt (setSlot pool i slot) epoch i)]) := by
  intro g
  rw [accepted_taken hfree hused, liveIn_created, h g]

theorem released (h : Tracked pool epoch log) {data : α} :
    Tracked (release pool i data) epoch (log ++ [.destroyed (handleAt pool epoch i)]) := by
  intro g
  rw [accepted_released, liveIn_destroyed, h g]

theorem written (h : Tracked pool epoch log) {data : α} (g : SlotHandle) :
    Tracked (write pool i data) epoch (log ++ [.written g]) := by
  intro g
  rw [accepted_write, liveIn_written, h g]

/-- A new epoch begins while no slot is taken. -/
theorem restarted (h : Tracked pool epoch log) (hunused : ∀ i, (pool.get i).used = false)
    (next : UInt32) : Tracked pool next log := by
  intro g
  refine iff_of_false ?_ (h.of_unused hunused g)
  rw [accepted_iff]
  rintro ⟨i, hi, -⟩
  rw [hunused i] at hi
  cases hi

end Tracked

end Tracked

section Counted

/-- An event that takes a slot. -/
def PoolEvent.takes (slot : ℕ) : PoolEvent → Bool
  | .created h => h.slot == slot
  | _ => false

/-- The handle of an event. -/
def PoolEvent.handle : PoolEvent → SlotHandle
  | .created h => h
  | .destroyed h => h
  | .written h => h

/-- How often a slot has been taken. -/
def allocations (log : List PoolEvent) (slot : ℕ) : ℕ := log.countP (PoolEvent.takes slot)

theorem allocations_snoc (log : List PoolEvent) (e : PoolEvent) (slot : ℕ) :
    allocations (log ++ [e]) slot = allocations log slot + if e.takes slot then 1 else 0 := by
  unfold allocations
  rw [List.countP_append, List.countP_singleton]

theorem nextGeneration_toNat {generation : UInt32} (h : generation.toNat < 2 ^ 32 - 1) :
    (nextGeneration generation).toNat = generation.toNat + 1 := by
  have hne : generation ≠ 0xFFFFFFFF := by
    rintro rfl
    exact absurd h (by decide)
  unfold nextGeneration
  rw [if_neg hne, UInt32.toNat_add]
  change (generation.toNat + 1) % 2 ^ 32 = _
  rw [Nat.mod_eq_of_lt]
  omega

variable {α : Type} {n : ℕ} {pool : Vector (PoolSlot α) n} {epoch : UInt32} {log : List PoolEvent}
  {i : Fin n}

/-- **The generations count the allocations**, so that a handle is created before anything else happens
to it, and not live after it has been destroyed. -/
structure Counted (pool : Vector (PoolSlot α) n) (log : List PoolEvent) : Prop where
  generation : ∀ i, (pool.get i).generation.toNat = allocations log i
  created : ∀ h, .created h ∈ log → h.slotGeneration.toNat ≤ allocations log h.slot
  first : ∀ e ∈ log, .created e.handle ∈ log
  dead : ∀ h, .destroyed h ∈ log → ¬ LiveIn log h

namespace Counted

theorem initial (hpool : ∀ i, (pool.get i).generation = 0) : Counted pool [] := by
  refine ⟨fun i => ?_, fun h hmem => ?_, fun e he => ?_, fun h hmem => ?_⟩
  · rw [hpool i]
    rfl
  · cases hmem
  · cases he
  · cases hmem

/-- A slot is taken whose generation does not wrap. -/
theorem taken (h : Counted pool log) (hbound : allocations log i < 2 ^ 32 - 1) (data : α) :
    let pool' := setSlot pool i
      { data, generation := nextGeneration (pool.get i).generation, used := true }
    .created (handleAt pool' epoch i) ∉ log ∧ Counted pool' (log ++ [.created (handleAt pool' epoch i)]) := by
  intro pool'
  have hnext : (nextGeneration (pool.get i).generation).toNat = allocations log i + 1 := by
    rw [nextGeneration_toNat (by rw [h.generation]; exact hbound), h.generation]
  have hhandle : handleAt pool' epoch i =
      { slot := i, slotGeneration := nextGeneration (pool.get i).generation, contextGeneration := epoch } := by
    unfold handleAt
    rw [setSlot_get_self]
  have hslot : (handleAt pool' epoch i).slot = i := rfl
  have hgeneration : (handleAt pool' epoch i).slotGeneration.toNat = allocations log i + 1 := by
    rw [hhandle, ← hnext]
  have hfresh : .created (handleAt pool' epoch i) ∉ log := by
    intro hmem
    have hle := h.created _ hmem
    rw [hgeneration, hslot] at hle
    omega
  have htakes : ∀ j, (PoolEvent.created (handleAt pool' epoch i)).takes j = (i.1 == j) := fun j => rfl
  refine ⟨hfresh, fun j => ?_, fun g hg => ?_, fun e he => ?_, fun g hg => ?_⟩
  · rw [allocations_snoc, htakes]
    by_cases hj : i = j
    · rw [← hj, setSlot_get_self, beq_self_eq_true, if_pos rfl, ← hnext]
    · have hother : ¬ (i.1 == j.1) = true := fun heq => hj (Fin.ext (beq_iff_eq.1 heq))
      rw [setSlot_get_of_ne pool hj, h.generation, if_neg hother, Nat.add_zero]
  · rw [allocations_snoc]
    rcases List.mem_append.1 hg with hg | hg
    · exact (h.created g hg).trans (Nat.le_add_right _ _)
    · obtain rfl := PoolEvent.created.inj (List.mem_singleton.1 hg)
      rw [hgeneration, htakes, hslot, beq_self_eq_true, if_pos rfl]
  · rcases List.mem_append.1 he with he | he
    · exact List.mem_append_left _ (h.first e he)
    · rw [List.mem_singleton.1 he]
      exact List.mem_append_right _ List.mem_cons_self
  · have hmem : .destroyed g ∈ log :=
      (List.mem_append.1 hg).resolve_right fun hnew => by cases List.mem_singleton.1 hnew
    rw [liveIn_created, not_or]
    -- the new handle has not been created before, so not been destroyed either
    exact ⟨fun heq => hfresh (heq ▸ h.first _ hmem), h.dead g hmem⟩

theorem other (h : Counted pool log) (e : PoolEvent) (he : ∀ slot, e.takes slot = false)
    (hcreated : .created e.handle ∈ log) {pool' : Vector (PoolSlot α) n}
    (hpool : ∀ i, (pool'.get i).generation = (pool.get i).generation) : Counted pool' (log ++ [e]) := by
  have hsame : ∀ slot, allocations (log ++ [e]) slot = allocations log slot := by
    intro slot
    rw [allocations_snoc, he, if_neg Bool.false_ne_true, Nat.add_zero]
  have hne : ∀ g, e ≠ .created g := by
    rintro g rfl
    exact absurd (he g.slot) (by simp [PoolEvent.takes])
  refine ⟨fun i => ?_, fun g hg => ?_, fun e' he' => ?_, fun g hg => ?_⟩
  · rw [hpool, h.generation, hsame]
  · rw [hsame]
    rcases List.mem_append.1 hg with hg | hg
    · exact h.created g hg
    · exact absurd (List.mem_singleton.1 hg).symm (hne g)
  · refine List.mem_append_left _ ?_
    rcases List.mem_append.1 he' with he' | he'
    · exact h.first e' he'
    · rw [List.mem_singleton.1 he']
      exact hcreated
  · rw [liveIn_snoc, not_or, not_and, not_not]
    refine ⟨hne g, fun hlive => ?_⟩
    rcases List.mem_append.1 hg with hg | hg
    · exact absurd hlive (h.dead g hg)
    · exact (List.mem_singleton.1 hg).symm

end Counted

end Counted

section Accumulated

variable {α : Type} {n : ℕ} {pool : Vector (PoolSlot α) n} {epoch : UInt32} {log : List PoolEvent}
  {i : Fin n} {f : α → α} {zero : α}

/-- **The data of a slot that is taken is what the writes through its handle have made of it.** -/
def Accumulated (f : α → α) (zero : α) (pool : Vector (PoolSlot α) n) (epoch : UInt32)
    (log : List PoolEvent) : Prop :=
  ∀ i, (pool.get i).used = true →
    (pool.get i).data = f^[log.count (.written (handleAt pool epoch i))] zero

namespace Accumulated

theorem of_unused (hunused : ∀ i, (pool.get i).used = false) : Accumulated f zero pool epoch log := by
  intro i hi
  rw [hunused i] at hi
  cases hi

theorem count_snoc {e : PoolEvent} (he : ∀ g, e ≠ .written g) (g : SlotHandle) :
    (log ++ [e]).count (.written g) = log.count (.written g) := by
  have hnone : [e].count (.written g) = 0 :=
    List.count_eq_zero.2 fun hmem => he g (List.mem_singleton.1 hmem).symm
  rw [List.count_append, hnone, Nat.add_zero]

theorem taken (h : Accumulated f zero pool epoch log) {generation : UInt32}
    (hfresh : ∀ e ∈ log, e.handle ≠ { slot := i, slotGeneration := generation, contextGeneration := epoch })
    {e : PoolEvent} (he : ∀ g, e ≠ .written g) :
    Accumulated f zero (setSlot pool i { data := zero, generation, used := true }) epoch (log ++ [e]) := by
  intro j hj
  rw [count_snoc he]
  by_cases hji : i = j
  · have hcount : log.count (.written (handleAt
        (setSlot pool i { data := zero, generation, used := true }) epoch j)) = 0 := by
      refine List.count_eq_zero.2 fun hmem => hfresh _ hmem ?_
      unfold handleAt
      rw [← hji, setSlot_get_self]
      rfl
    rw [hcount, ← hji, setSlot_get_self]
    rfl
  · rw [handleAt_setSlot hji]
    rw [setSlot_get_of_ne pool hji] at hj ⊢
    exact h j hj

theorem released (h : Accumulated f zero pool epoch log) {data : α} {e : PoolEvent}
    (he : ∀ g, e ≠ .written g) : Accumulated f zero (release pool i data) epoch (log ++ [e]) := by
  intro j hj
  unfold release at hj ⊢
  have hji : i ≠ j := by
    rintro rfl
    rw [setSlot_get_self] at hj
    cases hj
  rw [count_snoc he, handleAt_setSlot hji]
  rw [setSlot_get_of_ne pool hji] at hj ⊢
  exact h j hj

theorem written (h : Accumulated f zero pool epoch log) (hused : (pool.get i).used = true) :
    Accumulated f zero (write pool i (f (pool.get i).data)) epoch
      (log ++ [.written (handleAt pool epoch i)]) := by
  intro j hj
  rw [(write_get pool i j _).1] at hj
  rw [handleAt_write, List.count_append, List.count_singleton]
  unfold write
  by_cases hji : i = j
  · rw [← hji, setSlot_get_self, beq_self_eq_true, if_pos rfl, Function.iterate_succ_apply', ← h i hused]
  · have hne : ¬ (PoolEvent.written (handleAt pool epoch i) ==
        PoolEvent.written (handleAt pool epoch j)) = true := by
      rw [beq_iff_eq, PoolEvent.written.injEq]
      exact fun heq => hji (handleAt_inj heq)
    rw [setSlot_get_of_ne pool hji, if_neg hne, Nat.add_zero]
    exact h j hj

end Accumulated

end Accumulated

end OpenRtdds.Lib.Pool
