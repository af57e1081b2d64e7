import OpenRtdds.Lib.Guarded
import Mathlib.Data.List.Perm.Basic

/-!
# Folds over independent slots

A loop over items, each of which reads and changes the one slot of the state that it belongs to. Such
a loop is as many loops as there are slots, one over the items of each.

* `Slots.step`: one item.
* `Slots.items`: the items of a slot; `Slots.items_flatMap`, of a list written slot by slot.
* `Slots.foldlM_ok_iff`: the loop succeeds exactly if the loop of every slot does, with these values.
* `OrderFree`: the items of a slot may come in any order; `OrderFree.once`, `OrderFree.check`.
* `Slots.foldlM_reorder`: items of different slots may be exchanged, and those that change nothing
  may be inserted.
-/

namespace OpenRtdds.Lib

open Guarded

section Slots

variable {ι α ε : Type} [DecidableEq ι] {S : ι → Type} (slot : α → ι)
  (item : (i : ι) → S i → α → Guarded ε (S i))

/-- One item changes the slot that it belongs to. -/
def Slots.step (t : (i : ι) → S i) (a : α) : Guarded ε ((i : ι) → S i) := do
  let x ← item (slot a) (t (slot a)) a
  pure (Function.update t (slot a) x)

/-- The items of a slot, in their order. -/
def Slots.items (l : List α) (i : ι) : List α := l.filter fun a => slot a = i

variable {slot item}

theorem Slots.step_of_slot {a : α} {i : ι} (h : slot a = i) (t : (i : ι) → S i) :
    Slots.step slot item t a = item i (t i) a >>= fun x => pure (Function.update t i x) := by
  subst h
  rfl

theorem Slots.items_cons_self (a : α) (l : List α) :
    Slots.items slot (a :: l) (slot a) = a :: Slots.items slot l (slot a) :=
  List.filter_cons_of_pos (decide_eq_true rfl)

theorem Slots.items_cons_of_ne {a : α} {i : ι} (h : i ≠ slot a) (l : List α) :
    Slots.items slot (a :: l) i = Slots.items slot l i :=
  List.filter_cons_of_neg (by simpa using h.symm)

theorem Slots.items_append (l l' : List α) (i : ι) :
    Slots.items slot (l ++ l') i = Slots.items slot l i ++ Slots.items slot l' i :=
  List.filter_append _ _

theorem Slots.items_flatMap {f : ι → List α} (h : ∀ i, ∀ a ∈ f i, slot a = i) {is : List ι}
    (hnodup : is.Nodup) (i : ι) :
    Slots.items slot (is.flatMap f) i = if i ∈ is then f i else [] := by
  induction is with
  | nil => rfl
  | cons j is ih =>
    obtain ⟨hj, hnodup⟩ := List.nodup_cons.1 hnodup
    rw [List.flatMap_cons, Slots.items_append, ih hnodup]
    by_cases hij : i = j
    · subst hij
      have hall : Slots.items slot (f i) i = f i :=
        List.filter_eq_self.2 fun a ha => decide_eq_true (h i a ha)
      rw [hall, if_neg hj, if_pos List.mem_cons_self, List.append_nil]
    · have hnone : Slots.items slot (f j) i = [] :=
        List.filter_eq_nil_iff.2 fun a ha => by simpa [h j a ha] using Ne.symm hij
      simp only [hnone, List.nil_append, List.mem_cons, hij, false_or]

/-- **A fold over slots is a fold in each slot.** -/
theorem Slots.foldlM_ok_iff (l : List α) (t u : (i : ι) → S i) :
    l.foldlM (Slots.step slot item) t = .ok u ↔
      ∀ i, (Slots.items slot l i).foldlM (item i) (t i) = .ok (u i) := by
  induction l generalizing t with
  | nil =>
    constructor
    · intro h i
      cases h
      rfl
    · intro h
      have htu : t = u := funext fun i => Guarded.ok.inj (h i)
      rw [htu]
      rfl
  | cons a l ih =>
    have hself : Slots.items slot (a :: l) (slot a) = a :: Slots.items slot l (slot a) :=
      Slots.items_cons_self a l
    rw [List.foldlM_cons]
    unfold Slots.step
    by_cases hx : ∃ x, item (slot a) (t (slot a)) a = .ok x
    · obtain ⟨x, hx⟩ := hx
      rw [hx, ok_bind, pure_eq, ok_bind]
      refine (ih _).trans (forall_congr' fun i => ?_)
      by_cases hi : i = slot a
      · subst hi
        rw [hself, List.foldlM_cons, hx, ok_bind, Function.update_self]
      · rw [Slots.items_cons_of_ne hi, Function.update_of_ne hi]
    · -- the fold of the slot stops at the same item
      refine iff_of_false (fun h => ?_) fun h => ?_
      · obtain ⟨_, h, -⟩ := bind_eq_ok.1 h
        obtain ⟨x, h, -⟩ := bind_eq_ok.1 h
        exact hx ⟨x, h⟩
      · have hslot := h (slot a)
        rw [hself, List.foldlM_cons] at hslot
        obtain ⟨x, h, -⟩ := bind_eq_ok.1 hslot
        exact hx ⟨x, h⟩

/-- The fold over a list that is written slot by slot, and that has all there is to read. -/
theorem Slots.foldlM_flatMap {f : ι → List α} (h : ∀ i, ∀ a ∈ f i, slot a = i) {is : List ι}
    (hnodup : is.Nodup) (hall : ∀ i, (if i ∈ is then f i else []) = f i) {t u : (i : ι) → S i}
    (hread : ∀ i, (f i).foldlM (item i) (t i) = .ok (u i)) :
    (is.flatMap f).foldlM (Slots.step slot item) t = .ok u := by
  refine (Slots.foldlM_ok_iff _ _ _).2 fun i => ?_
  rw [Slots.items_flatMap h hnodup, hall]
  exact hread i

end Slots

section Order

variable {α ε S V : Type}

/-- The items of a slot may come in any order. -/
def OrderFree (item : S → α → Guarded ε S) (s : S) : Prop :=
  ∀ l l' : List α, l.Perm l' → ∀ u, l.foldlM item s = .ok u → l'.foldlM item s = .ok u

theorem OrderFree.iff {item : S → α → Guarded ε S} {s : S} (h : OrderFree item s) {l l' : List α}
    (hperm : l.Perm l') (u : S) : l.foldlM item s = .ok u ↔ l'.foldlM item s = .ok u :=
  ⟨h l l' hperm u, h l' l hperm.symm u⟩

/-- A slot that is filled once has at most one item. -/
theorem OrderFree.once {item : Option V → α → Guarded ε (Option V)}
    (hset : ∀ s a, item s a ≠ .ok none) (hfull : ∀ v a u, item (some v) a ≠ .ok u) (s : Option V) :
    OrderFree item s := by
  intro l l' hperm u hl
  -- two items cannot both be taken, so there is nothing to exchange
  have hshort : l.length ≤ 1 := by
    match l with
    | [] => exact Nat.zero_le 1
    | [_] => exact le_refl 1
    | a :: b :: rest =>
      rw [List.foldlM_cons] at hl
      obtain ⟨x, ha, hl⟩ := bind_eq_ok.1 hl
      rw [List.foldlM_cons] at hl
      obtain ⟨y, hb, -⟩ := bind_eq_ok.1 hl
      cases x with
      | none => exact absurd ha (hset s a)
      | some v => exact absurd hb (hfull v b y)
  have heq : l = l' := by
    match l with
    | [] => exact hperm.nil_eq
    | [a] => exact hperm.singleton_eq
  rwa [← heq]

theorem foldlM_check {item : Unit → α → Guarded ε Unit} (l : List α) :
    l.foldlM item () = .ok () ↔ ∀ a ∈ l, item () a = .ok () := by
  induction l with
  | nil => exact iff_of_true rfl fun a ha => by cases ha
  | cons a l ih =>
    rw [List.foldlM_cons, List.forall_mem_cons, ← ih, bind_eq_ok]
    exact ⟨fun ⟨_, ha, hl⟩ => ⟨ha, hl⟩, fun ⟨ha, hl⟩ => ⟨(), ha, hl⟩⟩

/-- A slot without a value only checks its items. -/
theorem OrderFree.check (item : Unit → α → Guarded ε Unit) : OrderFree item () := by
  intro l l' hperm u hl
  have hall := (foldlM_check l).1 hl
  exact (foldlM_check l').2 fun a ha => hall a (hperm.mem_iff.2 ha)

/-- Items that change nothing may be dropped at the end. -/
theorem foldlM_neutral {item : S → α → Guarded ε S} (l : List α) {inserted : List α}
    (h : ∀ a ∈ inserted, ∀ s, item s a = .ok s) (s : S) :
    (l ++ inserted).foldlM item s = l.foldlM item s := by
  have hskip : ∀ s, inserted.foldlM item s = .ok s := by
    intro s
    induction inserted with
    | nil => rfl
    | cons a rest ih =>
      rw [List.foldlM_cons, h a List.mem_cons_self, ok_bind]
      exact ih fun b hb => h b (List.mem_cons_of_mem a hb)
  rw [List.foldlM_append]
  cases l.foldlM item s with
  | ok x => exact hskip x
  | error e => rfl
  | fault => rfl

end Order

/-- **Reordering.** The items of every slot keep their order or may come in any, and what is inserted
changes nothing: the fold has the same result. -/
theorem Slots.foldlM_reorder {ι α ε : Type} [DecidableEq ι] {S : ι → Type} {slot : α → ι}
    {item : (i : ι) → S i → α → Guarded ε (S i)} {l l' inserted : List α} {t : (i : ι) → S i}
    (hperm : l'.Perm (l ++ inserted)) (hneutral : ∀ a ∈ inserted, ∀ s, item (slot a) s a = .ok s)
    (hslot : ∀ i, OrderFree (item i) (t i) ∨ Slots.items slot l' i = Slots.items slot l i)
    (u : (i : ι) → S i) :
    l'.foldlM (Slots.step slot item) t = .ok u ↔ l.foldlM (Slots.step slot item) t = .ok u := by
  rw [Slots.foldlM_ok_iff, Slots.foldlM_ok_iff]
  refine forall_congr' fun i => ?_
  rcases hslot i with hfree | hkeep
  · have hpermSlot : (Slots.items slot l' i).Perm
        (Slots.items slot l i ++ Slots.items slot inserted i) := by
      rw [← Slots.items_append]
      exact hperm.filter _
    have hskip : ∀ a ∈ Slots.items slot inserted i, ∀ s, item i s a = .ok s := by
      intro a ha
      obtain ⟨hmem, hi⟩ := List.mem_filter.1 ha
      have hi : slot a = i := of_decide_eq_true hi
      subst hi
      exact hneutral a hmem
    rw [hfree.iff hpermSlot, foldlM_neutral _ hskip]
  · rw [hkeep]

end OpenRtdds.Lib
