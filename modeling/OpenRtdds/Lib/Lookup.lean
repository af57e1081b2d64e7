import Mathlib.Data.Finset.Card
import OpenRtdds.Lib.Table

/-!
# Tables as partial maps

A table in which every owner has at most one record is a finite partial map from owners to records,
whatever slots the records are in.

* `lookup`: the record of an owner.
* `lookup_updated`, `lookup_added`, `lookup_cleared`: the three changes of a table, as changes of the map.
* `mem_owners_iff`, `card_eq_countP`: the owners of the records with a property, and how many they are.
-/

namespace OpenRtdds.Lib

variable {α κ : Type} [DecidableEq κ] (occupied : α → Bool) (owner : α → κ)

/-- The record of an owner. -/
def lookup (l : List α) (o : κ) : Option α := l.find? fun x => occupied x && decide (owner x = o)

variable {occupied owner} {l l' : List α} {record x : α} {o p : κ}

theorem lookup_eq_head? : lookup occupied owner l o = (recordsOf occupied owner l o).head? :=
  List.head?_filter.symm

theorem recordsOf_eq_lookup (h : Keyed occupied owner l) (o : κ) :
    recordsOf occupied owner l o = (lookup occupied owner l o).toList := by
  rw [lookup_eq_head?]
  have hone := h o
  cases hrecords : recordsOf occupied owner l o with
  | nil => rfl
  | cons x rest =>
    rw [hrecords, List.length_cons] at hone
    rw [List.eq_nil_of_length_eq_zero (by omega : rest.length = 0)]
    rfl

theorem mem_lookup (h : Keyed occupied owner l) :
    x ∈ lookup occupied owner l o ↔ x ∈ l ∧ occupied x = true ∧ owner x = o := by
  rw [← mem_recordsOf, recordsOf_eq_lookup h, Option.mem_toList, Option.mem_def]

theorem lookup_none_iff : lookup occupied owner l o = none ↔ recordsOf occupied owner l o = [] := by
  rw [lookup_eq_head?, List.head?_eq_none_iff]

section Changes

variable {n : ℕ} {slots : Vector α n} {i : Fin n}

theorem lookup_eq_some_of_findFinIdx?
    (h : (slots.findFinIdx? fun x => occupied x && decide (owner x = o)) = some i) :
    lookup occupied owner slots.toList o = some (slots.get i) := by
  obtain ⟨before, after, hslots, hbefore, hold, -⟩ := findFinIdx?_split h (slots.get i)
  unfold lookup
  rw [hslots, List.find?_append, List.find?_eq_none.2 fun x hx => Bool.eq_false_iff.1 (hbefore x hx),
    Option.none_or]
  exact List.find?_cons_of_pos hold

theorem lookup_eq_none_of_findFinIdx?
    (h : (slots.findFinIdx? fun x => occupied x && decide (owner x = o)) = none) :
    lookup occupied owner slots.toList o = none := by
  refine List.find?_eq_none.2 fun x hx => ?_
  exact Vector.findFinIdx?_eq_none_iff.1 h x (Vector.mem_toList_iff.1 hx)

/-- **The record of an owner is overwritten.** -/
theorem lookup_updated (h : Keyed occupied owner slots.toList)
    (hfound : (slots.findFinIdx? fun x => occupied x && decide (owner x = o)) = some i)
    (hrecord : occupied record = true) (howner : owner record = o) :
    Keyed occupied owner (setSlot slots i record).toList ∧
      (setSlot slots i record).toList.countP occupied = slots.toList.countP occupied ∧
      ∀ p, lookup occupied owner (setSlot slots i record).toList p =
        if p = o then some record else lookup occupied owner slots.toList p := by
  obtain ⟨⟨rest, hbefore, hafter⟩, hothers⟩ := recordsOf_updated hfound hrecord howner
  refine ⟨fun p => ?_, ?_, fun p => ?_⟩
  · by_cases hp : p = o
    · have hone := h o
      rw [hbefore, List.length_cons] at hone
      rw [hp, hafter, List.length_cons]
      exact hone
    · rw [hothers p hp]
      exact h p
  · obtain ⟨before, old, after, hslots, -, hold, hset⟩ := findFinIdx?_replaced hfound record
    rw [hslots, hset, List.countP_append, List.countP_append, List.countP_cons_of_pos hrecord,
      List.countP_cons_of_pos (Bool.and_eq_true_iff.1 hold).1]
  · by_cases hp : p = o
    · rw [if_pos hp, hp, lookup_eq_head?, hafter, List.head?_cons]
    · rw [if_neg hp, lookup_eq_head?, lookup_eq_head?, hothers p hp]

/-- **An owner without a record gets one**, in a free slot. -/
theorem lookup_added (h : Keyed occupied owner slots.toList)
    (hnone : lookup occupied owner slots.toList o = none)
    (hfree : slots.findFinIdx? (fun x => !occupied x) = some i)
    (hrecord : occupied record = true) (howner : owner record = o) :
    Keyed occupied owner (setSlot slots i record).toList ∧
      (setSlot slots i record).toList.countP occupied = slots.toList.countP occupied + 1 ∧
      ∀ p, lookup occupied owner (setSlot slots i record).toList p =
        if p = o then some record else lookup occupied owner slots.toList p := by
  have hreplaced := findFinIdx?_replaced hfree record
  obtain ⟨hperm, hothers⟩ := recordsOf_added hreplaced hrecord howner
  rw [lookup_none_iff.1 hnone] at hperm
  have hmine := List.perm_singleton.1 hperm
  refine ⟨fun p => ?_, countP_replaced_free hreplaced hrecord, fun p => ?_⟩
  · by_cases hp : p = o
    · rw [hp, hmine, List.length_singleton]
    · rw [hothers p hp]
      exact h p
  · by_cases hp : p = o
    · rw [if_pos hp, hp, lookup_eq_head?, hmine, List.head?_cons]
    · rw [if_neg hp, lookup_eq_head?, lookup_eq_head?, hothers p hp]

theorem countP_removed {gone : α → Bool} {free : α} (hfree : occupied free = false) (l : List α) :
    (l.map fun x => if occupied x && gone x then free else x).countP occupied +
      l.countP (fun x => occupied x && gone x) = l.countP occupied := by
  induction l with
  | nil => rfl
  | cons x l ih =>
    rw [List.map_cons, List.countP_cons, List.countP_cons, List.countP_cons, ← ih]
    by_cases hgone : (occupied x && gone x) = true
    · rw [if_pos hgone, if_pos hgone, hfree, if_pos (Bool.and_eq_true_iff.1 hgone).1,
        if_neg Bool.false_ne_true]
      omega
    · rw [if_neg hgone, if_neg hgone]
      omega

/-- **The records with a property are removed.** -/
theorem lookup_cleared {gone : α → Bool} {free : α} (h : Keyed occupied owner l)
    (hfree : occupied free = false) :
    let l' := l.map fun x => if occupied x && gone x then free else x
    Keyed occupied owner l' ∧
      ∀ o, lookup occupied owner l' o = (lookup occupied owner l o).filter (!gone ·) := by
  intro l'
  have hstays : ∀ x, occupied (if occupied x && gone x then free else x) = true →
      gone x = false ∧ (if occupied x && gone x then free else x) = x := by
    intro x hx
    by_cases hgone : (occupied x && gone x) = true
    · rw [if_pos hgone, hfree] at hx
      cases hx
    · rw [if_neg hgone] at hx ⊢
      rw [hx, Bool.true_and] at hgone
      exact ⟨Bool.eq_false_iff.2 hgone, rfl⟩
  have hkeyed : Keyed occupied owner l' := h.map fun x hx => (hstays x hx).2
  refine ⟨hkeyed, fun o => Option.ext fun y => ?_⟩
  rw [← Option.mem_def, ← Option.mem_def, mem_lookup hkeyed, Option.mem_filter_iff, mem_lookup h]
  constructor
  · rintro ⟨hy, hocc, howner⟩
    obtain ⟨x, hx, rfl⟩ := List.mem_map.1 hy
    obtain ⟨hgone, hsame⟩ := hstays x hocc
    rw [hsame] at hocc howner ⊢
    exact ⟨⟨hx, hocc, howner⟩, by rw [hgone]; rfl⟩
  · rintro ⟨⟨hy, hocc, howner⟩, hgone⟩
    rw [Bool.not_eq_true'] at hgone
    refine ⟨List.mem_map.2 ⟨y, hy, ?_⟩, hocc, howner⟩
    rw [hgone, Bool.and_false, if_neg Bool.false_ne_true]

end Changes

section Owners

variable {p : α → Bool}

theorem mem_owners_iff (h : Keyed occupied owner l) :
    o ∈ (l.filter fun x => occupied x && p x).map owner ↔
      ∃ x ∈ lookup occupied owner l o, p x = true := by
  rw [List.mem_map]
  constructor
  · rintro ⟨x, hx, howner⟩
    obtain ⟨hx, hocc⟩ := List.mem_filter.1 hx
    obtain ⟨hocc, hp⟩ := Bool.and_eq_true_iff.1 hocc
    exact ⟨x, (mem_lookup h).2 ⟨hx, hocc, howner⟩, hp⟩
  · rintro ⟨x, hx, hp⟩
    obtain ⟨hx, hocc, howner⟩ := (mem_lookup h).1 hx
    exact ⟨x, List.mem_filter.2 ⟨hx, Bool.and_eq_true_iff.2 ⟨hocc, hp⟩⟩, howner⟩

theorem nodup_owners (h : Keyed occupied owner l) :
    ((l.filter fun x => occupied x && p x).map owner).Nodup := by
  refine (keyed_iff_nodup.1 h).sublist (List.Sublist.map _ ?_)
  exact List.monotone_filter_right l fun x hx => (Bool.and_eq_true_iff.1 hx).1

/-- **The table is as large as the map.** -/
theorem card_eq_countP (h : Keyed occupied owner l) {s : Finset κ}
    (hs : ∀ o, o ∈ s ↔ lookup occupied owner l o ≠ none) : s.card = l.countP occupied := by
  have hset : s = ((l.filter occupied).map owner).toFinset := by
    ext o
    rw [hs, List.mem_toFinset, List.mem_map, Option.ne_none_iff_exists']
    refine exists_congr fun x => ?_
    rw [← Option.mem_def, mem_lookup h, List.mem_filter, and_assoc]
  rw [hset, List.toFinset_card_of_nodup (keyed_iff_nodup.1 h), List.length_map,
    List.countP_eq_length_filter]

end Owners

end OpenRtdds.Lib
