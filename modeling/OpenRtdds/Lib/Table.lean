import Mathlib.Tactic

/-!
# Tables of a fixed number of slots

A table is an array of slots; a slot is occupied or free, and an occupied one holds a record of some
owner. A record is stored in the first free slot, and a slot is freed by an empty record, so the order
of the slots says nothing; what counts is the list of the records of each owner.

* `setSlot`, `replaceFirst`, `Replaced`: the first slot with a property gets another record.
* `insertAll`: some records, each into the first slot that is still free.
* `recordsOf`: the records of an owner. `recordsOf_added`, `recordsOf_replaced_other`,
  `recordsOf_updated`, `recordsOf_removed`, `recordsOf_cleared`, `recordsOf_insertAll`: what the changes
  of the table do to it.
* `exists_free`, `countP_split`, `countP_le_of_owners`, `le_countP_of_owners`: the counting arguments.
-/

namespace OpenRtdds.Lib

variable {α κ : Type}

section Replace

/-- Writes the record into a slot. -/
def setSlot {n : ℕ} (slots : Vector α n) (i : Fin n) (record : α) : Vector α n :=
  slots.set i.1 record i.2

/-- Writes the record into the first slot with the property, if there is one. -/
def replaceFirst {n : ℕ} (p : α → Bool) (slots : Vector α n) (record : α) : Option (Vector α n) :=
  (slots.findFinIdx? p).map fun i => setSlot slots i record

/-- Writes the record over the first occupied slot with the property or else into the first free slot. -/
def upsert {n : ℕ} (occupied same : α → Bool) (slots : Vector α n) (record : α) : Option (Vector α n) :=
  (replaceFirst (fun x => occupied x && same x) slots record).or
    (replaceFirst (fun x => !occupied x) slots record)

/-- **The first slot with the property holds the record now.** -/
def Replaced (p : α → Bool) (record : α) (l l' : List α) : Prop :=
  ∃ before old after, l = before ++ old :: after ∧ (∀ x ∈ before, p x = false) ∧ p old = true ∧
    l' = before ++ record :: after

variable {n : ℕ} {slots : Vector α n}

theorem setSlot_split (slots : Vector α n) (i : Fin n) (record : α) :
    slots.toList = slots.toList.take i ++ slots.get i :: slots.toList.drop (i + 1) ∧
      (setSlot slots i record).toList = slots.toList.take i ++ record :: slots.toList.drop (i + 1) := by
  obtain ⟨cells, rfl⟩ := slots
  have hi : i.1 < cells.toList.length := i.2
  constructor
  · change cells.toList = cells.toList.take i.1 ++ cells.toList[i.1] :: cells.toList.drop (i.1 + 1)
    rw [← List.drop_eq_getElem_cons hi, List.take_append_drop]
  · change (cells.set i.1 record i.2).toList = _
    rw [Array.toList_set, List.set_eq_take_append_cons_drop, if_pos hi]
    rfl

@[simp] theorem setSlot_get_self (slots : Vector α n) (i : Fin n) (record : α) :
    (setSlot slots i record).get i = record :=
  Vector.getElem_set_self i.2

theorem setSlot_get_of_ne (slots : Vector α n) {i j : Fin n} (h : i ≠ j) (record : α) :
    (setSlot slots i record).get j = slots.get j :=
  Vector.getElem_set_ne i.2 j.2 (Fin.val_ne_of_ne h)

theorem countP_setSlot (p : α → Bool) (slots : Vector α n) (i : Fin n) (record : α) :
    (setSlot slots i record).toList.countP p + (if p (slots.get i) then 1 else 0) =
      slots.toList.countP p + if p record then 1 else 0 := by
  obtain ⟨hslots, hset⟩ := setSlot_split slots i record
  rw [hset]
  nth_rewrite 3 [hslots]
  rw [List.countP_append, List.countP_cons, List.countP_append, List.countP_cons]
  omega

theorem findFinIdx?_split {p : α → Bool} {i : Fin n}
    (h : slots.findFinIdx? p = some i) (record : α) :
    ∃ before after, slots.toList = before ++ slots.get i :: after ∧ (∀ x ∈ before, p x = false) ∧
      p (slots.get i) = true ∧ (setSlot slots i record).toList = before ++ record :: after := by
  obtain ⟨hslots, hset⟩ := setSlot_split slots i record
  obtain ⟨cells, rfl⟩ := slots
  have hfound : cells.findFinIdx? p = some i := by
    simpa [Vector.findFinIdx?] using h
  obtain ⟨hold, hfirst⟩ := Array.findFinIdx?_eq_some_iff.1 hfound
  refine ⟨_, _, hslots, fun x hx => ?_, hold, hset⟩
  obtain ⟨j, hj, rfl⟩ := List.getElem_of_mem hx
  have hlt : j < i.1 := by
    rw [List.length_take] at hj
    omega
  rw [List.getElem_take]
  exact Bool.eq_false_iff.2 (hfirst ⟨j, by omega⟩ hlt)

theorem findFinIdx?_replaced {p : α → Bool} {i : Fin n}
    (h : slots.findFinIdx? p = some i) (record : α) :
    Replaced p record slots.toList (setSlot slots i record).toList := by
  obtain ⟨before, after, hslots, hbefore, hold, hset⟩ := findFinIdx?_split h record
  exact ⟨before, slots.get i, after, hslots, hbefore, hold, hset⟩

theorem replaceFirst_some {p : α → Bool} {slots' : Vector α n} {record : α}
    (h : replaceFirst p slots record = some slots') :
    Replaced p record slots.toList slots'.toList := by
  obtain ⟨i, hi, rfl⟩ := Option.map_eq_some_iff.1 h
  exact findFinIdx?_replaced hi record

theorem replaceFirst_none {p : α → Bool} {record : α} :
    replaceFirst p slots record = none ↔ ∀ x ∈ slots.toList, p x = false := by
  rw [replaceFirst, Option.map_eq_none_iff, Vector.findFinIdx?_eq_none_iff]
  simp only [Vector.mem_toList_iff, Bool.not_eq_true]

variable {p : α → Bool} {record : α} {l l' : List α}

namespace Replaced

theorem mem (h : Replaced p record l l') {x : α} (hx : x ∈ l') : x = record ∨ x ∈ l := by
  obtain ⟨before, old, after, rfl, -, -, rfl⟩ := h
  rcases List.mem_append.1 hx with hx | hx
  · exact .inr (List.mem_append_left _ hx)
  · rcases List.mem_cons.1 hx with rfl | hx
    · exact .inl rfl
    · exact .inr (List.mem_append_right _ (List.mem_cons_of_mem old hx))

theorem map {β : Type} {f : α → β} {q : β → Bool} (h : Replaced (fun x => q (f x)) record l l') :
    Replaced q (f record) (l.map f) (l'.map f) := by
  obtain ⟨before, old, after, rfl, hbefore, hold, rfl⟩ := h
  refine ⟨before.map f, f old, after.map f, by simp, fun y hy => ?_, hold, by simp⟩
  obtain ⟨x, hx, rfl⟩ := List.mem_map.1 hy
  exact hbefore x hx

/-- What neither the old nor the new record is part of stays as it is. -/
theorem filter_eq (h : Replaced p record l l') {q : α → Bool} (hrecord : q record = false)
    (hold : ∀ x, p x = true → q x = false) : l'.filter q = l.filter q := by
  obtain ⟨before, old, after, rfl, -, hp, rfl⟩ := h
  simp only [List.filter_append, List.filter_cons, hrecord, hold old hp, Bool.false_eq_true, if_false]

theorem filter_perm (h : Replaced p record l l') {q : α → Bool} (hrecord : q record = true)
    (hold : ∀ x, p x = true → q x = false) : (l'.filter q).Perm (record :: l.filter q) := by
  obtain ⟨before, old, after, rfl, -, hp, rfl⟩ := h
  simp only [List.filter_append, List.filter_cons, hrecord, hold old hp, if_true, Bool.false_eq_true,
    if_false]
  exact List.perm_middle

/-- The first record with the property `r` leaves the others. -/
theorem filter_eraseP {q r : α → Bool} (h : Replaced (fun x => q x && r x) record l l')
    (hrecord : q record = false) : l'.filter q = (l.filter q).eraseP r := by
  obtain ⟨before, old, after, rfl, hfirst, hp, rfl⟩ := h
  obtain ⟨hq, hr⟩ := Bool.and_eq_true_iff.1 hp
  have hbefore : ∀ x ∈ before.filter q, ¬ r x = true := by
    intro x hx hrx
    obtain ⟨hmem, hqx⟩ := List.mem_filter.1 hx
    exact absurd ((hfirst x hmem).symm.trans (Bool.and_eq_true_iff.2 ⟨hqx, hrx⟩)) Bool.false_ne_true
  simp only [List.filter_append, List.filter_cons, hrecord, hq, if_true, Bool.false_eq_true, if_false]
  rw [List.eraseP_append_right _ hbefore, List.eraseP_cons_of_pos hr]

end Replaced

end Replace

section Records

variable [DecidableEq κ] (occupied : α → Bool) (owner : α → κ)

/-- The records of an owner. -/
def recordsOf (l : List α) (o : κ) : List α := l.filter fun x => occupied x && owner x = o

/-- The records go one after the other into the first free slot; a record without a slot is lost. -/
def insertAll {n : ℕ} (slots : Vector α n) (records : List α) : Vector α n :=
  records.foldl (fun slots x => (replaceFirst (fun s => !occupied s) slots x).getD slots) slots

variable {occupied owner} {l l' : List α} {record : α}

variable {o : κ}

theorem mem_recordsOf {x : α} :
    x ∈ recordsOf occupied owner l o ↔ x ∈ l ∧ occupied x = true ∧ owner x = o := by
  rw [recordsOf, List.mem_filter, Bool.and_eq_true, decide_eq_true_eq]

theorem recordsOf_replicate (hrecord : occupied record = false) (n : ℕ) (o : κ) :
    recordsOf occupied owner (Vector.replicate n record).toList o = [] := by
  refine List.filter_eq_nil_iff.2 fun x hx => ?_
  rw [Vector.toList_replicate] at hx
  rw [List.eq_of_mem_replicate hx, hrecord]
  exact Bool.false_ne_true

theorem recordsOf_replaced_other {p : α → Bool} (h : Replaced p record l l')
    (hrecord : occupied record = true → owner record ≠ o)
    (hold : ∀ x, p x = true → occupied x = true → owner x ≠ o) :
    recordsOf occupied owner l' o = recordsOf occupied owner l o := by
  have hfalse : ∀ x, (occupied x = true → owner x ≠ o) → (occupied x && decide (owner x = o)) = false := by
    intro x hx
    cases hocc : occupied x with
    | false => rfl
    | true => exact decide_eq_false (hx hocc)
  exact h.filter_eq (hfalse record hrecord) fun x hx => hfalse x (hold x hx)

/-- A record in a free slot: its owner has it in addition. -/
theorem recordsOf_added (h : Replaced (fun x => !occupied x) record l l')
    (hrecord : occupied record = true) (howner : owner record = o) :
    (recordsOf occupied owner l' o).Perm (record :: recordsOf occupied owner l o) ∧
      ∀ p, p ≠ o → recordsOf occupied owner l' p = recordsOf occupied owner l p := by
  refine ⟨h.filter_perm ?_ fun x hx => ?_, fun p hp => ?_⟩
  · rw [hrecord, decide_eq_true howner, Bool.and_self]
  · rw [Bool.not_eq_true'] at hx
    rw [hx, Bool.false_and]
  · refine recordsOf_replaced_other h (fun _ => howner.symm ▸ hp.symm) fun x hfree hocc => ?_
    rw [hocc] at hfree
    exact absurd hfree (by decide)

/-- The first record of an owner with some property is removed. -/
theorem recordsOf_removed {p q : α → Bool} (h : Replaced p record l l')
    (hp : p = fun x => (occupied x && decide (owner x = o)) && q x) (hrecord : occupied record = false) :
    recordsOf occupied owner l' o = (recordsOf occupied owner l o).eraseP q ∧
      ∀ o', o' ≠ o → recordsOf occupied owner l' o' = recordsOf occupied owner l o' := by
  subst hp
  refine ⟨h.filter_eraseP (by rw [hrecord, Bool.false_and]), fun o' ho' => ?_⟩
  refine recordsOf_replaced_other h (fun hocc => absurd (hrecord.symm.trans hocc) Bool.false_ne_true)
    fun x hx _ => ?_
  rw [of_decide_eq_true (Bool.and_eq_true_iff.1 (Bool.and_eq_true_iff.1 hx).1).2]
  exact ho'.symm

theorem recordsOf_removed_first
    (h : Replaced (fun x => occupied x && decide (owner x = o)) record l l')
    (hrecord : occupied record = false) :
    recordsOf occupied owner l' o = (recordsOf occupied owner l o).tail ∧
      ∀ o', o' ≠ o → recordsOf occupied owner l' o' = recordsOf occupied owner l o' := by
  have hp : (fun x => occupied x && decide (owner x = o)) =
      fun x => (occupied x && decide (owner x = o)) && true := by simp only [Bool.and_true]
  obtain ⟨hfirst, hothers⟩ := recordsOf_removed h hp hrecord
  refine ⟨hfirst.trans ?_, hothers⟩
  cases recordsOf occupied owner l o <;> rfl

/-- The first record of an owner is overwritten with another one of this owner. -/
theorem recordsOf_updated {n : ℕ} {slots : Vector α n} {i : Fin n}
    (h : (slots.findFinIdx? fun x => occupied x && decide (owner x = o)) = some i)
    (hrecord : occupied record = true) (howner : owner record = o) :
    (∃ rest, recordsOf occupied owner slots.toList o = slots.get i :: rest ∧
      recordsOf occupied owner (setSlot slots i record).toList o = record :: rest) ∧
      ∀ p, p ≠ o → recordsOf occupied owner (setSlot slots i record).toList p =
        recordsOf occupied owner slots.toList p := by
  refine ⟨?_, fun p hp => ?_⟩
  swap
  · refine recordsOf_replaced_other (findFinIdx?_replaced h record) (fun _ => howner.symm ▸ hp.symm)
      fun x hx _ => ?_
    rw [of_decide_eq_true (Bool.and_eq_true_iff.1 hx).2]
    exact hp.symm
  obtain ⟨before, after, hslots, hbefore, hold, hset⟩ := findFinIdx?_split h record
  have hnone : recordsOf occupied owner before o = [] :=
    List.filter_eq_nil_iff.2 fun x hx => Bool.eq_false_iff.1 (hbefore x hx)
  have hnew : (occupied record && decide (owner record = o)) = true := by
    rw [hrecord, howner, decide_eq_true rfl, Bool.and_self]
  unfold recordsOf at hnone ⊢
  refine ⟨after.filter fun x => occupied x && decide (owner x = o), ?_, ?_⟩
  · rw [hslots, List.filter_append, hnone, List.filter_cons, if_pos hold, List.nil_append]
  · rw [hset, List.filter_append, hnone, List.filter_cons, if_pos hnew, List.nil_append]

/-- All records of an owner are removed. -/
theorem recordsOf_cleared (hrecord : occupied record = false) (o : κ) :
    recordsOf occupied owner (l.map fun x => if occupied x && owner x = o then record else x) o = [] := by
  refine List.filter_eq_nil_iff.2 fun y hy => ?_
  obtain ⟨x, -, rfl⟩ := List.mem_map.1 hy
  split
  next => simp [hrecord]
  next hx => exact hx

theorem recordsOf_cleared_other (hrecord : occupied record = false) {o' : κ} (hne : o' ≠ o) :
    recordsOf occupied owner (l.map fun x => if occupied x && owner x = o then record else x) o' =
      recordsOf occupied owner l o' := by
  induction l with
  | nil => rfl
  | cons x l ih =>
    unfold recordsOf at ih ⊢
    rw [List.map_cons, List.filter_cons, List.filter_cons, ih]
    by_cases hx : (occupied x && decide (owner x = o)) = true
    · have hother : owner x ≠ o' := by
        rw [of_decide_eq_true (Bool.and_eq_true_iff.1 hx).2]
        exact hne.symm
      rw [if_pos hx, hrecord, decide_eq_false hother]
      simp only [Bool.false_and, Bool.and_false, Bool.false_eq_true, if_false]
    · rw [if_neg hx]

theorem countP_cleared (hrecord : occupied record = false) (o : κ) :
    (l.map fun x => if occupied x && owner x = o then record else x).countP occupied =
      l.countP fun x => occupied x && decide (owner x ≠ o) := by
  rw [List.countP_map]
  refine List.countP_congr fun x _ => ?_
  rw [Function.comp_apply]
  split
  next hx =>
    rw [of_decide_eq_true (Bool.and_eq_true_iff.1 hx).2, hrecord]
    simp
  next hx =>
    cases hocc : occupied x with
    | false => simp
    | true =>
      rw [hocc, Bool.true_and] at hx
      simpa using hx

theorem countP_cleared_le (hrecord : occupied record = false) (o : κ) :
    (l.map fun x => if occupied x && owner x = o then record else x).countP occupied ≤
      l.countP occupied := by
  rw [countP_cleared hrecord]
  exact List.countP_mono_left fun x _ hx => (Bool.and_eq_true_iff.1 hx).1

theorem exists_free (h : l.countP occupied < l.length) : ∃ x ∈ l, occupied x = false := by
  by_contra hfull
  push Not at hfull
  have hcount := List.countP_eq_length.2 fun x hx => Bool.eq_true_of_not_eq_false (hfull x hx)
  omega

theorem countP_replaced_free (h : Replaced (fun x => !occupied x) record l l')
    (hrecord : occupied record = true) : l'.countP occupied = l.countP occupied + 1 := by
  have hperm := h.filter_perm hrecord fun x hx => by simpa using hx
  rw [List.countP_eq_length_filter, hperm.length_eq, List.length_cons, List.countP_eq_length_filter]

section InsertAll

variable {n : ℕ} {slots : Vector α n} {records : List α}

theorem findFinIdx?_free_none :
    slots.findFinIdx? (fun s => !occupied s) = none ↔ slots.toList.countP occupied = n := by
  have hcount := List.countP_eq_length (p := occupied) (l := slots.toList)
  rw [Vector.length_toList] at hcount
  rw [Vector.findFinIdx?_eq_none_iff, hcount]
  simp only [Vector.mem_toList_iff, Bool.not_eq_true, Bool.not_eq_false']

/-- A record finds no slot exactly if the table is full. -/
theorem replaceFirst_free_none :
    replaceFirst (fun s => !occupied s) slots record = none ↔ slots.toList.countP occupied = n := by
  rw [replaceFirst, Option.map_eq_none_iff, findFinIdx?_free_none]

theorem replaceFirst_of_room (h : slots.toList.countP occupied < n) :
    ∃ slots', replaceFirst (fun s => !occupied s) slots record = some slots' :=
  Option.ne_none_iff_exists'.1 fun hnone => h.ne (replaceFirst_free_none.1 hnone)

/-- **The rule for `insertAll`**: what every insertion into a free slot keeps. -/
theorem insertAll_induction {motive : List α → List α → Prop} (hnil : motive slots.toList [])
    (hroom : slots.toList.countP occupied + records.length ≤ n)
    (hoccupied : ∀ x ∈ records, occupied x = true)
    (hstep : ∀ l l' done record, record ∈ records → Replaced (fun s => !occupied s) record l l' →
      motive l done → motive l' (done ++ [record])) :
    motive (insertAll occupied slots records).toList records ∧
      (insertAll occupied slots records).toList.countP occupied =
        slots.toList.countP occupied + records.length := by
  induction records using List.reverseRecOn with
  | nil => exact ⟨hnil, rfl⟩
  | append_singleton done record ih =>
    rw [List.length_append, List.length_singleton] at hroom
    obtain ⟨hmotive, hcount⟩ := ih (by omega)
      (fun x hx => hoccupied x (List.mem_append_left _ hx))
      (fun l l' done x hx => hstep l l' done x (List.mem_append_left _ hx))
    have hmem : record ∈ done ++ [record] := List.mem_append_right _ List.mem_cons_self
    obtain ⟨slots', hslots⟩ := @replaceFirst_of_room _ occupied record n
      (insertAll occupied slots done) (by omega)
    have hall : insertAll occupied slots (done ++ [record]) = slots' := by
      change List.foldl _ _ _ = _
      rw [List.foldl_append]
      exact congrArg (Option.getD · _) hslots
    have hreplaced := replaceFirst_some hslots
    rw [hall]
    refine ⟨hstep _ _ _ _ hmem hreplaced hmotive, ?_⟩
    rw [countP_replaced_free hreplaced (hoccupied record hmem), hcount, List.length_append,
      List.length_singleton, Nat.add_assoc]

theorem recordsOf_insertAll_other {o p : κ} (hroom : slots.toList.countP occupied + records.length ≤ n)
    (hoccupied : ∀ x ∈ records, occupied x = true) (howner : ∀ x ∈ records, owner x = o) (hp : p ≠ o) :
    recordsOf occupied owner (insertAll occupied slots records).toList p =
      recordsOf occupied owner slots.toList p := by
  refine (@insertAll_induction _ occupied n slots records
    (fun l _ => recordsOf occupied owner l p = recordsOf occupied owner slots.toList p) rfl hroom
    hoccupied ?_).1
  intro l l' done record hmem hreplaced hsame
  rw [← hsame]
  exact (recordsOf_added hreplaced (hoccupied record hmem) (howner record hmem)).2 p hp

/-- An owner without records gets them all, **in their order**: none of its records is behind a free
slot. -/
theorem recordsOf_insertAll {o : κ} (hroom : slots.toList.countP occupied + records.length ≤ n)
    (hoccupied : ∀ x ∈ records, occupied x = true) (howner : ∀ x ∈ records, owner x = o)
    (hnone : recordsOf occupied owner slots.toList o = []) :
    recordsOf occupied owner (insertAll occupied slots records).toList o = records := by
  let Front (l : List α) : Prop :=
    l.Pairwise fun x y => occupied x = false → occupied y = true → owner y ≠ o
  have hfront : Front slots.toList := by
    refine List.pairwise_of_forall_mem_list fun x _ y hy _ hocc howner => ?_
    have hmem := mem_recordsOf.2 ⟨hy, hocc, howner⟩
    rw [hnone] at hmem
    exact absurd hmem List.not_mem_nil
  refine ((@insertAll_induction _ occupied n slots records
    (fun l done => Front l ∧ recordsOf occupied owner l o = done) ⟨hfront, hnone⟩ hroom hoccupied ?_).1).2
  rintro _ _ done record hmem ⟨before, old, after, rfl, hbefore, hold, rfl⟩ ⟨hpairwise, hsame⟩
  have hocc := hoccupied record hmem
  have hfull : ∀ x ∈ before, occupied x = true := by
    intro x hx
    simpa using hbefore x hx
  have hfree : occupied old = false := by simpa using hold
  obtain ⟨hleft, hright, hcross⟩ := List.pairwise_append.1 hpairwise
  obtain ⟨hbehind, hafter⟩ := List.pairwise_cons.1 hright
  have hnothing : recordsOf occupied owner after o = [] := by
    refine List.eq_nil_iff_forall_not_mem.2 fun x hx => ?_
    obtain ⟨hin, hoccx, hox⟩ := mem_recordsOf.1 hx
    exact hbehind x hin hfree hoccx hox
  constructor
  · refine List.pairwise_append.2 ⟨hleft, List.pairwise_cons.2 ⟨fun y _ hno => ?_, hafter⟩,
      fun x hx y _ hno => ?_⟩
    · exact absurd (hno.symm.trans hocc) Bool.false_ne_true
    · exact absurd (hno.symm.trans (hfull x hx)) Bool.false_ne_true
  · unfold recordsOf at hsame hnothing ⊢
    rw [List.filter_append, List.filter_cons, hfree, Bool.false_and, if_neg Bool.false_ne_true,
      hnothing, List.append_nil] at hsame
    rw [List.filter_append, List.filter_cons, hocc, howner record hmem, decide_eq_true rfl,
      Bool.and_self, if_pos rfl, hnothing, hsame]

end InsertAll

section Keyed

variable {n : ℕ} {slots slots' : Vector α n}

/-- **A record goes into the table**: over the first one of its owner, or into a free slot. -/
theorem recordsOf_upsert (hrecord : occupied record = true)
    (h : upsert occupied (fun x => decide (owner x = owner record)) slots record = some slots') :
    recordsOf occupied owner slots'.toList (owner record) =
        record :: (recordsOf occupied owner slots.toList (owner record)).tail ∧
      ∀ o, o ≠ owner record →
        recordsOf occupied owner slots'.toList o = recordsOf occupied owner slots.toList o := by
  unfold upsert at h
  cases hfound : replaceFirst (fun x => occupied x && decide (owner x = owner record)) slots record with
  | some replaced =>
    rw [hfound, Option.some_or] at h
    cases h
    obtain ⟨i, hi, rfl⟩ := Option.map_eq_some_iff.1 hfound
    obtain ⟨⟨rest, hrest, hrest'⟩, hothers⟩ := recordsOf_updated hi hrecord rfl
    rw [hrest, hrest', List.tail_cons]
    exact ⟨rfl, hothers⟩
  | none =>
    rw [hfound, Option.none_or] at h
    have hnone : recordsOf occupied owner slots.toList (owner record) = [] :=
      List.filter_eq_nil_iff.2 fun x hx => Bool.eq_false_iff.1 (replaceFirst_none.1 hfound x hx)
    obtain ⟨hperm, hothers⟩ := recordsOf_added (replaceFirst_some h) hrecord (Eq.refl (owner record))
    rw [hnone] at hperm ⊢
    exact ⟨List.perm_singleton.1 hperm, hothers⟩

theorem upsert_mem {same : α → Bool} (h : upsert occupied same slots record = some slots') {x : α}
    (hx : x ∈ slots'.toList) : x = record ∨ x ∈ slots.toList := by
  unfold upsert at h
  rcases Option.or_eq_some_iff.1 h with hreplaced | ⟨-, hreplaced⟩
  · exact (replaceFirst_some hreplaced).mem hx
  · exact (replaceFirst_some hreplaced).mem hx

theorem recordsOf_freed (hrecord : occupied record = false) (i : Fin n)
    (hold : occupied (slots.get i) = true) :
    (recordsOf occupied owner slots.toList (owner (slots.get i))).length =
        (recordsOf occupied owner (setSlot slots i record).toList (owner (slots.get i))).length + 1 ∧
      ∀ o, o ≠ owner (slots.get i) →
        recordsOf occupied owner (setSlot slots i record).toList o =
          recordsOf occupied owner slots.toList o := by
  obtain ⟨hslots, hset⟩ := setSlot_split slots i record
  generalize slots.toList.take i = before at hslots hset
  generalize slots.toList.drop (i + 1) = after at hslots hset
  have hgone : ∀ o, (occupied record && decide (owner record = o)) = false := by
    intro o
    rw [hrecord, Bool.false_and]
  have hhere : (occupied (slots.get i) && decide (owner (slots.get i) = owner (slots.get i))) = true := by
    rw [hold, decide_eq_true rfl, Bool.and_self]
  unfold recordsOf
  rw [hslots, hset]
  refine ⟨?_, fun o ho => ?_⟩
  · rw [List.filter_append, List.filter_append, List.filter_cons, List.filter_cons, if_pos hhere,
      hgone, if_neg Bool.false_ne_true, List.length_append, List.length_append, List.length_cons,
      Nat.add_assoc]
  · have hother : (occupied (slots.get i) && decide (owner (slots.get i) = o)) = false := by
      rw [decide_eq_false ho.symm, Bool.and_false]
    rw [List.filter_append, List.filter_append, List.filter_cons, List.filter_cons, hgone, hother,
      if_neg Bool.false_ne_true, if_neg Bool.false_ne_true]

variable (occupied owner)

/-- **Every owner has at most one record.** -/
def Keyed (l : List α) : Prop := ∀ o, (recordsOf occupied owner l o).length ≤ 1

variable {occupied owner}

theorem keyed_replicate (hrecord : occupied record = false) (n : ℕ) :
    Keyed occupied owner (Vector.replicate n record).toList := by
  intro o
  rw [recordsOf_replicate hrecord, List.length_nil]
  exact Nat.zero_le 1

theorem countP_replicate_free (hrecord : occupied record = false) (n : ℕ) :
    (Vector.replicate n record).toList.countP occupied = 0 := by
  rw [Vector.toList_replicate, List.countP_replicate, hrecord, if_neg Bool.false_ne_true]

theorem keyed_iff_nodup : Keyed occupied owner l ↔ ((l.filter occupied).map owner).Nodup := by
  rw [List.nodup_iff_count_le_one]
  refine forall_congr' fun o => ?_
  have hcount : ((l.filter occupied).map owner).count o = (recordsOf occupied owner l o).length := by
    rw [List.count, List.countP_map, List.countP_filter, recordsOf, ← List.countP_eq_length_filter]
    refine List.countP_congr fun x _ => ?_
    simp [and_comm]
  rw [hcount]

theorem Keyed.upsert (hkeyed : Keyed occupied owner slots.toList) (hrecord : occupied record = true)
    (h : upsert occupied (fun x => decide (owner x = owner record)) slots record = some slots') :
    Keyed occupied owner slots'.toList := by
  intro o
  obtain ⟨hmine, hothers⟩ := recordsOf_upsert hrecord h
  by_cases ho : o = owner record
  · have hold := hkeyed (owner record)
    rw [ho, hmine, List.length_cons, List.length_tail]
    omega
  · rw [hothers o ho]
    exact hkeyed o

theorem Keyed.map (hkeyed : Keyed occupied owner l) {f : α → α}
    (hf : ∀ x, occupied (f x) = true → f x = x) : Keyed occupied owner (l.map f) := by
  intro o
  refine le_trans ?_ (hkeyed o)
  rw [recordsOf, recordsOf, ← List.countP_eq_length_filter, ← List.countP_eq_length_filter,
    List.countP_map]
  refine List.countP_mono_left fun x _ hx => ?_
  rw [Function.comp_apply] at hx
  rwa [hf x (Bool.and_eq_true_iff.1 hx).1] at hx

theorem Keyed.freed (hkeyed : Keyed occupied owner slots.toList) (hrecord : occupied record = false)
    (i : Fin n) (hold : occupied (slots.get i) = true) :
    recordsOf occupied owner (setSlot slots i record).toList (owner (slots.get i)) = [] := by
  have hlength := (@recordsOf_freed _ _ _ _ owner _ _ slots hrecord i hold).1
  have hone := hkeyed (owner (slots.get i))
  exact List.eq_nil_of_length_eq_zero (by omega)

end Keyed

end Records

theorem countP_split {p : α → Bool} (q : α → Bool) (l : List α) :
    l.countP p = (l.filter fun x => p x && q x).length + (l.filter fun x => p x && !q x).length := by
  induction l with
  | nil => rfl
  | cons x l ih =>
    rw [List.countP_cons, List.filter_cons, List.filter_cons, ih]
    cases p x <;> cases q x <;> simp <;> omega

/-- **Few classes of few elements.** -/
theorem length_le_of_classes [DecidableEq κ] {f : α → κ} {b : ℕ} : ∀ {ks : List κ} {l : List α},
    (∀ x ∈ l, f x ∈ ks) → (∀ k ∈ ks, (l.filter fun x => f x = k).length ≤ b) →
      l.length ≤ ks.length * b
  | [], l, hmem, _ => by
    have hnil : l = [] := List.eq_nil_iff_forall_not_mem.2 fun x hx => List.not_mem_nil (hmem x hx)
    rw [hnil]
    exact Nat.zero_le _
  | k :: ks, l, hmem, hclass => by
    -- the class of the first key, and the rest
    let rest := l.filter fun x => ¬ f x = k
    have hsplit : (l.filter fun x => f x = k).length + rest.length = l.length := by
      have h := List.length_eq_length_filter_add (l := l) (fun x => decide (f x = k))
      simpa [rest] using h.symm
    have hrest : rest.length ≤ ks.length * b := by
      refine length_le_of_classes (f := f) (fun x hx => ?_) fun k' hk' => ?_
      · obtain ⟨hin, hne⟩ := List.mem_filter.1 hx
        exact (List.mem_cons.1 (hmem x hin)).resolve_left (of_decide_eq_true hne)
      · refine le_trans (List.Sublist.length_le ?_) (hclass k' (List.mem_cons_of_mem k hk'))
        exact (List.filter_sublist).filter _
    have hfirst := hclass k List.mem_cons_self
    rw [List.length_cons, Nat.succ_mul]
    omega

/-- **Few owners with few records each.** -/
theorem countP_le_of_owners [DecidableEq κ] {occupied : α → Bool} (owner : α → κ) {b : ℕ} {ks : List κ}
    {l : List α} (howner : ∀ x ∈ l, occupied x = true → owner x ∈ ks)
    (hfew : ∀ k ∈ ks, (recordsOf occupied owner l k).length ≤ b) : l.countP occupied ≤ ks.length * b := by
  rw [List.countP_eq_length_filter]
  refine length_le_of_classes (f := owner) (fun x hx => ?_) fun k hk => ?_
  · obtain ⟨hin, hocc⟩ := List.mem_filter.1 hx
    exact howner x hin hocc
  · have hclass : ((l.filter occupied).filter fun x => decide (owner x = k)) =
        recordsOf occupied owner l k := by
      rw [List.filter_filter]
      exact List.filter_congr fun x _ => Bool.and_comm _ _
    rw [hclass]
    exact hfew k hk

/-- **Several owners with many records each.** -/
theorem le_countP_of_owners [DecidableEq κ] {occupied : α → Bool} (owner : α → κ) {b : ℕ} {ks : List κ}
    {l : List α} (hks : ks.Nodup) (hmany : ∀ k ∈ ks, b ≤ (recordsOf occupied owner l k).length) :
    ks.length * b ≤ l.countP occupied := by
  induction ks generalizing l with
  | nil =>
    rw [List.length_nil, Nat.zero_mul]
    exact Nat.zero_le _
  | cons k ks ih =>
    obtain ⟨hk, hnodup⟩ := List.nodup_cons.1 hks
    -- the records of the first owner, and the rest of the table
    have hrest : ks.length * b ≤ (l.filter fun x => !decide (owner x = k)).countP occupied := by
      refine ih hnodup fun k' hk' => ?_
      have hsame : recordsOf occupied owner (l.filter fun x => !decide (owner x = k)) k' =
          recordsOf occupied owner l k' := by
        rw [recordsOf, recordsOf, List.filter_filter]
        refine List.filter_congr fun x _ => ?_
        by_cases hx : owner x = k'
        · have hne : owner x ≠ k := fun heq => hk (heq ▸ hx ▸ hk')
          simp [hne]
        · simp [hx]
      rw [hsame]
      exact hmany k' (List.mem_cons_of_mem k hk')
    have hfirst := hmany k List.mem_cons_self
    have hsplit := countP_split (p := occupied) (fun x => decide (owner x = k)) l
    rw [List.countP_eq_length_filter, List.filter_filter] at hrest
    rw [hsplit, List.length_cons, Nat.succ_mul, Nat.add_comm]
    exact Nat.add_le_add hfirst hrest

end OpenRtdds.Lib
