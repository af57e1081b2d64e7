import OpenRtdds.Lib.Ring
import OpenRtdds.Spec.KeepLastHistory

/-!
# The KEEP_LAST history is a queue of the newest samples

The samples of the circular array from the oldest one on are the queue. The index that is written next
is where the queue ends, which in a full history is where it begins.

* `entries`, `Valid`: the list an array stands for, and the invariant of its three indices.
* `assign_eq`, `push_accepted`, `push_refused`: what `push` does.
* `step_valid`, `step_entries`: every call keeps the invariant and does to the list what the queue does.
* `keep_last_history_is_newest_queue`: so does every run.
-/

namespace OpenRtdds

open Lib

namespace KeepLastHistory

variable {Depth MaxPayloadBytes : ℕ} [NeZero Depth] {h : KeepLastHistory Depth MaxPayloadBytes}

/-- What a caller sees of a sample. -/
def entry (sample : BoundedSample MaxPayloadBytes) : NewestQueue.Entry := (sample.payload, sample.metadata)

/-- The samples of the history, oldest first. -/
def entries (h : KeepLastHistory Depth MaxPayloadBytes) : List NewestQueue.Entry :=
  (contents h.samples h.oldestIndex h.size).map entry

omit [NeZero Depth] in
/-- **The indices of the array**: the next one to write is behind the last sample. -/
structure Valid (h : KeepLastHistory Depth MaxPayloadBytes) : Prop where
  size : h.size ≤ Depth
  write : h.writeIndex = (h.oldestIndex + h.size) % Depth
  oldest : h.oldestIndex < Depth

@[simp] theorem entries_length (h : KeepLastHistory Depth MaxPayloadBytes) :
    h.entries.length = h.size := by
  unfold entries
  rw [List.length_map, contents_length]

omit [NeZero Depth] in
theorem assign_eq {payload : Span} (haccepts : NewestQueue.Accepts MaxPayloadBytes payload)
    (metadata : SampleMetadata) : ∃ sample : BoundedSample MaxPayloadBytes,
      BoundedSample.assign payload metadata = .ok sample ∧ entry sample = (payload.data, metadata) := by
  have hnull : ¬ (payload.isNull && payload.size != 0) = true := by
    intro hnull
    obtain ⟨hnull, hsize⟩ := Bool.and_eq_true_iff.1 hnull
    exact bne_iff_ne.1 hsize (haccepts.1 hnull)
  have hsize : ¬ payload.size > MaxPayloadBytes := not_lt.2 haccepts.2
  unfold BoundedSample.assign
  rw [if_neg hnull, dif_neg hsize]
  exact ⟨_, rfl, rfl⟩

theorem push_accepted (h : KeepLastHistory Depth MaxPayloadBytes) {payload : Span}
    (haccepts : NewestQueue.Accepts MaxPayloadBytes payload) (metadata : SampleMetadata) :
    ∃ sample : BoundedSample MaxPayloadBytes, entry sample = (payload.data, metadata) ∧
      h.push payload metadata =
        (none,
          { samples := Function.update h.samples (wrap h.writeIndex) sample
            size := if h.size = Depth then h.size else h.size + 1
            oldestIndex := if h.size = Depth then h.increment h.oldestIndex else h.oldestIndex
            writeIndex := h.increment h.writeIndex }) := by
  obtain ⟨sample, hassign, hentry⟩ := assign_eq haccepts metadata
  refine ⟨sample, hentry, ?_⟩
  unfold push
  have hnull : ¬ (payload.isNull && payload.size != 0) = true := by
    intro hnull
    obtain ⟨hnull, hsize⟩ := Bool.and_eq_true_iff.1 hnull
    exact bne_iff_ne.1 hsize (haccepts.1 hnull)
  rw [if_neg hnull, if_neg (not_lt.2 haccepts.2), hassign]

theorem push_refused (h : KeepLastHistory Depth MaxPayloadBytes) {payload : Span}
    (hrefused : ¬ NewestQueue.Accepts MaxPayloadBytes payload) (metadata : SampleMetadata) :
    ∃ e, h.push payload metadata = (some e, h) := by
  unfold push
  split
  · exact ⟨_, rfl⟩
  next hnull =>
    split
    · exact ⟨_, rfl⟩
    next hsize =>
      refine absurd ⟨fun hisNull => ?_, not_lt.1 hsize⟩ hrefused
      by_contra hne
      exact hnull (Bool.and_eq_true_iff.2 ⟨hisNull, bne_iff_ne.2 hne⟩)

theorem valid_initial : Valid ({} : KeepLastHistory Depth MaxPayloadBytes) :=
  ⟨Nat.zero_le _, (Nat.zero_mod _).symm, Nat.pos_of_neZero Depth⟩

/-- **Every call keeps the indices.** -/
theorem step_valid (hvalid : h.Valid) (op : HistoryOp) : (h.step op).Valid := by
  have hpos := Nat.pos_of_neZero Depth
  cases op with
  | push payload metadata =>
    by_cases haccepts : NewestQueue.Accepts MaxPayloadBytes payload
    · obtain ⟨sample, -, hpush⟩ := h.push_accepted haccepts metadata
      have hstep : h.step (.push payload metadata) = (h.push payload metadata).2 := rfl
      rw [hstep, hpush]
      have hwrite := hvalid.write
      have hsize := hvalid.size
      by_cases hfull : h.size = Depth
      · refine ⟨?_, ?_, ?_⟩
        · rw [if_pos hfull, hfull]
        · -- both indices move by one
          rw [if_pos hfull, if_pos hfull]
          unfold increment
          rw [hwrite, hfull, Nat.add_mod_right, Nat.add_mod_right, Nat.mod_mod, Nat.mod_add_mod]
        · dsimp only
          rw [if_pos hfull]
          exact Nat.mod_lt _ hpos
      · refine ⟨?_, ?_, ?_⟩
        · dsimp only
          rw [if_neg hfull]
          omega
        · rw [if_neg hfull, if_neg hfull]
          unfold increment
          rw [hwrite, Nat.mod_add_mod, Nat.add_assoc]
        · dsimp only
          rw [if_neg hfull]
          exact hvalid.oldest
    · obtain ⟨e, hpush⟩ := h.push_refused haccepts metadata
      have hstep : h.step (.push payload metadata) = (h.push payload metadata).2 := rfl
      rw [hstep, hpush]
      exact hvalid
  | popOldest =>
    unfold step popOldest
    dsimp only
    split
    · exact hvalid
    next hempty =>
      have hne : h.size ≠ 0 := fun hzero => hempty (beq_iff_eq.2 hzero)
      refine ⟨(Nat.sub_le _ _).trans hvalid.size, ?_, Nat.mod_lt _ hpos⟩
      have hmove : h.oldestIndex + 1 + (h.size - 1) = h.oldestIndex + h.size := by omega
      unfold increment
      rw [hvalid.write, Nat.mod_add_mod, hmove]
  | clear => exact ⟨Nat.zero_le _, (Nat.zero_mod _).symm, hpos⟩

/-- The cell that is written next, in a full history, is that of the oldest sample. -/
theorem Valid.write_full (hvalid : h.Valid) (hfull : h.size = Depth) :
    (wrap h.writeIndex : Fin Depth) = wrap h.oldestIndex := by
  apply Fin.ext
  rw [wrap_val, wrap_val, hvalid.write, hfull, Nat.add_mod_right, Nat.mod_mod]

theorem Valid.write_room (hvalid : h.Valid) :
    (wrap h.writeIndex : Fin Depth) = wrap (h.oldestIndex + h.size) := by
  apply Fin.ext
  rw [wrap_val, wrap_val, hvalid.write, Nat.mod_mod]

/-- **Every call does to the list what the queue does.** -/
theorem step_entries (hvalid : h.Valid) (op : HistoryOp) :
    (h.step op).entries = NewestQueue.step Depth MaxPayloadBytes h.entries op := by
  cases op with
  | push payload metadata =>
    have hstep : h.step (.push payload metadata) = (h.push payload metadata).2 := rfl
    rw [hstep]
    unfold NewestQueue.step
    dsimp only
    by_cases haccepts : NewestQueue.Accepts MaxPayloadBytes payload
    · obtain ⟨sample, hentry, hpush⟩ := h.push_accepted haccepts metadata
      rw [hpush, if_pos haccepts, List.length_append, List.length_singleton, entries_length, ← hentry]
      unfold entries
      dsimp only
      by_cases hfull : h.size = Depth
      · rw [if_pos hfull, if_pos hfull, hvalid.write_full hfull, hfull, Nat.add_sub_cancel_left]
        unfold increment
        rw [contents_overwrite, List.map_append, List.map_tail, List.drop_one]
        -- a full history is not empty
        refine (List.tail_append_of_ne_nil ?_).symm
        intro hnil
        have hlength := congrArg List.length hnil
        rw [List.length_map, contents_length] at hlength
        exact NeZero.ne Depth hlength
      · have hlt : h.size < Depth := lt_of_le_of_ne hvalid.size hfull
        have hnone : h.size + 1 - Depth = 0 := by omega
        rw [if_neg hfull, if_neg hfull, hvalid.write_room, contents_push _ _ hlt, hnone, List.drop_zero,
          List.map_append]
        rfl
    · obtain ⟨e, hpush⟩ := h.push_refused haccepts metadata
      rw [hpush, if_neg haccepts]
  | popOldest =>
    unfold step popOldest NewestQueue.step
    dsimp only
    split
    next hempty =>
      have hnil : h.entries = [] := List.eq_nil_of_length_eq_zero
        ((entries_length h).trans (beq_iff_eq.1 hempty))
      rw [hnil]
      rfl
    next hempty =>
      have hne : h.size ≠ 0 := fun hzero => hempty (beq_iff_eq.2 hzero)
      unfold entries increment
      dsimp only
      rw [contents_pop _ _ hne, List.map_tail]
  | clear => rfl

theorem oldest_eq (h : KeepLastHistory Depth MaxPayloadBytes) : h.oldest.map entry = h.entries.head? := by
  unfold oldest entries
  split
  next hempty =>
    rw [beq_iff_eq.1 hempty]
    rfl
  next hempty =>
    obtain ⟨m, hm⟩ := Nat.exists_eq_succ_of_ne_zero fun hzero => hempty (beq_iff_eq.2 hzero)
    rw [hm, Nat.succ_eq_add_one, contents_cons]
    rfl

theorem newest_eq (hvalid : h.Valid) : h.newest.map entry = h.entries.getLast? := by
  unfold newest entries
  split
  next hempty =>
    rw [beq_iff_eq.1 hempty]
    rfl
  next hempty =>
    obtain ⟨m, hm⟩ := Nat.exists_eq_succ_of_ne_zero fun hzero => hempty (beq_iff_eq.2 hzero)
    have hlast : (wrap (if h.writeIndex = 0 then Depth - 1 else h.writeIndex - 1) : Fin Depth) =
        wrap (h.oldestIndex + m) := by
      apply Fin.ext
      have hwrite : h.writeIndex = ((h.oldestIndex + m) % Depth + 1) % Depth := by
        rw [hvalid.write, hm, Nat.succ_eq_add_one, ← Nat.add_assoc, Nat.mod_add_mod]
      have hlt : (h.oldestIndex + m) % Depth < Depth := Nat.mod_lt _ (Nat.pos_of_neZero Depth)
      rw [wrap_val, wrap_val]
      -- the next index is zero just when the last sample is in the last cell
      by_cases hend : (h.oldestIndex + m) % Depth + 1 = Depth
      · rw [hend, Nat.mod_self] at hwrite
        rw [if_pos hwrite, Nat.mod_eq_of_lt (by omega)]
        omega
      · rw [Nat.mod_eq_of_lt (by omega)] at hwrite
        rw [hwrite, if_neg (Nat.succ_ne_zero _), Nat.add_sub_cancel, Nat.mod_mod]
    rw [hm, Nat.succ_eq_add_one, contents_succ, List.map_append, hlast]
    exact List.getLast?_concat.symm

/-- **The history is the queue of the newest samples**, after every run: its size, both of its flags and
both of its ends are those of the queue. A push is accepted just when the payload can be read and fits,
and one that is not accepted, like a pop of the empty history, changes nothing. -/
theorem keep_last_history_is_newest_queue (ops : List HistoryOp) :
    let h : KeepLastHistory Depth MaxPayloadBytes := run step {} ops
    let queue := run (NewestQueue.step Depth MaxPayloadBytes) [] ops
    h.size = queue.length ∧ (h.empty = true ↔ queue = []) ∧ (h.full = true ↔ queue.length = Depth) ∧
      h.entries = queue ∧ h.oldest.map entry = queue.head? ∧ h.newest.map entry = queue.getLast? ∧
      (∀ payload metadata,
        ((h.push payload metadata).1 = none ↔ NewestQueue.Accepts MaxPayloadBytes payload) ∧
          ((h.push payload metadata).1 ≠ none → (h.push payload metadata).2 = h)) ∧
      (h.popOldest.1 = true ↔ queue ≠ []) ∧ (h.popOldest.1 = false → h.popOldest.2 = h) := by
  intro h queue
  obtain ⟨hvalid, hentries⟩ : h.Valid ∧ h.entries = queue := by
    refine run_history (P := fun ops (h : KeepLastHistory Depth MaxPayloadBytes) =>
      h.Valid ∧ h.entries = run (NewestQueue.step Depth MaxPayloadBytes) [] ops)
      (fun ops op hinv => ?_) ⟨valid_initial, rfl⟩ ops
    refine ⟨step_valid hinv.1 op, ?_⟩
    rw [step_entries hinv.1 op, hinv.2, run_snoc]
  have hsize : h.size = queue.length := by rw [← hentries, entries_length]
  have hempty : h.empty = true ↔ queue = [] := by
    unfold empty
    rw [beq_iff_eq, hsize, List.length_eq_zero_iff]
  refine ⟨hsize, hempty, ?_, hentries, ?_, ?_, fun payload metadata => ?_, ?_, ?_⟩
  · unfold full
    rw [beq_iff_eq, hsize]
  · rw [oldest_eq, hentries]
  · rw [newest_eq hvalid, hentries]
  · by_cases haccepts : NewestQueue.Accepts MaxPayloadBytes payload
    · obtain ⟨sample, -, hpush⟩ := h.push_accepted haccepts metadata
      rw [hpush]
      exact ⟨iff_of_true rfl haccepts, fun hne => absurd rfl hne⟩
    · obtain ⟨e, hpush⟩ := h.push_refused haccepts metadata
      rw [hpush]
      exact ⟨iff_of_false (Option.some_ne_none e) haccepts, fun _ => rfl⟩
  · rw [Ne, ← hempty]
    unfold popOldest
    split
    next hnone => exact iff_of_false Bool.false_ne_true fun hne => hne hnone
    next hsome => exact iff_of_true rfl hsome
  · unfold popOldest
    split
    · exact fun _ => rfl
    · exact fun htrue => absurd htrue.symm Bool.false_ne_true

/-- Three samples pushed into a history of depth two, and the oldest of the two that are left popped. -/
theorem newest_queue_of_three :
    ((run step ({} : KeepLastHistory 2 4)
      [.push (.bytes [1]) ⟨1, 0⟩, .push (.bytes [2]) ⟨2, 0⟩, .push (.bytes [3]) ⟨3, 0⟩,
        .popOldest]).oldest.map entry) = some ([3], ⟨3, 0⟩) :=
  (@keep_last_history_is_newest_queue 2 4 _
    [.push (.bytes [1]) ⟨1, 0⟩, .push (.bytes [2]) ⟨2, 0⟩, .push (.bytes [3]) ⟨3, 0⟩,
      .popOldest]).2.2.2.2.1

end KeepLastHistory

end OpenRtdds
