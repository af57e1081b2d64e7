import OpenRtdds.Spec.Discovery
import OpenRtdds.Spec.MatchedEvents

/-!
# Matched events telescope

The source counts like the unbounded tally of the counts that were set, while the tally is within the
machine's bounds. An event reports the difference to what it has reported last, so that its differences add
up to what it reports.

* `counters_networkSetMatchCount`: these are the counters that `recompute_matches` sets.
* `Bounded`: the bounds. `setMatchCount_ofTally`: within them the source is the tally.
* `EventInv`: what an event has reported, and whether the count has changed since its last take. `MatchInv`:
  the invariant of a source with its events. `perform_inv`, `matchRun_inv`.
* `Agree.perform`, `matchRun_agree`: the takes of the other events can be left out.
* `matched_deltas_telescope`.
-/

namespace OpenRtdds

open Lib

section Tally

variable {counts : List ℕ} {t : MatchTally}

/-- The bounds within which the counters of the source do not wrap. -/
structure Bounded (counts : List ℕ) : Prop where
  small : ∀ c ∈ counts, c < 2 ^ 31
  changes : (tallyOf counts).changes < uint64Max
  increases : (tallyOf counts).increases ≤ uint64Max

theorem tallyOf_snoc (counts : List ℕ) (count : ℕ) :
    tallyOf (counts ++ [count]) = (tallyOf counts).add count := run_snoc _ _ _ _

theorem Bounded.before {count : ℕ} (h : Bounded (counts ++ [count])) : Bounded counts := by
  have hchanges := h.changes
  have hincreases := h.increases
  rw [tallyOf_snoc] at hchanges hincreases
  refine ⟨fun c hc => h.small c (List.mem_append_left _ hc), ?_, ?_⟩
  · exact lt_of_le_of_lt (Nat.le_add_right _ _) hchanges
  · exact (Nat.le_add_right _ _).trans hincreases

theorem current_le_increases (counts : List ℕ) : (tallyOf counts).current ≤ (tallyOf counts).increases := by
  refine run_inv (P := fun t : MatchTally => t.current ≤ t.increases) (fun t count h => ?_) le_rfl counts
  change count ≤ t.increases + (count - t.current)
  omega

theorem current_lt (h : Bounded counts) : (tallyOf counts).current < 2 ^ 31 := by
  induction counts using List.reverseRecOn with
  | nil => exact Nat.two_pow_pos 31
  | append_singleton counts count _ =>
    rw [tallyOf_snoc]
    exact h.small count (List.mem_append_right _ List.mem_cons_self)

end Tally

/-- The counters of a publisher or a subscription that the network worker recounts. -/
def MatchSource.counters (source : MatchSource) : MatchCounters :=
  ⟨source.matched, source.totalMatched, source.matchGeneration.toNat⟩

/-- The match counts of the discovery model are set in the same way. -/
theorem counters_networkSetMatchCount (source : MatchSource) (count : ℕ) :
    (source.networkSetMatchCount count).counters = (source.counters.setMatchCount count).2 := by
  have hnext : (source.matchGeneration + 1).toNat = (source.matchGeneration.toNat + 1) % (uint64Max + 1) :=
    UInt64.toNat_add _ _
  have hzero : source.matchGeneration + 1 = 0 ↔ (source.matchGeneration.toNat + 1) % (uint64Max + 1) = 0 := by
    rw [← hnext]
    exact UInt64.toNat_inj.symm
  unfold MatchSource.networkSetMatchCount MatchCounters.setMatchCount
  by_cases h : count ≠ source.matched
  · rw [if_pos h, if_pos (show count ≠ source.counters.matched from h)]
    simp only [MatchSource.counters, apply_ite UInt64.toNat, hnext, hzero]
    rfl
  · rw [if_neg h, if_neg (show ¬count ≠ source.counters.matched from h)]

namespace MatchCounters

/-- The source that counts like the tally. -/
def ofTally (t : MatchTally) : MatchCounters := ⟨t.current, t.increases, t.changes + 1⟩

variable {s : MatchCounters} {t : MatchTally} {count : ℕ}

theorem setMatchCount_same (h : count = s.matched) : s.setMatchCount count = (0, s) := if_neg (not_not.2 h)

theorem setMatchCount_changed (h : count ≠ s.matched) (hgeneration : s.matchGeneration < uint64Max)
    (htotal : s.totalMatched + (count - s.matched) ≤ uint64Max) :
    s.setMatchCount count = (if count > s.matched then count - s.matched else s.matched - count,
      ⟨count, s.totalMatched + (count - s.matched), s.matchGeneration + 1⟩) := by
  have hnext : (s.matchGeneration + 1) % (uint64Max + 1) = s.matchGeneration + 1 :=
    Nat.mod_eq_of_lt (Nat.succ_lt_succ hgeneration)
  unfold setMatchCount
  rw [if_pos h]
  dsimp only
  rw [hnext, if_neg (Nat.succ_ne_zero _)]
  by_cases hmore : count > s.matched
  · rw [if_pos hmore, if_pos hmore, Nat.mod_eq_of_lt (Nat.lt_succ_of_le htotal)]
  · have hzero : count - s.matched = 0 := Nat.sub_eq_zero_of_le (Nat.le_of_not_lt hmore)
    rw [if_neg hmore, if_neg hmore, hzero]
    rfl

/-- **One more count**, within the bounds: the source follows the tally. -/
theorem setMatchCount_ofTally (hchanges : (t.add count).changes < uint64Max)
    (hincreases : (t.add count).increases ≤ uint64Max) :
    ((ofTally t).setMatchCount count).2 = ofTally (t.add count) ∧
      (((ofTally t).setMatchCount count).1 = 0 ↔ count = t.current) := by
  by_cases hsame : count = t.current
  · rw [setMatchCount_same (show count = (ofTally t).matched from hsame)]
    refine ⟨?_, iff_of_true rfl hsame⟩
    unfold ofTally MatchTally.add
    rw [if_pos hsame, hsame, Nat.sub_self]
    rfl
  · have hadd : (t.add count).changes = t.changes + 1 := congrArg (t.changes + ·) (if_neg hsame)
    rw [hadd] at hchanges
    rw [setMatchCount_changed (show count ≠ (ofTally t).matched from hsame) hchanges hincreases]
    refine ⟨?_, iff_of_false ?_ hsame⟩
    · unfold ofTally
      rw [hadd]
      rfl
    · change ¬ (if count > t.current then count - t.current else t.current - count) = 0
      split <;> omega

end MatchCounters

theorem toInt32_of_lt {n : ℕ} (h : n < 2 ^ 31) : toInt32 n = n := by
  unfold toInt32
  rw [BitVec.toInt_eq_toNat_of_lt]
  · rw [BitVec.toNat_ofNat, Nat.mod_eq_of_lt (by omega)]
  · rw [BitVec.toNat_ofNat, Nat.mod_eq_of_lt (by omega)]
    omega

section Logs

variable {replies : List MatchReply} {reply : MatchReply} {event : ℕ}

theorem countsLog_snoc : countsLog (replies ++ [reply]) = countsLog replies ++ reply.count?.toList :=
  filterMap_snoc _ _ _

theorem countsLog_snoc_other (h : reply.count? = none) : countsLog (replies ++ [reply]) = countsLog replies := by
  rw [countsLog_snoc, h, Option.toList_none, List.append_nil]

theorem takesLog_snoc :
    takesLog event (replies ++ [reply]) = takesLog event replies ++ (reply.takeOf? event).toList :=
  filterMap_snoc _ _ _

theorem takesLog_snoc_other (h : reply.takeOf? event = none) :
    takesLog event (replies ++ [reply]) = takesLog event replies := by
  rw [takesLog_snoc, h, Option.toList_none, List.append_nil]

theorem takeOf?_took (event : ℕ) (status : Option MatchedStatus) :
    (MatchReply.took event status).takeOf? event = some status := if_pos rfl

end Logs

/-- **What an event has reported.** Its differences add up to what it remembers, which is what it has
reported last; and its source has another generation exactly if the count has changed since its last take. -/
structure EventInv (replies : List MatchReply) (source : MatchCounters) (event : ℕ) (data : EventData) :
    Prop where
  totals : ((statusLog event replies).map MatchedStatus.totalCountChange).sum = data.lastTotalCount
  currents : ((statusLog event replies).map MatchedStatus.currentCountChange).sum = (data.lastCurrentCount : ℤ)
  reported : (statusLog event replies = [] ∧ data = {}) ∨ ∃ status,
    (statusLog event replies).getLast? = some status ∧ status.totalCount = data.lastTotalCount ∧
      status.currentCount = data.lastCurrentCount
  total_le : data.lastTotalCount ≤ source.totalMatched
  current_lt : data.lastCurrentCount < 2 ^ 31
  generation_le : data.lastGeneration ≤ source.matchGeneration
  fresh : (takesLog event replies = [] ∧ data.lastGeneration = 0) ∨ ∃ before status since,
    replies = before ++ .took event status :: since ∧ takesLog event since = [] ∧
      (source.matchGeneration = data.lastGeneration ↔ ∀ r ∈ since, r.isChange = false)

/-- A take is answered with a status exactly if it is the first of its event, or the count has changed since
the one before; the status has the counts at the time. -/
def TakeExact (before : List MatchReply) (event : ℕ) (status : Option MatchedStatus) : Prop :=
  (status.isSome = true ↔ takesLog event before = [] ∨ ∃ earlier previous since,
    before = earlier ++ .took event previous :: since ∧ takesLog event since = [] ∧
      ∃ r ∈ since, r.isChange = true) ∧
  ∀ s, status = some s → s.totalCount = (tallyOf (countsLog before)).increases ∧
    s.currentCount = (tallyOf (countsLog before)).current ∧ s.currentCount ≤ s.totalCount

/-- **The invariant of a source with its events.** -/
structure MatchInv (replies : List MatchReply) (s : MatchSystem) : Prop where
  source : s.source = .ofTally (tallyOf (countsLog replies))
  events : ∀ event data, s.events[event]? = some data → EventInv replies s.source event data
  unattached : ∀ event, s.events.length ≤ event → takesLog event replies = []
  takes : ∀ before event status after, replies = before ++ .took event status :: after →
    TakeExact before event status

section Step

variable {replies : List MatchReply} {s : MatchSystem} {reply : MatchReply} {event : ℕ} {data : EventData}
  {source source' : MatchCounters}

/-- An answer that is no take of the event, and leaves the source with the same or a later generation. -/
theorem EventInv.other (h : EventInv replies source event data) (hother : reply.takeOf? event = none)
    (htotal : source.totalMatched ≤ source'.totalMatched)
    (hchange : source'.matchGeneration = source.matchGeneration ∧ reply.isChange = false ∨
      source.matchGeneration < source'.matchGeneration ∧ reply.isChange = true) :
    EventInv (replies ++ [reply]) source' event data := by
  have hlog : takesLog event (replies ++ [reply]) = takesLog event replies := takesLog_snoc_other hother
  have hstatus : statusLog event (replies ++ [reply]) = statusLog event replies :=
    congrArg (List.filterMap id) hlog
  have hle := h.generation_le
  refine ⟨?_, ?_, ?_, h.total_le.trans htotal, h.current_lt, ?_, ?_⟩
  · rw [hstatus]
    exact h.totals
  · rw [hstatus]
    exact h.currents
  · rw [hstatus]
    exact h.reported
  · rcases hchange with ⟨hsame, -⟩ | ⟨hlater, -⟩ <;> omega
  · rw [hlog]
    refine h.fresh.imp id ?_
    rintro ⟨before, status, since, rfl, hsince, hiff⟩
    refine ⟨before, status, since ++ [reply], by rw [List.append_assoc, List.cons_append],
      (takesLog_snoc_other hother).trans hsince, ?_⟩
    rcases hchange with ⟨hsame, hquiet⟩ | ⟨hlater, hloud⟩
    · rw [hsame, hiff]
      constructor
      · intro hold r hr
        rcases List.mem_append.1 hr with hr | hr
        · exact hold r hr
        · exact List.mem_singleton.1 hr ▸ hquiet
      · exact fun hall r hr => hall r (List.mem_append_left _ hr)
    · refine iff_of_false (by omega) fun hall => ?_
      have hquiet := hall reply (List.mem_append_right _ List.mem_cons_self)
      rw [hloud] at hquiet
      cases hquiet

/-- **A take of the event.** -/
theorem EventInv.take (h : EventInv replies source event data) (hcurrent : source.matched < 2 ^ 31)
    (htotal : source.totalMatched ≤ uint64Max) :
    EventInv (replies ++ [.took event (data.takeEvent source).1]) source event (data.takeEvent source).2 := by
  have hlog : ∀ status, takesLog event (replies ++ [.took event status]) = takesLog event replies ++ [status] := by
    intro status
    rw [takesLog_snoc, takeOf?_took, Option.toList_some]
  unfold EventData.takeEvent
  by_cases hsame : source.matchGeneration ≠ data.lastGeneration
  · rw [if_pos hsame]
    dsimp only
    set status : MatchedStatus := ⟨source.totalMatched,
      (source.totalMatched + (uint64Max + 1) - data.lastTotalCount) % (uint64Max + 1), source.matched,
      toInt32 source.matched - toInt32 data.lastCurrentCount⟩ with hdef
    have hstatus : statusLog event (replies ++ [.took event (some status)]) =
        statusLog event replies ++ [status] := by
      unfold statusLog
      rw [hlog, filterMap_snoc]
      rfl
    have hchange : status.totalCountChange = source.totalMatched - data.lastTotalCount := by
      have hle := h.total_le
      have hsplit : source.totalMatched + (uint64Max + 1) - data.lastTotalCount =
          source.totalMatched - data.lastTotalCount + (uint64Max + 1) := by omega
      rw [hdef]
      dsimp only
      rw [hsplit, Nat.add_mod_right, Nat.mod_eq_of_lt (by omega)]
    refine ⟨?_, ?_, .inr ⟨status, ?_, rfl, rfl⟩, le_rfl, hcurrent, le_rfl,
      .inr ⟨replies, some status, [], rfl, rfl, ?_⟩⟩
    · have hle := h.total_le
      rw [hstatus, List.map_append, List.sum_append, h.totals, List.map_singleton, List.sum_singleton, hchange]
      dsimp only
      omega
    · rw [hstatus, List.map_append, List.sum_append, h.currents, List.map_singleton, List.sum_singleton, hdef]
      dsimp only
      rw [toInt32_of_lt hcurrent, toInt32_of_lt h.current_lt]
      omega
    · rw [hstatus, List.getLast?_append, List.getLast?_singleton]
      rfl
    · exact iff_of_true rfl fun r hr => absurd hr List.not_mem_nil
  · have heq : source.matchGeneration = data.lastGeneration := not_not.1 hsame
    rw [if_neg hsame]
    dsimp only
    have hstatus : statusLog event (replies ++ [.took event none]) = statusLog event replies := by
      unfold statusLog
      rw [hlog, filterMap_snoc]
      exact List.append_nil _
    refine ⟨?_, ?_, ?_, h.total_le, h.current_lt, h.generation_le, .inr ⟨replies, none, [], rfl, rfl, ?_⟩⟩
    · rw [hstatus]
      exact h.totals
    · rw [hstatus]
      exact h.currents
    · rw [hstatus]
      exact h.reported
    · exact iff_of_true heq fun r hr => absurd hr List.not_mem_nil

theorem EventInv.exact (h : EventInv replies source event data)
    (hsource : source = .ofTally (tallyOf (countsLog replies))) :
    TakeExact replies event (data.takeEvent source).1 := by
  have hpositive : source.matchGeneration ≠ 0 := by
    rw [hsource]
    exact Nat.succ_ne_zero _
  have htaken : (data.takeEvent source).1.isSome = true ↔ source.matchGeneration ≠ data.lastGeneration := by
    unfold EventData.takeEvent
    split
    next hne => exact iff_of_true rfl hne
    next hne => exact iff_of_false Bool.false_ne_true hne
  refine ⟨htaken.trans ?_, fun status hstatus => ?_⟩
  · rcases h.fresh with ⟨hnone, hzero⟩ | ⟨before, previous, since, hreplies, hsince, hiff⟩
    · rw [hzero]
      exact iff_of_true hpositive (.inl hnone)
    · have hsome : takesLog event replies ≠ [] := by
        rw [hreplies]
        unfold takesLog
        rw [List.filterMap_append, List.filterMap_cons_some (takeOf?_took event previous)]
        exact List.append_ne_nil_of_right_ne_nil _ (List.cons_ne_nil _ _)
      rw [Ne, hiff]
      constructor
      · intro hchange
        obtain ⟨r, hr⟩ := Classical.not_forall.1 hchange
        obtain ⟨hmem, hr⟩ := Classical.not_imp.1 hr
        exact .inr ⟨before, previous, since, hreplies, hsince, r, hmem, Bool.eq_true_of_not_eq_false hr⟩
      · rintro (hnone | ⟨earlier, previous', since', hreplies', hsince', r, hr, hchange⟩) hquiet
        · exact hsome hnone
        · -- the last take of the event is where it is
          have hnone : ∀ {log : List MatchReply}, takesLog event log = [] →
              ∀ r ∈ log, ¬ r.takeOf? event ≠ none := fun hlog r hr =>
            not_not.2 (List.filterMap_eq_nil_iff.1 hlog r hr)
          have htook : ∀ status, (MatchReply.took event status).takeOf? event ≠ none := by
            intro status
            rw [takeOf?_took]
            exact Option.some_ne_none _
          obtain rfl : since' = since := last_unique (P := fun r => r.takeOf? event ≠ none)
            (hreplies'.symm.trans hreplies) (htook _) (htook _) (hnone hsince') (hnone hsince)
          rw [hquiet r hr] at hchange
          cases hchange
  · unfold EventData.takeEvent at hstatus
    split at hstatus
    · obtain rfl := Option.some.inj hstatus
      rw [hsource]
      exact ⟨rfl, rfl, current_le_increases _⟩
    · cases hstatus

theorem perform_take_none (h : s.events[event]? = none) :
    s.perform (.takeEvent event) = (.invalidEvent, s) := by
  unfold MatchSystem.perform
  dsimp only
  rw [h, Option.elim_none]

theorem perform_take_some (h : s.events[event]? = some data) :
    s.perform (.takeEvent event) = (.took event (data.takeEvent s.source).1,
      { s with events := s.events.set event (data.takeEvent s.source).2 }) := by
  unfold MatchSystem.perform
  dsimp only
  rw [h, Option.elim_some]

/-- **An answer that is no take**: the source has counted it, and events may have been attached. -/
theorem MatchInv.other {s' : MatchSystem} (h : MatchInv replies s) (hnone : ∀ event, reply.takeOf? event = none)
    (hsource : s'.source = .ofTally (tallyOf (countsLog (replies ++ [reply]))))
    (htotal : s.source.totalMatched ≤ s'.source.totalMatched)
    (hchange : s'.source.matchGeneration = s.source.matchGeneration ∧ reply.isChange = false ∨
      s.source.matchGeneration < s'.source.matchGeneration ∧ reply.isChange = true)
    (new : ℕ) (hevents : s'.events = s.events ++ .replicate new {}) : MatchInv (replies ++ [reply]) s' := by
  refine ⟨hsource, fun event data hdata => ?_, fun event hevent => ?_, fun before event status after hsplit => ?_⟩
  · rw [hevents] at hdata
    by_cases hold : event < s.events.length
    · rw [List.getElem?_append_left hold] at hdata
      exact (h.events event data hdata).other (hnone event) htotal hchange
    · -- a new event has not reported anything
      have hlog : takesLog event (replies ++ [reply]) = [] :=
        (takesLog_snoc_other (hnone event)).trans (h.unattached event (Nat.le_of_not_lt hold))
      have hstatus : statusLog event (replies ++ [reply]) = [] := congrArg (List.filterMap id) hlog
      rw [List.getElem?_append_right (Nat.le_of_not_lt hold)] at hdata
      obtain rfl : data = {} := List.eq_of_mem_replicate (List.mem_of_getElem? hdata)
      refine ⟨?_, ?_, .inl ⟨hstatus, rfl⟩, Nat.zero_le _, Nat.two_pow_pos 31, Nat.zero_le _, .inl ⟨hlog, rfl⟩⟩
      · rw [hstatus]
        rfl
      · rw [hstatus]
        rfl
  · refine (takesLog_snoc_other (hnone event)).trans (h.unattached event ?_)
    rw [hevents, List.length_append] at hevent
    omega
  · rcases snoc_eq_append_cons hsplit with ⟨rfl, -⟩ | ⟨rest, -, hsplit⟩
    · cases (hnone event).symm.trans (takeOf?_took event status)
    · exact h.takes before event status rest hsplit

/-- **Every call keeps the invariant**, within the bounds. -/
theorem perform_inv (h : MatchInv replies s) (call : MatchCall)
    (hbounded : Bounded (countsLog (replies ++ [(s.perform call).1]))) :
    MatchInv (replies ++ [(s.perform call).1]) (s.perform call).2 := by
  cases call with
  | setMatchCount count =>
    have hcounts : countsLog (replies ++ [(s.perform (.setMatchCount count)).1]) = countsLog replies ++ [count] :=
      countsLog_snoc
    rw [hcounts] at hbounded
    have hchanges := hbounded.changes
    have hincreases := hbounded.increases
    rw [tallyOf_snoc] at hchanges hincreases
    obtain ⟨hsource, hzero⟩ := MatchCounters.setMatchCount_ofTally hchanges hincreases
    rw [← h.source] at hsource hzero
    set t := tallyOf (countsLog replies) with ht
    refine h.other (fun _ => rfl) ?_ ?_ ?_ 0 (List.append_nil _).symm
    · rw [hcounts, tallyOf_snoc]
      exact hsource
    · change s.source.totalMatched ≤ (s.source.setMatchCount count).2.totalMatched
      rw [hsource, h.source]
      exact Nat.le_add_right _ _
    · change (s.source.setMatchCount count).2.matchGeneration = s.source.matchGeneration ∧
        ((s.source.setMatchCount count).1 != 0) = false ∨ s.source.matchGeneration <
        (s.source.setMatchCount count).2.matchGeneration ∧ ((s.source.setMatchCount count).1 != 0) = true
      rw [bne_eq_false_iff_eq, bne_iff_ne, Ne, hzero, hsource, h.source]
      -- the generation moves on exactly if the count is another one
      by_cases hsame : count = t.current
      · refine .inl ⟨?_, hsame⟩
        change t.changes + (if count = t.current then 0 else 1) + 1 = t.changes + 1
        rw [if_pos hsame]
      · refine .inr ⟨?_, hsame⟩
        change t.changes + 1 < t.changes + (if count = t.current then 0 else 1) + 1
        rw [if_neg hsame]
        exact Nat.lt_succ_self _
  | eventInit =>
    refine h.other (fun _ => rfl) ?_ le_rfl (.inl ⟨rfl, rfl⟩) 1 rfl
    rw [countsLog_snoc_other rfl]
    exact h.source
  | takeEvent event =>
    cases hdata : s.events[event]? with
    | none =>
      rw [perform_take_none hdata]
      refine h.other (fun _ => rfl) ?_ le_rfl (.inl ⟨rfl, rfl⟩) 0 (List.append_nil _).symm
      rw [countsLog_snoc_other rfl]
      exact h.source
    | some data =>
      rw [perform_take_some hdata] at hbounded ⊢
      dsimp only at hbounded ⊢
      set reply := MatchReply.took event (data.takeEvent s.source).1 with hreply
      have hinv := h.events event data hdata
      have hcounts : countsLog (replies ++ [reply]) = countsLog replies := countsLog_snoc_other rfl
      rw [hcounts] at hbounded
      have hlt : event < s.events.length := (List.getElem?_eq_some_iff.1 hdata).1
      have hnone : ∀ other, other ≠ event → reply.takeOf? other = none := fun other hne => if_neg hne.symm
      refine ⟨?_, fun other data' hother => ?_, fun other hother => ?_, fun before other status after hsplit => ?_⟩
      · rw [hcounts]
        exact h.source
      · change (s.events.set event (data.takeEvent s.source).2)[other]? = some data' at hother
        -- the take of one event is nothing to the others
        by_cases hne : other = event
        · rw [hne, List.getElem?_set_self hlt] at hother
          rw [← Option.some.inj hother, hne]
          refine hinv.take ?_ ?_
          · rw [h.source]
            exact current_lt hbounded
          · rw [h.source]
            exact hbounded.increases
        · rw [List.getElem?_set_ne (Ne.symm hne)] at hother
          exact (h.events other data' hother).other (hnone other hne) le_rfl (.inl ⟨rfl, rfl⟩)
      · rw [List.length_set] at hother
        refine (takesLog_snoc_other (hnone other ?_)).trans (h.unattached other hother)
        omega
      · rcases snoc_eq_append_cons hsplit with ⟨hlast, rfl⟩ | ⟨rest, -, hsplit⟩
        · obtain ⟨rfl, rfl⟩ := MatchReply.took.inj hlast
          obtain ⟨rfl, -⟩ := List.append_inj' hsplit rfl
          exact hinv.exact h.source
        · exact h.takes before other status rest hsplit

/-- **The invariant holds after every run** within the bounds. -/
theorem matchRun_inv (calls : List MatchCall)
    (hbounded : Bounded (countsLog (MatchSystem.matchRun {} calls).2)) :
    MatchInv (MatchSystem.matchRun {} calls).2 (MatchSystem.matchRun {} calls).1 := by
  refine collect_history (P := fun replies (s : MatchSystem) => Bounded (countsLog replies) → MatchInv replies s)
    (fun replies s call ih hbounded => ?_) (fun _ => ?_) calls hbounded
  · refine perform_inv (ih ?_) call hbounded
    -- the run before is within the bounds, too
    have hlog : countsLog (replies ++ [(s.perform call).1]) =
        countsLog replies ++ (s.perform call).1.count?.toList := countsLog_snoc
    rw [hlog] at hbounded
    cases hcount : (s.perform call).1.count? with
    | none =>
      rw [hcount, Option.toList_none, List.append_nil] at hbounded
      exact hbounded
    | some count =>
      rw [hcount, Option.toList_some] at hbounded
      exact hbounded.before
  · refine ⟨rfl, fun event data hdata => ?_, fun event _ => rfl, fun before event status after hsplit => ?_⟩
    · cases hdata
    · exact absurd hsplit.symm (List.append_ne_nil_of_right_ne_nil _ (List.cons_ne_nil _ _))

end Step

namespace MatchSystem

theorem matchRun_cons (s : MatchSystem) (call : MatchCall) (calls : List MatchCall) :
    (s.matchRun (call :: calls)).2 = (s.perform call).1 :: ((s.perform call).2.matchRun calls).2 := rfl

theorem countsLog_matchRun (s : MatchSystem) (calls : List MatchCall) :
    countsLog (s.matchRun calls).2 = calls.filterMap MatchCall.count? := by
  induction calls generalizing s with
  | nil => rfl
  | cons call calls ih =>
    rw [matchRun_cons]
    have hcount : (s.perform call).1.count? = call.count? := by
      cases call with
      | setMatchCount count => rfl
      | eventInit => rfl
      | takeEvent event =>
        cases hdata : s.events[event]? with
        | none =>
          rw [perform_take_none hdata]
          rfl
        | some data =>
          rw [perform_take_some hdata]
          rfl
    unfold countsLog at ih ⊢
    rw [List.filterMap_cons, List.filterMap_cons, hcount, ih]

/-- Two systems that an event cannot tell apart. -/
structure Agree (event : ℕ) (s s' : MatchSystem) : Prop where
  source : s.source = s'.source
  length : s.events.length = s'.events.length
  event : s.events[event]? = s'.events[event]?

variable {s s' : MatchSystem} {event : ℕ}

/-- A take of another event changes nothing for the event. -/
theorem Agree.other (h : Agree event s s') {other : ℕ} (hne : other ≠ event) :
    Agree event (s.perform (.takeEvent other)).2 s' ∧
      (s.perform (.takeEvent other)).1.takeOf? event = none := by
  cases hdata : s.events[other]? with
  | none =>
    rw [perform_take_none hdata]
    exact ⟨h, rfl⟩
  | some data =>
    rw [perform_take_some hdata]
    refine ⟨⟨h.source, (List.length_set).trans h.length, ?_⟩, if_neg hne⟩
    exact (List.getElem?_set_ne hne).trans h.event

/-- The other calls have the same answer and effect for it. -/
theorem Agree.perform (h : Agree event s s') {call : MatchCall} (hcall : call.concerns event = true) :
    Agree event (s.perform call).2 (s'.perform call).2 ∧
      (s.perform call).1.takeOf? event = (s'.perform call).1.takeOf? event := by
  cases call with
  | setMatchCount count =>
    refine ⟨⟨?_, h.length, h.event⟩, rfl⟩
    exact congrArg (fun source : MatchCounters => (source.setMatchCount count).2) h.source
  | eventInit =>
    refine ⟨⟨h.source, ?_, ?_⟩, rfl⟩
    · change (s.events ++ [({} : EventData)]).length = (s'.events ++ [({} : EventData)]).length
      rw [List.length_append, List.length_append, h.length]
    · change (s.events ++ [({} : EventData)])[event]? = (s'.events ++ [({} : EventData)])[event]?
      rw [List.getElem?_append, List.getElem?_append, h.length, h.event]
  | takeEvent other =>
    obtain rfl : other = event := beq_iff_eq.1 hcall
    cases hdata : s.events[other]? with
    | none =>
      rw [perform_take_none hdata, perform_take_none (h.event.symm.trans hdata)]
      exact ⟨h, rfl⟩
    | some data =>
      have hdata' := h.event.symm.trans hdata
      have hlt := (List.getElem?_eq_some_iff.1 hdata).1
      have hlt' := (List.getElem?_eq_some_iff.1 hdata').1
      rw [perform_take_some hdata, perform_take_some hdata', h.source]
      refine ⟨⟨rfl, ?_, ?_⟩, rfl⟩
      · change (s.events.set other _).length = (s'.events.set other _).length
        rw [List.length_set, List.length_set, h.length]
      · change (s.events.set other _)[other]? = (s'.events.set other _)[other]?
        rw [List.getElem?_set_self hlt, List.getElem?_set_self hlt']

/-- **The takes of the other events can be left out.** -/
theorem matchRun_agree (h : Agree event s s') (calls : List MatchCall) :
    takesLog event (s.matchRun calls).2 =
      takesLog event (s'.matchRun (calls.filter (MatchCall.concerns event))).2 := by
  induction calls generalizing s s' with
  | nil => rfl
  | cons call calls ih =>
    by_cases hcall : call.concerns event = true
    · obtain ⟨hagree, hanswer⟩ := h.perform hcall
      have hrest := ih hagree
      rw [List.filter_cons_of_pos hcall, matchRun_cons, matchRun_cons]
      unfold takesLog at hrest ⊢
      rw [List.filterMap_cons, List.filterMap_cons, hanswer, hrest]
    · cases call with
      | setMatchCount count => exact absurd rfl hcall
      | eventInit => exact absurd rfl hcall
      | takeEvent other =>
        have hne : other ≠ event := fun heq => hcall (beq_iff_eq.2 heq)
        obtain ⟨hagree, hanswer⟩ := h.other hne
        have hrest := ih hagree
        rw [List.filter_cons_of_neg hcall, matchRun_cons]
        unfold takesLog at hrest ⊢
        rw [List.filterMap_cons_none hanswer, hrest]

end MatchSystem

/-- **Matched-event deltas telescope.** In every run over one source with any events, with counts below
`2 ^ 31`, fewer than `2 ^ 64 - 1` changes and increases that add up to less than `2 ^ 64`: the changes that
an event reports add up to the counts of its last status; a take is answered with a status exactly if it is
the first of its event or the count has changed since the one before, and the total of the status is the sum
of all increases so far, which is never below the current count; and an event is answered the same whether
the others are taken or not. -/
theorem matched_deltas_telescope (calls : List MatchCall)
    (hbounded : Bounded (calls.filterMap MatchCall.count?)) :
    let replies := (MatchSystem.matchRun {} calls).2
    (∀ event, let statuses := statusLog event replies
      (statuses.map MatchedStatus.totalCountChange).sum =
          (statuses.getLast?.map MatchedStatus.totalCount).getD 0 ∧
        (statuses.map MatchedStatus.currentCountChange).sum =
          ((statuses.getLast?.map MatchedStatus.currentCount).getD 0 : ℕ)) ∧
      (∀ before event status after, replies = before ++ .took event status :: after →
        (status.isSome = true ↔ takesLog event before = [] ∨ ∃ earlier previous since,
          before = earlier ++ .took event previous :: since ∧ takesLog event since = [] ∧
            ∃ r ∈ since, r.isChange = true) ∧
        ∀ s, status = some s → s.totalCount = (tallyOf (countsLog before)).increases ∧
          s.currentCount = (tallyOf (countsLog before)).current ∧ s.currentCount ≤ s.totalCount) ∧
      (∀ event, takesLog event replies =
        takesLog event (MatchSystem.matchRun {} (calls.filter (MatchCall.concerns event))).2) := by
  intro replies
  have hinv : MatchInv replies (MatchSystem.matchRun {} calls).1 := by
    refine matchRun_inv calls ?_
    rw [MatchSystem.countsLog_matchRun]
    exact hbounded
  refine ⟨fun event => ?_, hinv.takes, fun event => MatchSystem.matchRun_agree ⟨rfl, rfl, rfl⟩ calls⟩
  intro statuses
  cases hdata : (MatchSystem.matchRun {} calls).1.events[event]? with
  | none =>
    -- no such event
    have hlog := hinv.unattached event (List.getElem?_eq_none_iff.1 hdata)
    have hnil : statuses = [] := congrArg (List.filterMap id) hlog
    rw [hnil]
    exact ⟨rfl, rfl⟩
  | some data =>
    have hevent := hinv.events event data hdata
    rcases hevent.reported with ⟨hnil, -⟩ | ⟨status, hlast, htotal, hcurrent⟩
    · rw [show statuses = [] from hnil]
      exact ⟨rfl, rfl⟩
    · rw [show statuses.getLast? = some status from hlast, Option.map_some, Option.map_some, Option.getD_some,
        Option.getD_some, htotal, hcurrent]
      exact ⟨hevent.totals, hevent.currents⟩

/-- Two events of a source that is matched with two endpoints, loses one and is taken: the second event, which
is attached late, reports both at once. -/
theorem late_event_telescopes :
    let calls : List MatchCall :=
      [.eventInit, .takeEvent 0, .setMatchCount 2, .takeEvent 0, .eventInit, .setMatchCount 1, .takeEvent 1]
    let statuses := statusLog 1 (MatchSystem.matchRun {} calls).2
    statuses.length = 1 ∧ (statuses.map MatchedStatus.totalCountChange).sum =
      (statuses.getLast?.map MatchedStatus.totalCount).getD 0 := by
  have hbounded : Bounded (([.eventInit, .takeEvent 0, .setMatchCount 2, .takeEvent 0, .eventInit,
      .setMatchCount 1, .takeEvent 1] : List MatchCall).filterMap MatchCall.count?) :=
    ⟨by decide, by decide, by decide⟩
  exact ⟨by decide, ((matched_deltas_telescope _ hbounded).1 1).1⟩

section Wrap

variable {s : MatchCounters} {count m : ℕ}

theorem setMatchCount_wrapped (h : count ≠ s.matched) :
    (s.setMatchCount count).2.matched = count ∧
      (s.setMatchCount count).2.totalMatched = (if count > s.matched then
        (s.totalMatched + (count - s.matched)) % (uint64Max + 1) else s.totalMatched) ∧
      (s.setMatchCount count).2.matchGeneration ≠ 0 := by
  unfold MatchCounters.setMatchCount
  rw [if_pos h]
  refine ⟨rfl, rfl, ?_⟩
  dsimp only
  split
  · exact one_ne_zero
  next hne => exact hne

theorem rounds_source (hm : 0 < m) (rounds : ℕ) :
    let s := run (fun (s : MatchCounters) c => (s.setMatchCount c).2) {} (List.replicate rounds [m, 0]).flatten
    s.matched = 0 ∧ s.totalMatched = rounds * m % (uint64Max + 1) := by
  induction rounds with
  | zero =>
    refine ⟨rfl, ?_⟩
    rw [Nat.zero_mul]
    rfl
  | succ rounds ih =>
    intro s
    obtain ⟨hmatched, htotal⟩ := ih
    set s₀ := run (fun (s : MatchCounters) c => (s.setMatchCount c).2) {} (List.replicate rounds [m, 0]).flatten
      with hs₀
    have hrun : s = ((s₀.setMatchCount m).2.setMatchCount 0).2 := by
      have hlist : (List.replicate (rounds + 1) [m, 0]).flatten =
          (List.replicate rounds [m, 0]).flatten ++ [m, 0] := by
        rw [List.replicate_succ', List.flatten_append, List.flatten_singleton]
      change run _ _ (List.replicate (rounds + 1) [m, 0]).flatten = _
      rw [hlist, run_append, ← hs₀]
      rfl
    obtain ⟨hmore, hmoreTotal, -⟩ := setMatchCount_wrapped (show m ≠ s₀.matched by omega)
    obtain ⟨hless, hlessTotal, -⟩ := setMatchCount_wrapped (show 0 ≠ (s₀.setMatchCount m).2.matched by omega)
    rw [hrun]
    refine ⟨hless, ?_⟩
    rw [hlessTotal, if_neg (Nat.not_lt_zero _), hmoreTotal, if_pos (by omega), hmatched, htotal, Nat.sub_zero,
      Nat.mod_add_mod, Nat.succ_mul]

theorem changes_le (counts : List ℕ) : (tallyOf counts).changes ≤ counts.length := by
  induction counts using List.reverseRecOn with
  | nil => exact le_rfl
  | append_singleton counts count ih =>
    rw [tallyOf_snoc, List.length_append, List.length_singleton]
    refine Nat.add_le_add ih ?_
    split
    · exact Nat.zero_le 1
    · exact le_rfl

theorem matchRun_counts (s : MatchSystem) (counts : List ℕ) :
    (s.matchRun (counts.map .setMatchCount)).1 =
      { s with source := run (fun (s : MatchCounters) c => (s.setMatchCount c).2) s.source counts } := by
  induction counts generalizing s with
  | nil => rfl
  | cons count counts ih => exact ih _

theorem take_after_counts (counts : List ℕ) :
    let s := run (fun (s : MatchCounters) c => (s.setMatchCount c).2) {} counts
    (MatchSystem.matchRun {} (.eventInit :: counts.map .setMatchCount ++ [.takeEvent 0])).2 =
      (MatchSystem.matchRun {} (.eventInit :: counts.map .setMatchCount)).2 ++
        [.took 0 (EventData.takeEvent {} s).1] := by
  intro s
  have hstate : (MatchSystem.matchRun {} (.eventInit :: counts.map .setMatchCount)).1 = ⟨s, [{}]⟩ :=
    matchRun_counts ⟨{}, [{}]⟩ counts
  change (collect _ _ (_ ++ [MatchCall.takeEvent 0])).2 = _
  rw [collect_snoc]
  change _ ++ [((MatchSystem.matchRun {} (.eventInit :: counts.map .setMatchCount)).1.perform
    (.takeEvent 0)).1] = _
  rw [hstate, perform_take_some (rfl : (⟨s, [{}]⟩ : MatchSystem).events[0]? = some {})]
  rfl

theorem filterMap_counts (counts : List ℕ) :
    (counts.map MatchCall.setMatchCount).filterMap MatchCall.count? = counts := by
  rw [List.filterMap_map]
  exact List.filterMap_some

/-- Rounds that lead the sum of the increases beyond 64 bits. -/
theorem rounds_wrap {rounds : ℕ} (hm : 0 < m) (hfew : rounds * 2 + 1 < uint64Max)
    (hwrap : (rounds * m % (uint64Max + 1) + m) % (uint64Max + 1) < m) :
    ∃ calls : List MatchCall, (∀ c ∈ calls.filterMap MatchCall.count?, c ≤ m) ∧
      (tallyOf (calls.filterMap MatchCall.count?)).changes < uint64Max ∧
      ∃ before status, (MatchSystem.matchRun {} calls).2 = before ++ [.took 0 (some status)] ∧
        status.totalCount < status.currentCount ∧
        status.totalCount ≠ (tallyOf (countsLog before)).increases := by
  set counts : List ℕ := (List.replicate rounds [m, 0]).flatten ++ [m] with hcounts
  have hlength : counts.length = rounds * 2 + 1 := by
    rw [hcounts, List.length_append, List.length_flatten, List.map_replicate, List.sum_replicate]
    rfl
  have hlog : (.eventInit :: counts.map .setMatchCount ++ [.takeEvent 0] : List MatchCall).filterMap
      MatchCall.count? = counts := by
    rw [filterMap_snoc]
    exact (List.append_nil _).trans (filterMap_counts counts)
  refine ⟨.eventInit :: counts.map .setMatchCount ++ [.takeEvent 0], ?_, ?_, ?_⟩
  · rw [hlog]
    intro c hc
    rcases List.mem_append.1 hc with hc | hc
    · obtain ⟨round, hround, hc⟩ := List.mem_flatten.1 hc
      rw [List.eq_of_mem_replicate hround] at hc
      rcases List.mem_cons.1 hc with rfl | hc
      · exact le_refl _
      · rw [List.mem_singleton.1 hc]
        exact Nat.zero_le _
    · exact (List.mem_singleton.1 hc).le
  · rw [hlog]
    exact lt_of_le_of_lt (changes_le counts) (hlength ▸ hfew)
  -- the source after the rounds and the last increase
  obtain ⟨hmatched, htotal⟩ := rounds_source hm rounds
  set s₀ := run (fun (s : MatchCounters) c => (s.setMatchCount c).2) {} (List.replicate rounds [m, 0]).flatten
    with hs₀
  obtain ⟨hlast, hlastTotal, hgeneration⟩ := setMatchCount_wrapped (show m ≠ s₀.matched by omega)
  rw [if_pos (by omega), hmatched, htotal, Nat.sub_zero] at hlastTotal
  have hsource : run (fun (s : MatchCounters) c => (s.setMatchCount c).2) {} counts = (s₀.setMatchCount m).2 :=
    run_snoc _ _ _ _
  have htake := take_after_counts counts
  dsimp only at htake
  rw [hsource] at htake
  unfold EventData.takeEvent at htake
  rw [if_pos (show (s₀.setMatchCount m).2.matchGeneration ≠ ({} : EventData).lastGeneration from hgeneration)]
    at htake
  have hless : (s₀.setMatchCount m).2.totalMatched < (s₀.setMatchCount m).2.matched := by
    rw [hlast, hlastTotal]
    exact hwrap
  refine ⟨_, _, htake, hless, ?_⟩
  have hbefore : countsLog (MatchSystem.matchRun {} (.eventInit :: counts.map .setMatchCount)).2 = counts := by
    rw [MatchSystem.countsLog_matchRun]
    exact filterMap_counts counts
  have hcurrent : (tallyOf counts).current = m := by
    rw [hcounts, tallyOf_snoc]
    rfl
  have hle := current_le_increases counts
  rw [hbefore]
  change (s₀.setMatchCount m).2.totalMatched ≠ _
  omega

/-- **The total count wraps.** Counts of at most 32, the capacity of the table of remote endpoints, and fewer
than `2 ^ 64 - 1` changes are not enough: an endpoint that gains and loses 32 peers `2 ^ 59 - 1` times and gains
them once more reports a total of 0 with 32 peers. -/
theorem total_count_wraps :
    ∃ calls : List MatchCall, (∀ c ∈ calls.filterMap MatchCall.count?, c ≤ 32) ∧
      (tallyOf (calls.filterMap MatchCall.count?)).changes < uint64Max ∧
      ∃ before status, (MatchSystem.matchRun {} calls).2 = before ++ [.took 0 (some status)] ∧
        status.totalCount < status.currentCount ∧
        status.totalCount ≠ (tallyOf (countsLog before)).increases :=
  @rounds_wrap 32 (2 ^ 59 - 1) (by decide) (by decide) (by decide)

end Wrap

end OpenRtdds
