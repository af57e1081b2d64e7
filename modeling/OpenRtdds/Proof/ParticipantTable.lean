import OpenRtdds.Lib.Lookup
import OpenRtdds.Spec.LeaseMap

/-!
# The participant table refines the lease map

The table and the map take the same calls. They stay related: `find` returns an entry for exactly the
known participants, and the entry is a summary of the history. The entry has forgotten the history, so
what has to be shown is that its four fields are enough to decide about the next announcement.

* `Summarises`: an entry is the summary of a history. `Summarises.refreshed`: one more announcement.
* `Refines`: the relation.
* `upsert_refines`, `expiredTable_refines`, `call_agrees`: every call keeps it, and both answer the same.
* `participant_table_refines_lease_map`.
-/

namespace OpenRtdds

open Lib

section History

variable {history : List Acceptance} {a best : Acceptance}

/-- **An entry is the summary of a history.** -/
structure Summarises (e : DiscoveredParticipant) (history : List Acceptance) : Prop where
  data : ∃ best ∈ Acceptance.highest history, e.data = best.announcement.participant ∧
    e.sequenceNumber = best.announcement.sequenceNumber
  lease : ∃ last ∈ history.getLast?, e.lastSeenNs = last.nowNs ∧ e.expiresAtNs.toNat = last.expiry

namespace Summarises

variable {e : DiscoveredParticipant}

theorem lt_iff (h : Summarises e history) (number : ℕ) :
    number < e.sequenceNumber ↔ ∃ b ∈ history, number < b.announcement.sequenceNumber := by
  obtain ⟨⟨best, hbest, -, hnumber⟩, -⟩ := h
  rw [hnumber]
  constructor
  · intro hlt
    exact ⟨best, List.argmax_mem hbest, hlt⟩
  · rintro ⟨b, hb, hlt⟩
    exact hlt.trans_le (List.le_of_mem_argmax (f := fun b : Acceptance => b.announcement.sequenceNumber)
      hb hbest)

theorem seen_expires {a : Acceptance} (h : a.expiry ≤ uint64Max) :
    (a.nowNs + .ofNat a.announcement.participant.leaseDurationNs).toNat = a.expiry := by
  unfold Acceptance.expiry at h ⊢
  rw [UInt64.toNat_add, UInt64.toNat_ofNat', Nat.add_mod_mod, Nat.mod_eq_of_lt]
  unfold uint64Max at h
  omega

theorem added (h : a.expiry ≤ uint64Max) (entry : DiscoveredParticipant) :
    Summarises (DiscoveredParticipantTable.seen
      { DiscoveredParticipantTable.announced entry a.announcement with occupied := true }
      a.announcement a.nowNs) [a] :=
  ⟨⟨a, rfl, rfl, rfl⟩, a, rfl, rfl, seen_expires h⟩

/-- **One more announcement**: an equal number renews the lease and leaves the data. -/
theorem refreshed (h : Summarises e history) (hexpiry : a.expiry ≤ uint64Max) :
    Summarises (DiscoveredParticipantTable.seen
      (if a.announcement.sequenceNumber > e.sequenceNumber
        then DiscoveredParticipantTable.announced e a.announcement else e)
      a.announcement a.nowNs) (history ++ [a]) := by
  obtain ⟨⟨best, hbest, hdata, hsequence⟩, -⟩ := h
  refine ⟨?_, a, List.getLast?_concat, rfl, seen_expires hexpiry⟩
  unfold Acceptance.highest at hbest ⊢
  rw [List.argmax_concat, Option.mem_def.1 hbest]
  by_cases hnew : a.announcement.sequenceNumber > e.sequenceNumber
  · rw [if_pos hnew]
    refine ⟨a, ?_, rfl, rfl⟩
    exact if_pos (hsequence ▸ hnew)
  · rw [if_neg hnew]
    refine ⟨best, ?_, hdata, hsequence⟩
    exact if_neg (hsequence ▸ hnew)

end Summarises

end History

namespace DiscoveredParticipantTable

variable {capacity : ℕ} {localPrefix : GuidPrefix} {t : DiscoveredParticipantTable capacity}
  {m : LeaseMap localPrefix capacity}

/-- The prefix of an entry. -/
def participantOf (e : DiscoveredParticipant) : GuidPrefix := e.data.guidPrefix

theorem find_eq_lookup (t : DiscoveredParticipantTable capacity) (q : GuidPrefix) :
    t.find q = lookup DiscoveredParticipant.occupied participantOf t.entries.toList q := rfl

/-- **The table represents the map.** -/
structure Refines (t : DiscoveredParticipantTable capacity) (m : LeaseMap localPrefix capacity) :
    Prop where
  localPrefix : t.localGuidPrefix = localPrefix
  time : t.lastTimeNs = m.timeNs
  keyed : Keyed DiscoveredParticipant.occupied participantOf t.entries.toList
  size : t.size = t.entries.toList.countP (·.occupied)
  known : ∀ q, q ∈ m.known ↔ t.find q ≠ none
  entry : ∀ q, ∀ e ∈ t.find q, Summarises e (m.history q)

namespace Refines

theorem initial (capacity : ℕ) (localPrefix : GuidPrefix) :
    Refines { localGuidPrefix := localPrefix } (LeaseMap.empty localPrefix capacity) := by
  have hfind : ∀ q, find ({ localGuidPrefix := localPrefix } : DiscoveredParticipantTable capacity) q =
      none := fun q => lookup_none_iff.2 (recordsOf_replicate rfl capacity q)
  refine ⟨rfl, rfl, keyed_replicate rfl capacity, (countP_replicate_free rfl capacity).symm, fun q => ?_,
    fun q e he => ?_⟩
  · rw [hfind]
    exact iff_of_false (Finset.notMem_empty q) (not_not.2 rfl)
  · rw [hfind] at he
    cases he

theorem size_eq (h : t.Refines m) : t.size = m.known.card :=
  h.size.trans (card_eq_countP h.keyed h.known).symm

theorem history_nil (h : t.Refines m) {q : GuidPrefix} (hnone : t.find q = none) : m.history q = [] := by
  by_contra hne
  exact (h.known q).1 ((m.mem_known q).2 hne) hnone

/-- **An accepted announcement**, for a table in which only the entry of its sender has changed. -/
theorem accept (h : t.Refines m) {a : Acceptance}
    (hforeign : a.announcement.participant.guidPrefix ≠ localPrefix)
    (hroom : a.announcement.participant.guidPrefix ∈ m.known ∨ m.known.card < capacity)
    {entries : Vector DiscoveredParticipant capacity} {size : ℕ} {e : DiscoveredParticipant}
    (hkeyed : Keyed DiscoveredParticipant.occupied participantOf entries.toList)
    (hsize : size = entries.toList.countP (·.occupied))
    (hfind : ∀ q, lookup DiscoveredParticipant.occupied participantOf entries.toList q =
      if q = a.announcement.participant.guidPrefix then some e else t.find q)
    (hentry : Summarises e (m.history a.announcement.participant.guidPrefix ++ [a])) :
    Refines { t with entries, size, lastTimeNs := a.nowNs } (m.accept a hforeign hroom) := by
  refine ⟨h.localPrefix, rfl, hkeyed, hsize, fun q => ?_, fun q e' he' => ?_⟩
  · rw [find_eq_lookup, hfind]
    change q ∈ insert _ m.known ↔ _
    rw [Finset.mem_insert]
    by_cases hq : q = a.announcement.participant.guidPrefix
    · rw [if_pos hq]
      exact iff_of_true (.inl hq) (Option.some_ne_none e)
    · rw [if_neg hq, ← h.known]
      exact or_iff_right hq
  · rw [find_eq_lookup, hfind] at he'
    change Summarises e' (Function.update m.history _ _ q)
    by_cases hq : q = a.announcement.participant.guidPrefix
    · rw [if_pos hq] at he'
      cases he'
      rw [hq, Function.update_self]
      exact hentry
    · rw [if_neg hq] at he'
      rw [Function.update_of_ne hq]
      exact h.entry q e' he'

end Refines

/-- The answers of the two agree: both refuse, for the same reason, and the table stays as it is; or
both accept. -/
inductive Agree (t : DiscoveredParticipantTable capacity) :
    ParticipantTableResult × DiscoveredParticipantTable capacity →
      Except SpdpError (LeaseMap localPrefix capacity) → Prop where
  | refused {e : SpdpError} {r : ParticipantTableResult} (hr : r.error = some e) :
      Agree t (r, t) (.error e)
  | accepted {r : ParticipantTableResult} {t' : DiscoveredParticipantTable capacity}
      {m' : LeaseMap localPrefix capacity} (hr : r.error = none) (h : t'.Refines m')
      (htime : t.lastTimeNs ≤ t'.lastTimeNs) : Agree t (r, t') (.ok m')

/-- **`upsert` refines the map.** -/
theorem upsert_refines (h : t.Refines m) (a : Acceptance) :
    Agree t (t.upsert a.announcement a.nowNs) (m.upsert a) := by
  have hlocal : a.announcement.participant.guidPrefix = t.localGuidPrefix ↔
      a.announcement.participant.guidPrefix = localPrefix := by rw [h.localPrefix]
  have hnow : a.nowNs.toNat ≤ uint64Max := Nat.le_of_lt_succ a.nowNs.toNat_lt
  have hoverflow : a.announcement.participant.leaseDurationNs > uint64Max - a.nowNs.toNat ↔
      a.expiry > uint64Max := by
    unfold Acceptance.expiry
    omega
  unfold upsert LeaseMap.upsert
  dsimp only
  rw [← h.time]
  by_cases htime : a.nowNs < t.lastTimeNs
  · rw [if_pos htime, if_pos htime]
    exact .refused rfl
  rw [if_neg htime, if_neg htime]
  by_cases hforeign : a.announcement.participant.guidPrefix = localPrefix
  · rw [if_pos (hlocal.2 hforeign), dif_pos hforeign]
    exact .refused rfl
  rw [if_neg (hlocal.not.2 hforeign), dif_neg hforeign]
  by_cases hlease : a.announcement.participant.leaseDurationNs = 0
  · rw [if_pos hlease, if_pos hlease]
    exact .refused rfl
  rw [if_neg hlease, if_neg hlease]
  by_cases hexpiry : a.expiry > uint64Max
  · rw [if_pos (hoverflow.2 hexpiry), if_pos hexpiry]
    exact .refused rfl
  rw [if_neg (hoverflow.not.2 hexpiry), if_neg hexpiry]
  cases hfound : t.entries.findFinIdx? fun e =>
      e.occupied && decide (e.data.guidPrefix = a.announcement.participant.guidPrefix) with
  | some i =>
    -- the entry of the sender is refreshed
    have hget : t.find a.announcement.participant.guidPrefix = some (t.entries.get i) :=
      lookup_eq_some_of_findFinIdx? hfound
    have hsummary := h.entry _ _ hget
    have hknown : a.announcement.participant.guidPrefix ∈ m.known := by
      rw [h.known, hget]
      exact Option.some_ne_none _
    dsimp only
    by_cases hstale : a.announcement.sequenceNumber < (t.entries.get i).sequenceNumber
    · rw [if_pos hstale, if_pos ((hsummary.lt_iff _).1 hstale)]
      exact .refused rfl
    rw [if_neg hstale, if_neg ((hsummary.lt_iff _).not.1 hstale), dif_pos (.inl hknown)]
    obtain ⟨-, hocc, howner⟩ := (mem_lookup h.keyed).1 hget
    have hrecord : ∀ entry : DiscoveredParticipant, entry =
        (if a.announcement.sequenceNumber > (t.entries.get i).sequenceNumber
          then announced (t.entries.get i) a.announcement else t.entries.get i) →
        entry.occupied = true ∧ entry.data.guidPrefix = a.announcement.participant.guidPrefix := by
      rintro entry rfl
      split
      · exact ⟨hocc, rfl⟩
      · exact ⟨hocc, howner⟩
    obtain ⟨hocc', howner'⟩ := hrecord _ rfl
    obtain ⟨hkeyed, hcount, hfind⟩ := @lookup_updated _ _ _ _ participantOf
      (seen _ a.announcement a.nowNs) _ _ _ _ h.keyed hfound hocc' howner'
    exact .accepted rfl (h.accept hforeign (.inl hknown) hkeyed (h.size.trans hcount.symm) hfind
      (hsummary.refreshed (not_lt.1 hexpiry))) (UInt64.not_lt.1 htime)
  | none =>
    have hnone : t.find a.announcement.participant.guidPrefix = none :=
      lookup_eq_none_of_findFinIdx? hfound
    have hnew : a.announcement.participant.guidPrefix ∉ m.known :=
      fun hknown => (h.known _).1 hknown hnone
    have hhistory := h.history_nil hnone
    have hfresh : ¬ ∃ b ∈ m.history a.announcement.participant.guidPrefix,
        a.announcement.sequenceNumber < b.announcement.sequenceNumber := by
      rw [hhistory]
      rintro ⟨b, hb, -⟩
      cases hb
    have hcard : m.known.card = t.entries.toList.countP (·.occupied) := h.size_eq.symm.trans h.size
    rw [if_neg hfresh]
    dsimp only
    cases hfree : t.entries.findFinIdx? fun e => !e.occupied with
    | some i =>
      -- the sender gets the first free slot
      have hroom : m.known.card < capacity := by
        refine lt_of_le_of_ne m.card_known fun hfull => ?_
        rw [hcard] at hfull
        rw [findFinIdx?_free_none.2 hfull] at hfree
        cases hfree
      rw [dif_pos (.inr hroom)]
      obtain ⟨hkeyed, hcount, hfind⟩ := @lookup_added _ _ _ _ participantOf
        (seen { announced (t.entries.get i) a.announcement with occupied := true }
          a.announcement a.nowNs) _ _ _ _ h.keyed hnone hfree rfl rfl
      refine .accepted rfl (h.accept hforeign (.inr hroom) hkeyed ?_ hfind ?_) (UInt64.not_lt.1 htime)
      · rw [hcount, h.size]
      · rw [hhistory]
        exact .added (not_lt.1 hexpiry) _
    | none =>
      have hfull : m.known.card = capacity := hcard.trans (findFinIdx?_free_none.1 hfree)
      have hroom : ¬ (a.announcement.participant.guidPrefix ∈ m.known ∨ m.known.card < capacity) :=
        not_or.2 ⟨hnew, hfull.not_lt⟩
      rw [dif_neg hroom]
      exact .refused rfl

section Expire

variable {nowNs : UInt64}

theorem due_iff {e : DiscoveredParticipant} {history : List Acceptance} (h : Summarises e history) :
    due nowNs e = true ↔ ∃ a ∈ history.getLast?, a.expiry ≤ nowNs.toNat := by
  obtain ⟨last, hlast, -, hexpires⟩ := h.lease
  unfold due
  rw [decide_eq_true_eq, ge_iff_le, UInt64.le_iff_toNat_le, hexpires]
  constructor
  · exact fun hle => ⟨last, hlast, hle⟩
  · rintro ⟨a, ha, hle⟩
    rwa [Option.mem_unique hlast ha]

/-- The participants whose lease is over are those with an entry that is due. -/
theorem mem_expired (h : t.Refines m) (q : GuidPrefix) :
    q ∈ m.expired nowNs ↔ ∃ e ∈ t.find q, due nowNs e = true := by
  unfold LeaseMap.expired
  rw [Finset.mem_filter, h.known, Option.ne_none_iff_exists']
  constructor
  · rintro ⟨⟨e, he⟩, hover⟩
    exact ⟨e, he, (due_iff (h.entry q e he)).2 hover⟩
  · rintro ⟨e, he, hdue⟩
    exact ⟨⟨e, he⟩, (due_iff (h.entry q e he)).1 hdue⟩

/-- The prefixes `expire` reports. -/
def expiredPrefixes (t : DiscoveredParticipantTable capacity) (nowNs : UInt64) : List GuidPrefix :=
  (t.entries.toList.filter fun e => e.occupied && due nowNs e).map participantOf

theorem expiredPrefixes_eq (h : t.Refines m) (nowNs : UInt64) :
    (t.expiredPrefixes nowNs).Nodup ∧ (t.expiredPrefixes nowNs).toFinset = m.expired nowNs := by
  refine ⟨nodup_owners h.keyed, ?_⟩
  ext q
  rw [List.mem_toFinset, mem_expired h]
  exact mem_owners_iff h.keyed

/-- The table after a successful `expire`. -/
def expiredTable (t : DiscoveredParticipantTable capacity) (nowNs : UInt64) :
    DiscoveredParticipantTable capacity :=
  { t with
    entries := t.entries.map fun e => if e.occupied && due nowNs e then {} else e
    size := t.size - (t.expiredPrefixes nowNs).length
    lastTimeNs := nowNs }

theorem expiredTable_find (h : t.Refines m) (q : GuidPrefix) :
    (t.expiredTable nowNs).find q = (t.find q).filter (!due nowNs ·) := by
  have hcleared := (@lookup_cleared _ _ _ _ participantOf _ (due nowNs) {} h.keyed rfl).2 q
  rw [← Vector.toList_map] at hcleared
  exact hcleared

theorem expiredTable_refines (h : t.Refines m) : (t.expiredTable nowNs).Refines (m.expire nowNs) := by
  have hentries : (t.expiredTable nowNs).entries.toList =
      t.entries.toList.map fun e => if e.occupied && due nowNs e then {} else e := Vector.toList_map
  refine ⟨h.localPrefix, rfl, ?_, ?_, fun q => ?_, fun q e he => ?_⟩
  · rw [hentries]
    exact (@lookup_cleared _ _ _ _ participantOf _ (due nowNs) {} h.keyed rfl).1
  · have hcount := @countP_removed _ DiscoveredParticipant.occupied (due nowNs) {} rfl t.entries.toList
    have hlength : (t.expiredPrefixes nowNs).length =
        t.entries.toList.countP fun e => e.occupied && due nowNs e := by
      unfold expiredPrefixes
      rw [List.length_map, List.countP_eq_length_filter]
    rw [hentries]
    change t.size - (t.expiredPrefixes nowNs).length = _
    rw [h.size, hlength, ← hcount, Nat.add_sub_cancel]
  · rw [expiredTable_find h]
    change q ∈ m.known \ m.expired nowNs ↔ _
    rw [Finset.mem_sdiff, h.known, mem_expired h]
    cases t.find q with
    | none => simp
    | some e => cases hdue : due nowNs e <;> simp [hdue]
  · rw [expiredTable_find h, Option.mem_filter_iff] at he
    have hstays : q ∉ m.expired nowNs := by
      rw [mem_expired h]
      rintro ⟨e', he', hdue⟩
      rw [← Option.mem_unique he.1 he'] at hdue
      rw [hdue] at he
      exact absurd he.2 (by decide)
    change Summarises e (if q ∈ m.expired nowNs then [] else m.history q)
    rw [if_neg hstays]
    exact h.entry q e he.1

end Expire

/-- **The table and the map answer a call alike.** -/
structure Agrees (t : DiscoveredParticipantTable capacity) (m : LeaseMap localPrefix capacity)
    (c : ParticipantCall) : Prop where
  error : (t.call c).1 = (m.call c).1
  reported : (t.call c).2.1.Nodup ∧ (t.call c).2.1.toFinset = (m.call c).2.1
  refines : (t.call c).2.2.Refines (m.call c).2.2
  unchanged : (t.call c).1 ≠ none → (t.call c).2.2 = t
  time : t.lastTimeNs ≤ (t.call c).2.2.lastTimeNs

namespace Agrees

variable {c : ParticipantCall}

theorem of_refused (h : t.Refines m) {e : SpdpError} (hcall : t.call c = (some e, [], t))
    (hcall' : m.call c = (some e, ∅, m)) : Agrees t m c := by
  refine ⟨?_, ?_, ?_, fun _ => ?_, ?_⟩
  · rw [hcall, hcall']
  · rw [hcall, hcall']
    exact ⟨List.nodup_nil, rfl⟩
  · rw [hcall, hcall']
    exact h
  · rw [hcall]
  · rw [hcall]
    exact UInt64.le_refl _

theorem of_accepted {prefixes : List GuidPrefix} {t' : DiscoveredParticipantTable capacity}
    {m' : LeaseMap localPrefix capacity} (hcall : t.call c = (none, prefixes, t'))
    (hcall' : m.call c = (none, prefixes.toFinset, m')) (hnodup : prefixes.Nodup)
    (hrefines : t'.Refines m') (htime : t.lastTimeNs ≤ t'.lastTimeNs) : Agrees t m c := by
  refine ⟨?_, ?_, ?_, fun herror => ?_, ?_⟩
  · rw [hcall, hcall']
  · rw [hcall, hcall']
    exact ⟨hnodup, rfl⟩
  · rw [hcall, hcall']
    exact hrefines
  · rw [hcall] at herror
    exact absurd rfl herror
  · rw [hcall]
    exact htime

end Agrees

theorem call_upsert_agrees (h : t.Refines m) (announcement : SpdpMessageView) (nowNs : UInt64) :
    Agrees t m (.upsert announcement nowNs) := by
  have hagree := upsert_refines h ⟨announcement, nowNs⟩
  generalize htable : t.upsert announcement nowNs = r at hagree
  generalize hmap : m.upsert ⟨announcement, nowNs⟩ = r' at hagree
  have hcall : t.call (.upsert announcement nowNs) = (r.1.error, [], r.2) := by
    rw [← htable]
    rfl
  cases hagree with
  | refused hr =>
    refine .of_refused h (hcall.trans (by rw [hr])) ?_
    simp only [LeaseMap.call, hmap]
  | accepted hr hrefines htime =>
    refine .of_accepted (hcall.trans (by rw [hr])) ?_ List.nodup_nil hrefines htime
    simp only [LeaseMap.call, hmap, List.toFinset_nil]

theorem call_expire_agrees (h : t.Refines m) (nowNs : UInt64) (null : Bool)
    (room : ℕ) : Agrees t m (.expire nowNs null room) := by
  obtain ⟨hnodup, hset⟩ := expiredPrefixes_eq h nowNs
  have hlength : (t.entries.toList.filter fun e => e.occupied && due nowNs e).length =
      (m.expired nowNs).card := by
    rw [← hset, List.toFinset_card_of_nodup hnodup]
    exact (List.length_map _).symm
  have hnull : (t.entries.toList.filter fun e => e.occupied && due nowNs e).length ≠ 0 ∧
      null = true ↔ m.expired nowNs ≠ ∅ ∧ null = true := by
    rw [hlength, Finset.card_ne_zero, Finset.nonempty_iff_ne_empty]
  have hcall : t.call (.expire nowNs null room) =
      t.expire nowNs null room := rfl
  unfold expire at hcall
  dsimp only at hcall
  have hcall' : m.call (.expire nowNs null room) =
      if nowNs < m.timeNs then (some .timeRegression, ∅, m)
      else if m.expired nowNs ≠ ∅ ∧ null then (some .invalidArgument, ∅, m)
      else if (m.expired nowNs).card > room then (some .actionCapacityExceeded, ∅, m)
      else (none, m.expired nowNs, m.expire nowNs) := rfl
  rw [← h.time] at hcall'
  by_cases htime : nowNs < t.lastTimeNs
  · rw [if_pos htime] at hcall hcall'
    exact .of_refused h hcall hcall'
  rw [if_neg htime] at hcall hcall'
  by_cases hargument : m.expired nowNs ≠ ∅ ∧ null = true
  · rw [if_pos (hnull.2 hargument)] at hcall
    rw [if_pos hargument] at hcall'
    exact .of_refused h hcall hcall'
  rw [if_neg (hnull.not.2 hargument), hlength] at hcall
  rw [if_neg hargument] at hcall'
  by_cases hcapacity : (m.expired nowNs).card > room
  · rw [if_pos hcapacity] at hcall hcall'
    exact .of_refused h hcall hcall'
  rw [if_neg hcapacity] at hcall hcall'
  rw [← hset] at hcall'
  refine .of_accepted (hcall.trans ?_) hcall' hnodup (expiredTable_refines h) (UInt64.not_lt.1 htime)
  unfold expiredTable
  rw [← hset, List.toFinset_card_of_nodup hnodup]
  rfl

/-- **Every call is answered alike.** -/
theorem call_agrees (h : t.Refines m) (c : ParticipantCall) : Agrees t m c := by
  cases c with
  | upsert announcement nowNs => exact call_upsert_agrees h announcement nowNs
  | expire nowNs null room =>
    exact call_expire_agrees h nowNs null room

/-- **The table represents the map after every run.** -/
theorem after_refines (capacity : ℕ) (localPrefix : GuidPrefix) (calls : List ParticipantCall) :
    (after capacity localPrefix calls).Refines (LeaseMap.after localPrefix capacity calls) := by
  induction calls using List.reverseRecOn with
  | nil => exact .initial capacity localPrefix
  | append_singleton calls c ih =>
    unfold after LeaseMap.after at ih ⊢
    rw [run_snoc, run_snoc]
    exact (call_agrees ih c).refines

theorem expire_ok {nowNs : UInt64} {null : Bool} {room : ℕ}
    (hok : (t.expire nowNs null room).1 = none) :
    (t.expire nowNs null room).2 =
      (t.expiredPrefixes nowNs, t.expiredTable nowNs) := by
  unfold expire at hok ⊢
  dsimp only at hok ⊢
  split at hok
  · cases hok
  next htime =>
    split at hok
    · cases hok
    next hargument =>
      split at hok
      · cases hok
      next hcapacity =>
        rw [if_neg htime, if_neg hargument, if_neg hcapacity]
        unfold expiredTable expiredPrefixes
        rw [List.length_map]
        rfl

/-- **A successful `expire` is exact**: the entries that are due are removed, and reported once. -/
structure Expired (t t' : DiscoveredParticipantTable capacity) (nowNs : UInt64)
    (prefixes : List GuidPrefix) : Prop where
  nodup : prefixes.Nodup
  reported : ∀ q, q ∈ prefixes ↔ ∃ e ∈ t.find q, e.expiresAtNs ≤ nowNs
  find : ∀ q, t'.find q = (t.find q).filter fun e => nowNs < e.expiresAtNs

theorem Refines.expired (h : t.Refines m) {nowNs : UInt64} {null : Bool} {room : ℕ}
    (hok : (t.expire nowNs null room).1 = none) :
    Expired t (t.expire nowNs null room).2.2 nowNs
      (t.expire nowNs null room).2.1 := by
  obtain ⟨hnodup, hset⟩ := expiredPrefixes_eq h nowNs
  rw [expire_ok hok]
  refine ⟨hnodup, fun q => ?_, fun q => ?_⟩
  · rw [← List.mem_toFinset, hset, mem_expired h]
    simp only [due, decide_eq_true_eq]
  · rw [expiredTable_find h]
    refine congrArg (Option.filter · (t.find q)) (funext fun e => ?_)
    unfold due
    rw [← decide_not]
    exact decide_eq_decide.2 UInt64.not_le

end DiscoveredParticipantTable

/-- **The participant table refines a lease map.** For every capacity and local prefix, and after every run
of `upsert` and `expire`: the table represents the map of the leases after the same run, so that an entry
has the data of the first accepted announcement with the highest number and the lease of the last one;
`size()` is the size of the map; the local participant has no entry. The table and the map answer every
further call alike; an error leaves the table as it is, the recorded time never decreases, and a
successful `expire` removes and reports exactly the entries that are due. -/
theorem participant_table_refines_lease_map (capacity : ℕ) (localPrefix : GuidPrefix)
    (calls : List ParticipantCall) :
    let t := DiscoveredParticipantTable.after capacity localPrefix calls
    let m := LeaseMap.after localPrefix capacity calls
    t.Refines m ∧ t.size = m.known.card ∧ t.size ≤ capacity ∧ t.find localPrefix = none ∧
      (∀ c, t.Agrees m c) ∧
      ∀ nowNs null room, (t.expire nowNs null room).1 = none →
        DiscoveredParticipantTable.Expired t (t.expire nowNs null room).2.2 nowNs
          (t.expire nowNs null room).2.1 := by
  intro t m
  have h : t.Refines m := DiscoveredParticipantTable.after_refines capacity localPrefix calls
  refine ⟨h, h.size_eq, h.size_eq.trans_le m.card_known, ?_, fun c => DiscoveredParticipantTable.call_agrees h c,
    fun _ _ _ hok => h.expired hok⟩
  by_contra hfound
  exact m.notLocal ((h.known localPrefix).2 hfound)

end OpenRtdds
