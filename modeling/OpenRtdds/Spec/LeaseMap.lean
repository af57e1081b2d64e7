import Mathlib.Data.List.MinMax
import OpenRtdds.Spec.DiscoveredTables

/-!
# Leases of participants

What the table of discovered participants is for, without its slots: a finite map from prefixes to the
announcements that have been accepted since the participant was added. The data of a participant are those
of the first announcement with the highest number, and its lease is the one of the last announcement.

The map is at most as large as the table and never holds the local participant, by construction.
-/

namespace OpenRtdds

/-- An announcement that has been accepted, and when. -/
structure Acceptance where
  announcement : SpdpMessageView
  nowNs : UInt64

namespace Acceptance

/-- The end of the lease. -/
def expiry (a : Acceptance) : ℕ := a.nowNs.toNat + a.announcement.participant.leaseDurationNs

/-- The first announcement with the highest number. -/
def highest (history : List Acceptance) : Option Acceptance :=
  history.argmax (·.announcement.sequenceNumber)

end Acceptance

/-- The leases of at most `capacity` participants other than the local one. -/
structure LeaseMap (localPrefix : GuidPrefix) (capacity : ℕ) where
  history : GuidPrefix → List Acceptance
  known : Finset GuidPrefix
  timeNs : UInt64
  mem_known : ∀ q, q ∈ known ↔ history q ≠ []
  notLocal : localPrefix ∉ known
  card_known : known.card ≤ capacity

namespace LeaseMap

variable {localPrefix : GuidPrefix} {capacity : ℕ}

/-- No participant is known. -/
def empty (localPrefix : GuidPrefix) (capacity : ℕ) : LeaseMap localPrefix capacity where
  history _ := []
  known := ∅
  timeNs := 0
  mem_known _ := iff_of_false (Finset.notMem_empty _) (not_not.2 rfl)
  notLocal := Finset.notMem_empty _
  card_known := Nat.zero_le _

/-- An announcement is accepted. -/
def accept (m : LeaseMap localPrefix capacity) (a : Acceptance)
    (hforeign : a.announcement.participant.guidPrefix ≠ localPrefix)
    (hroom : a.announcement.participant.guidPrefix ∈ m.known ∨ m.known.card < capacity) :
    LeaseMap localPrefix capacity where
  history := Function.update m.history a.announcement.participant.guidPrefix
    (m.history a.announcement.participant.guidPrefix ++ [a])
  known := insert a.announcement.participant.guidPrefix m.known
  timeNs := a.nowNs
  mem_known q := by
    rw [Finset.mem_insert, m.mem_known]
    by_cases hq : q = a.announcement.participant.guidPrefix
    · rw [hq, Function.update_self]
      exact iff_of_true (.inl rfl) (List.append_ne_nil_of_right_ne_nil _ (List.cons_ne_nil a []))
    · rw [Function.update_of_ne hq]
      exact or_iff_right hq
  notLocal hlocal := (Finset.mem_insert.1 hlocal).elim (fun heq => hforeign heq.symm) m.notLocal
  card_known := by
    rcases hroom with hknown | hroom
    · rw [Finset.insert_eq_of_mem hknown]
      exact m.card_known
    · exact (Finset.card_insert_le _ _).trans hroom

/-- An announcement is refused, or accepted. -/
def upsert (m : LeaseMap localPrefix capacity) (a : Acceptance) :
    Except SpdpError (LeaseMap localPrefix capacity) :=
  if a.nowNs < m.timeNs then .error .timeRegression
  else if hforeign : a.announcement.participant.guidPrefix = localPrefix then .error .selfAnnouncement
  else if a.announcement.participant.leaseDurationNs = 0 then .error .invalidDuration
  else if a.expiry > uint64Max then .error .expirationOverflow
  else if ∃ b ∈ m.history a.announcement.participant.guidPrefix,
      a.announcement.sequenceNumber < b.announcement.sequenceNumber then .error .staleAnnouncement
  else if hroom : a.announcement.participant.guidPrefix ∈ m.known ∨ m.known.card < capacity then
    .ok (m.accept a hforeign hroom)
  else .error .tableFull

/-- The participants whose lease is over. -/
def expired (m : LeaseMap localPrefix capacity) (nowNs : UInt64) : Finset GuidPrefix :=
  m.known.filter fun q => ∃ a ∈ (m.history q).getLast?, a.expiry ≤ nowNs.toNat

/-- They go. -/
def expire (m : LeaseMap localPrefix capacity) (nowNs : UInt64) : LeaseMap localPrefix capacity where
  history q := if q ∈ m.expired nowNs then [] else m.history q
  known := m.known \ m.expired nowNs
  timeNs := nowNs
  mem_known q := by
    rw [Finset.mem_sdiff, m.mem_known]
    split
    next hgone => exact iff_of_false (fun h => h.2 hgone) (not_not.2 rfl)
    next hstays => exact and_iff_left hstays
  notLocal hlocal := m.notLocal (Finset.mem_sdiff.1 hlocal).1
  card_known := (Finset.card_le_card Finset.sdiff_subset).trans m.card_known

/-- The error of a call, the participants it reports, and the map after it. -/
def call (m : LeaseMap localPrefix capacity) :
    ParticipantCall → Option SpdpError × Finset GuidPrefix × LeaseMap localPrefix capacity
  | .upsert announcement nowNs =>
    match m.upsert ⟨announcement, nowNs⟩ with
    | .error e => (some e, ∅, m)
    | .ok m => (none, ∅, m)
  | .expire nowNs expiredIsNull expiredCapacity =>
    if nowNs < m.timeNs then (some .timeRegression, ∅, m)
    else if m.expired nowNs ≠ ∅ ∧ expiredIsNull then (some .invalidArgument, ∅, m)
    else if (m.expired nowNs).card > expiredCapacity then (some .actionCapacityExceeded, ∅, m)
    else (none, m.expired nowNs, m.expire nowNs)

/-- The map after a run of calls. -/
def after (localPrefix : GuidPrefix) (capacity : ℕ) (calls : List ParticipantCall) :
    LeaseMap localPrefix capacity :=
  Lib.run (fun m c => (m.call c).2.2) (empty localPrefix capacity) calls

end LeaseMap

end OpenRtdds
