import OpenRtdds.Lib.Run
import OpenRtdds.Spec.Types

/-!
# Matched events

The count of matched endpoints that a publisher (`publisher.cpp`) and a subscription (`subscription.cpp`)
keep, and the events of `events.cpp` that are attached to one of them. The source accumulates the changes
and numbers them; an event remembers what it has last reported and reports the difference.

`std::size_t` and the generation have 64 bits and wrap. The difference of the current counts is computed
with 32 bits.
-/

namespace OpenRtdds

open Lib

/-- The fields of `PublisherData` and `SubscriptionData` for the matched endpoints:
`matched_subscriptions`, `total_matched_subscriptions` and `match_generation`, or those of the publishers. -/
structure MatchCounters where
  matched : ℕ := 0
  totalMatched : ℕ := 0
  matchGeneration : ℕ := 1
  deriving DecidableEq

namespace MatchCounters

/-- `publisher_network_set_match_count` and `subscription_network_set_match_count`, which are the same on
their fields. The result is the number of transitions. -/
def setMatchCount (s : MatchCounters) (count : ℕ) : ℕ × MatchCounters :=
  if count ≠ s.matched then
    let generation := (s.matchGeneration + 1) % (uint64Max + 1)
    (if count > s.matched then count - s.matched else s.matched - count,
      { matched := count
        totalMatched :=
          if count > s.matched then (s.totalMatched + (count - s.matched)) % (uint64Max + 1)
          else s.totalMatched
        matchGeneration := if generation = 0 then 1 else generation })
  else (0, s)

end MatchCounters

/-- The fields of `EventData` that a take uses. `initialize_event` sets them to zero, whatever the source
has counted. -/
structure EventData where
  lastTotalCount : ℕ := 0
  lastCurrentCount : ℕ := 0
  lastGeneration : ℕ := 0
  deriving DecidableEq

/-- `rmw_matched_status_t`. -/
structure MatchedStatus where
  totalCount : ℕ
  totalCountChange : ℕ
  currentCount : ℕ
  currentCountChange : ℤ
  deriving DecidableEq

/-- `static_cast<std::int32_t>`. -/
def toInt32 (n : ℕ) : ℤ := (BitVec.ofNat 32 n).toInt

namespace EventData

/-- `rmw_take_event` for a valid event of the source: the status, if it was taken. -/
def takeEvent (data : EventData) (value : MatchCounters) : Option MatchedStatus × EventData :=
  if value.matchGeneration ≠ data.lastGeneration then
    (some
      { totalCount := value.totalMatched
        totalCountChange :=
          (value.totalMatched + (uint64Max + 1) - data.lastTotalCount) % (uint64Max + 1)
        currentCount := value.matched
        currentCountChange := toInt32 value.matched - toInt32 data.lastCurrentCount },
      { lastTotalCount := value.totalMatched
        lastCurrentCount := value.matched
        lastGeneration := value.matchGeneration })
  else (none, data)

end EventData

/-- A source and the events that are attached to it, in the order in which they were attached. -/
structure MatchSystem where
  source : MatchCounters := {}
  events : List EventData := []

/-- What happens to a source and its events. -/
inductive MatchCall where
  | setMatchCount (count : ℕ)
  | eventInit
  | takeEvent (event : ℕ)
  deriving DecidableEq

/-- What a call answers. -/
inductive MatchReply where
  | counted (count transitions : ℕ)
  | attached (event : ℕ)
  | invalidEvent
  | took (event : ℕ) (status : Option MatchedStatus)
  deriving DecidableEq

namespace MatchSystem

/-- One call, with its answer. -/
def perform (s : MatchSystem) : MatchCall → MatchReply × MatchSystem
  | .setMatchCount count =>
    (.counted count (s.source.setMatchCount count).1, { s with source := (s.source.setMatchCount count).2 })
  | .eventInit => (.attached s.events.length, { s with events := s.events ++ [{}] })
  | .takeEvent event =>
    s.events[event]?.elim (.invalidEvent, s) fun data =>
      (.took event (data.takeEvent s.source).1,
        { s with events := s.events.set event (data.takeEvent s.source).2 })

/-- The system after a run of calls, and the answers. -/
def matchRun (s : MatchSystem) (calls : List MatchCall) : MatchSystem × List MatchReply :=
  collect (fun s call => ((s.perform call).2, [(s.perform call).1])) s calls

end MatchSystem

/-- The count that a call sets. -/
def MatchCall.count? : MatchCall → Option ℕ
  | .setMatchCount count => some count
  | _ => none

/-- The call is no take of another event. -/
def MatchCall.concerns (event : ℕ) : MatchCall → Bool
  | .takeEvent other => other == event
  | _ => true

/-- The count that an answered call has set. -/
def MatchReply.count? : MatchReply → Option ℕ
  | .counted count _ => some count
  | _ => none

/-- The result of a take of the event. -/
def MatchReply.takeOf? (event : ℕ) : MatchReply → Option (Option MatchedStatus)
  | .took taken status => if taken = event then some status else none
  | _ => none

/-- The count changes with the call. -/
def MatchReply.isChange : MatchReply → Bool
  | .counted _ transitions => transitions != 0
  | _ => false

/-- The counts that were set in a run. -/
def countsLog (replies : List MatchReply) : List ℕ := replies.filterMap MatchReply.count?

/-- The results of the takes of an event. -/
def takesLog (event : ℕ) (replies : List MatchReply) : List (Option MatchedStatus) :=
  replies.filterMap (MatchReply.takeOf? event)

/-- The statuses of an event that were taken. -/
def statusLog (event : ℕ) (replies : List MatchReply) : List MatchedStatus :=
  (takesLog event replies).filterMap id

/-- What a run of counts amounts to, without bounds: the last of them, the sum of all increases and the
number of changes. -/
structure MatchTally where
  current : ℕ := 0
  increases : ℕ := 0
  changes : ℕ := 0
  deriving DecidableEq

/-- One more count. -/
def MatchTally.add (t : MatchTally) (count : ℕ) : MatchTally where
  current := count
  increases := t.increases + (count - t.current)
  changes := t.changes + if count = t.current then 0 else 1

/-- The tally of counts. -/
def tallyOf (counts : List ℕ) : MatchTally := run MatchTally.add {} counts

end OpenRtdds
