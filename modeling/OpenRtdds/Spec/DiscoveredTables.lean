import OpenRtdds.Lib.Run
import OpenRtdds.Lib.Table
import OpenRtdds.Spec.Sedp
import OpenRtdds.Spec.Spdp

/-!
# The bounded tables of discovered participants and endpoints

`DiscoveredParticipantTable` of `include/openrtdds/rtps/spdp.hpp` and `DiscoveredEndpointTable` of
`include/openrtdds/rtps/sedp.hpp`, for every capacity. An announcement goes over the entry with its key
or into the first free slot. Participants expire with their lease; the endpoints of a participant are
removed at once.

A lease of an announcement is a number; the times and the ends of the leases are `uint64_t`.
-/

namespace OpenRtdds

open Lib

section Participants

/-- `rtps::ParticipantUpdate`. -/
inductive ParticipantUpdate where
  | none
  | added
  | refreshed
  deriving DecidableEq

/-- `rtps::ParticipantTableResult`. -/
structure ParticipantTableResult where
  error : Option SpdpError := .none
  update : ParticipantUpdate := .none
  index : ℕ := 0
  deriving DecidableEq

/-- `rtps::DiscoveredParticipant`. -/
structure DiscoveredParticipant where
  data : SpdpParticipantData := {}
  sequenceNumber : ℕ := 0
  lastSeenNs : UInt64 := 0
  expiresAtNs : UInt64 := 0
  occupied : Bool := false

/-- `rtps::DiscoveredParticipantTable`. -/
structure DiscoveredParticipantTable (capacity : ℕ) where
  localGuidPrefix : GuidPrefix
  entries : Vector DiscoveredParticipant capacity := .replicate capacity {}
  size : ℕ := 0
  lastTimeNs : UInt64 := 0

namespace DiscoveredParticipantTable

variable {capacity : ℕ}

/-- The fields of an entry that every accepted announcement sets. -/
def seen (entry : DiscoveredParticipant) (announcement : SpdpMessageView) (nowNs : UInt64) :
    DiscoveredParticipant :=
  { entry with
    lastSeenNs := nowNs
    expiresAtNs := nowNs + .ofNat announcement.participant.leaseDurationNs }

/-- The fields that an announcement with a new number sets. -/
def announced (entry : DiscoveredParticipant) (announcement : SpdpMessageView) :
    DiscoveredParticipant :=
  { entry with
    data := announcement.participant
    sequenceNumber := announcement.sequenceNumber }

/-- `upsert`. -/
def upsert (t : DiscoveredParticipantTable capacity) (announcement : SpdpMessageView) (nowNs : UInt64) :
    ParticipantTableResult × DiscoveredParticipantTable capacity :=
  let lease := announcement.participant.leaseDurationNs
  if nowNs < t.lastTimeNs then ({ error := some .timeRegression }, t)
  else if announcement.participant.guidPrefix = t.localGuidPrefix then
    ({ error := some .selfAnnouncement }, t)
  else if lease = 0 then ({ error := some .invalidDuration }, t)
  else if lease > uint64Max - nowNs.toNat then ({ error := some .expirationOverflow }, t)
  else match t.entries.findFinIdx? fun e =>
      e.occupied && decide (e.data.guidPrefix = announcement.participant.guidPrefix) with
    | some i =>
      let entry := t.entries.get i
      if announcement.sequenceNumber < entry.sequenceNumber then
        ({ error := some .staleAnnouncement, index := i }, t)
      else
        let entry :=
          if announcement.sequenceNumber > entry.sequenceNumber then announced entry announcement
          else entry
        ({ update := .refreshed, index := i },
          { t with
            entries := setSlot t.entries i (seen entry announcement nowNs)
            lastTimeNs := nowNs })
    | none =>
      match t.entries.findFinIdx? fun e => !e.occupied with
      | some i =>
        let entry := { announced (t.entries.get i) announcement with occupied := true }
        ({ update := .added, index := i },
          { t with
            entries := setSlot t.entries i (seen entry announcement nowNs)
            size := t.size + 1
            lastTimeNs := nowNs })
      | none => ({ error := some .tableFull }, t)

/-- The lease of an entry is over. -/
def due (nowNs : UInt64) (entry : DiscoveredParticipant) : Bool := nowNs ≥ entry.expiresAtNs

/-- `expire`, with the prefixes it writes into a buffer of `expiredCapacity` elements that may be null. -/
def expire (t : DiscoveredParticipantTable capacity) (nowNs : UInt64) (expiredIsNull : Bool)
    (expiredCapacity : ℕ) :
    Option SpdpError × List GuidPrefix × DiscoveredParticipantTable capacity :=
  let expired := t.entries.toList.filter fun e => e.occupied && due nowNs e
  if nowNs < t.lastTimeNs then (some .timeRegression, [], t)
  else if expired.length ≠ 0 ∧ expiredIsNull then (some .invalidArgument, [], t)
  else if expired.length > expiredCapacity then (some .actionCapacityExceeded, [], t)
  else
    (none, expired.map (·.data.guidPrefix),
      { t with
        entries := t.entries.map fun e => if e.occupied && due nowNs e then {} else e
        size := t.size - expired.length
        lastTimeNs := nowNs })

/-- `find`. -/
def find (t : DiscoveredParticipantTable capacity) (guidPrefix : GuidPrefix) :
    Option DiscoveredParticipant :=
  t.entries.toList.find? fun e => e.occupied && decide (e.data.guidPrefix = guidPrefix)

end DiscoveredParticipantTable

/-- A call of the table. -/
inductive ParticipantCall where
  | upsert (announcement : SpdpMessageView) (nowNs : UInt64)
  | expire (nowNs : UInt64) (expiredIsNull : Bool) (expiredCapacity : ℕ)

namespace DiscoveredParticipantTable

variable {capacity : ℕ}

/-- The error of a call, the prefixes it reports, and the table after it. -/
def call (t : DiscoveredParticipantTable capacity) :
    ParticipantCall → Option SpdpError × List GuidPrefix × DiscoveredParticipantTable capacity
  | .upsert announcement nowNs =>
    ((t.upsert announcement nowNs).1.error, [], (t.upsert announcement nowNs).2)
  | .expire nowNs expiredIsNull expiredCapacity => t.expire nowNs expiredIsNull expiredCapacity

/-- The table after a run of calls. -/
def after (capacity : ℕ) (localGuidPrefix : GuidPrefix) (calls : List ParticipantCall) :
    DiscoveredParticipantTable capacity :=
  run (fun t c => (call t c).2.2) { localGuidPrefix } calls

end DiscoveredParticipantTable

end Participants

section Endpoints

/-- `rtps::EndpointUpdate`. -/
inductive EndpointUpdate where
  | none
  | added
  | updated
  deriving DecidableEq

/-- `rtps::EndpointTableResult`. -/
structure EndpointTableResult where
  error : Option SedpError := .none
  update : EndpointUpdate := .none
  index : ℕ := 0
  deriving DecidableEq

/-- `rtps::DiscoveredEndpoint`. -/
structure DiscoveredEndpoint where
  data : SedpEndpointData := {}
  sequenceNumber : ℕ := 0
  occupied : Bool := false

/-- `rtps::DiscoveredEndpointTable`. -/
structure DiscoveredEndpointTable (capacity : ℕ) where
  entries : Vector DiscoveredEndpoint capacity := .replicate capacity {}
  size : ℕ := 0

/-- What the table tells endpoints apart by. -/
def SedpEndpointData.key (data : SedpEndpointData) : GuidPrefix × EntityId :=
  (data.participantGuidPrefix, data.endpointId)

namespace DiscoveredEndpointTable

variable {capacity : ℕ}

/-- `upsert`. -/
def upsert (t : DiscoveredEndpointTable capacity) (announcement : SedpMessageView) :
    EndpointTableResult × DiscoveredEndpointTable capacity :=
  let entry : DiscoveredEndpoint :=
    { data := announcement.endpoint
      sequenceNumber := announcement.sequenceNumber
      occupied := true }
  match t.entries.findFinIdx? fun e =>
      e.occupied && decide (e.data.key = announcement.endpoint.key) with
  | some i =>
    if announcement.sequenceNumber ≤ (t.entries.get i).sequenceNumber then
      ({ error := some .staleAnnouncement, index := i }, t)
    else ({ update := .updated, index := i }, { t with entries := setSlot t.entries i entry })
  | none =>
    match t.entries.findFinIdx? fun e => !e.occupied with
    | some i =>
      ({ update := .added, index := i },
        { t with entries := setSlot t.entries i entry, size := t.size + 1 })
    | none => ({ error := some .tableFull }, t)

/-- `remove_participant`, with the endpoint ids it writes into a buffer of `removedCapacity` elements that
may be null. -/
def removeParticipant (t : DiscoveredEndpointTable capacity) (participant : GuidPrefix)
    (removedIsNull : Bool) (removedCapacity : ℕ) :
    Option SedpError × List EntityId × DiscoveredEndpointTable capacity :=
  let removed := t.entries.toList.filter fun e =>
    e.occupied && decide (e.data.participantGuidPrefix = participant)
  if removed.length ≠ 0 ∧ removedIsNull then (some .invalidArgument, [], t)
  else if removed.length > removedCapacity then (some .actionCapacityExceeded, [], t)
  else
    (none, removed.map (·.data.endpointId),
      { t with
        entries := t.entries.map fun e =>
          if e.occupied && decide (e.data.participantGuidPrefix = participant) then {} else e
        size := t.size - removed.length })

/-- `find`. -/
def find (t : DiscoveredEndpointTable capacity) (participant : GuidPrefix) (endpoint : EntityId) :
    Option DiscoveredEndpoint :=
  t.entries.toList.find? fun e => e.occupied && decide (e.data.key = (participant, endpoint))

end DiscoveredEndpointTable

/-- A call of the table. -/
inductive EndpointCall where
  | upsert (announcement : SedpMessageView)
  | removeParticipant (participant : GuidPrefix) (removedIsNull : Bool) (removedCapacity : ℕ)

namespace DiscoveredEndpointTable

variable {capacity : ℕ}

def call (t : DiscoveredEndpointTable capacity) : EndpointCall → DiscoveredEndpointTable capacity
  | .upsert announcement => (t.upsert announcement).2
  | .removeParticipant participant removedIsNull removedCapacity =>
    (t.removeParticipant participant removedIsNull removedCapacity).2.2

/-- The table after a run of calls. -/
def after (capacity : ℕ) (calls : List EndpointCall) : DiscoveredEndpointTable capacity :=
  run call {} calls

end DiscoveredEndpointTable

end Endpoints

end OpenRtdds
