import OpenRtdds.Spec.Types

/-!
# Quality of service

`rmw_openrtdds_cpp/src/qos.cpp`: `normalize_qos` admits the profiles that this implementation can keep and
resolves their defaults, `qos_compatible` decides whether a normalized publisher and a normalized subscription
match, and `rmw_qos_profile_check_compatible` gives its verdict on profiles as the application has written them.
The value of an enumeration that the code does not name is `other`.
-/

namespace OpenRtdds

/-- `rmw_time_t`. -/
structure RmwTime where
  sec : UInt64
  nsec : UInt64
  deriving DecidableEq

/-- `kUnspecified`, `kInfinite` and `kBestAvailable`. -/
def RmwTime.unspecified : RmwTime := ⟨0, 0⟩

def RmwTime.infinite : RmwTime := ⟨9223372036, 854775807⟩

def RmwTime.bestAvailable : RmwTime := ⟨9223372036, 854775806⟩

inductive HistoryPolicy where
  | systemDefault
  | keepLast
  | keepAll
  | unknown
  | other (value : ℕ)
  deriving DecidableEq

inductive ReliabilityPolicy where
  | systemDefault
  | reliable
  | bestEffort
  | unknown
  | bestAvailable
  | other (value : ℕ)
  deriving DecidableEq

inductive DurabilityPolicy where
  | systemDefault
  | transientLocal
  | volatileDurability
  | unknown
  | bestAvailable
  | other (value : ℕ)
  deriving DecidableEq

inductive LivelinessPolicy where
  | systemDefault
  | automatic
  | manualByNode
  | manualByTopic
  | unknown
  | bestAvailable
  | other (value : ℕ)
  deriving DecidableEq

/-- `rmw_qos_profile_t`. -/
structure QosProfile where
  history : HistoryPolicy
  depth : ℕ
  reliability : ReliabilityPolicy
  durability : DurabilityPolicy
  deadline : RmwTime
  lifespan : RmwTime
  liveliness : LivelinessPolicy
  livelinessLeaseDuration : RmwTime
  avoidRosNamespaceConventions : Bool := false
  deriving DecidableEq

/-- `QosLimits`. -/
structure QosLimits where
  defaultHistoryDepth : ℕ := 10
  maximumHistoryDepth : ℕ := 1024
  maximumSampleSize : ℕ := 64 * 1024
  maximumHistoryBytes : ℕ := 64 * 1024 * 1024

/-- The errors of `normalize_qos`. -/
inductive QosError where
  | invalidArgument
  | invalidPolicy
  | unsupportedBestAvailable
  | unsupportedHistory
  | unsupportedDurability
  | unsupportedDeadline
  | unsupportedLifespan
  | unsupportedLiveliness
  | unsupportedLeaseDuration
  | depthOutOfRange
  deriving DecidableEq

/-- `NormalizedQos`. -/
structure NormalizedQos where
  profile : QosProfile
  deriving DecidableEq

section Normalize

/-- `valid_time`. -/
def RmwTime.valid (value : RmwTime) : Bool := value.nsec < 1000000000

/-- `deterministic_infinite`. -/
def RmwTime.deterministicInfinite (value : RmwTime) : Bool := value == .unspecified || value == .infinite

/-- The history and the depth, before the depth is checked. -/
def normalizeHistory (input : QosProfile) (limits : QosLimits) : Except QosError (HistoryPolicy × ℕ) :=
  match input.history with
  | .systemDefault => .ok (.keepLast, limits.defaultHistoryDepth)
  | .keepLast => .ok (.keepLast, input.depth)
  | .keepAll => .error .unsupportedHistory
  | .unknown | .other _ => .error .invalidPolicy

def normalizeReliability : ReliabilityPolicy → Except QosError ReliabilityPolicy
  | .systemDefault | .reliable => .ok .reliable
  | .bestEffort => .ok .bestEffort
  | .bestAvailable => .error .unsupportedBestAvailable
  | .unknown | .other _ => .error .invalidPolicy

def normalizeDurability : DurabilityPolicy → Except QosError DurabilityPolicy
  | .systemDefault | .volatileDurability => .ok .volatileDurability
  | .transientLocal => .error .unsupportedDurability
  | .bestAvailable => .error .unsupportedBestAvailable
  | .unknown | .other _ => .error .invalidPolicy

def normalizeLiveliness : LivelinessPolicy → Except QosError LivelinessPolicy
  | .systemDefault | .automatic => .ok .automatic
  | .bestAvailable => .error .unsupportedBestAvailable
  | .manualByNode | .manualByTopic => .error .unsupportedLiveliness
  | .unknown | .other _ => .error .invalidPolicy

/-- The deadline and the lease duration. -/
def normalizeDuration (unsupported : QosError) (value : RmwTime) : Except QosError RmwTime :=
  if !value.valid then .error .invalidArgument
  else if value = .bestAvailable then .error .unsupportedBestAvailable
  else if !value.deterministicInfinite then .error unsupported
  else .ok .infinite

/-- The lifespan, for which the value of `kBestAvailable` has no meaning of its own. -/
def normalizeLifespan (value : RmwTime) : Except QosError RmwTime :=
  if !value.valid then .error .invalidArgument
  else if !value.deterministicInfinite then .error .unsupportedLifespan
  else .ok .infinite

/-- `normalize_profile`. -/
def normalizeProfile (input : QosProfile) (limits : QosLimits) : Except QosError QosProfile :=
  if limits.defaultHistoryDepth = 0 ∨ limits.maximumHistoryDepth = 0 ∨
      limits.defaultHistoryDepth > limits.maximumHistoryDepth ∨ limits.maximumSampleSize = 0 ∨
      limits.maximumHistoryBytes = 0 then .error .invalidArgument
  else do
    let (history, depth) ← normalizeHistory input limits
    if depth = 0 ∨ depth > limits.maximumHistoryDepth then .error .depthOutOfRange
    else do
      let reliability ← normalizeReliability input.reliability
      let durability ← normalizeDurability input.durability
      let deadline ← normalizeDuration .unsupportedDeadline input.deadline
      let lifespan ← normalizeLifespan input.lifespan
      let liveliness ← normalizeLiveliness input.liveliness
      let livelinessLeaseDuration ← normalizeDuration .unsupportedLeaseDuration input.livelinessLeaseDuration
      return { input with
        history, depth, reliability, durability, deadline, lifespan, liveliness, livelinessLeaseDuration }

/-- `normalize_qos`. -/
def normalizeQos (input : QosProfile) (limits : QosLimits) : Except QosError NormalizedQos :=
  (normalizeProfile input limits).map NormalizedQos.mk

/-- `qos_compatible`. -/
def qosCompatible (publisher subscription : NormalizedQos) : Bool :=
  if publisher.profile.reliability = .bestEffort ∧ subscription.profile.reliability = .reliable then false
  else if publisher.profile.durability = .volatileDurability ∧
      subscription.profile.durability = .transientLocal then false
  else true

end Normalize

section Check

/-- `ambiguous_reliability`, `ambiguous_durability` and `ambiguous_liveliness`. -/
def ReliabilityPolicy.ambiguous (value : ReliabilityPolicy) : Bool :=
  value == .systemDefault || value == .unknown || value == .bestAvailable

def DurabilityPolicy.ambiguous (value : DurabilityPolicy) : Bool :=
  value == .systemDefault || value == .unknown || value == .bestAvailable

def LivelinessPolicy.ambiguous (value : LivelinessPolicy) : Bool :=
  value == .systemDefault || value == .unknown || value == .bestAvailable

/-- `compare_time(left, right) > 0`. -/
def RmwTime.after (left right : RmwTime) : Bool :=
  if left.sec ≠ right.sec then !(decide (left.sec < right.sec))
  else if left.nsec ≠ right.nsec then !(decide (left.nsec < right.nsec))
  else false

/-- What is found about one policy. -/
structure Finding where
  error : Bool
  warning : Bool
  deriving DecidableEq

/-- The finding about a policy whose publisher has the `weak` value and whose subscription the `strong` one. -/
def policyFinding {α : Type} [DecidableEq α] (ambiguous : α → Bool) (weak strong publisher subscription : α) :
    Finding :=
  let warning := ambiguous publisher && ambiguous subscription || ambiguous publisher && subscription == strong ||
    publisher == weak && ambiguous subscription
  { error := !warning && (publisher == weak && subscription == strong), warning }

/-- The finding about a duration. -/
def durationFinding (publisher subscription : RmwTime) : Finding :=
  let warning := publisher == .bestAvailable || subscription == .bestAvailable
  { error := !warning &&
      (publisher == .unspecified && subscription != .unspecified ||
        publisher != .unspecified && subscription != .unspecified && publisher.after subscription)
    warning }

/-- `CompatibilityFindings`. -/
structure CompatibilityFindings where
  reliability : Finding
  durability : Finding
  deadline : Finding
  liveliness : Finding
  lease : Finding

def compatibilityFindings (publisher subscription : QosProfile) : CompatibilityFindings where
  reliability := policyFinding ReliabilityPolicy.ambiguous .bestEffort .reliable publisher.reliability
    subscription.reliability
  durability := policyFinding DurabilityPolicy.ambiguous .volatileDurability .transientLocal
    publisher.durability subscription.durability
  deadline := durationFinding publisher.deadline subscription.deadline
  liveliness := policyFinding LivelinessPolicy.ambiguous .automatic .manualByTopic publisher.liveliness
    subscription.liveliness
  lease := durationFinding publisher.livelinessLeaseDuration subscription.livelinessLeaseDuration

/-- `rmw_qos_compatibility_type_t`. -/
inductive QosCompatibility where
  | ok
  | warning
  | error
  deriving DecidableEq

/-- `append_reason`: the text before the terminator. -/
def appendReason (capacity : ℕ) (reason : List Char) (message : String) : List Char :=
  if capacity = 0 ∨ reason ≠ [] ∧ capacity ≤ reason.length + 1 then reason
  else
    let reason := if reason = [] then [] else reason ++ [';']
    reason ++ message.toList.take (capacity - 1 - reason.length)

/-- The messages, with whether they apply. -/
def CompatibilityFindings.messages (f : CompatibilityFindings) : List (Bool × String) :=
  [(f.reliability.error, "publisher reliability does not satisfy subscription"),
    (f.durability.error, "publisher durability does not satisfy subscription"),
    (f.deadline.error, "publisher deadline does not satisfy subscription"),
    (f.liveliness.error, "publisher liveliness does not satisfy subscription"),
    (f.lease.error, "publisher lease duration does not satisfy subscription"),
    (f.reliability.warning, "reliability contains system-default, unknown, or best-available"),
    (f.durability.warning, "durability contains system-default, unknown, or best-available"),
    (f.deadline.warning, "deadline contains best-available"),
    (f.liveliness.warning, "liveliness contains system-default, unknown, or best-available"),
    (f.lease.warning, "lease duration contains best-available")]

/-- The verdict on the findings. -/
def CompatibilityFindings.result (f : CompatibilityFindings) : QosCompatibility :=
  if f.reliability.error || f.durability.error || f.deadline.error || f.liveliness.error || f.lease.error then
    .error
  else if f.reliability.warning || f.durability.warning || f.deadline.warning || f.liveliness.warning ||
      f.lease.warning then .warning
  else .ok

/-- `rmw_qos_profile_check_compatible`: the verdict and the text of the reason, or the message of
`RMW_RET_INVALID_ARGUMENT`. -/
def checkCompatible (publisher subscription : QosProfile) (compatibilityIsNull reasonIsNull : Bool)
    (reasonSize : ℕ) : Except String (QosCompatibility × List Char) :=
  if compatibilityIsNull then .error "compatibility output is null"
  else if reasonIsNull ∧ reasonSize ≠ 0 then .error "reason is null while reason_size is nonzero"
  else if publisher.deadline.nsec ≥ 1000000000 ∨ subscription.deadline.nsec ≥ 1000000000 ∨
      publisher.livelinessLeaseDuration.nsec ≥ 1000000000 ∨
      subscription.livelinessLeaseDuration.nsec ≥ 1000000000 then
    .error "QoS duration nanoseconds must be less than one second"
  else
    let findings := compatibilityFindings publisher subscription
    .ok (findings.result, (findings.messages.filter (·.1)).foldl
      (fun reason message => appendReason reasonSize reason message.2) [])

end Check

end OpenRtdds
