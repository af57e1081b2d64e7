import OpenRtdds.Spec.Spdp

/-!
# The ports of a participant

The port of a domain is a linear formula. `spdp_multicast_port` and `spdp_unicast_port` compute it in
`uint64_t` and guard every step, by a division or by a product.

* `division_guard_iff`: the guard by a division compares the product.
* `discovery_ports_exact`: both functions, for all configurations.
-/

namespace OpenRtdds

section Ports

theorem addU64_eq {a b : ℕ} (h : a + b ≤ uint64Max) : addU64 a b = some (a + b) := if_pos h

theorem subU64_eq {a b : ℕ} (h : b ≤ a) : subU64 a b = some (a - b) := if_pos h

theorem mulU64_eq (a b : UInt32) : mulU64 a.toNat b.toNat = some (a.toNat * b.toNat) := by
  refine if_pos (le_trans (Nat.mul_le_mul (Nat.le_of_lt_succ a.toNat_lt) (Nat.le_of_lt_succ b.toNat_lt)) ?_)
  decide

/-- The guard by a division is the comparison with the product. -/
theorem division_guard_iff (gain id : UInt32) (remaining : ℕ) :
    (gain ≠ 0 ∧ id.toNat > remaining / gain.toNat) ↔ remaining < gain.toNat * id.toNat := by
  by_cases hzero : gain = 0
  · simp [hzero]
  · have hpos : 0 < gain.toNat := Nat.pos_of_ne_zero fun h => hzero (UInt32.toNat_inj.1 h)
    rw [and_iff_right hzero, gt_iff_lt, Nat.div_lt_iff_lt_mul hpos, Nat.mul_comm]

/-- What a call says about a port: whether the value is one, which it then stores. -/
structure PortResult (value : ℕ) (port : UInt16) (r : Bool × UInt16) : Prop where
  accepted : r.1 = true ↔ 1 ≤ value ∧ value ≤ 65535
  stored : r.1 = true → r.2.toNat = value
  kept : r.1 = false → r.2 = port

theorem PortResult.refused {value : ℕ} (h : value = 0 ∨ 65535 < value) (port : UInt16) :
    PortResult value port (false, port) :=
  ⟨⟨fun hfalse => Bool.noConfusion hfalse, fun hvalue => by omega⟩, fun hfalse => Bool.noConfusion hfalse,
    fun _ => rfl⟩

/-- The end of both functions: a sum of at most 65535 is a port unless it is zero. -/
theorem PortResult.of_sum {value : ℕ} (h : value ≤ 65535) (port : UInt16) :
    PortResult value port (if value = 0 then (false, port) else (true, UInt16.ofNat value)) := by
  by_cases hzero : value = 0
  · rw [if_pos hzero]
    exact .refused (.inl hzero) port
  · rw [if_neg hzero]
    exact ⟨iff_of_true rfl ⟨by omega, h⟩, fun _ => UInt16.toNat_ofNat_of_lt (Nat.lt_succ_of_le h),
      fun hfalse => Bool.noConfusion hfalse⟩

variable (domainId participantId : UInt32) (config : SpdpPortConfig) (port : UInt16)

/-- **Discovery ports equal the exact formula.** For all domains, participants and port configurations no sum,
difference or product of the two functions wraps. They return true exactly if the value of the formula over
the integers is in 1..65535, and then store it; otherwise they leave the port. -/
theorem discovery_ports_exact :
    (∃ r, spdpMulticastPort domainId config port = some r ∧
      PortResult (config.portBase.toNat + config.multicastOffset.toNat +
        config.domainGain.toNat * domainId.toNat) port r) ∧
    ∃ r, spdpUnicastPort domainId participantId config port = some r ∧
      PortResult (config.portBase.toNat + config.unicastOffset.toNat +
        config.domainGain.toNat * domainId.toNat +
        config.participantGain.toNat * participantId.toNat) port r := by
  constructor
  · have hbase := config.portBase.toNat_lt
    have hoffset := config.multicastOffset.toNat_lt
    have hmax : 2 ^ 33 ≤ uint64Max := by decide
    unfold spdpMulticastPort
    rw [addU64_eq (by omega), mulU64_eq]
    set fixed := config.portBase.toNat + config.multicastOffset.toNat with hfixed
    simp only [division_guard_iff, Option.bind_eq_bind, Option.bind_some, Option.pure_def]
    set term := config.domainGain.toNat * domainId.toNat with hterm
    by_cases hlarge : fixed > 65535
    · rw [if_pos hlarge]
      exact ⟨_, rfl, .refused (.inr (by omega)) port⟩
    rw [if_neg hlarge, subU64_eq (by omega), Option.bind_some]
    by_cases hguard : 65535 - fixed < term
    · rw [if_pos hguard]
      exact ⟨_, rfl, .refused (.inr (by omega)) port⟩
    rw [if_neg hguard, addU64_eq (by omega), Option.bind_some, ← apply_ite some]
    exact ⟨_, rfl, .of_sum (by omega) port⟩
  · have hbase := config.portBase.toNat_lt
    have hoffset := config.unicastOffset.toNat_lt
    have hmax : 2 ^ 33 ≤ uint64Max := by decide
    unfold spdpUnicastPort
    rw [addU64_eq (by omega), mulU64_eq, mulU64_eq]
    set fixed := config.portBase.toNat + config.unicastOffset.toNat with hfixed
    simp only [division_guard_iff, Option.bind_eq_bind, Option.bind_some, Option.pure_def]
    set domainTerm := config.domainGain.toNat * domainId.toNat with hdomain
    set participantTerm := config.participantGain.toNat * participantId.toNat with hparticipant
    by_cases hlarge : fixed > 65535
    · rw [if_pos hlarge]
      exact ⟨_, rfl, .refused (.inr (by omega)) port⟩
    rw [if_neg hlarge, subU64_eq (by omega), Option.bind_some]
    by_cases hproduct : domainTerm > 65535 - fixed
    · rw [if_pos hproduct]
      exact ⟨_, rfl, .refused (.inr (by omega)) port⟩
    rw [if_neg hproduct, addU64_eq (by omega), Option.bind_some, subU64_eq (by omega), Option.bind_some]
    by_cases hguard : 65535 - (fixed + domainTerm) < participantTerm
    · rw [if_pos hguard]
      exact ⟨_, rfl, .refused (.inr (by omega)) port⟩
    rw [if_neg hguard, addU64_eq (by omega), Option.bind_some, ← apply_ite some]
    exact ⟨_, rfl, .of_sum (by omega) port⟩

end Ports

end OpenRtdds
