import OpenRtdds.Lib.Compact
import OpenRtdds.Spec.Qos

/-!
# The verdict on two profiles and the matching of their endpoints

What `normalize_qos` accepts has one of few values in every policy. Among these the verdict and the matching
treat the policies alike, with one exception: an unspecified duration is infinite for the matching, while the
verdict is an error if only that of the publisher is unspecified.

* `Accepted`, `normalizeQos_ok`: the profiles that are accepted.
* `result_error_iff`, `compatible_of_result_ok`: the verdict on such profiles.
* `verdict_agrees_iff`, `unspecified_deadline_refused`.
-/

namespace OpenRtdds

open Lib

/-- **The profiles that `normalize_qos` accepts**, and the reliability and durability it gives them. -/
structure Accepted (input : QosProfile) (output : NormalizedQos) : Prop where
  reliability : input.reliability = .bestEffort ∧ output.profile.reliability = .bestEffort ∨
    (input.reliability = .systemDefault ∨ input.reliability = .reliable) ∧
      output.profile.reliability = .reliable
  durability : (input.durability = .systemDefault ∨ input.durability = .volatileDurability) ∧
    output.profile.durability = .volatileDurability
  deadline : input.deadline = .unspecified ∨ input.deadline = .infinite
  liveliness : input.liveliness = .systemDefault ∨ input.liveliness = .automatic
  lease : input.livelinessLeaseDuration = .unspecified ∨ input.livelinessLeaseDuration = .infinite

theorem except_bind_ok {ε α β : Type} {x : Except ε α} {f : α → Except ε β} {b : β}
    (h : (x >>= f) = .ok b) : ∃ a, x = .ok a ∧ f a = .ok b := by
  cases x with
  | error e => cases h
  | ok a => exact ⟨a, rfl, h⟩

theorem normalizeDuration_ok {unsupported : QosError} {value output : RmwTime}
    (h : normalizeDuration unsupported value = .ok output) : value = .unspecified ∨ value = .infinite := by
  unfold normalizeDuration at h
  obtain ⟨-, h⟩ := ite_error_ok h
  obtain ⟨-, h⟩ := ite_error_ok h
  obtain ⟨hinfinite, -⟩ := ite_error_ok h
  simpa [RmwTime.deterministicInfinite, or_iff_not_imp_left] using hinfinite

theorem normalizeQos_ok {input : QosProfile} {limits : QosLimits} {output : NormalizedQos}
    (h : normalizeQos input limits = .ok output) : Accepted input output := by
  change (normalizeProfile input limits >>= fun profile => .ok (NormalizedQos.mk profile)) = _ at h
  obtain ⟨profile, hprofile, hmk⟩ := except_bind_ok h
  cases hmk
  unfold normalizeProfile at hprofile
  obtain ⟨-, h⟩ := ite_error_ok hprofile
  obtain ⟨⟨history, depth⟩, -, h⟩ := except_bind_ok h
  obtain ⟨-, h⟩ := ite_error_ok h
  obtain ⟨reliability, hreliability, h⟩ := except_bind_ok h
  obtain ⟨durability, hdurability, h⟩ := except_bind_ok h
  obtain ⟨deadline, hdeadline, h⟩ := except_bind_ok h
  obtain ⟨lifespan, -, h⟩ := except_bind_ok h
  obtain ⟨liveliness, hliveliness, h⟩ := except_bind_ok h
  obtain ⟨lease, hlease, h⟩ := except_bind_ok h
  cases h
  refine ⟨?_, ?_, normalizeDuration_ok hdeadline, ?_, normalizeDuration_ok hlease⟩
  · cases hcase : input.reliability <;> rw [hcase] at hreliability <;> cases hreliability <;> simp
  · cases hcase : input.durability <;> rw [hcase] at hdurability <;> cases hdurability <;> simp
  · cases hcase : input.liveliness <;> rw [hcase] at hliveliness <;> cases hliveliness <;> simp

/-- The duration of the publisher is unspecified, that of the subscription infinite. -/
def OnlyPublisherUnspecified (publisher subscription : RmwTime) : Prop :=
  publisher = .unspecified ∧ subscription = .infinite

theorem durationFinding_eq {publisher subscription : RmwTime}
    (hp : publisher = .unspecified ∨ publisher = .infinite)
    (hs : subscription = .unspecified ∨ subscription = .infinite) :
    ((durationFinding publisher subscription).error = true ↔ OnlyPublisherUnspecified publisher subscription) ∧
      (durationFinding publisher subscription).warning = false := by
  rcases hp with rfl | rfl <;> rcases hs with rfl | rfl <;>
    (unfold OnlyPublisherUnspecified; decide)

section Pair

variable {publisher subscription : QosProfile} {p s : NormalizedQos}

/-- Accepted endpoints match unless the reliability is in the way. -/
theorem qosCompatible_iff (hp : Accepted publisher p) (hs : Accepted subscription s) :
    qosCompatible p s = true ↔
      ¬ (publisher.reliability = .bestEffort ∧ subscription.reliability ≠ .bestEffort) := by
  unfold qosCompatible
  rw [if_neg (c := _ ∧ s.profile.durability = _) (by simp [hs.durability.2])]
  rcases hp.reliability with ⟨hpub, hp'⟩ | ⟨hpub | hpub, hp'⟩ <;>
    rcases hs.reliability with ⟨hsub, hs'⟩ | ⟨hsub | hsub, hs'⟩ <;> simp [hpub, hp', hsub, hs']

/-- The error about a policy is that of the weak and the strong value, which are not ambiguous. -/
theorem policyFinding_error {α : Type} [DecidableEq α] {ambiguous : α → Bool} {weak strong : α}
    (hweak : ambiguous weak = false) (hstrong : ambiguous strong = false) (x y : α) :
    (policyFinding ambiguous weak strong x y).error = true ↔ x = weak ∧ y = strong := by
  unfold policyFinding
  simp only [Bool.and_eq_true, beq_iff_eq]
  refine ⟨And.right, fun h => ⟨?_, h⟩⟩
  rw [h.1, h.2, hweak, hstrong]
  simp

/-- **The verdict on accepted profiles is an error** for the reliability, or for a duration. -/
theorem result_error_iff (hp : Accepted publisher p) (hs : Accepted subscription s) :
    (compatibilityFindings publisher subscription).result = .error ↔
      publisher.reliability = .bestEffort ∧ subscription.reliability = .reliable ∨
      OnlyPublisherUnspecified publisher.deadline subscription.deadline ∨
      OnlyPublisherUnspecified publisher.livelinessLeaseDuration subscription.livelinessLeaseDuration := by
  have hdurability : subscription.durability ≠ .transientLocal := by
    rcases hs.durability.1 with h | h <;> simp [h]
  have hliveliness : subscription.liveliness ≠ .manualByTopic := by
    rcases hs.liveliness with h | h <;> simp [h]
  have herror : ∀ f : CompatibilityFindings, f.result = .error ↔ f.reliability.error = true ∨
      f.durability.error = true ∨ f.deadline.error = true ∨ f.liveliness.error = true ∨
      f.lease.error = true := by
    intro f
    unfold CompatibilityFindings.result
    split_ifs <;> simp_all [or_assoc]
  rw [herror]
  unfold compatibilityFindings
  rw [policyFinding_error rfl rfl, policyFinding_error rfl rfl, policyFinding_error rfl rfl,
    (durationFinding_eq hp.deadline hs.deadline).1, (durationFinding_eq hp.lease hs.lease).1]
  simp only [hdurability, hliveliness, and_false, false_or]

/-- Without an error and a warning the endpoints match. -/
theorem compatible_of_result_ok (hp : Accepted publisher p) (hs : Accepted subscription s)
    (h : (compatibilityFindings publisher subscription).result = .ok) : qosCompatible p s = true := by
  rw [qosCompatible_iff hp hs]
  rintro ⟨hpub, hsub⟩
  -- the subscription is reliable by default, which is a warning, or by its own policy, which is an error
  rcases hs.reliability with ⟨hbest, -⟩ | ⟨hdefault | hreliable, -⟩
  · exact hsub hbest
  · have hwarning : (compatibilityFindings publisher subscription).reliability.warning = true := by
      simp [compatibilityFindings, policyFinding, hpub, hdefault, ReliabilityPolicy.ambiguous]
    unfold CompatibilityFindings.result at h
    split_ifs at h
    simp_all
  · have herror := (result_error_iff hp hs).2 (.inl ⟨hpub, hreliable⟩)
    rw [h] at herror
    cases herror

end Pair

/-- The call on accepted profiles gives the verdict, whatever the buffer of the reason is. -/
theorem checkCompatible_verdict {publisher subscription : QosProfile} {compatibilityIsNull reasonIsNull : Bool}
    {reasonSize : ℕ} {verdict : QosCompatibility} {text : List Char}
    (h : checkCompatible publisher subscription compatibilityIsNull reasonIsNull reasonSize =
      .ok (verdict, text)) : verdict = (compatibilityFindings publisher subscription).result := by
  unfold checkCompatible at h
  obtain ⟨-, h⟩ := ite_error_ok h
  obtain ⟨-, h⟩ := ite_error_ok h
  obtain ⟨-, h⟩ := ite_error_ok h
  cases h
  rfl

theorem checkCompatible_ok {publisher subscription : QosProfile} {p s : NormalizedQos}
    (hp : Accepted publisher p) (hs : Accepted subscription s) :
    ∃ text, checkCompatible publisher subscription false false 0 =
      .ok ((compatibilityFindings publisher subscription).result, text) := by
  have hnanoseconds : ∀ t : RmwTime, t = .unspecified ∨ t = .infinite → ¬ t.nsec ≥ 1000000000 := by
    rintro t (rfl | rfl) <;> decide
  unfold checkCompatible
  rw [if_neg (by decide), if_neg (by decide), if_neg]
  · exact ⟨_, rfl⟩
  · simp only [not_or]
    exact ⟨hnanoseconds _ hp.deadline, hnanoseconds _ hs.deadline, hnanoseconds _ hp.lease,
      hnanoseconds _ hs.lease⟩

/-- **The verdict agrees with the matching** of accepted profiles exactly if a publisher that is best effort
meets a subscription that is not, or no duration is unspecified at the publisher alone. -/
theorem verdict_agrees_iff {limits : QosLimits} {publisher subscription : QosProfile} {p s : NormalizedQos}
    (hp : normalizeQos publisher limits = .ok p) (hs : normalizeQos subscription limits = .ok s) :
    (∀ compatibilityIsNull reasonIsNull reasonSize verdict text,
      checkCompatible publisher subscription compatibilityIsNull reasonIsNull reasonSize =
        .ok (verdict, text) →
      (verdict = .ok → qosCompatible p s = true) ∧ (verdict = .error → qosCompatible p s = false)) ↔
    (publisher.reliability = .bestEffort ∧ subscription.reliability ≠ .bestEffort) ∨
      (¬ OnlyPublisherUnspecified publisher.deadline subscription.deadline ∧
        ¬ OnlyPublisherUnspecified publisher.livelinessLeaseDuration
          subscription.livelinessLeaseDuration) := by
  have hp := normalizeQos_ok hp
  have hs := normalizeQos_ok hs
  constructor
  · intro h
    by_cases hcompatible : qosCompatible p s = true
    · obtain ⟨text, hcheck⟩ := checkCompatible_ok hp hs
      have hno : (compatibilityFindings publisher subscription).result ≠ .error := fun herror =>
        Bool.false_ne_true (((h _ _ _ _ _ hcheck).2 herror).symm.trans hcompatible)
      rw [ne_eq, result_error_iff hp hs, not_or, not_or] at hno
      exact .inr hno.2
    · rw [qosCompatible_iff hp hs, not_not] at hcompatible
      exact .inl hcompatible
  · intro h _ _ _ verdict text hcheck
    rw [checkCompatible_verdict hcheck]
    refine ⟨compatible_of_result_ok hp hs, fun herror => ?_⟩
    rw [← Bool.not_eq_true, qosCompatible_iff hp hs, not_not]
    rcases h with hreliability | ⟨hdeadline, hlease⟩
    · exact hreliability
    · rcases (result_error_iff hp hs).1 herror with ⟨hpub, hsub⟩ | hdeadline' | hlease'
      · exact ⟨hpub, by rw [hsub]; exact ReliabilityPolicy.noConfusion⟩
      · exact absurd hdeadline' hdeadline
      · exact absurd hlease' hlease

/-- A reliable profile with a deadline, and with nothing else left open. -/
def reliableProfile (deadline : RmwTime) : QosProfile where
  history := .keepLast
  depth := 10
  reliability := .reliable
  durability := .volatileDurability
  deadline := deadline
  lifespan := .infinite
  liveliness := .automatic
  livelinessLeaseDuration := .infinite

theorem reliableProfiles_agree :
    normalizeQos (reliableProfile .infinite) {} = .ok ⟨reliableProfile .infinite⟩ ∧
      ∀ compatibilityIsNull reasonIsNull reasonSize verdict text,
        checkCompatible (reliableProfile .infinite) (reliableProfile .infinite) compatibilityIsNull
          reasonIsNull reasonSize = .ok (verdict, text) →
        (verdict = .ok → qosCompatible ⟨reliableProfile .infinite⟩ ⟨reliableProfile .infinite⟩ = true) ∧
          (verdict = .error →
            qosCompatible ⟨reliableProfile .infinite⟩ ⟨reliableProfile .infinite⟩ = false) :=
  ⟨rfl, (@verdict_agrees_iff {} (reliableProfile .infinite) (reliableProfile .infinite) _ _ rfl rfl).2
    (.inr ⟨fun h => absurd h.1 (by decide), fun h => absurd h.1 (by decide)⟩)⟩

/-- **Endpoints that match are said to be incompatible**: the deadline of the publisher is unspecified, and
the one of the subscription infinite, which `normalize_qos` makes of both. -/
theorem unspecified_deadline_refused :
    normalizeQos (reliableProfile .unspecified) {} = .ok ⟨reliableProfile .infinite⟩ ∧
      normalizeQos (reliableProfile .infinite) {} = .ok ⟨reliableProfile .infinite⟩ ∧
      qosCompatible ⟨reliableProfile .infinite⟩ ⟨reliableProfile .infinite⟩ = true ∧
      ∃ text, checkCompatible (reliableProfile .unspecified) (reliableProfile .infinite) false false 64 =
        .ok (.error, text) :=
  ⟨rfl, rfl, rfl, _, rfl⟩

end OpenRtdds
