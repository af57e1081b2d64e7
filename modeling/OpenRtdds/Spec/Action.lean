import OpenRtdds.Spec.SequenceSet

/-!
# Reliability actions

The actions the reliability state machines ask of their caller, and the bounded
buffer that collects them (`rtps/reliability_state.hpp`). A pointer to payload bytes
in an action is modelled by the bytes it points to when the action is emitted.
-/

namespace OpenRtdds

/-- `rtps::ReliabilityAction`, one constructor for each `ReliabilityActionKind` with the
fields that kind fills. -/
inductive ReliabilityAction where
  | sendData (sequenceNumber : ℕ) (data : List UInt8)
  | retransmitData (sequenceNumber : ℕ) (data : List UInt8)
  | sendAcknack (readerId writerId : EntityId) (readerState : SequenceNumberSet)
      (controlCount : BitVec 32) (finalFlag : Bool)
  | sampleReceived (sequenceNumber : ℕ)
  | sampleDelivered (sequenceNumber : ℕ)
  | sampleFailed (sequenceNumber : ℕ) (failure : RepairFailure)

/-- `rtps::ReliabilityActionBuffer`. -/
structure ActionBuffer (cap : ℕ) where
  actions : List ReliabilityAction := []
  bound : actions.length ≤ cap := by simp

namespace ActionBuffer

variable {cap : ℕ}

/-- A new buffer. -/
def empty : ActionBuffer cap := ⟨[], Nat.zero_le cap⟩

@[simp] theorem empty_actions : (empty : ActionBuffer cap).actions = [] := rfl

def remaining (b : ActionBuffer cap) : ℕ := cap - b.actions.length

/-- `push`; the callers ignore its result, a full buffer stays as it is. -/
def push (b : ActionBuffer cap) (a : ReliabilityAction) : ActionBuffer cap :=
  if h : b.actions.length = cap then b
  else ⟨b.actions ++ [a], by have := b.bound; simp; omega⟩

/-- Push the action a loop iteration emits, if it emits one. -/
def pushSome (b : ActionBuffer cap) : Option ReliabilityAction → ActionBuffer cap
  | some a => b.push a
  | none => b

theorem push_actions {b : ActionBuffer cap} (h : b.remaining ≠ 0) (a : ReliabilityAction) :
    (b.push a).actions = b.actions ++ [a] := by
  unfold remaining at h
  unfold push
  rw [dif_neg (by omega)]

theorem push_remaining {b : ActionBuffer cap} (h : b.remaining ≠ 0) (a : ReliabilityAction) :
    (b.push a).remaining = b.remaining - 1 := by
  rw [remaining, push_actions h, remaining, List.length_append, List.length_singleton]
  omega

/-- The actions a call appended to the buffer it was given. -/
def emitted (before after : ActionBuffer cap) : List ReliabilityAction :=
  after.actions.drop before.actions.length

theorem emitted_self (b : ActionBuffer cap) : b.emitted b = [] := by simp [emitted]

theorem emitted_of_append {b b' : ActionBuffer cap} {as : List ReliabilityAction}
    (h : b'.actions = b.actions ++ as) : b.emitted b' = as := by
  simp [emitted, h]

theorem foldl_pushSome {ι : Type*} (f : ι → Option ReliabilityAction) (l : List ι)
    (b : ActionBuffer cap) (h : (l.filterMap f).length ≤ b.remaining) :
    (l.foldl (fun b i => b.pushSome (f i)) b).actions = b.actions ++ l.filterMap f := by
  induction l generalizing b with
  | nil => simp
  | cons i l ih =>
    rw [List.foldl_cons]
    cases hf : f i with
    | none =>
      rw [List.filterMap_cons_none hf] at h ⊢
      exact ih b h
    | some a =>
      rw [List.filterMap_cons_some hf] at h ⊢
      rw [List.length_cons] at h
      have hr : b.remaining ≠ 0 := by omega
      have hr' : (b.push a).remaining = b.remaining - 1 := push_remaining hr a
      rw [pushSome, ih (b.push a) (by omega), push_actions hr, List.append_assoc,
        List.singleton_append]

end ActionBuffer

/-- What a call returns: its error, the state it leaves and the actions buffer. -/
structure Outcome (σ : Type) (cap : ℕ) where
  error : ReliabilityError
  state : σ
  actions : ActionBuffer cap

section Refused

variable {σ : Type} {cap : ℕ} {s : σ} {b : ActionBuffer cap}

/-- A call that failed changed nothing. -/
structure Refused (s : σ) (b : ActionBuffer cap) (o : Outcome σ cap) : Prop where
  error : o.error ≠ .none
  state : o.state = s
  actions : o.actions = b

/-- A check of a call fails, or the rest of the call decides. -/
theorem refused_or {p : Prop} [Decidable p] {e : ReliabilityError} (he : e ≠ .none)
    {o : Outcome σ cap} {Q : Outcome σ cap → Prop} (h : ¬ p → Refused s b o ∨ Q o) :
    Refused s b (if p then ⟨e, s, b⟩ else o) ∨ Q (if p then ⟨e, s, b⟩ else o) := by
  by_cases hp : p
  · rw [if_pos hp]
    exact .inl ⟨he, rfl, rfl⟩
  · rw [if_neg hp]
    exact h hp

end Refused

/-- `valid_state_sequence`. -/
def validStateSequence (sequenceNumber : ℕ) : Bool :=
  sequenceNumber != 0 && decide (sequenceNumber < int64Max)

theorem validStateSequence_iff {s : ℕ} : validStateSequence s = true ↔ 1 ≤ s ∧ s < int64Max := by
  simp only [validStateSequence, bne_iff_ne, ne_eq, Bool.and_eq_true, decide_eq_true_eq]
  omega

end OpenRtdds
