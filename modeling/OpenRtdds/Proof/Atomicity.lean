import OpenRtdds.Proof.Deserialize
import OpenRtdds.Proof.MaximumSize

/-!
# Failed deserialization

`deserialize_xcdr1` validates the whole buffer before it stores anything, but the two passes ask
for different callbacks: validation for `get_const_function`, the store for `get_function`. An
array with the first and without the second passes validation, and stops the store behind the
fields before it.

A message is a list of separate fields, so the members of a descriptor are taken not to overlap:
for members at overlapping offsets, which the analysis does not exclude, nothing is said here.

* `Descriptor.deserialize_outcome`: what the call leaves and returns in terms of the value that
  the buffer has.
* `deserialize_unchanged_iff`: when a failed call leaves the destination alone.
-/

namespace OpenRtdds

open Lib

namespace Descriptor

variable {language : TypeSupportLanguage} (D : Descriptor language)

/-- A buffer that is not validated is refused, and the destination is left alone. -/
theorem deserialize_refused {buffer : Span} {dest : Sample language}
    (h : ∀ m r r', ¬ D.Validates buffer dest m r r') : (D.deserialize buffer dest).2 = dest := by
  have hwalk := processMembers_refines (stringsOf language) D.memory _ D.root dest
  unfold deserialize deserializeXcdr1
  by_cases hnull : (buffer.isNull || decide (buffer.size > D.limit)) = true
  · rw [if_pos hnull]
  rw [if_neg hnull, D.handle_data, D.accepted]
  simp only [Bool.or_eq_true, decide_eq_true_eq, not_or, Bool.not_eq_true, Nat.not_lt] at hnull
  rcases hbegin : CdrReader.begin { buffer } with ⟨_ | _, r⟩
  · rfl
  simp only [Bool.not_true, Bool.false_eq_true, if_false]
  have hunchanged := hwalk.unchanged r
  rcases hval : processMembers (stringsOf language) false D.memory _ D.root dest r with ⟨_ | r', _⟩ <;>
    rw [hval] at hunchanged <;> cases hunchanged
  · rfl
  simp only
  by_cases hend : r'.remaining = 0
  · obtain ⟨m, hm, ⟨hroom, hchecked⟩, -⟩ := hwalk.sound (r := r) (by rw [hval])
    exact absurd ⟨hnull.1, hnull.2, hbegin, hm, hend, hroom, hchecked⟩ (h m r r')
  · rw [if_pos hend]

/-- **A validated buffer has its value stored**: the call leaves what storing the value leaves, and
fails exactly if the store stops. -/
theorem deserialize_outcome {buffer : Span} {dest : Sample language}
    {m : Message Text maximumTypeNestingDepth} {r r' : CdrReader}
    (h : D.Validates buffer dest m r r') :
    let stored := storeMembers (stringsOf language) D.memory _ D.root dest m
    (D.deserialize buffer dest).2 = stored.1 ∧
      (stored.2 = true → (D.deserialize buffer dest).1 = .ok r'.offset) ∧
      (stored.2 = false → ∃ e, (D.deserialize buffer dest).1 = .error e) := by
  have hwalk := processMembers_refines (stringsOf language) D.memory _ D.root dest
  have hpasses := hwalk.complete h.decodes ⟨h.room, h.callbacks⟩
  obtain ⟨m', hm', -, hout⟩ := hwalk.sound hpasses
  cases h.decodes.symm.trans hm'
  have hval := Prod.ext (y := (.ok r', dest)) hpasses (hwalk.unchanged r)
  have hguard : ¬ (buffer.isNull || decide (buffer.size > D.limit)) = true := by
    simpa [h.real] using h.fits
  unfold deserialize deserializeXcdr1
  rw [if_neg hguard, D.handle_data, D.accepted]
  simp only [h.begins, hval, h.ends, Bool.not_true, Bool.false_eq_true, if_false, ne_eq,
    not_true_eq_false]
  cases hstore : (storeMembers (stringsOf language) D.memory _ D.root dest m).2 with
  | true =>
    have happ := Prod.ext (y := (.ok r', _)) (hout.full hstore) hout.message
    simp [happ]
  | false =>
    obtain ⟨e, he⟩ := hout.gap hstore
    have happ := Prod.ext (y := (.error e, _)) he hout.message
    simp [happ]

end Descriptor

/-- **When a failed call leaves the destination alone.** If the buffer has a value that validation
admits for the destination, and the value has an array that lacks `get_function` (and, for
booleans, `assign_function`), then the destination must already hold the value before the first
such array. A buffer that has no such value is refused before anything is stored. -/
theorem deserialize_unchanged_iff {language : TypeSupportLanguage} (D : Descriptor language)
    (buffer : Span) (dest : Sample language) :
    (∀ e, (D.deserialize buffer dest).1 = .error e → (D.deserialize buffer dest).2 = dest) ↔
      ∀ m r r', D.Validates buffer dest m r r' → (∃ p ∈ D.places dest m, p.storable = false) →
        ∀ p ∈ (D.places dest m).takeWhile Place.storable, p.Holds (stringsOf language) := by
  by_cases hval : ∃ m r r', D.Validates buffer dest m r r'
  swap
  · have hrefused : (D.deserialize buffer dest).2 = dest :=
      D.deserialize_refused fun m r r' h => hval ⟨m, r, r', h⟩
    exact ⟨fun _ m r r' h => absurd ⟨m, r, r', h⟩ hval, fun _ _ _ => hrefused⟩
  obtain ⟨m, r, r', h⟩ := hval
  obtain ⟨hmessage, hok, hfails⟩ := D.deserialize_outcome h
  have hstores := storeMembers_stores (stringsOf_lawful language) D.memory typed _ D.root dest m h.room
  have hgap : (storeMembers (stringsOf language) D.memory _ D.root dest m).2 ≠ true ↔
      ∃ p ∈ D.places dest m, p.storable = false := by
    rw [ne_eq, hstores.full]
    simp [Descriptor.places]
  constructor
  · intro hsafe m₁ r₁ r₁' h₁ hstop
    cases h.begins.symm.trans h₁.begins
    cases h.decodes.symm.trans h₁.decodes
    obtain ⟨e, he⟩ := hfails (Bool.not_eq_true _ ▸ hgap.2 hstop)
    exact hstores.kept.1 (hmessage.symm.trans (hsafe e he))
  · intro hholds e he
    have hstop : (storeMembers (stringsOf language) D.memory _ D.root dest m).2 ≠ true := by
      intro hfull
      rw [hok hfull] at he
      cases he
    exact hmessage.trans (hstores.kept.2 (hholds m r r' h (hgap.1 hstop)))

/-- A byte and an array of one byte that can be read in place but not written. -/
def readOnlyDescriptor : Descriptor .introspectionC where
  memory := fun _ => {
    messageNamespace := some ['p'], messageName := some ['R'], sizeOf := 2, memberCount := 2
    members := some #v[
      { typeId := .uint8 },
      { typeId := .uint8, isArray := true, arraySize := 1, offset := 1
        callbacks := { size := true, getConst := true } }] }
  handle := ⟨some .introspectionC, some 0⟩
  limit := 6
  info := ⟨.introspectionC, 6, 1, 1, ['p', ':', ':', 'd', 'd', 's', '_', ':', ':', 'R', '_']⟩
  accepted := rfl
  introspection := rfl
  machine := by decide

/-- **A failed call that changes the destination**: the byte is stored before the array is refused. -/
theorem readOnly_partially_stored :
    let dest : Sample .introspectionC := [.single (.scalar 0), .array [.scalar 0]]
    let out := readOnlyDescriptor.deserialize (.bytes [0, 1, 0, 0, 7, 9]) dest
    out.1 = .error { error := .callbackMissing, bytesProcessed := 5 } ∧
      out.2 = [.single (.scalar 7), .array [.scalar 0]] ∧ out.2 ≠ dest := by
  refine ⟨rfl, rfl, fun h => ?_⟩
  injection h with hfield
  injection hfield with helement
  cases helement

end OpenRtdds
