import OpenRtdds.Proof.TypeAnalysis

/-!
# What is decoded

A reader whose buffer holds the chunks of a value decodes the value and stands behind them.

* `decodeMembers_chunks`: the chunks of a value decode to the value.
-/

namespace OpenRtdds

open Lib

/-- Where the chunks stand, the decoder returns the value. -/
def Decodes {X : Type} (little : Bool) (cs : List Chunk) (f : CdrReader → Option (X × CdrReader))
    (x : X) : Prop :=
  ∀ r : CdrReader, r.Good → (r.byteOrder == .littleEndian) = little → r.Holds cs →
    f r = some (x, r.moved cs)

namespace Decodes

variable {X Y Z : Type} {little : Bool} {cs ds : List Chunk} {x : X} {y : Y}

theorem pure (x : X) : Decodes little [] (fun r => some (x, r)) x := fun r hr _ _ => by
  rw [CdrReader.moved_nil hr]

theorem seq {f : CdrReader → Option (X × CdrReader)} {g : CdrReader → Option (Y × CdrReader)}
    (hf : Decodes little cs f x) (hg : Decodes little ds g y) (pair : X → Y → Z) :
    Decodes little (cs ++ ds)
      (fun r => (f r).bind fun a => (g a.2).bind fun b => some (pair a.1 b.1, b.2)) (pair x y) := by
  intro r hr hl hc
  obtain ⟨hfirst, hsecond⟩ := (r.holds_append cs ds).1 hc
  simp only [hf r hr hl hfirst, Option.bind_some, hg (r.moved cs) (hr.moved cs) hl hsecond,
    CdrReader.moved_moved]

theorem map {f : CdrReader → Option (X × CdrReader)} (hf : Decodes little cs f x) (g : X → Y) :
    Decodes little cs (fun r => (f r).bind fun a => some (g a.1, a.2)) (g x) := by
  intro r hr hl hc
  simp only [hf r hr hl hc, Option.bind_some]

theorem elements {decode : CdrReader → Option (X × CdrReader)} {chunks : X → List Chunk}
    {xs : List X} (h : ∀ x ∈ xs, Decodes little (chunks x) decode x) :
    Decodes little (xs.flatMap chunks) (decodeElements decode xs.length) xs := by
  induction xs with
  | nil => exact pure []
  | cons x xs ih =>
    obtain ⟨hx, hxs⟩ := List.forall_mem_cons.1 h
    exact hx.seq (ih hxs) List.cons

theorem fields {decode : Member → CdrReader → Option (X × CdrReader)}
    {chunks : Member → X → List Chunk} {members : List Member} {xs : List X}
    (h : List.Forall₂ (fun member x => Decodes little (chunks member x) (decode member) x)
      members xs) :
    Decodes little (List.zipWith chunks members xs).flatten (decodeFields decode members) xs := by
  induction h with
  | nil => exact pure []
  | cons hx _ ih => exact hx.seq ih List.cons

end Decodes

theorem readScalar_chunk {typeId : FieldType} {width bits : ℕ}
    (hwidth : scalarLayout typeId = some width) (hbits : bits < 2 ^ (8 * width))
    (hbool : typeId = .boolean → bits < 2) {r : CdrReader} (hr : r.Good)
    (hc : r.Holds [intChunk (r.byteOrder == .littleEndian) width bits]) :
    readScalar typeId r =
      .ok (bits, r.moved [intChunk (r.byteOrder == .littleEndian) width bits]) := by
  have hread := CdrReader.readIntegral_chunk hr (scalarLayout_width hwidth) hbits hc
  unfold readScalar
  cases typeId <;> simp only [scalarLayout, Option.some.injEq, reduceCtorEq] at hwidth <;>
    subst hwidth
  case boolean =>
    have hsmall := hbool rfl
    simp only [CdrReader.readBool, CdrReader.readUint8, hread]
    rw [if_neg (by omega)]
    rcases (show bits = 0 ∨ bits = 1 by omega) with rfl | rfl <;> rfl
  all_goals simp only [CdrReader.readUint8, CdrReader.readUint16, CdrReader.readUint32,
    CdrReader.readUint64, hread]

section Walk

variable {N : Type} {little : Bool} {inBounds : Pointer → N → Prop}
  {chunks : Pointer → N → List Chunk} {decode : Pointer → CdrReader → Option (N × CdrReader)}
  {member : Member} (hadm : member.Admissible)
  (hnested : ∀ p m, nestedMembers member = some p → member.typeId = .message → inBounds p m →
    Decodes little (chunks p m) (decode p) m)

include hadm hnested in
theorem decodeElement_chunks {e : Element Text N} (he : ElementMeets (bounded (· ≤ ·)) inBounds member e) :
    Decodes little (elementChunks little chunks member e) (decodeElement decode member) e := by
  intro r hr hl hc
  subst hl
  cases he with
  | scalar width hwidth hbits =>
    simp only [elementChunks, hwidth, Option.getD_some] at hc ⊢
    simp only [bounded, hwidth, Option.getD_some] at hbits
    have hread := readScalar_chunk hwidth hbits.1 hbits.2 hr hc
    unfold decodeElement
    cases htype : member.typeId <;> rw [htype] at hread hwidth <;> simp only [hread]
    all_goals cases hwidth
  | text htype hlen =>
    have hmax := hadm.text htype
    have hbound : _ ≤ member.stringUpperBound := hlen
    simp only [elementChunks] at hc ⊢
    simp only [decodeElement, htype, CdrReader.readStringView_chunk hr hbound (by omega) hc]
  | nested htype hp hm =>
    simp only [elementChunks, hp, Option.elim] at hc ⊢
    simp only [decodeElement, htype, hp, Option.bind_eq_bind, Option.bind_some,
      hnested _ _ hp htype hm r hr rfl hc]
    rfl

/-- The count of an array where it stands, and where the elements follow. -/
theorem readCount_chunk (hadm : member.Admissible) (harray : member.isArray = true) {count : ℕ}
    (hcount : (bounded (· ≤ ·)).array member count) {r : CdrReader} (hr : r.Good)
    (hc : r.Holds (if member.isUpperBound then
      [intChunk (r.byteOrder == .littleEndian) 4 count] else [])) :
    readCount member r = .ok (count, r.moved (if member.isUpperBound then
      [intChunk (r.byteOrder == .littleEndian) 4 count] else [])) := by
  unfold readCount
  simp only [bounded] at hcount
  by_cases hupper : member.isUpperBound = true
  · simp only [hupper, if_true] at hc hcount ⊢
    have hmax := hadm.count harray hupper
    have hread := CdrReader.readIntegral_chunk hr (.inr (.inr (.inl rfl)))
      (show count < 2 ^ (8 * 4) by unfold uint32Max at hmax; omega) hc
    simp only [CdrReader.readUint32, hread]
    rw [if_neg (by omega)]
  · simp only [hupper, Bool.false_eq_true, if_false] at hcount ⊢
    rw [CdrReader.moved_nil hr, hcount]

include hadm hnested in
theorem decodeField_chunks {field : Field Text N} (hf : FieldMeets (bounded (· ≤ ·)) inBounds member field) :
    Decodes little (fieldChunks little chunks member field) (decodeField decode member) field := by
  cases hf with
  | single harray he =>
    intro r hr hl hc
    simp only [decodeField, harray, Bool.false_eq_true, if_false]
    exact (decodeElement_chunks hadm hnested he).map Field.single r hr hl hc
  | @array es harray hcount hes =>
    have helements : Decodes little (es.flatMap (elementChunks little chunks member)) _ es :=
      .elements fun e he => decodeElement_chunks hadm hnested (hes e he)
    intro r hr hl hc
    obtain ⟨hfirst, hrest⟩ := (r.holds_append _ _).1 hc
    have hread := readCount_chunk hadm harray hcount hr (hl.symm ▸ hfirst)
    rw [hl] at hread
    simp only [decodeField, harray, if_true, hread, Option.bind_eq_bind]
    rw [helements _ (hr.moved _) hl hrest, CdrReader.moved_moved]
    rfl

end Walk

/-- **The chunks of a value decode to the value.** -/
theorem decodeMembers_chunks (memory : Memory) (little : Bool) (depth : ℕ) :
    ∀ {pointer : Pointer} {m : Message Text depth},
      AllMembers Member.Admissible memory depth pointer →
      Meets (bounded (· ≤ ·)) memory depth pointer m →
      Decodes little (messageChunks little memory depth pointer m)
        (decodeMembers memory depth pointer) m := by
  induction depth with
  | zero => intro _ m; cases m
  | succ depth ih =>
    intro pointer m hall hm
    refine Decodes.fields ?_
    refine ((List.forall₂_and_left _ _).2 ⟨hall, hm⟩).imp fun member field => ?_
    rintro ⟨⟨hadm, hnested⟩, hfield⟩
    refine decodeField_chunks hadm ?_ hfield
    intro p m hp ht hin
    exact ih (hnested ht p hp) hin

section Elements

variable {N : Type} {member : Member} {decodeNested : Pointer → CdrReader → Option (N × CdrReader)}

theorem decodeElement_iff {r r' : CdrReader} {e : Element Text N} :
    decodeElement decodeNested member r = some (e, r') ↔
      match e with
      | .scalar bits => readScalar member.typeId r = .ok (bits, r')
      | .text text => member.typeId = .string ∧
          r.readStringView member.stringUpperBound = (some text, r')
      | .nested m => member.typeId = .message ∧ ∃ p, nestedMembers member = some p ∧
          decodeNested p r = some (m, r') := by
  unfold decodeElement
  cases member.typeId
  case string =>
    rcases r.readStringView member.stringUpperBound with ⟨_ | _, _⟩ <;> cases e <;> simp [readScalar]
  case message =>
    cases nestedMembers member <;> cases e <;> simp [readScalar, Option.bind_eq_some_iff]
  all_goals
    simp only
    generalize readScalar _ r = out
    rcases out with _ | ⟨_, _⟩ <;> cases e <;> simp

theorem decodeElements_length {E : Type} {decode : CdrReader → Option (E × CdrReader)} {n : ℕ} :
    ∀ {r r' : CdrReader} {xs : List E}, decodeElements decode n r = some (xs, r') → xs.length = n := by
  induction n with
  | zero =>
    intro r r' xs h
    cases h
    rfl
  | succ n ih =>
    intro r r' xs h
    simp only [decodeElements, Option.bind_eq_bind, Option.bind_eq_some_iff, Prod.exists] at h
    obtain ⟨x, r₁, -, ys, r₂, hys, heq⟩ := h
    cases heq
    rw [List.length_cons, ih hys]

end Elements

end OpenRtdds
