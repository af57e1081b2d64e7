import OpenRtdds.Proof.TypeAnalysis

/-!
# What the codec writes

`serialize_members` walks a descriptor and a message. For a message within its bounds it
writes the chunks of the message's value, or it fails for a reason other than the size of the
buffer, and it succeeds exactly if the message can be read.

* `Writes`: the outcome of a step of the walk; `Writes.bind`, `Writes.elements` and
  `Writes.fields` put steps together.
* `serializeMembers_writes`: the walk, by induction over the levels of nesting.
* `serializeMembers_bounded`: a message that is serialized is within its bounds.
-/

namespace OpenRtdds

open Lib

/-- The outcome of writing into a buffer that is large enough: the chunks are written exactly
if `ok` holds. -/
def Writes (little : Bool) (ok : Prop) (cs : List Chunk)
    (f : CdrWriter → Except CodecFailure CdrWriter) : Prop :=
  ∀ w, w.Good → (w.byteOrder == .littleEndian) = little → w.Fits cs →
    (ok ∧ f w = .ok (w.put cs)) ∨ (¬ ok ∧ ∃ e, f w = .error e ∧ e.error ≠ .outputTooSmall)

namespace Writes

variable {little : Bool} {ok ok' : Prop} {cs ds : List Chunk}
  {f g : CdrWriter → Except CodecFailure CdrWriter}

theorem done : Writes little True [] .ok := fun w hw _ _ => .inl ⟨trivial, by rw [CdrWriter.put_nil]⟩

theorem refuses {e : CdrWriter → CodecFailure} (h : ¬ ok) (he : ∀ w, (e w).error ≠ .outputTooSmall) :
    Writes little ok cs fun w => .error (e w) :=
  fun w _ _ _ => .inr ⟨h, e w, rfl, he w⟩

theorem congr (h : Writes little ok cs f) (hok : ok ↔ ok') : Writes little ok' cs f := by
  intro w hw hl hfit
  rw [← hok]
  exact h w hw hl hfit

theorem bind (hf : Writes little ok cs f) (hg : Writes little ok' ds g) :
    Writes little (ok ∧ ok') (cs ++ ds) fun w => f w >>= g := by
  intro w hw hl hfit
  obtain ⟨hfit₁, hfit₂⟩ := (CdrWriter.fits_append hw cs ds).1 hfit
  rcases hf w hw hl hfit₁ with ⟨hok, heq⟩ | ⟨hno, e, heq, he⟩
  · have hbind : (f w >>= g) = g (w.put cs) := by rw [heq]; rfl
    rcases hg (w.put cs) (hw.put cs) hl hfit₂ with ⟨hok', heq'⟩ | ⟨hno, e, heq', he⟩
    · exact .inl ⟨⟨hok, hok'⟩, (hbind.trans heq').trans (by rw [CdrWriter.put_append hw])⟩
    · exact .inr ⟨fun h => hno h.2, e, hbind.trans heq', he⟩
  · refine .inr ⟨fun h => hno h.1, e, ?_, he⟩
    change (f w >>= g) = _
    rw [heq]
    rfl

theorem counted (hf : Writes little ok cs f) (count : ℕ) :
    Writes little ok ([intChunk little 4 count] ++ cs) fun w =>
      if (w.writeUint32 count).1 then f (w.writeUint32 count).2
      else .error (writerFailure (w.writeUint32 count).2) := by
  intro w hw hl hfit
  subst hl
  obtain ⟨hfit₁, hfit₂⟩ := (CdrWriter.fits_append hw _ cs).1 hfit
  have hcount := CdrWriter.writeIntegral_put hw (.inr (.inr (.inl rfl))) count hfit₁
  simp only [CdrWriter.writeUint32, hcount, if_true, ← CdrWriter.put_append hw]
  exact hf _ (hw.put _) rfl hfit₂

theorem elements {S M : Type} {E : Type} {view : Element S M → E} {ok : Element S M → Prop}
    {chunks : E → List Chunk} {serialize : Element S M → CdrWriter → Except CodecFailure CdrWriter}
    {es : List (Element S M)} (h : ∀ e ∈ es, Writes little (ok e) (chunks (view e)) (serialize e)) :
    Writes little (∀ e ∈ es, ok e) ((es.map view).flatMap chunks) (serializeElements serialize es) := by
  induction es with
  | nil => exact done.congr (by simp)
  | cons e es ih =>
    rw [List.forall_mem_cons] at h
    exact (h.1.bind (ih h.2)).congr (by rw [List.forall_mem_cons])

theorem fields {S M : Type} {F : Type} {view : Field S M → F} {ok : Member → Field S M → Prop}
    {chunks : Member → F → List Chunk}
    {serialize : Member → Field S M → CdrWriter → Except CodecFailure CdrWriter}
    {members : List Member} {v : List (Field S M)}
    (h : List.Forall₂ (fun member field =>
      Writes little (ok member field) (chunks member (view field)) (serialize member field)) members v) :
    Writes little (List.Forall₂ ok members v) (List.zipWith chunks members (v.map view)).flatten
      (serializeFields serialize members v) := by
  induction h with
  | nil => exact done.congr (by simp)
  | cons hfield _ ih => exact (hfield.bind ih).congr (by rw [List.forall₂_cons])

end Writes

/-- What the proofs need of the strings of a language. -/
structure StringStorage.Lawful {S : Type} (strings : StringStorage S) : Prop where
  sized : ∀ {s span}, strings.load s = some span → span.size = span.data.length
  stored : ∀ {s t}, strings.fits s t.length = true → strings.load (strings.assign s t) = some (.bytes t)
  same : ∀ {s t}, strings.fits s t.length = true → Loads strings s t → strings.assign s t = s

/-- Assigning a string changes it, unless it already has the characters. -/
theorem StringStorage.Lawful.assign_eq_iff {S : Type} {strings : StringStorage S}
    (hs : strings.Lawful) {s : S} {t : Text} (hfits : strings.fits s t.length = true) :
    strings.assign s t = s ↔ Loads strings s t := by
  refine ⟨fun h => ⟨.bytes t, ?_, rfl⟩, hs.same hfits⟩
  have hload := hs.stored hfits
  rwa [h] at hload

theorem cStrings_lawful : cStrings.Lawful where
  sized := by
    intro s span h
    simp only [cStrings] at h
    split at h <;> split at h <;> cases h <;> rfl
  stored := by
    intro s t h
    simp only [cStrings, Bool.and_eq_true, decide_eq_true_eq] at h
    obtain ⟨hsome, hcap⟩ := h
    obtain ⟨d, hd⟩ := Option.isSome_iff_exists.1 hsome
    have hlen := s.owned d hd
    have hzero : byteAt ((t ++ 0 :: d.drop (t.length + 1)).take s.capacity) t.length = 0 := by
      simp [byteAt, List.getD, hcap]
    have htake : ((t ++ 0 :: d.drop (t.length + 1)).take s.capacity).take t.length = t := by
      rw [List.take_take, Nat.min_eq_left hcap.le, List.take_left]
    simp only [cStrings, hd, Option.map_some]
    rw [if_neg (not_or.2 ⟨Nat.not_le.2 hcap, not_not.2 hzero⟩), htake]
  same := by
    rintro ⟨_ | d, size, capacity, howned⟩ t hfits ⟨span, hload, rfl⟩
    · cases hfits
    have hlen := howned d rfl
    simp only [cStrings] at hload
    split at hload
    · cases hload
    rename_i hstate
    cases hload
    obtain ⟨hsize, hzero⟩ := not_or.1 hstate
    have hget : size < d.length := by omega
    have hnul : d[size] = 0 := by simpa [byteAt, hget] using hzero
    -- the characters, the terminator and the rest are the storage as it was
    have hdata : (d.take size ++ 0 :: d.drop (size + 1)).take capacity = d := by
      rw [← hnul, ← List.drop_eq_getElem_cons hget, List.take_append_drop, List.take_of_length_le hlen.le]
    simp [cStrings, Span.data, hget.le, hdata]

theorem cppStrings_lawful : cppStrings.Lawful where
  sized := by
    intro s span h
    cases h
    rfl
  stored := by
    intro s t h
    simp only [cppStrings, decide_eq_true_eq] at h
    simp only [cppStrings, List.take_of_length_le h]
  same := by
    rintro ⟨content, capacity, hbound⟩ t - ⟨span, hload, rfl⟩
    cases hload
    simp [cppStrings, Span.data, hbound]

theorem stringsOf_lawful (language : TypeSupportLanguage) : (stringsOf language).Lawful := by
  cases language
  · exact cStrings_lawful
  · exact cppStrings_lawful

theorem writeScalar_put {little : Bool} {typeId : FieldType} {width bits : ℕ}
    (hwidth : scalarLayout typeId = some width) (hbool : typeId = .boolean → bits < 2)
    {w : CdrWriter} (hw : w.Good) (hl : (w.byteOrder == .littleEndian) = little)
    (hfit : w.Fits [intChunk little width bits]) :
    writeScalar typeId bits w = .ok (w.put [intChunk little width bits]) := by
  subst hl
  have hput := CdrWriter.writeIntegral_put hw (scalarLayout_width hwidth) bits hfit
  unfold writeScalar
  cases typeId <;> simp only [scalarLayout, Option.some.injEq, reduceCtorEq] at hwidth <;>
    subst hwidth
  case boolean =>
    have hbit : (if (bits != 0) = true then 1 else 0) = bits := by
      have := hbool rfl
      by_cases hz : bits = 0
      · simp [hz]
      · simp [hz]
        omega
    simp only [CdrWriter.writeBool, CdrWriter.writeUint8, hbit, hput, if_true]
  all_goals simp only [CdrWriter.writeUint8, CdrWriter.writeUint16, CdrWriter.writeUint32,
    CdrWriter.writeUint64, hput, if_true]

section Walk

variable {S M N : Type} {strings : StringStorage S} {little : Bool} {view : M → N}
  {inBounds : Pointer → N → Prop} {nestedReady : Pointer → M → Prop}
  {chunks : Pointer → N → List Chunk}
  {serialize : Pointer → M → CdrWriter → Except CodecFailure CdrWriter} {member : Member}
  (hs : strings.Lawful) (hadm : member.Admissible)
  (hnested : ∀ p v, nestedMembers member = some p → member.typeId = .message →
    inBounds p (view v) → Writes little (nestedReady p v) (chunks p (view v)) (serialize p v))

include hs hadm hnested in
theorem serializeValue_writes {e : Element S M}
    (he : ElementMeets (bounded (· ≤ ·)) inBounds member (e.map strings.text view)) :
    Writes little (ElementMeets (ready strings) nestedReady member e)
      (elementChunks little chunks member (e.map strings.text view))
      (serializeValue strings serialize member e) := by
  cases e with
  | scalar bits =>
    cases he with
    | scalar width hwidth hbits =>
      intro w hw hl hfit
      simp only [Element.map, elementChunks, hwidth, Option.getD_some] at hfit ⊢
      refine .inl ⟨.scalar width hwidth trivial, ?_⟩
      have heq : serializeValue strings serialize member (.scalar bits) w =
          writeScalar member.typeId bits w := by
        unfold serializeValue
        cases member.typeId <;> rfl
      rw [heq]
      exact writeScalar_put hwidth hbits.2 hw hl hfit
  | text s =>
    cases he with
    | text htype hlen =>
      cases hload : strings.load s with
      | none =>
        have hfun : serializeValue strings serialize member (.text s) = fun w =>
            .error { error := .invalidMessageStorage, bytesProcessed := w.size } := by
          funext w
          simp only [serializeValue, htype, hload]
        rw [hfun]
        refine .refuses ?_ fun w => by simp
        rintro (_ | ⟨-, h⟩ | _)
        simp [ready, hload] at h
      | some span =>
        have htext : strings.text s = span.data := by simp [StringStorage.text, hload]
        have hsize := hs.sized hload
        have hbound : span.data.length ≤ member.stringUpperBound := htext ▸ hlen
        have hmax := hadm.text htype
        intro w hw hl hfit
        subst hl
        simp only [Element.map, elementChunks, htext] at hfit ⊢
        refine .inl ⟨.text htype (by simp [ready, hload]), ?_⟩
        simp only [serializeValue, htype, hload]
        rw [if_neg (by omega), CdrWriter.writeString_put hw rfl hsize hbound (by omega) hfit]
        rfl
  | nested v =>
    cases he with
    | @nested p _ htype hp hv =>
      have hfun : serializeValue strings serialize member (.nested v) = serialize p v := by
        funext w
        simp only [serializeValue, htype, hp]
      rw [hfun]
      simp only [Element.map, elementChunks, hp, Option.elim]
      refine (hnested p v hp htype hv).congr ⟨fun h => .nested htype hp h, fun h => ?_⟩
      cases h with
      | nested _ hp' h =>
        cases hp.symm.trans hp'
        exact h

theorem serializeField_unreadable (harray : member.isArray = true) (hread : ¬ member.readable = true)
    (es : List (Element S M)) (w : CdrWriter) :
    serializeField strings serialize member (.array es) w =
      .error { error := .callbackMissing, bytesProcessed := w.size } := by
  simp only [serializeField, harray]
  exact if_pos (by simp [hread])

/-- A count beyond 32 bits is refused, also for an array, whose count is not written. -/
theorem serializeField_many (harray : member.isArray = true) (hread : member.readable = true)
    {es : List (Element S M)} (hmany : es.length > uint32Max) (w : CdrWriter) :
    serializeField strings serialize member (.array es) w =
      .error { error := .fieldBoundExceeded, bytesProcessed := w.size } := by
  simp only [serializeField, harray]
  exact (if_neg (by simp [hread])).trans (if_pos (.inr (.inr hmany)))

include hs hadm hnested in
theorem serializeField_writes {field : Field S M}
    (hf : FieldMeets (bounded (· ≤ ·)) inBounds member (field.map strings.text view)) :
    Writes little (FieldMeets (ready strings) nestedReady member field)
      (fieldChunks little chunks member (field.map strings.text view))
      (serializeField strings serialize member field) := by
  cases field with
  | single e =>
    cases hf with
    | single harray he =>
      have hfun : serializeField strings serialize member (.single e) =
          serializeValue strings serialize member e := by
        funext w
        simp only [serializeField, harray]
      rw [hfun]
      refine (serializeValue_writes hs hadm hnested he).congr ⟨fun h => .single harray h, fun h => ?_⟩
      cases h with
      | single _ h => exact h
  | array es =>
    cases hf with
    | array harray hcount hes =>
      rw [List.length_map] at hcount
      have helements : Writes little (∀ e ∈ es, ElementMeets (ready strings) nestedReady member e)
          ((es.map (Element.map strings.text view)).flatMap (elementChunks little chunks member))
          (serializeElements (serializeValue strings serialize member) es) :=
        .elements fun e he =>
          serializeValue_writes hs hadm hnested (hes _ (List.mem_map_of_mem he))
      by_cases hread : member.readable = true
      swap
      · rw [funext (serializeField_unreadable harray hread es)]
        refine .refuses ?_ fun w => by simp
        rintro (_ | ⟨-, h, -⟩)
        exact hread h.1
      by_cases hmany : es.length > uint32Max
      · rw [funext (serializeField_many harray hread hmany)]
        refine .refuses ?_ fun w => by simp
        rintro (_ | ⟨-, h, -⟩)
        exact Nat.not_le.2 hmany h.2
      -- the count is in order: the elements follow, after the count if it is a sequence
      have hok : (∀ e ∈ es, ElementMeets (ready strings) nestedReady member e) ↔
          FieldMeets (ready strings) nestedReady member (.array es) := by
        refine ⟨fun h => .array harray ⟨hread, Nat.not_lt.1 hmany⟩ h, fun h => ?_⟩
        cases h with
        | array _ _ h => exact h
      have hbound : ¬ (member.isUpperBound ∧ es.length > member.arraySize ∨
          ¬ member.isUpperBound ∧ es.length ≠ member.arraySize ∨ es.length > uint32Max) := by
        simp only [bounded] at hcount
        split at hcount <;> rename_i hupper <;> simp [hupper] <;> omega
      have hbody : ∀ w, serializeField strings serialize member (.array es) w =
          if member.isUpperBound then
            if (w.writeUint32 es.length).1 then
              serializeElements (serializeValue strings serialize member) es
                (w.writeUint32 es.length).2
            else .error (writerFailure (w.writeUint32 es.length).2)
          else serializeElements (serializeValue strings serialize member) es w := by
        intro w
        simp only [serializeField, harray]
        exact (if_neg (by simp [hread])).trans (if_neg hbound)
      rw [funext hbody]
      simp only [Field.map, fieldChunks, List.length_map]
      cases member.isUpperBound with
      | false => exact helements.congr hok
      | true => exact (helements.counted es.length).congr hok

end Walk

/-- **The walk of `serialize_members`.** -/
theorem serializeMembers_writes {S : Type} {strings : StringStorage S} (hs : strings.Lawful)
    {memory : Memory} (little : Bool) (depth : ℕ) : ∀ {pointer : Pointer} {v : Message S depth},
    AllMembers Member.Admissible memory depth pointer →
    Meets (bounded (· ≤ ·)) memory depth pointer (Message.view strings depth v) →
    Writes little (Meets (ready strings) memory depth pointer v)
      (messageChunks little memory depth pointer (Message.view strings depth v))
      (serializeMembers strings memory depth pointer v) := by
  induction depth with
  | zero => intro _ v; cases v
  | succ depth ih =>
    intro pointer v hall hv
    refine Writes.fields ?_
    have hfields := (List.forall₂_and_left _ _).2 ⟨hall, List.forall₂_map_right_iff.1 hv⟩
    refine hfields.imp fun member field ⟨⟨hadm, hnested⟩, hfield⟩ => ?_
    refine serializeField_writes hs hadm ?_ hfield
    intro p v hp ht hin
    exact ih (hnested ht p hp) hin

section Bounded

variable {S M N : Type} {strings : StringStorage S} {view : M → N}
  {inBounds : Pointer → N → Prop} {nestedTyped : Pointer → M → Prop}
  {serialize : Pointer → M → CdrWriter → Except CodecFailure CdrWriter} {member : Member}
  (hs : strings.Lawful)
  (hnested : ∀ p v w w', nestedMembers member = some p → nestedTyped p v →
    serialize p v w = .ok w' → inBounds p (view v))

include hs hnested in
theorem serializeValue_bounded {e : Element S M} (he : ElementMeets typed nestedTyped member e) {w w' : CdrWriter}
    (h : serializeValue strings serialize member e w = .ok w') :
    ElementMeets (bounded (· ≤ ·)) inBounds member (e.map strings.text view) := by
  cases he with
  | scalar width hwidth hbits => exact .scalar width hwidth hbits
  | @text s htype =>
    cases hload : strings.load s with
    | none =>
      simp only [serializeValue, htype, hload] at h
      cases h
    | some span =>
      simp only [serializeValue, htype, hload] at h
      have htext : strings.text s = span.data := by simp [StringStorage.text, hload]
      have hsize := hs.sized hload
      by_cases hbound : span.size > member.stringUpperBound
      · rw [if_pos hbound] at h
        cases h
      · refine .text htype ?_
        show (strings.text s).length ≤ member.stringUpperBound
        rw [htext]
        omega
  | @nested p v htype hp hv =>
    simp only [serializeValue, htype, hp] at h
    exact .nested htype hp (hnested p v w w' hp hv h)

theorem serializeElements_ok {f : Element S M → CdrWriter → Except CodecFailure CdrWriter} :
    ∀ {es : List (Element S M)} {w w' : CdrWriter}, serializeElements f es w = .ok w' →
    ∀ e ∈ es, ∃ w w', f e w = .ok w' := by
  intro es
  induction es with
  | nil => exact fun _ e he => absurd he List.not_mem_nil
  | cons a es ih =>
    intro w w' h e he
    unfold serializeElements at h
    cases ha : f a w with
    | error _ =>
      rw [ha] at h
      cases h
    | ok w1 =>
      rw [ha] at h
      rcases List.mem_cons.1 he with rfl | he
      · exact ⟨w, w1, ha⟩
      · exact ih h e he

include hs hnested in
theorem serializeField_bounded {field : Field S M} (hf : FieldMeets typed nestedTyped member field) {w w' : CdrWriter}
    (h : serializeField strings serialize member field w = .ok w') :
    FieldMeets (bounded (· ≤ ·)) inBounds member (field.map strings.text view) := by
  cases hf with
  | single harray he =>
    simp only [serializeField, harray] at h
    exact .single harray (serializeValue_bounded hs hnested he h)
  | @array es harray _ hes =>
    simp only [serializeField, harray] at h
    split_ifs at h with hread hcount hupper hwrite
    -- the count was in order, for a sequence and for an array
    · refine .array harray ?_ ?_
      · rw [List.length_map]
        simp only [bounded, hupper, if_true]
        simp only [hupper, true_and, not_or] at hcount
        omega
      · intro e he
        obtain ⟨e', he', rfl⟩ := List.mem_map.1 he
        obtain ⟨w1, w2, hw⟩ := serializeElements_ok h e' he'
        exact serializeValue_bounded hs hnested (hes e' he') hw
    · refine .array harray ?_ ?_
      · rw [List.length_map]
        simp only [bounded, hupper]
        simp only [hupper, not_or] at hcount
        simpa using hcount.2.1
      · intro e he
        obtain ⟨e', he', rfl⟩ := List.mem_map.1 he
        obtain ⟨w1, w2, hw⟩ := serializeElements_ok h e' he'
        exact serializeValue_bounded hs hnested (hes e' he') hw

end Bounded

/-- **A message that is serialized is within its bounds**: the walk checks them. -/
theorem serializeMembers_bounded {S : Type} {strings : StringStorage S} (hs : strings.Lawful)
    {memory : Memory} (depth : ℕ) : ∀ {pointer : Pointer} {v : Message S depth} {w w' : CdrWriter},
    Meets typed memory depth pointer v →
    serializeMembers strings memory depth pointer v w = .ok w' →
    Meets (bounded (· ≤ ·)) memory depth pointer (Message.view strings depth v) := by
  induction depth with
  | zero => intro _ v; cases v
  | succ depth ih =>
    intro pointer v w w' hv h
    change List.Forall₂ _ (memory pointer).list v at hv
    refine List.forall₂_map_right_iff.2 ?_
    unfold serializeMembers at h
    generalize (memory pointer).list = members at hv h
    induction hv generalizing w with
    | nil => exact .nil
    | @cons member field members fields hfield _ ihs =>
      unfold serializeFields at h
      cases hone : serializeField strings (serializeMembers strings memory depth) member field w with
      | error e =>
        rw [hone] at h
        cases h
      | ok w1 =>
        rw [hone] at h
        refine .cons (serializeField_bounded hs ?_ hfield hone) (ihs h)
        exact fun p v w w' _ htyped hok => ih htyped hok

end OpenRtdds
