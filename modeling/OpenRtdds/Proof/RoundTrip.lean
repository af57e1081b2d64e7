import OpenRtdds.Proof.Atomicity

/-!
# The codec round trip

Messages of the C and the C++ introspection of one schema that represent the same value have
the same bytes, and these bytes give the value back in either language.

* `SameSchema.chunks`: the bytes depend on the schema only.
* `Represents.ready`: with generated callbacks a message that represents a value can be read.
* `Descriptor.deserialize_encoding`: the bytes of a value are read into every destination that
  accommodates it.
* `xcdr1_round_trip`: the round trip.
-/

namespace OpenRtdds

open Lib

section Schema

variable {N : Type} {related : Pointer → Pointer → Prop} {a b : Member} {within : ℕ → ℕ → Prop}
  {meets meets' : Pointer → N → Prop} {chunks chunks' : Pointer → N → List Chunk}

theorem SameMember.element (hab : SameMember related a b) (little : Bool)
    (hmeets : ∀ p q m, related p q → meets p m → meets' q m ∧ chunks p m = chunks' q m)
    {e : Element Text N} (he : ElementMeets (bounded within) meets a e) :
    ElementMeets (bounded within) meets' b e ∧
      elementChunks little chunks a e = elementChunks little chunks' b e := by
  cases he with
  | scalar width hwidth hbits =>
    refine ⟨.scalar width (hab.typeId ▸ hwidth) ?_, ?_⟩
    · simpa only [bounded, hab.typeId] using hbits
    · simp only [elementChunks, hab.typeId]
  | text htype hlen =>
    refine ⟨.text (hab.typeId ▸ htype) ?_, rfl⟩
    simpa only [bounded, hab.stringUpperBound] using hlen
  | @nested p m htype hp hm =>
    obtain ⟨p', q, hp', hq, hpq⟩ := hab.members htype
    cases hp.symm.trans hp'
    obtain ⟨hm', hchunks⟩ := hmeets p q m hpq hm
    refine ⟨.nested (hab.typeId ▸ htype) hq hm', ?_⟩
    simp only [elementChunks, hp, hq, Option.elim, hchunks]

theorem SameMember.field (hab : SameMember related a b) (little : Bool)
    (hmeets : ∀ p q m, related p q → meets p m → meets' q m ∧ chunks p m = chunks' q m)
    {f : Field Text N} (hf : FieldMeets (bounded within) meets a f) :
    FieldMeets (bounded within) meets' b f ∧
      fieldChunks little chunks a f = fieldChunks little chunks' b f := by
  cases hf with
  | single harray he =>
    obtain ⟨he', hchunks⟩ := hab.element little hmeets he
    exact ⟨.single (hab.isArray ▸ harray) he', hchunks⟩
  | array harray hcount hes =>
    have helements := fun e he => hab.element little hmeets (hes e he)
    refine ⟨.array (hab.isArray ▸ harray) ?_ fun e he => (helements e he).1, ?_⟩
    · simpa only [bounded, hab.isUpperBound, hab.arraySize] using hcount
    · simp only [fieldChunks, hab.isUpperBound, List.flatMap]
      rw [List.map_congr_left fun e he => (helements e he).2]

end Schema

/-- **Values and their bytes depend on the schema only.** -/
theorem SameSchema.chunks {memory memory' : Memory} {within : ℕ → ℕ → Prop} (little : Bool)
    (depth : ℕ) : ∀ {p q : Pointer} {m : Message Text depth}, SameSchema memory memory' depth p q →
    Meets (bounded within) memory depth p m →
    Meets (bounded within) memory' depth q m ∧
      messageChunks little memory depth p m = messageChunks little memory' depth q m := by
  induction depth with
  | zero => intro _ _ m; cases m
  | succ depth ih =>
    intro p q m hsame hm
    change List.Forall₂ _ (memory p).list (memory' q).list at hsame
    change List.Forall₂ _ (memory p).list m at hm
    change List.Forall₂ _ (memory' q).list m ∧
      (List.zipWith _ (memory p).list m).flatten = (List.zipWith _ (memory' q).list m).flatten
    generalize (memory p).list = as at hsame hm ⊢
    generalize (memory' q).list = bs at hsame ⊢
    induction hsame generalizing m with
    | nil =>
      cases hm
      exact ⟨.nil, rfl⟩
    | cons hab _ ihs =>
      cases hm with
      | cons hf hfs =>
        have hnext : ∀ p q m, SameSchema memory memory' depth p q →
            Meets (bounded within) memory depth p m → Meets (bounded within) memory' depth q m ∧
              messageChunks little memory depth p m = messageChunks little memory' depth q m :=
          fun p q m hpq hm => ih hpq hm
        obtain ⟨hf', hchunks⟩ := hab.field little hnext hf
        obtain ⟨hfs', hrest⟩ := ihs hfs
        refine ⟨.cons hf' hfs', ?_⟩
        simp only [List.zipWith_cons_cons, List.flatten_cons, hchunks, hrest]

theorem SameSchema.allMembers {P : Member → Prop} {memory memory' : Memory}
    (hP : ∀ {related : Pointer → Pointer → Prop} {a b}, SameMember related a b → P a → P b)
    {depth : ℕ} : ∀ {p q}, SameSchema memory memory' depth p q → AllMembers P memory depth p →
      AllMembers P memory' depth q := by
  induction depth with
  | zero => intro _ _ _ _; trivial
  | succ depth ih =>
    intro p q hsame hall
    have hboth := (List.forall₂_and_left _ _).2 ⟨hall, hsame⟩
    refine ((List.forall₂_and_left (R := fun _ _ => True) _ _).1 (hboth.flip.imp ?_)).1
    rintro b a ⟨⟨ha, hnested⟩, hab⟩
    refine ⟨⟨hP hab ha, fun ht q' hq' => ?_⟩, trivial⟩
    have hta : a.typeId = .message := hab.typeId.trans ht
    obtain ⟨p', q, hp', hq, hpq⟩ := hab.members hta
    cases hq.symm.trans hq'
    exact ih hpq (hnested hta p' hp')

theorem Member.readable_of_generated {member : Member} (h : member.generated = true)
    (harray : member.isArray = true) : member.readable = true ∧ member.callbacks.size = true ∧
      ∀ apply, member.reachable apply = true := by
  simp only [generated, harray, Bool.not_true, Bool.false_or, Bool.and_eq_true, Bool.or_eq_true] at h
  obtain ⟨hsize, hget | hbool⟩ := h
  · refine ⟨by simp [readable, hsize, hget.1], hsize, fun apply => ?_⟩
    cases apply <;> simp [reachable, hget.1, hget.2]
  · refine ⟨by simp [readable, hsize, hbool.1.1, hbool.1.2], hsize, fun apply => ?_⟩
    simp [reachable, hbool.1.1, hbool.2]

section Places

variable {S M N : Type} {member : Member} {c : Checks Text} {meets : Pointer → N → Prop}
  {nested : Pointer → M → N → List (Place S)}

theorem forall_mem_places {A B : Type} {f : A → B → List (Place S)} {bs : List B} {P : Place S → Prop}
    (h : ∀ b ∈ bs, ∀ a, ∀ p ∈ f a b, P p) (as : List A) : ∀ p ∈ (List.zipWith f as bs).flatten, P p := by
  intro p hp
  rw [← List.map_uncurry_zip_eq_zipWith] at hp
  obtain ⟨_, hmem, hp⟩ := List.mem_flatten.1 hp
  obtain ⟨⟨a, b⟩, hab, rfl⟩ := List.mem_map.1 hmem
  exact h b (List.of_mem_zip hab).2 a p hp

variable
  (hnested : ∀ q v m, nestedMembers member = some q → member.typeId = .message → meets q m →
    ∀ p ∈ nested q v m, p.Checked ∧ p.storable = true)

include hnested in
theorem elementPlaces_generated {m : Element Text N} (hm : ElementMeets c meets member m) (v : Element S M) :
    ∀ p ∈ elementPlaces nested member v m, p.Checked ∧ p.storable = true := by
  cases hm with
  | scalar => cases v <;> simp [elementPlaces, Place.Checked, Place.storable]
  | text => cases v <;> simp [elementPlaces, Place.Checked, Place.storable]
  | nested htype hq hm =>
    cases v with
    | nested v =>
      simp only [elementPlaces, hq, Option.elim]
      exact hnested _ v _ hq htype hm
    | _ => simp [elementPlaces]

include hnested in
theorem fieldPlaces_generated (hgen : member.generated = true) {m : Field Text N}
    (hm : FieldMeets c meets member m) (v : Field S M) :
    ∀ p ∈ fieldPlaces nested member v m, p.Checked ∧ p.storable = true := by
  cases hm with
  | single _ hm =>
    cases v with
    | single v => exact elementPlaces_generated hnested hm v
    | array vs => simp [fieldPlaces]
  | array harray _ hms =>
    cases v with
    | single v => simp [fieldPlaces]
    | array vs =>
      obtain ⟨-, hsize, hreach⟩ := Member.readable_of_generated hgen harray
      exact List.forall_mem_cons.2 ⟨⟨Place.checked_array.2 ⟨hsize, hreach false⟩, hreach true⟩,
        forall_mem_places (fun m hm => elementPlaces_generated hnested (hms m hm)) vs⟩

end Places

/-- The arrays of a value of a type with generated callbacks have those of both passes. -/
theorem messagePlaces_generated {S : Type} {c : Checks Text} {memory : Memory} (depth : ℕ) :
    ∀ {pointer : Pointer} {m : Message Text depth},
      AllMembers (fun member => member.generated = true) memory depth pointer →
      Meets c memory depth pointer m → ∀ (v : Message S depth),
        ∀ p ∈ messagePlaces memory depth pointer v m, p.Checked ∧ p.storable = true := by
  induction depth with
  | zero => intro _ m; cases m
  | succ depth ih =>
    intro pointer m hgen hm v
    refine forall_mem_places (fun value hvalue field => ?_) v
    obtain ⟨hmember, hnested⟩ := hgen _ (List.of_mem_zip hvalue).1
    exact fieldPlaces_generated (fun q v m hq ht hm => ih (hnested ht q hq) hm v) hmember
      ((List.forall₂_iff_zip.1 hm).2 hvalue) field

theorem map_eq_of_forall₂ {A B : Type} {f : A → B} {Q : A → Prop} {as : List A} {bs : List B}
    (h : List.Forall₂ (fun a b => f a = b ∧ Q a) as bs) : as.map f = bs ∧ ∀ a ∈ as, Q a := by
  induction h with
  | nil => exact ⟨rfl, by simp⟩
  | cons hab _ ih => exact ⟨by rw [List.map_cons, hab.1, ih.1], List.forall_mem_cons.2 ⟨hab.2, ih.2⟩⟩

section Represents

variable {S M N : Type} {strings : StringStorage S} {member : Member} {view : M → N}
  {meets : Pointer → N → Prop} {readies : Pointer → M → Prop} {represents : M → N → Prop}
  (hnested : ∀ p v m, nestedMembers member = some p → member.typeId = .message → meets p m →
    represents v m → view v = m ∧ readies p v)

include hnested in
theorem Element.Rel.ready {v : Element S M} {m : Element Text N} (hv : v.Rel (· = ·) (Loads strings) represents m)
    (hm : ElementMeets (bounded (· ≤ ·)) meets member m) :
    v.map strings.text view = m ∧ ElementMeets (ready strings) readies member v := by
  cases hv with
  | scalar heq =>
    cases heq
    cases hm with
    | scalar width hwidth _ => exact ⟨rfl, .scalar width hwidth trivial⟩
  | text hload =>
    obtain ⟨span, hspan, rfl⟩ := hload
    cases hm with
    | text htype _ =>
      refine ⟨?_, .text htype (by simp [OpenRtdds.ready, hspan])⟩
      simp [Element.map, StringStorage.text, hspan]
  | nested hrep =>
    cases hm with
    | nested htype hp hm =>
      obtain ⟨rfl, hready⟩ := hnested _ _ _ hp htype hm hrep
      exact ⟨rfl, .nested htype hp hready⟩

include hnested in
theorem Field.Rel.ready (hgen : member.generated = true)
    (hcounted : member.isArray = true → member.arraySize ≤ uint32Max)
    {v : Field S M} {m : Field Text N} (hv : v.Rel (· = ·) (Loads strings) represents m)
    (hm : FieldMeets (bounded (· ≤ ·)) meets member m) :
    v.map strings.text view = m ∧ FieldMeets (ready strings) readies member v := by
  cases hv with
  | single he =>
    cases hm with
    | single harray hme =>
      obtain ⟨heq, hready⟩ := he.ready hnested hme
      exact ⟨congrArg Field.single heq, .single harray hready⟩
  | @array vs ms hes =>
    cases hm with
    | array harray hcount hms =>
      have hboth := ((List.forall₂_and_left _ _).2 ⟨hms, hes.flip⟩).flip.imp
        fun _ _ h => Element.Rel.ready hnested h.2 h.1
      obtain ⟨heq, hready⟩ := map_eq_of_forall₂ hboth
      have hlen := hes.length_eq
      have hmax := hcounted harray
      refine ⟨congrArg Field.array heq,
        .array harray ⟨(Member.readable_of_generated hgen harray).1, ?_⟩ hready⟩
      simp only [bounded] at hcount
      split at hcount <;> omega

end Represents

/-- **A message that represents a value within bounds can be read**, and its value is that. -/
theorem Represents.ready {S : Type} {strings : StringStorage S} {memory : Memory} (depth : ℕ) :
    ∀ {pointer : Pointer} {v : Message S depth} {m : Message Text depth},
    AllMembers (fun member => member.generated = true) memory depth pointer →
    AllMembers (fun member => member.isArray = true → member.arraySize ≤ uint32Max) memory depth
      pointer →
    Meets (bounded (· ≤ ·)) memory depth pointer m → Represents strings depth v m →
    Message.view strings depth v = m ∧ Meets (OpenRtdds.ready strings) memory depth pointer v := by
  induction depth with
  | zero => intro _ v; cases v
  | succ depth ih =>
    intro pointer v m hgen hcounted hm hv
    change List.Forall₂ _ (memory pointer).list m at hm
    change List.Forall₂ _ v m at hv
    change List.map _ v = m ∧ List.Forall₂ _ (memory pointer).list v
    change ∀ member ∈ (memory pointer).list, _ at hgen
    change ∀ member ∈ (memory pointer).list, _ at hcounted
    generalize (memory pointer).list = members at hgen hcounted hm ⊢
    induction hm generalizing v with
    | nil =>
      cases hv
      exact ⟨rfl, .nil⟩
    | @cons member _ _ _ hfield _ ihm =>
      cases hv with
      | cons hvf hvs =>
        obtain ⟨⟨hg, hgn⟩, hgs⟩ := List.forall_mem_cons.1 hgen
        obtain ⟨⟨hc, hcn⟩, hcs⟩ := List.forall_mem_cons.1 hcounted
        have hnext : ∀ p v m, nestedMembers member = some p → member.typeId = .message →
            Meets (bounded (· ≤ ·)) memory depth p m → Represents strings depth v m →
            Message.view strings depth v = m ∧ Meets (OpenRtdds.ready strings) memory depth p v :=
          fun p v m hp ht hm hv => ih (hgn ht p hp) (hcn ht p hp) hm hv
        obtain ⟨heq, hready⟩ := Field.Rel.ready hnext hg hc hvf hfield
        obtain ⟨heqs, hreadies⟩ := ihm hvs hgs hcs
        refine ⟨?_, .cons hready hreadies⟩
        rw [List.map_cons, heqs]
        exact congrArg (· :: _) heq

namespace Descriptor

variable {language : TypeSupportLanguage} (D : Descriptor language)

/-- A message that represents a value within bounds serializes to the bytes of the value. -/
theorem serialize_value (hgen : D.Generated) (hcounted : D.Counted)
    {m : Message Text maximumTypeNestingDepth}
    (hm : Meets (bounded (· ≤ ·)) D.memory maximumTypeNestingDepth D.root m) {order : ByteOrder}
    (ho : order = .bigEndian ∨ order = .littleEndian) {v : Sample language}
    (hv : Represents (stringsOf language) _ v m) :
    D.serialize v D.limit order = .ok (D.encoding order m) ∧
      (D.encoding order m).length ≤ D.limit := by
  obtain ⟨-, -, -, -, hlimit⟩ := D.analysed
  obtain ⟨rfl, hready⟩ := Represents.ready _ hgen hcounted hm hv
  refine ⟨?_, (D.encoding_length_le hm).trans hlimit⟩
  rcases D.serialize_outcome ho hm hlimit D.machine with ⟨-, heq⟩ | ⟨hno, -⟩
  · exact heq
  · exact absurd hready hno

/-- The bytes of a value are read into every destination that accommodates it. -/
theorem deserialize_encoding (hgen : D.Generated) {m : Message Text maximumTypeNestingDepth}
    (hm : Meets (bounded (· ≤ ·)) D.memory maximumTypeNestingDepth D.root m) {order : ByteOrder}
    (ho : order = .bigEndian ∨ order = .littleEndian) {dest : Sample language}
    (hdest : Accommodates (stringsOf language) _ dest m)
    (hfit : (D.encoding order m).length ≤ D.limit) :
    ∃ dest', D.deserialize (.bytes (D.encoding order m)) dest =
        (.ok (D.encoding order m).length, dest') ∧
      Represents (stringsOf language) _ dest' m := by
  obtain ⟨-, -, hadm, -, -⟩ := D.analysed
  set chunks := messageChunks (order == .littleEndian) D.memory maximumTypeNestingDepth D.root m
    with hchunks
  set bytes := D.encoding order m with hbytes
  have hlength : bytes.length = 4 + endOfChunks chunks 0 := D.encoding_length order m
  obtain ⟨r, hbegin, hgood, horder, hposition, hbuffer⟩ :=
    CdrReader.begin_good bytes (by omega) (hfit.trans D.machine) ho
      (by simp [hbytes, encoding, byteAt]) (by simp [hbytes, encoding, byteAt])
  have hholds : r.Holds chunks := by
    unfold CdrReader.Holds CdrReader.body
    rw [hposition, hbuffer]
    exact Lib.Holds.of_encode chunks
  -- the value is decoded, so validation accepts it, and the store does not stop
  have hdecode := decodeMembers_chunks D.memory _ _ hadm.allMembers hm r hgood (by rw [horder]) hholds
  have hplaces := messagePlaces_generated _ hgen hm dest
  have hoffset : (r.moved chunks).offset = bytes.length := by
    rw [hlength, CdrReader.moved, hposition]
  have hremaining : (r.moved chunks).remaining = 0 := by
    simp only [CdrReader.remaining, hoffset]
    simp only [CdrReader.moved, hbuffer, Span.size, Nat.sub_self]
  have hvalid : D.Validates (.bytes bytes) dest m r (r.moved chunks) :=
    ⟨rfl, hfit, hbegin, hdecode, hremaining, hdest, fun p hp => (hplaces p hp).1⟩
  obtain ⟨hmessage, hok, -⟩ := D.deserialize_outcome hvalid
  have hstores := storeMembers_stores (stringsOf_lawful language) D.memory (bounded (· ≤ ·)) _ D.root
    dest m hdest
  have hfull := hstores.full.2 fun p hp => (hplaces p hp).2
  exact ⟨_, Prod.ext ((hok hfull).trans (by rw [hoffset])) hmessage, hstores.stored hm hfull⟩

end Descriptor

/-- **The codec round trip.** For two descriptors of one schema with generated callbacks and counts
of 32 bits, messages that represent one value within bounds serialize to the same bytes, and these
are deserialized into every destination that accommodates the value: all of them are consumed and
the destination represents the value. -/
theorem xcdr1_round_trip {language language' : TypeSupportLanguage} (D : Descriptor language)
    (D' : Descriptor language')
    (hschema : SameSchema D.memory D'.memory maximumTypeNestingDepth D.root D'.root)
    (hgen : D.Generated) (hgen' : D'.Generated) (hcounted : D.Counted)
    {m : Message Text maximumTypeNestingDepth}
    (hm : Meets (bounded (· ≤ ·)) D.memory maximumTypeNestingDepth D.root m) {order : ByteOrder}
    (ho : order = .bigEndian ∨ order = .littleEndian) {v : Sample language} {v' : Sample language'}
    (hv : Represents (stringsOf language) _ v m)
    (hv' : Represents (stringsOf language') _ v' m) :
    ∃ bytes, D.serialize v D.limit order = .ok bytes ∧ D'.serialize v' D'.limit order = .ok bytes ∧
      ∀ dest, Accommodates (stringsOf language') _ dest m →
        ∃ dest', D'.deserialize (.bytes bytes) dest = (.ok bytes.length, dest') ∧
          Represents (stringsOf language') _ dest' m := by
  obtain ⟨hm', hchunks⟩ := hschema.chunks (order == .littleEndian) _ hm
  have hcounted' : D'.Counted := hschema.allMembers
    (fun hab h ha => hab.arraySize ▸ h (hab.isArray.trans ha)) hcounted
  have hbytes : D'.encoding order m = D.encoding order m := by
    simp only [Descriptor.encoding, hchunks]
  have hserialize := D.serialize_value hgen hcounted hm ho hv
  obtain ⟨hserialize', hfit⟩ := D'.serialize_value hgen' hcounted' hm' ho hv'
  refine ⟨D.encoding order m, hserialize.1, hbytes ▸ hserialize', fun dest hdest => ?_⟩
  rw [← hbytes]
  exact D'.deserialize_encoding hgen' hm' ho hdest hfit

/-- The type of `sampleDescriptor` in C. -/
def sampleDescriptorC : Descriptor .introspectionC where
  memory := sampleMemory .introspectionC { size := true, getConst := true, get := true }
  handle := ⟨some .introspectionC, some 0⟩
  limit := 24
  info := ⟨.introspectionC, 24, 4, 2, ['p', ':', ':', 'd', 'd', 's', '_', ':', ':', 'M', '_']⟩
  accepted := rfl
  introspection := rfl
  machine := by decide

/-- The message `fullSample` in C. -/
def fullSampleC : Sample .introspectionC :=
  [.array [.scalar 1, .scalar 0],
    .single (.text ⟨some [97, 98, 99, 0], 3, 4, by rintro d ⟨⟩; rfl⟩),
    .array [.nested [.single (.scalar 7)], .nested [.single (.scalar 258)]]]

theorem sampleMemory_all {P : Member → Prop} {identifier : Identifier} {booleans : ArrayCallbacks}
    (h : ∀ member ∈ (sampleMemory identifier booleans 0).list, P member) (h' : P { typeId := .uint16 }) :
    AllMembers P (sampleMemory identifier booleans) maximumTypeNestingDepth 0 := by
  change ∀ member ∈ [_, _, _], P member at h
  simp only [List.forall_mem_cons] at h
  obtain ⟨h₁, h₂, h₃, -⟩ := h
  refine List.forall_mem_cons.2 ⟨⟨h₁, fun ht => nomatch ht⟩, List.forall_mem_cons.2
    ⟨⟨h₂, fun ht => nomatch ht⟩, List.forall_mem_singleton.2 ⟨h₃, ?_⟩⟩⟩
  rintro - nested ⟨⟩
  exact List.forall_mem_singleton.2 ⟨h', fun ht => nomatch ht⟩

theorem sampleDescriptors_sameSchema : SameSchema sampleDescriptor.memory sampleDescriptorC.memory
    maximumTypeNestingDepth sampleDescriptor.root sampleDescriptorC.root :=
  .cons ⟨rfl, rfl, rfl, rfl, rfl, fun h => nomatch h⟩ <|
  .cons ⟨rfl, rfl, rfl, rfl, rfl, fun h => nomatch h⟩ <|
  .cons ⟨rfl, rfl, rfl, rfl, rfl, fun _ => ⟨1, 1, rfl, rfl,
    .cons ⟨rfl, rfl, rfl, rfl, rfl, fun h => nomatch h⟩ .nil⟩⟩ .nil

theorem fullSample_represents :
    Represents cppStrings _ fullSample (Descriptor.value fullSample) :=
  .cons (.array (.cons (.scalar rfl) (.cons (.scalar rfl) .nil))) <|
  .cons (.single (.text ⟨_, rfl, rfl⟩)) <|
  .cons (.array (.cons (.nested (.cons (.single (.scalar rfl)) .nil))
    (.cons (.nested (.cons (.single (.scalar rfl)) .nil)) .nil))) .nil

theorem fullSampleC_represents :
    Represents cStrings _ fullSampleC (Descriptor.value fullSample) :=
  .cons (.array (.cons (.scalar rfl) (.cons (.scalar rfl) .nil))) <|
  .cons (.single (.text ⟨_, rfl, rfl⟩)) <|
  .cons (.array (.cons (.nested (.cons (.single (.scalar rfl)) .nil))
    (.cons (.nested (.cons (.single (.scalar rfl)) .nil)) .nil))) .nil

/-- The message goes from C++ to C, into every destination with room for its string. -/
theorem fullSample_round_trip :
    ∃ bytes, sampleDescriptor.serialize fullSample 64 .littleEndian = .ok bytes ∧
      sampleDescriptorC.serialize fullSampleC 24 .littleEndian = .ok bytes ∧
      ∀ dest, Accommodates cStrings _ dest (Descriptor.value fullSample) →
        ∃ dest', sampleDescriptorC.deserialize (.bytes bytes) dest = (.ok bytes.length, dest') ∧
          Represents cStrings _ dest' (Descriptor.value fullSample) :=
  xcdr1_round_trip sampleDescriptor sampleDescriptorC sampleDescriptors_sameSchema
    (sampleMemory_all (by decide) rfl) (sampleMemory_all (by decide) rfl)
    (sampleMemory_all (by decide) (by decide)) fullSample_atBounds.inBounds (.inr rfl)
    fullSample_represents fullSampleC_represents

/-- **A type whose messages have no bytes**: the analysis accepts an array of 2³² bytes, and the
codec refuses its message for every buffer. -/
theorem byteArray_no_round_trip :
    ∃ D : Descriptor .introspectionCpp, D.Generated ∧ D.InBounds (zeros 4294967296) ∧
      (∃ m, Represents cppStrings _ (zeros 4294967296) m) ∧
      ∀ capacity, D.info.maximumSerializedSize ≤ capacity → capacity ≤ uint64Max →
        D.serialize (zeros 4294967296) capacity .littleEndian =
          .error { error := .fieldBoundExceeded, bytesProcessed := 4 } := by
  obtain ⟨D, hD, hroot⟩ := arrayMemory_accepted (n := 4294967296) (by decide) (by decide)
  refine ⟨D, arrayMemory_generated hD hroot, (zeros_atBounds hD hroot).inBounds,
    ⟨Descriptor.value (zeros 4294967296), ?_⟩,
    fun capacity hcap hm => zeros_refused (by decide) hD hroot (.inr rfl) hcap hm⟩
  refine .cons (.array (List.forall₂_map_right_iff.2 (List.forall₂_same.2 fun e he => ?_))) .nil
  rw [List.eq_of_mem_replicate he]
  exact .scalar rfl

end OpenRtdds
