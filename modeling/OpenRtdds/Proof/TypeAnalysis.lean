import OpenRtdds.Proof.Cdr

/-!
# What the type analysis computes

`analyze_members` walks a descriptor and adds up slots. It accepts a type exactly if the type
is admitted, a condition on the descriptor alone, and the slots of its largest value end
within the limit; then it returns where they end.

* `Admitted`: the well-formed bounded types, by levels of nesting.
* `analyzeMembers_spec`, `analyzeTypeSupport_ok`, `analyzeTypeSupport_accepts`: the analysis decides that.
-/

namespace OpenRtdds

open Lib

/-- The outcome of an analysis step: it accepts exactly if `ok` holds and the slots fit. -/
def Analyses (ok : Prop) (slots : List Slot)
    (f : AnalysisState → Except TypeSupportError AnalysisState) : Prop :=
  ∀ s, s.offset ≤ s.bodyLimit → s.bodyLimit ≤ uint64Max →
    (ok ∧ endOf slots s.offset ≤ s.bodyLimit ∧
      ∃ s', f s = .ok s' ∧ s'.offset = endOf slots s.offset ∧ s'.bodyLimit = s.bodyLimit) ∨
    (¬ (ok ∧ endOf slots s.offset ≤ s.bodyLimit) ∧ ∃ e, f s = .error e)

namespace Analyses

variable {ok ok' : Prop} {slots slots' : List Slot}
  {f g : AnalysisState → Except TypeSupportError AnalysisState}

theorem refuses {e : TypeSupportError} (h : ¬ ok) : Analyses ok slots fun _ => .error e :=
  fun _ _ _ => .inr ⟨fun hok => h hok.1, e, rfl⟩

theorem done : Analyses True [] .ok := fun s hs _ => .inl ⟨trivial, hs, s, rfl, rfl, rfl⟩

theorem congr (h : Analyses ok slots f) (hok : ok ↔ ok')
    (hend : ∀ x, endOf slots x = endOf slots' x) : Analyses ok' slots' f := by
  intro s hs hm
  rw [← hok, ← hend]
  exact h s hs hm

/-- The recorded depth does not influence the analysis. -/
theorem deepened (h : Analyses ok slots f) (depth : ℕ → ℕ) :
    Analyses ok slots fun s => f { s with maximumDepth := depth s.maximumDepth } :=
  fun s hs hm => h { s with maximumDepth := depth s.maximumDepth } hs hm

theorem bind (hf : Analyses ok slots f) (hg : Analyses ok' slots' g) :
    Analyses (ok ∧ ok') (slots ++ slots') fun s => f s >>= g := by
  intro s hs hm
  rw [endOf_append]
  have hmono := le_endOf slots' (endOf slots s.offset)
  rcases hf s hs hm with ⟨hok, hfit, s₁, h₁, hoff, hlim⟩ | ⟨hno, e, he⟩
  · have hbind : (f s >>= g) = g s₁ := by rw [h₁]; rfl
    rcases hg s₁ (by omega) (by omega) with ⟨hok', hfit', s₂, h₂, hoff', hlim'⟩ | ⟨hno, e, he⟩
    · rw [hoff, hlim] at hfit'
      exact .inl ⟨⟨hok, hok'⟩, hfit', s₂, hbind.trans h₂, by rw [hoff', hoff],
        hlim'.trans hlim⟩
    · rw [hoff, hlim] at hno
      exact .inr ⟨fun h => hno ⟨h.1.2, h.2⟩, e, hbind.trans he⟩
  · refine .inr ⟨fun h => hno ⟨h.1.1, hmono.trans h.2⟩, e, ?_⟩
    change (f s >>= g) = _
    rw [he]
    rfl

theorem repeated (hf : Analyses ok slots f) (count : ℕ) :
    Analyses (count = 0 ∨ ok) (List.replicate count slots).flatten (repeatElement f count) := by
  induction count with
  | zero => exact done.congr (by simp) fun _ => rfl
  | succ count ih =>
    refine (hf.bind ih).congr ?_ fun x => ?_
    · simp only [Nat.succ_ne_zero, false_or]
      tauto
    · rw [List.replicate_succ, List.flatten_cons]

end Analyses

/-- `append_aligned` for an offset in range: its overflow check says nothing new. -/
theorem appendAligned_eq {a : ℕ} (ha : IntWidth a) (width : ℕ) {s : AnalysisState}
    (hs : s.offset ≤ uint64Max) :
    appendAligned s a width =
      if alignUp a s.offset + width > uint64Max then .error .arithmeticOverflow
      else if alignUp a s.offset + width > s.bodyLimit then .error .sampleLimitExceeded
      else .ok { s with
        offset := alignUp a s.offset + width
        maximumAlignment := if a > s.maximumAlignment then a else s.maximumAlignment } := by
  have hpad : s.offset + (if s.offset % a = 0 then 0 else a - s.offset % a) = alignUp a s.offset :=
    rfl
  unfold appendAligned
  rw [if_neg (by simp [ha.powerOfTwo])]
  simp only [hpad]
  by_cases hover : alignUp a s.offset + width > uint64Max
  · rw [if_pos hover, if_pos (by omega)]
  · rw [if_neg hover, if_neg (by omega)]

theorem appendAligned_spec {a : ℕ} (ha : IntWidth a) (width : ℕ) :
    Analyses True [⟨a, width⟩] fun s => appendAligned s a width := by
  intro s hs hm
  have hend : endOf [⟨a, width⟩] s.offset = alignUp a s.offset + width := rfl
  simp only [hend, appendAligned_eq ha width (hs.trans hm)]
  by_cases hover : alignUp a s.offset + width > uint64Max
  · rw [if_pos hover]
    exact .inr ⟨by omega, _, rfl⟩
  · rw [if_neg hover]
    by_cases hfit : alignUp a s.offset + width > s.bodyLimit
    · rw [if_pos hfit]
      exact .inr ⟨by omega, _, rfl⟩
    · rw [if_neg hfit]
      exact .inl ⟨trivial, by omega, _, rfl, rfl, rfl⟩

/-- The types of elements that the analysis admits. -/
def ElementAdmitted (nested : Pointer → Prop) (language : TypeSupportLanguage) (member : Member) :
    Prop :=
  match scalarLayout member.typeId with
  | some _ => True
  | none =>
    match member.typeId with
    | .string => 0 < member.stringUpperBound ∧ member.stringUpperBound < uint32Max
    | .message => ∃ pointer, nestedPointer language member = .ok pointer ∧ nested pointer
    | _ => False

/-- The members that the analysis admits. -/
structure MemberAdmitted (nested : Pointer → Prop) (language : TypeSupportLanguage)
    (member : Member) : Prop where
  named : member.named = true
  size : member.isArray = true → 0 < member.arraySize
  count : member.isArray = true → member.isUpperBound = true → member.arraySize ≤ uint32Max
  element : ElementAdmitted nested language member

/-- The types of at most so many levels that the analysis admits below the records in `stack`. -/
def Admitted (memory : Memory) (language : TypeSupportLanguage) : ℕ → List Pointer → Pointer → Prop
  | 0, _, _ => False
  | levels + 1, stack, pointer =>
    (memory pointer).wellFormed = true ∧ pointer ∉ stack ∧
      ∀ member ∈ (memory pointer).list, member.offset < (memory pointer).sizeOf ∧
        MemberAdmitted (Admitted memory language levels (stack ++ [pointer])) language member

section Spec

variable {memory : Memory} {language : TypeSupportLanguage} {nestedOk : Pointer → Prop}
  {nestedSlots : Pointer → List Slot}
  {analyze : Pointer → AnalysisState → Except TypeSupportError AnalysisState}

theorem scalarLayout_width {typeId : FieldType} {width : ℕ} (h : scalarLayout typeId = some width) :
    IntWidth width := by
  cases typeId <;> simp only [scalarLayout, Option.some.injEq, reduceCtorEq] at h <;>
    (unfold IntWidth; omega)

theorem nestedMembers_of_pointer {member : Member} {pointer : Pointer}
    (h : nestedPointer language member = .ok pointer) : nestedMembers member = some pointer := by
  unfold nestedPointer at h
  unfold nestedMembers
  cases hm : member.members with
  | none => rw [hm] at h; cases h
  | some handle =>
    rw [hm] at h
    cases hl : identifierLanguage handle.typesupportIdentifier <;> cases hd : handle.data <;>
      simp only [hl, hd, reduceCtorEq] at h
    split at h
    · cases h
      exact hd
    · cases h

theorem string_spec (bound : ℕ) :
    Analyses True [⟨4, 4 + (bound + 1)⟩]
      fun s => appendAligned s 4 4 >>= fun s => appendAligned s 1 (bound + 1) := by
  have hfour : IntWidth 4 := .inr (.inr (.inl rfl))
  refine ((appendAligned_spec hfour 4).bind (appendAligned_spec (.inl rfl) (bound + 1))).congr
    (and_self_iff) fun x => ?_
  -- characters need no padding
  simp only [endOf_cons, endOf_nil, List.cons_append, List.nil_append, Slot.after, alignUp_one]
  omega

theorem analyzeElement_spec (language : TypeSupportLanguage)
    (hnested : ∀ p, Analyses (nestedOk p) (nestedSlots p) (analyze p)) (member : Member) :
    Analyses (ElementAdmitted nestedOk language member) (elementSlots nestedSlots member)
      (analyzeElement analyze language member) := by
  unfold ElementAdmitted elementSlots analyzeElement
  cases hscalar : scalarLayout member.typeId with
  | some width => exact appendAligned_spec (scalarLayout_width hscalar) width
  | none =>
    cases htype : member.typeId <;> simp only
    case string =>
      by_cases hzero : member.stringUpperBound = 0
      · simp only [hzero, if_true]
        exact .refuses (by omega)
      · by_cases hmax : member.stringUpperBound ≥ uint32Max
        · simp only [if_neg hzero, if_pos hmax]
          exact .refuses (by omega)
        · simp only [if_neg hzero, if_neg hmax]
          exact (string_spec _).congr ⟨fun _ => by omega, fun _ => trivial⟩ fun _ => rfl
    case message =>
      cases hpointer : nestedPointer language member with
      | error e => exact .refuses (by simp)
      | ok p =>
        rw [nestedMembers_of_pointer hpointer]
        exact (hnested p).congr (by simp) fun _ => rfl
    all_goals exact .refuses id

theorem analyzeMember_spec (language : TypeSupportLanguage)
    (hnested : ∀ p, Analyses (nestedOk p) (nestedSlots p) (analyze p)) (member : Member) :
    Analyses (MemberAdmitted nestedOk language member) (fieldSlots nestedSlots member)
      (analyzeMember analyze language member) := by
  have helement := analyzeElement_spec language hnested member
  unfold analyzeMember fieldSlots
  by_cases hname : member.named = true
  swap
  · simp only [hname, Bool.not_false, if_true]
    exact .refuses fun h => hname h.named
  cases harray : member.isArray with
  | false =>
    simp only [hname, Bool.not_true, Bool.not_false, Bool.false_eq_true, if_false, if_true,
      Bool.false_and, List.nil_append]
    refine (helement.repeated 1).congr ⟨fun h => ?_, fun h => .inr h.element⟩ fun _ => rfl
    exact ⟨hname, by simp [harray], by simp [harray], h.resolve_left (by decide)⟩
  | true =>
    simp only [hname, Bool.not_true, Bool.false_eq_true, if_false, if_true, Bool.true_and]
    by_cases hzero : member.arraySize = 0
    · -- an empty array or a sequence without a bound
      simp only [hzero, if_true]
      cases member.isUpperBound <;> exact .refuses fun h => by have := h.size harray; omega
    cases hupper : member.isUpperBound with
    | false =>
      simp only [if_neg hzero, Bool.false_eq_true, if_false, List.nil_append]
      refine (helement.repeated member.arraySize).congr ⟨fun h => ?_, fun h => .inr h.element⟩
        fun _ => rfl
      exact ⟨hname, fun _ => by omega, by simp [hupper], h.resolve_left hzero⟩
    | true =>
      simp only [if_neg hzero, if_true]
      by_cases hmax : member.arraySize > uint32Max
      · simp only [if_pos hmax]
        exact .refuses fun h => by have := h.count harray hupper; omega
      · simp only [if_neg hmax]
        refine ((appendAligned_spec (.inr (.inr (.inl rfl))) 4).bind
          (helement.repeated member.arraySize)).congr
          ⟨fun h => ?_, fun h => ⟨trivial, .inr h.element⟩⟩ fun _ => rfl
        exact ⟨hname, fun _ => by omega, fun _ _ => by omega, h.2.resolve_left hzero⟩

theorem analyzeFields_spec (sizeOf : ℕ) {ok : Member → Prop} {slots : Member → List Slot}
    {analyzeMember : Member → AnalysisState → Except TypeSupportError AnalysisState}
    (h : ∀ member, Analyses (ok member) (slots member) (analyzeMember member)) (l : List Member) :
    Analyses (∀ member ∈ l, member.offset < sizeOf ∧ ok member) (l.flatMap slots)
      (analyzeFields sizeOf analyzeMember l) := by
  induction l with
  | nil => exact Analyses.done.congr (by simp) fun _ => rfl
  | cons member l ih =>
    by_cases hoffset : member.offset ≥ sizeOf
    · have : analyzeFields sizeOf analyzeMember (member :: l) = fun _ => .error .invalidMembers :=
        funext fun s => if_pos hoffset
      rw [this]
      exact .refuses fun h => by have := (h member (by simp)).1; omega
    · have : analyzeFields sizeOf analyzeMember (member :: l) =
          fun s => analyzeMember member s >>= analyzeFields sizeOf analyzeMember l :=
        funext fun s => if_neg hoffset
      rw [this]
      refine ((h member).bind ih).congr ?_ fun x => by rw [List.flatMap_cons]
      have hlt : member.offset < sizeOf := Nat.not_le.1 hoffset
      simp only [List.forall_mem_cons, hlt, true_and]

/-- **The type analysis decides `Admitted`** and whether the largest value fits. -/
theorem analyzeMembers_spec (memory : Memory) (language : TypeSupportLanguage) (levels : ℕ) :
    ∀ stack pointer, Analyses (Admitted memory language levels stack pointer)
      (messageSlots memory levels pointer) (analyzeMembers memory language levels stack pointer) := by
  induction levels with
  | zero =>
    intro stack pointer
    have : analyzeMembers memory language 0 stack pointer = fun _ =>
        .error (if !(memory pointer).wellFormed then .invalidMembers else .nestingLimitExceeded) := by
      funext s
      rw [analyzeMembers]
      split <;> rfl
    rw [this]
    exact .refuses id
  | succ levels ih =>
    intro stack pointer
    have hfields := analyzeFields_spec (memory pointer).sizeOf
      (analyzeMember_spec language (ih (stack ++ [pointer]))) (memory pointer).list
    by_cases hwf : (memory pointer).wellFormed = true
    swap
    · have : analyzeMembers memory language (levels + 1) stack pointer =
          fun _ => .error .invalidMembers := funext fun s => if_pos (by simp [hwf])
      rw [this]
      exact .refuses fun h => hwf h.1
    by_cases hstack : pointer ∈ stack
    · have : analyzeMembers memory language (levels + 1) stack pointer =
          fun _ => .error .recursiveType :=
        funext fun s => (if_neg (by simp [hwf])).trans (if_pos (by simp [hstack]))
      rw [this]
      exact .refuses fun h => h.2.1 hstack
    have hdeep := hfields.deepened fun depth =>
      if maximumTypeNestingDepth - levels > depth then maximumTypeNestingDepth - levels else depth
    have : analyzeMembers memory language (levels + 1) stack pointer = _ :=
      funext fun s => (if_neg (by simp [hwf])).trans (if_neg (by simp [hstack]))
    rw [this]
    exact hdeep.congr ⟨fun h => ⟨hwf, hstack, h⟩, fun h => h.2.2⟩ fun _ => rfl

end Spec

variable {handle : TypeSupportHandle} {language : TypeSupportLanguage} {memory : Memory}
  {name : List Char} {pointer : Pointer}

theorem deriveTypeName_data (h : deriveTypeName memory handle = .ok (language, pointer, name)) :
    handle.data = some pointer := by
  unfold deriveTypeName at h
  cases hd : handle.data with
  | none => rw [hd] at h; cases h
  | some p =>
    simp only [hd] at h
    repeat' split at h
    all_goals cases h
    rfl

theorem analyzeTypeSupport_eq {limit : ℕ} (hlimit : 4 ≤ limit)
    (hname : deriveTypeName memory handle = .ok (language, pointer, name)) :
    analyzeTypeSupport memory handle limit =
      (analyzeMembers memory language maximumTypeNestingDepth [] pointer
        { bodyLimit := limit - xcdr1EncapsulationSize }).map fun s => {
          language
          maximumSerializedSize := s.offset + xcdr1EncapsulationSize
          maximumAlignment := s.maximumAlignment
          maximumNestingDepth := s.maximumDepth
          ddsTypeName := name } := by
  unfold analyzeTypeSupport
  rw [if_neg, hname]
  · cases h : analyzeMembers memory language maximumTypeNestingDepth [] pointer
        { bodyLimit := limit - xcdr1EncapsulationSize } <;>
      simp only [bind, Except.bind, h] <;> rfl
  · have hsmall : ¬ limit < xcdr1EncapsulationSize := Nat.not_lt.2 hlimit
    simp [deriveTypeName_data hname, hsmall]

theorem analyzeTypeSupport_ok {limit : ℕ} {info : TypeSupportInfo} (hm : limit ≤ uint64Max)
    (h : analyzeTypeSupport memory handle limit = .ok info) :
    ∃ pointer, deriveTypeName memory handle = .ok (info.language, pointer, info.ddsTypeName) ∧
      Admitted memory info.language maximumTypeNestingDepth [] pointer ∧
      info.maximumSerializedSize = 4 + endOf (messageSlots memory maximumTypeNestingDepth pointer) 0 ∧
      info.maximumSerializedSize ≤ limit := by
  have hlimit : 4 ≤ limit := by
    by_contra hlt
    have hsmall : limit < xcdr1EncapsulationSize := Nat.not_le.1 hlt
    rw [analyzeTypeSupport, if_pos (by simp [hsmall])] at h
    cases h
  cases hname : deriveTypeName memory handle with
  | error e =>
    rw [analyzeTypeSupport, hname] at h
    split at h <;> cases h
  | ok triple =>
    obtain ⟨language, pointer, name⟩ := triple
    rw [analyzeTypeSupport_eq hlimit hname] at h
    rcases analyzeMembers_spec memory language maximumTypeNestingDepth [] pointer
        { bodyLimit := limit - xcdr1EncapsulationSize } (Nat.zero_le _)
        ((Nat.sub_le _ _).trans hm) with ⟨hadm, hfit, s, hs, hoff, -⟩ | ⟨-, e, he⟩
    · rw [hs] at h
      cases h
      simp only [xcdr1EncapsulationSize] at hfit hoff ⊢
      exact ⟨pointer, rfl, hadm, by rw [hoff, Nat.add_comm], by omega⟩
    · rw [he] at h
      cases h

/-- An admitted type is accepted with every limit that its largest value fits in. -/
theorem analyzeTypeSupport_accepts {limit : ℕ} (hm : limit ≤ uint64Max)
    (hname : deriveTypeName memory handle = .ok (language, pointer, name))
    (hadm : Admitted memory language maximumTypeNestingDepth [] pointer)
    (hfit : 4 + endOf (messageSlots memory maximumTypeNestingDepth pointer) 0 ≤ limit) :
    ∃ info, analyzeTypeSupport memory handle limit = .ok info ∧ info.language = language := by
  rw [analyzeTypeSupport_eq (by omega) hname]
  rcases analyzeMembers_spec memory language maximumTypeNestingDepth [] pointer
      { bodyLimit := limit - xcdr1EncapsulationSize } (Nat.zero_le _)
      ((Nat.sub_le _ _).trans hm) with ⟨-, -, s, hs, -, -⟩ | ⟨hno, -⟩
  · rw [hs]
    exact ⟨_, rfl, rfl⟩
  · refine absurd ⟨hadm, ?_⟩ hno
    simp only [xcdr1EncapsulationSize]
    omega

/-- The bounds that the wire can express: lengths of strings and counts of sequences. -/
structure Member.Admissible (member : Member) : Prop where
  text : member.typeId = .string → member.stringUpperBound < uint32Max
  count : member.isArray = true → member.isUpperBound = true → member.arraySize ≤ uint32Max

theorem Admitted.allMembers {levels : ℕ} :
    ∀ {stack pointer}, Admitted memory language levels stack pointer →
      AllMembers Member.Admissible memory levels pointer := by
  induction levels with
  | zero => intro _ _ _; trivial
  | succ levels ih =>
    rintro stack pointer ⟨-, -, hmembers⟩ member hmem
    obtain ⟨-, hm⟩ := hmembers member hmem
    have helement := hm.element
    unfold ElementAdmitted at helement
    refine ⟨⟨fun ht => ?_, hm.count⟩, fun ht nested hnested => ?_⟩
    · simp only [ht, scalarLayout] at helement
      exact helement.2
    · simp only [ht, scalarLayout] at helement
      obtain ⟨p, hp, hadm⟩ := helement
      cases (nestedMembers_of_pointer hp).symm.trans hnested
      exact ih hadm

namespace Descriptor

variable {language : TypeSupportLanguage} (D : Descriptor language)

/-- The slots of the largest value. -/
def slots : List Slot := messageSlots D.memory maximumTypeNestingDepth D.root

theorem analysed :
    ∃ name, deriveTypeName D.memory D.handle = .ok (language, D.root, name) ∧
      Admitted D.memory language maximumTypeNestingDepth [] D.root ∧
      D.info.maximumSerializedSize = 4 + endOf D.slots 0 ∧
      D.info.maximumSerializedSize ≤ D.limit := by
  obtain ⟨p, hname, hrest⟩ := analyzeTypeSupport_ok D.machine D.accepted
  have hroot : D.root = p := by rw [root, deriveTypeName_data hname]; rfl
  rw [D.introspection] at hname hrest
  rw [slots, hroot]
  exact ⟨_, hname, hrest⟩

theorem handle_data : D.handle.data = some D.root := by
  obtain ⟨name, hname, -⟩ := D.analysed
  exact deriveTypeName_data hname

theorem accepts {limit : ℕ} (hfit : D.info.maximumSerializedSize ≤ limit) (hm : limit ≤ uint64Max) :
    ∃ info, analyzeTypeSupport D.memory D.handle limit = .ok info ∧ info.language = language := by
  obtain ⟨name, hname, hadm, hsize, -⟩ := D.analysed
  exact analyzeTypeSupport_accepts hm hname hadm (hsize ▸ hfit)

end Descriptor

end OpenRtdds
