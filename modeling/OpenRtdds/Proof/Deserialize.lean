import Mathlib.Data.List.TakeWhile
import OpenRtdds.Proof.Decode
import OpenRtdds.Proof.Serialize

/-!
# What the codec reads

`process_members` walks the bytes twice. The validating walk accepts exactly what `decodeMembers`
decodes to a value that the destination has room and callbacks for, and leaves the destination
alone; the storing walk then stores that value, up to the first array that it has no callback for.

* `processMembers_refines`: the two walks against `decodeMembers` and `storeMembers`, by
  induction over the levels of nesting.
* `storeMembers_stores`: where a store stops, what it changes, and that it represents the value if
  it gets to the end.
-/

namespace OpenRtdds

open Lib

/-- What the storing walk makes of a value: it leaves what `storeMembers` leaves, and fails
exactly at a gap. -/
structure StoreOutcome {A : Type} (out : Stored A) (r' : CdrReader) (p : Processed A) : Prop where
  message : p.2 = out.1
  full : out.2 = true → p.1 = .ok r'
  gap : out.2 = false → ∃ e, p.1 = .error e

namespace StoreOutcome

variable {A : Type}

theorem stored (a : A) (r : CdrReader) : StoreOutcome (a, true) r (.ok r, a) :=
  ⟨rfl, fun _ => rfl, fun h => by cases h⟩

theorem stopped (a : A) (e : CodecFailure) (r : CdrReader) :
    StoreOutcome (a, false) r (.error e, a) :=
  ⟨rfl, fun h => (by cases h), fun _ => ⟨e, rfl⟩⟩

end StoreOutcome

/-- The two walks over a destination `v`, against a decoder and a store. Validation accepts the
values that `fits` admits. -/
structure Refines {A X : Type} (v : A) (validate apply : CdrReader → Processed A)
    (decode : CdrReader → Option (X × CdrReader)) (fits : X → Prop) (store : X → Stored A) :
    Prop where
  unchanged : ∀ r, (validate r).2 = v
  sound : ∀ {r r'}, (validate r).1 = .ok r' →
    ∃ x, decode r = some (x, r') ∧ fits x ∧ StoreOutcome (store x) r' (apply r)
  complete : ∀ {r r' x}, decode r = some (x, r') → fits x → (validate r).1 = .ok r'

namespace Refines

variable {A B X Y : Type} {v : A} {validate apply : CdrReader → Processed A}
  {decode : CdrReader → Option (X × CdrReader)} {fits : X → Prop} {store : X → Stored A}

theorem map (h : Refines v validate apply decode fits store) (f : A → B) {g : X → Y}
    (hg : Function.Injective g) {validate' apply' : CdrReader → Processed B}
    {decode' : CdrReader → Option (Y × CdrReader)} {fits' : Y → Prop} {store' : Y → Stored B}
    (hv : ∀ r, validate' r = (validate r).map id f) (ha : ∀ r, apply' r = (apply r).map id f)
    (hd : ∀ r, decode' r = (decode r).map fun x => (g x.1, x.2))
    (hfits : ∀ y, fits' y ↔ ∃ x, y = g x ∧ fits x)
    (hstore : ∀ x, store' (g x) = (store x).map f id) :
    Refines (f v) validate' apply' decode' fits' store' where
  unchanged r := by
    rw [hv]
    exact congrArg f (h.unchanged r)
  sound {r r'} hr := by
    rw [hv] at hr
    obtain ⟨x, hx, hf, hout⟩ := h.sound hr
    refine ⟨g x, by rw [hd, hx]; rfl, (hfits _).2 ⟨x, rfl, hf⟩, ?_⟩
    rw [hstore, ha]
    exact ⟨congrArg f hout.message, hout.full, hout.gap⟩
  complete {r r' y} hy hf := by
    obtain ⟨x, rfl, hx⟩ := (hfits y).1 hf
    rw [hd] at hy
    obtain ⟨⟨x', r''⟩, hdec, heq⟩ := Option.map_eq_some_iff.1 hy
    simp only [Prod.mk.injEq] at heq
    obtain ⟨hgx, rfl⟩ := heq
    cases hg hgx
    rw [hv]
    exact h.complete hdec hx

theorem refused {e : CdrReader → CodecFailure} (hv : ∀ r, validate r = (.error (e r), v))
    (hd : ∀ {r r' x}, decode r = some (x, r') → ¬ fits x) :
    Refines v validate apply decode fits store where
  unchanged r := by rw [hv]
  sound hr := by
    rw [hv] at hr
    cases hr
  complete hx hf := absurd hf (hd hx)

theorem nil {validate apply : CdrReader → Processed (List A)}
    {decode : CdrReader → Option (List X × CdrReader)} {fits : List X → Prop}
    {store : List X → Stored (List A)} (hv : ∀ r, validate r = (.ok r, []))
    (ha : ∀ r, apply r = (.ok r, [])) (hd : ∀ r, decode r = some ([], r)) (hfits : fits [])
    (hstore : store [] = ([], true)) : Refines [] validate apply decode fits store where
  unchanged r := by rw [hv]
  sound {r r'} hr := by
    rw [hv] at hr
    cases hr
    refine ⟨[], hd r, hfits, ?_⟩
    rw [ha, hstore]
    exact .stored _ _
  complete {r r' x} hx _ := by
    rw [hd] at hx
    cases hx
    rw [hv]

/-- A walk over an item and then over the items behind it. -/
def andThen (walk : CdrReader → Processed A) (as : List A) (walks : CdrReader → Processed (List A))
    (r : CdrReader) : Processed (List A) :=
  match walk r with
  | (.error e, a) => (.error e, a :: as)
  | (.ok r, a) => (walks r).map id (a :: ·)

/-- The walks over an item and the items behind it. -/
theorem cons {as : List A} {validates applies : CdrReader → Processed (List A)}
    {decodes : CdrReader → Option (List X × CdrReader)} {allFit : List X → Prop}
    {stores : List X → Stored (List A)} (h : Refines v validate apply decode fits store)
    (hs : Refines as validates applies decodes allFit stores)
    {validate' apply' : CdrReader → Processed (List A)}
    {decode' : CdrReader → Option (List X × CdrReader)} {fits' : List X → Prop}
    {store' : List X → Stored (List A)} (hv : ∀ r, validate' r = andThen validate as validates r)
    (ha : ∀ r, apply' r = andThen apply as applies r)
    (hd : ∀ r, decode' r =
      (decode r).bind fun x => (decodes x.2).bind fun xs => some (x.1 :: xs.1, xs.2))
    (hfits : ∀ y, fits' y ↔ ∃ x xs, fits x ∧ allFit xs ∧ y = x :: xs)
    (hstore : ∀ x xs, store' (x :: xs) =
      if (store x).2 then (stores xs).map ((store x).1 :: ·) id else ((store x).1 :: as, false)) :
    Refines (v :: as) validate' apply' decode' fits' store' where
  unchanged r := by
    have hu := h.unchanged r
    rw [hv, andThen]
    rcases hval : validate r with ⟨_ | r₁, a⟩ <;> rw [hval] at hu <;> cases hu
    · rfl
    · exact congrArg (_ :: ·) (hs.unchanged r₁)
  sound {r r'} hr := by
    rw [hv, andThen] at hr
    rcases hval : validate r with ⟨_ | r₁, a⟩ <;> simp only [hval] at hr
    · cases hr
    obtain ⟨x, hx, hf, hout⟩ := h.sound (r := r) (by rw [hval])
    obtain ⟨xs, hxs, hfs, houts⟩ := hs.sound hr
    refine ⟨x :: xs, by simp [hd, hx, hxs], (hfits _).2 ⟨x, xs, hf, hfs, rfl⟩, ?_⟩
    rw [hstore, ha, andThen]
    by_cases hfull : (store x).2 = true
    · have happ : apply r = (.ok r₁, (store x).1) := Prod.ext (hout.full hfull) hout.message
      simp only [happ, if_pos hfull]
      exact ⟨congrArg (_ :: ·) houts.message, houts.full, houts.gap⟩
    · -- the store ends inside this item, the items behind it are left alone
      rw [Bool.not_eq_true] at hfull
      obtain ⟨e, he⟩ := hout.gap hfull
      have happ : apply r = (.error e, (store x).1) := Prod.ext he hout.message
      simp only [happ, hfull, Bool.false_eq_true, if_false]
      exact ⟨rfl, fun h => (nomatch h), fun _ => ⟨e, rfl⟩⟩
  complete := by
    intro r r' y hy hf
    obtain ⟨x, xs, hx, hxs, rfl⟩ := (hfits y).1 hf
    simp only [hd, Option.bind_eq_some_iff, Prod.exists, Option.some.injEq, Prod.mk.injEq,
      List.cons.injEq] at hy
    obtain ⟨_, r₁, hdec, _, r₂, hdecs, ⟨rfl, rfl⟩, rfl⟩ := hy
    have hval : validate r = (.ok r₁, v) := Prod.ext (h.complete hdec hx) (h.unchanged r)
    rw [hv, andThen, hval]
    exact hs.complete hdecs hxs

end Refines

/-- The destination has room for the value, and the callbacks that validation asks for exist. -/
def Admits {S A X : Type} (room : A → X → Prop) (places : A → X → List (Place S)) (v : A) (x : X) :
    Prop :=
  room v x ∧ ∀ p ∈ places v x, p.Checked

theorem admits_cons {S A X Y : Type} {room : A → X → Prop} (places : A → Y → List (Place S))
    {pair rest : List X → List Y} (f : X → Y) {v : A} {as : List A}
    (hpair : ∀ x xs, pair (x :: xs) = f x :: rest xs) (y : List X) :
    Admits (List.Forall₂ room) (fun as xs => (List.zipWith places as (pair xs)).flatten) (v :: as) y ↔
      ∃ x xs, Admits room (fun a x => places a (f x)) v x ∧
        Admits (List.Forall₂ room) (fun as xs => (List.zipWith places as (rest xs)).flatten) as xs ∧
          y = x :: xs := by
  simp only [Admits, List.forall₂_cons_left_iff]
  constructor
  · rintro ⟨⟨x, xs, hx, hxs, rfl⟩, hchecked⟩
    simp only [hpair, List.zipWith_cons_cons, List.flatten_cons, List.forall_mem_append] at hchecked
    exact ⟨x, xs, ⟨hx, hchecked.1⟩, ⟨hxs, hchecked.2⟩, rfl⟩
  · rintro ⟨x, xs, ⟨hx, hchecked⟩, ⟨hxs, hrest⟩, rfl⟩
    refine ⟨⟨x, xs, hx, hxs, rfl⟩, ?_⟩
    simp only [hpair, List.zipWith_cons_cons, List.flatten_cons, List.forall_mem_append]
    exact ⟨hchecked, hrest⟩

section Elements

variable {S M N : Type} {strings : StringStorage S} {member : Member}
  {decodeNested : Pointer → CdrReader → Option (N × CdrReader)}

variable {nested : Bool → Pointer → M → CdrReader → Processed M} {nestedFits : M → N → Prop}
  {nestedStore : Pointer → M → N → Stored M} {nestedPlaces : Pointer → M → N → List (Place S)}

/-- There is room for the strings of the value. -/
abbrev Element.Room (strings : StringStorage S) (nestedFits : M → N → Prop) :
    Element S M → Element Text N → Prop :=
  Element.Rel (fun _ _ => True) (fun s t => strings.fits s t.length = true) nestedFits

abbrev Field.Room (strings : StringStorage S) (nestedFits : M → N → Prop) :
    Field S M → Field Text N → Prop :=
  Field.Rel (fun _ _ => True) (fun s t => strings.fits s t.length = true) nestedFits

theorem processValue_scalar (apply : Bool) (b : ℕ) (r : CdrReader) :
    processValue strings apply (nested apply) member (.scalar b) r =
      match readScalar member.typeId r with
      | .error e => (.error e, .scalar b)
      | .ok (bits, r) => (.ok r, if apply then .scalar bits else .scalar b) := by
  unfold processValue
  cases member.typeId <;> rfl

theorem processValue_text (apply : Bool) (s : S) (r : CdrReader) :
    processValue strings apply (nested apply) member (.text s) r =
      if member.typeId = .string then
        match r.readStringView member.stringUpperBound with
        | (none, r) => (.error (readerFailure r), .text s)
        | (some data, r) =>
          if !strings.fits s data.length then
            (.error { error := .invalidMessageStorage, bytesProcessed := r.offset }, .text s)
          else (.ok r, if apply then .text (strings.assign s data) else .text s)
      else (.error { error := .invalidMessageStorage, bytesProcessed := r.offset }, .text s) := by
  unfold processValue
  cases member.typeId <;> rfl

theorem processValue_nested (apply : Bool) (v : M) (r : CdrReader) :
    processValue strings apply (nested apply) member (.nested v) r =
      if member.typeId = .message then
        match nestedMembers member with
        | none => (.error { error := .typeSupportRejected, bytesProcessed := r.offset }, .nested v)
        | some p => (nested apply p v r).map id .nested
      else (.error { error := .invalidMessageStorage, bytesProcessed := r.offset }, .nested v) := by
  unfold processValue
  cases member.typeId <;> rfl

/-- `assign_function` stores what an element in place would be. -/
theorem processElement_eq {apply : Bool} (h : member.reachable apply = true) (value : Element S M)
    (r : CdrReader) :
    processElement strings apply (nested apply) member value r =
      processValue strings apply (nested apply) member value r := by
  unfold processElement
  by_cases hdirect : (if apply then member.callbacks.get else member.callbacks.getConst) = true
  · rw [if_pos hdirect]
  · have hbool : member.typeId = .boolean := by
      simp only [Member.reachable, Bool.or_eq_true, Bool.and_eq_true, beq_iff_eq] at h
      exact (h.resolve_left hdirect).1
    rw [if_neg hdirect]
    cases value with
    | scalar b =>
      simp only [processValue_scalar]
      rcases readScalar member.typeId r with _ | ⟨bits, r'⟩
      · rfl
      · cases apply <;> rfl
    | text s => rw [processValue_text, if_neg (by simp [hbool])]
    | nested v => rw [processValue_nested, if_neg (by simp [hbool])]

theorem processValue_refines
    (hnested : ∀ p v, Refines v (nested false p v) (nested true p v) (decodeNested p)
      (Admits nestedFits (nestedPlaces p) v) (nestedStore p v)) (value : Element S M) :
    Refines value (processValue strings false (nested false) member value)
      (processValue strings true (nested true) member value) (decodeElement decodeNested member)
      (Admits (Element.Room strings nestedFits) (elementPlaces nestedPlaces member) value)
      (storeElement strings nestedStore member value) := by
  cases value with
  | scalar b =>
    constructor
    · intro r
      rw [processValue_scalar]
      rcases readScalar member.typeId r with _ | ⟨bits, r'⟩ <;> rfl
    · intro r r' hr
      rw [processValue_scalar] at hr
      rcases hread : readScalar member.typeId r with _ | ⟨bits, r₁⟩ <;> rw [hread] at hr <;> cases hr
      refine ⟨.scalar bits, decodeElement_iff.2 hread,
        ⟨.scalar trivial, by simp [elementPlaces, Place.Checked]⟩, ?_⟩
      rw [processValue_scalar, hread]
      exact .stored _ _
    · rintro r r' x hd ⟨⟨⟩, -⟩
      rw [processValue_scalar, decodeElement_iff.1 hd]
  | text s =>
    constructor
    · intro r
      rw [processValue_text]
      split
      · rcases r.readStringView member.stringUpperBound with ⟨_ | data, r'⟩
        · rfl
        · simp only
          split <;> rfl
      · rfl
    · intro r r' hr
      rw [processValue_text] at hr
      split at hr
      swap
      · cases hr
      rename_i htype
      rcases hread : r.readStringView member.stringUpperBound with ⟨_ | data, r₁⟩ <;>
        simp only [hread] at hr
      · cases hr
      split at hr <;> rename_i hfits <;> cases hr
      refine ⟨.text data, decodeElement_iff.2 ⟨htype, hread⟩,
        ⟨.text (by simpa using hfits), by simp [elementPlaces, Place.Checked]⟩, ?_⟩
      rw [processValue_text, if_pos htype, hread]
      simp only [if_neg hfits]
      exact .stored _ _
    · rintro r r' x hd ⟨hroom, -⟩
      cases hroom with
      | text hfits =>
        obtain ⟨htype, hread⟩ := decodeElement_iff.1 hd
        rw [processValue_text, if_pos htype, hread]
        simp [hfits]
  | nested v =>
    constructor
    · intro r
      rw [processValue_nested]
      split
      · cases nestedMembers member with
        | none => rfl
        | some p => exact congrArg Element.nested ((hnested p v).unchanged r)
      · rfl
    · intro r r' hr
      rw [processValue_nested] at hr
      split at hr
      swap
      · cases hr
      rename_i htype
      cases hp : nestedMembers member with
      | none => simp only [hp] at hr; cases hr
      | some p =>
        simp only [hp] at hr
        obtain ⟨m, hm, ⟨hfits, hchecked⟩, hout⟩ := (hnested p v).sound hr
        refine ⟨.nested m, decodeElement_iff.2 ⟨htype, p, hp, hm⟩,
          ⟨.nested hfits, by simpa only [elementPlaces, hp, Option.elim] using hchecked⟩, ?_⟩
        rw [processValue_nested, if_pos htype, hp]
        simp only [storeElement, hp]
        exact ⟨congrArg Element.nested hout.message, hout.full, hout.gap⟩
    · rintro r r' x hd ⟨hroom, hchecked⟩
      cases hroom with
      | nested hfits =>
        obtain ⟨htype, p, hp, hm⟩ := decodeElement_iff.1 hd
        rw [processValue_nested, if_pos htype, hp]
        simp only [elementPlaces, hp, Option.elim] at hchecked
        exact (hnested p v).complete hm ⟨hfits, hchecked⟩

theorem processElements_cons (process : Element S M → CdrReader → Processed (Element S M))
    (e : Element S M) (es : List (Element S M)) (r : CdrReader) :
    processElements process (e :: es) r =
      Refines.andThen (process e) es (processElements process es) r := by
  rw [processElements, Refines.andThen]
  rcases process e r with ⟨_ | _, _⟩ <;> rfl

theorem processElements_refines {X : Type}
    {validate apply : Element S M → CdrReader → Processed (Element S M)}
    {decode : CdrReader → Option (X × CdrReader)} {room : Element S M → X → Prop}
    {places : Element S M → X → List (Place S)} {store : Element S M → X → Stored (Element S M)}
    (h : ∀ e, Refines e (validate e) (apply e) decode (Admits room places e) (store e))
    (es : List (Element S M)) :
    Refines es (processElements validate es) (processElements apply es)
      (decodeElements decode es.length)
      (Admits (List.Forall₂ room) (fun es xs => (List.zipWith places es xs).flatten) es)
      (storeList store es) := by
  induction es with
  | nil => exact .nil (fun _ => rfl) (fun _ => rfl) (fun _ => rfl) ⟨.nil, by simp⟩ rfl
  | cons e es ih =>
    exact (h e).cons ih (processElements_cons _ e es) (processElements_cons _ e es) (fun _ => rfl)
      (admits_cons places id fun _ _ => rfl) fun _ _ => rfl

/-- The array branch of the member loop, with the elements processed as if in place. -/
theorem processField_array (harray : member.isArray = true) (apply : Bool) (es : List (Element S M))
    (r : CdrReader) :
    processField strings apply (nested apply) member (.array es) r =
      if !member.callbacks.size then
        (.error { error := .callbackMissing, bytesProcessed := r.offset }, .array es)
      else match readCount member r with
        | .error e => (.error e, .array es)
        | .ok (count, r) =>
          if es.length ≠ count then
            (.error { error := .destinationSizeMismatch, bytesProcessed := r.offset }, .array es)
          else if !member.reachable apply then
            (.error { error := .callbackMissing, bytesProcessed := r.offset }, .array es)
          else (processElements (processValue strings apply (nested apply) member) es r).map id
            .array := by
  simp only [processField, harray]
  by_cases hreach : member.reachable apply = true
  · have hplace : processElement strings apply (nested apply) member =
        processValue strings apply (nested apply) member :=
      funext fun e => funext fun r => processElement_eq hreach e r
    rcases readCount member r with _ | ⟨_, _⟩ <;> simp [hplace, hreach]
  · rcases readCount member r with _ | ⟨_, _⟩ <;> simp [hreach]

theorem Place.checked_array :
    (Place.array member : Place S).Checked ↔
      member.callbacks.size = true ∧ member.reachable false = true := by
  simp [Place.Checked, Member.reachable]

theorem Place.storable_array :
    (Place.array member : Place S).storable = member.reachable true := rfl

/-- The two walks over an array, given those over its elements. -/
theorem processField_array_refines {strings : StringStorage S} {member : Member}
    {nested : Bool → Pointer → M → CdrReader → Processed M} (harray : member.isArray = true)
    {es : List (Element S M)}
    (hwalk : Refines es (processElements (processValue strings false (nested false) member) es)
      (processElements (processValue strings true (nested true) member) es)
      (decodeElements (decodeElement decodeNested member) es.length)
      (Admits (List.Forall₂ (Element.Room strings nestedFits))
        (fun es xs => (List.zipWith (elementPlaces nestedPlaces member) es xs).flatten) es)
      (storeList (storeElement strings nestedStore member) es)) :
    Refines (.array es) (processField strings false (nested false) member (.array es))
      (processField strings true (nested true) member (.array es)) (decodeField decodeNested member)
      (Admits (Field.Room strings nestedFits) (fieldPlaces nestedPlaces member) (.array es))
      (storeField strings nestedStore member (.array es)) := by
  constructor
  · intro r
    rw [processField_array harray]
    split
    · rfl
    rcases readCount member r with _ | ⟨count, r₁⟩
    · rfl
    simp only
    split
    · rfl
    split
    · rfl
    · exact congrArg Field.array (hwalk.unchanged r₁)
  · intro r r' hr
    rw [processField_array harray] at hr ⊢
    by_cases hsize : member.callbacks.size = true
    swap
    · simp only [hsize, Bool.not_false, if_true] at hr
      cases hr
    simp only [hsize, Bool.not_true, Bool.false_eq_true, if_false] at hr ⊢
    rcases hcount : readCount member r with _ | ⟨count, r₁⟩ <;> simp only [hcount] at hr ⊢
    · cases hr
    split at hr
    · cases hr
    rename_i hlen
    rw [ne_eq, not_not] at hlen
    subst hlen
    split at hr
    · cases hr
    rename_i hconst
    obtain ⟨xs, hxs, ⟨hfits, hchecked⟩, hout⟩ := hwalk.sound hr
    have harrays : (Place.array member : Place S).Checked :=
      Place.checked_array.2 ⟨hsize, by simpa using hconst⟩
    refine ⟨.array xs, ?_, ⟨.array hfits, List.forall_mem_cons.2 ⟨harrays, hchecked⟩⟩, ?_⟩
    · simp only [decodeField, harray, if_true, hcount, hxs]
      rfl
    · by_cases hreach : member.reachable true = true
      · simp only [storeField, hreach, if_true, Bool.not_true, Bool.false_eq_true, if_false,
          ne_eq, not_true_eq_false]
        exact ⟨congrArg Field.array hout.message, hout.full, hout.gap⟩
      · -- the gap: validation went through, and nothing can be stored here
        simp only [storeField, hreach, Bool.false_eq_true, if_false, Bool.not_false, if_true,
          ne_eq, not_true_eq_false]
        exact .stopped _ _ _
  · rintro r r' x hd ⟨hfits, hchecked⟩
    cases hfits with
    | @array _ xs hfits =>
      obtain ⟨harrays, hchecked⟩ := List.forall_mem_cons.1 hchecked
      obtain ⟨hsize, hreach⟩ := Place.checked_array.1 harrays
      simp only [decodeField, harray, if_true] at hd
      rw [processField_array harray]
      simp only [hsize, hreach, Bool.not_true, Bool.false_eq_true, if_false]
      rcases hcount : readCount member r with _ | ⟨count, r₁⟩ <;>
        simp only [hcount, Option.bind_eq_bind, Option.bind_eq_some_iff, Prod.exists] at hd ⊢
      · cases hd
      obtain ⟨ys, r₂, hys, heq⟩ := hd
      cases heq
      have hlen : es.length = count := hfits.length_eq.trans (decodeElements_length hys)
      rw [if_neg (not_not.2 hlen)]
      exact hwalk.complete (hlen.symm ▸ hys) ⟨hfits, hchecked⟩

theorem processField_refines (strings : StringStorage S) (member : Member)
    (nested : Bool → Pointer → M → CdrReader → Processed M)
    (hnested : ∀ p v, Refines v (nested false p v) (nested true p v) (decodeNested p)
      (Admits nestedFits (nestedPlaces p) v) (nestedStore p v)) (field : Field S M) :
    Refines field (processField strings false (nested false) member field)
      (processField strings true (nested true) member field) (decodeField decodeNested member)
      (Admits (Field.Room strings nestedFits) (fieldPlaces nestedPlaces member) field)
      (storeField strings nestedStore member field) := by
  have helement : ∀ value, Refines value (processValue strings false (nested false) member value)
      (processValue strings true (nested true) member value) _ _ _ := processValue_refines hnested
  cases field with
  | single value =>
    cases harray : member.isArray with
    | true =>
      refine .refused (e := fun r => { error := .invalidMessageStorage, bytesProcessed := r.offset })
        (fun r => by simp only [processField, harray]) ?_
      rintro r r' x hd ⟨⟨⟩, -⟩
      simp only [decodeField, harray, if_true] at hd
      rcases hcount : readCount member r with _ | ⟨count, r₁⟩ <;>
        simp only [hcount, Option.bind_eq_bind, Option.bind_eq_some_iff] at hd
      · cases hd
      · obtain ⟨_, _, heq⟩ := hd
        cases heq
    | false =>
      refine (helement value).map Field.single (fun _ _ h => Field.single.inj h)
        (fun r => by simp only [processField, harray]) (fun r => by simp only [processField, harray])
        (fun r => ?_) (fun y => ?_) fun _ => rfl
      · simp only [decodeField, harray, Bool.false_eq_true, if_false]
        cases decodeElement decodeNested member r <;> rfl
      · constructor
        · rintro ⟨⟨h⟩, hchecked⟩
          exact ⟨_, rfl, h, hchecked⟩
        · rintro ⟨x, rfl, h, hchecked⟩
          exact ⟨.single h, hchecked⟩
  | array es =>
    cases harray : member.isArray with
    | false =>
      refine .refused (e := fun r => { error := .invalidMessageStorage, bytesProcessed := r.offset })
        (fun r => by simp only [processField, harray]) ?_
      rintro r r' x hd ⟨⟨⟩, -⟩
      simp only [decodeField, harray, Bool.false_eq_true, if_false, Option.bind_eq_bind,
        Option.bind_eq_some_iff] at hd
      obtain ⟨_, _, heq⟩ := hd
      cases heq
    | true => exact processField_array_refines harray (processElements_refines helement es)

theorem processFields_cons (process : Member → Field S M → CdrReader → Processed (Field S M))
    (member : Member) (members : List Member) (v : Field S M) (vs : List (Field S M)) (r : CdrReader) :
    processFields process (member :: members) (v :: vs) r =
      Refines.andThen (process member v) vs (processFields process members vs) r := by
  rw [processFields, Refines.andThen]
  rcases process member v r with ⟨_ | _, _⟩ <;> rfl

theorem processFields_refines {X : Type}
    {validate apply : Member → Field S M → CdrReader → Processed (Field S M)}
    {decode : Member → CdrReader → Option (X × CdrReader)} {room : Field S M → X → Prop}
    {places : Member → Field S M → X → List (Place S)}
    {store : Member → Field S M → X → Stored (Field S M)}
    (h : ∀ member field, Refines field (validate member field) (apply member field) (decode member)
      (Admits room (places member) field) (store member field)) (members : List Member) :
    ∀ v, Refines v (processFields validate members v) (processFields apply members v)
      (decodeFields decode members)
      (Admits (List.Forall₂ room) (fun v m => (List.zipWith (fun field value =>
        places value.1 field value.2) v (members.zip m)).flatten) v)
      (fun m => storeList (fun field value => store value.1 field value.2) v (members.zip m)) := by
  induction members with
  | nil =>
    intro v
    cases v with
    | nil => exact .nil (fun _ => rfl) (fun _ => rfl) (fun _ => rfl) ⟨.nil, by simp⟩ rfl
    | cons v vs =>
      refine .refused (e := fun r => { error := .invalidMessageStorage, bytesProcessed := r.offset })
        (fun _ => rfl) ?_
      rintro r r' x ⟨⟩ ⟨⟨⟩, -⟩
  | cons member members ih =>
    intro v
    cases v with
    | nil =>
      refine .refused (e := fun r => { error := .invalidMessageStorage, bytesProcessed := r.offset })
        (fun _ => rfl) ?_
      rintro r r' x hd ⟨⟨⟩, -⟩
      simp only [decodeFields, Option.bind_eq_bind, Option.bind_eq_some_iff] at hd
      obtain ⟨_, _, _, _, heq⟩ := hd
      cases heq
    | cons v vs =>
      exact (h member v).cons (ih vs) (processFields_cons _ _ _ _ _) (processFields_cons _ _ _ _ _)
        (fun _ => rfl)
        (admits_cons (fun field value => places value.1 field value.2) (Prod.mk member) fun _ _ => rfl)
        fun _ _ => rfl

end Elements

/-- **The two walks of `process_members`** against `decodeMembers` and `storeMembers`. -/
theorem processMembers_refines {S : Type} (strings : StringStorage S) (memory : Memory) (depth : ℕ) :
    ∀ (pointer : Pointer) (v : Message S depth),
      Refines v (processMembers strings false memory depth pointer v)
        (processMembers strings true memory depth pointer v) (decodeMembers memory depth pointer)
        (Admits (Accommodates strings depth) (messagePlaces memory depth pointer) v)
        (storeMembers strings memory depth pointer v) := by
  induction depth with
  | zero => intro _ v; cases v
  | succ depth ih =>
    intro pointer v
    exact processFields_refines (fun member field => processField_refines strings member
      (fun apply => processMembers strings apply memory depth) ih field) (memory pointer).list v

/-- What a store leaves, in terms of the places it goes through: it gets to the end if they are
all storable, and changes nothing if the value is held before the first that is not. A value of
the shape of its type that is stored to the end is represented. -/
structure Stores {S A : Type} (strings : StringStorage S) (places : List (Place S)) (v : A)
    (shaped : Prop) (represents : A → Prop) (out : Stored A) : Prop where
  full : out.2 = true ↔ ∀ p ∈ places, p.storable = true
  kept : out.1 = v ↔ ∀ p ∈ places.takeWhile Place.storable, p.Holds strings
  stored : shaped → out.2 = true → represents out.1

namespace Stores

variable {S A B : Type} {strings : StringStorage S} {places : List (Place S)} {v : A} {shaped : Prop}
  {represents : A → Prop} {out : Stored A}

theorem done (hstored : shaped → represents v) : Stores strings [] v shaped represents (v, true) where
  full := by simp
  kept := by simp
  stored h _ := hstored h

theorem single {p : Place S} {v' : A} (hp : p.storable = true) (hkept : v' = v ↔ p.Holds strings)
    (hstored : represents v') : Stores strings [p] v shaped represents (v', true) where
  full := by simp [hp]
  kept := by simp [hp, hkept]
  stored _ _ := hstored

theorem map (h : Stores strings places v shaped represents out) {f : A → B}
    (hf : Function.Injective f) {shaped' : Prop} {represents' : B → Prop} (hshaped : shaped' → shaped)
    (hrepresents : ∀ a, represents a → represents' (f a)) :
    Stores strings places (f v) shaped' represents' (out.map f id) where
  full := h.full
  kept := hf.eq_iff.trans h.kept
  stored hs hfull := hrepresents _ (h.stored (hshaped hs) hfull)

theorem cons {as : List A} {rest : List (Place S)} {shaped' : Prop} {represents' : List A → Prop}
    {outs : Stored (List A)} (h : Stores strings places v shaped represents out)
    (hs : Stores strings rest as shaped' represents' outs) {all : Prop} {R : List A → Prop}
    (hshaped : all → shaped ∧ shaped')
    (hrepresents : ∀ a as, represents a → represents' as → R (a :: as)) :
    Stores strings (places ++ rest) (v :: as) all R
      (if out.2 then outs.map (out.1 :: ·) id else (out.1 :: as, false)) := by
  by_cases hfull : out.2 = true
  · rw [if_pos hfull]
    have hall := h.full.1 hfull
    refine ⟨?_, ?_, fun hs' hf => hrepresents _ _ (h.stored (hshaped hs').1 hfull)
      (hs.stored (hshaped hs').2 hf)⟩
    · rw [List.forall_mem_append, ← hs.full]
      exact (and_iff_right hall).symm
    · have hkept := h.kept
      rw [List.takeWhile_eq_self_iff.2 hall] at hkept
      rw [List.takeWhile_append_of_pos hall, List.forall_mem_append, ← hkept, ← hs.kept]
      exact List.cons.injEq .. ▸ Iff.rfl
  · -- the store ends inside this item, the items behind it are left alone
    rw [if_neg hfull]
    obtain ⟨p, hp, hstop⟩ : ∃ p ∈ places, p.storable = false := by
      simpa using mt h.full.2 hfull
    refine ⟨by simpa using ⟨p, .inl hp, hstop⟩, ?_, fun _ hf => nomatch hf⟩
    have hfirst : (places ++ rest).takeWhile Place.storable = places.takeWhile Place.storable := by
      rw [List.takeWhile_append, if_neg]
      intro hlength
      have hself := (List.takeWhile_prefix Place.storable).eq_of_length hlength
      rw [List.takeWhile_eq_self_iff.1 hself p hp] at hstop
      cases hstop
    rw [hfirst, ← h.kept]
    simp

end Stores

section Store

variable {S M N : Type} {strings : StringStorage S} {member : Member} {c : Checks Text}
  {nestedMeets : Pointer → N → Prop} {nestedStore : Pointer → M → N → Stored M}
  {nestedFits nestedRepresents : M → N → Prop} {nestedPlaces : Pointer → M → N → List (Place S)}
  (hs : strings.Lawful)
  (hnested : ∀ p v m, nestedFits v m → Stores strings (nestedPlaces p v m) v (nestedMeets p m)
    (nestedRepresents · m) (nestedStore p v m))

include hs hnested

theorem storeElement_stores {v : Element S M} {m : Element Text N} (hroom : v.Room strings nestedFits m) :
    Stores strings (elementPlaces nestedPlaces member v m) v (ElementMeets c nestedMeets member m)
      (Element.Rel (· = ·) (Loads strings) nestedRepresents · m)
      (storeElement strings nestedStore member v m) := by
  cases hroom with
  | @scalar a b _ => exact .single rfl (by simp [Place.Holds, eq_comm]) (.scalar rfl)
  | text hfits =>
    exact .single rfl (by simp [Place.Holds, hs.assign_eq_iff hfits])
      (.text ⟨_, hs.stored hfits, rfl⟩)
  | @nested v m hfits =>
    cases hp : nestedMembers member with
    | none =>
      simp only [elementPlaces, storeElement, hp]
      refine .done ?_
      rintro (_ | _ | ⟨_, hsome, _⟩)
      rw [hp] at hsome
      cases hsome
    | some p =>
      simp only [elementPlaces, storeElement, hp]
      refine (hnested p v m hfits).map (fun _ _ h => Element.nested.inj h) ?_ fun _ => .nested
      rintro (_ | _ | ⟨_, hsome, hm⟩)
      cases hp.symm.trans hsome
      exact hm

theorem storeElements_stores {vs : List (Element S M)} {ms : List (Element Text N)}
    (hroom : List.Forall₂ (Element.Room strings nestedFits) vs ms) :
    Stores strings (List.zipWith (elementPlaces nestedPlaces member) vs ms).flatten vs
      (∀ m ∈ ms, ElementMeets c nestedMeets member m)
      (List.Forall₂ (Element.Rel (· = ·) (Loads strings) nestedRepresents) · ms)
      (storeList (storeElement strings nestedStore member) vs ms) := by
  induction hroom with
  | nil => exact .done fun _ => .nil
  | cons hfirst _ ih =>
    exact (storeElement_stores hs hnested hfirst).cons ih List.forall_mem_cons.1
      fun _ _ => List.Forall₂.cons

theorem storeField_stores {v : Field S M} {m : Field Text N} (hroom : v.Room strings nestedFits m) :
    Stores strings (fieldPlaces nestedPlaces member v m) v (FieldMeets c nestedMeets member m)
      (Field.Rel (· = ·) (Loads strings) nestedRepresents · m)
      (storeField strings nestedStore member v m) := by
  cases hroom with
  | single helement =>
    exact (storeElement_stores hs hnested helement).map (fun _ _ h => Field.single.inj h)
      (fun h => by cases h; assumption) fun _ => .single
  | @array vs ms helements =>
    have hlist : Stores strings (List.zipWith (elementPlaces nestedPlaces member) vs ms).flatten
        (.array vs) (FieldMeets c nestedMeets member (.array ms))
        (Field.Rel (· = ·) (Loads strings) nestedRepresents · (.array ms))
        ((storeList (storeElement strings nestedStore member) vs ms).map .array id) :=
      (storeElements_stores hs hnested helements).map (fun _ _ h => Field.array.inj h)
        (fun h => by cases h; assumption) fun _ => .array
    simp only [fieldPlaces, storeField]
    rw [← Place.storable_array (S := S)]
    by_cases hreach : (Place.array member : Place S).storable = true
    · rw [if_pos hreach]
      refine ⟨?_, ?_, hlist.stored⟩
      · rw [hlist.full, List.forall_mem_cons]
        exact (and_iff_right hreach).symm
      · rw [hlist.kept, List.takeWhile_cons_of_pos hreach, List.forall_mem_cons]
        exact (and_iff_right trivial).symm
    · rw [if_neg hreach]
      exact ⟨by simp [hreach], by simp [hreach], fun _ h => nomatch h⟩

end Store

/-- **What storing a value leaves**, by the places it goes through. -/
theorem storeMembers_stores {S : Type} {strings : StringStorage S} (hs : strings.Lawful)
    (memory : Memory) (c : Checks Text) (depth : ℕ) :
    ∀ (pointer : Pointer) (v : Message S depth) (m : Message Text depth),
      Accommodates strings depth v m →
      Stores strings (messagePlaces memory depth pointer v m) v (Meets c memory depth pointer m)
        (Represents strings depth · m) (storeMembers strings memory depth pointer v m) := by
  induction depth with
  | zero => intro _ v; cases v
  | succ depth ih =>
    intro pointer v m hroom
    change List.Forall₂ _ v m at hroom
    change Stores strings (List.zipWith _ v ((memory pointer).list.zip m)).flatten v
      (List.Forall₂ _ (memory pointer).list m) (List.Forall₂ _ · m)
      (storeList _ v ((memory pointer).list.zip m))
    generalize (memory pointer).list = members
    induction hroom generalizing members with
    | nil => exact .done fun _ => .nil
    | cons hfield _ ihm =>
      cases members with
      | nil => exact .done fun h => nomatch h
      | cons member members =>
        exact (storeField_stores hs ih hfield).cons (ihm members) List.forall₂_cons.1
          fun _ _ => List.Forall₂.cons

end OpenRtdds
