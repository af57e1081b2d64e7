import OpenRtdds.Lib.Wire
import OpenRtdds.Spec.Xcdr1

/-!
# The XCDR1 format of a message type

What the codec is for, without its walks: the value of a message, the bytes of a value, the
layout of a type with everything at its bound, and the value of some bytes.

* `Message.view`: the value of a message, which has plain texts for strings.
* `Meets`: a message has the shape its type gives it and passes some checks, such as
  `bounded (· ≤ ·)`, the declared bounds.
* `messageChunks`: the aligned chunks a value is written as; `messageSlots`: the slots of the
  value that is largest everywhere.
* `decodeMembers`: the value some bytes have; `storeMembers`: what storing a value leaves;
  `messagePlaces`: what a store goes through.
* `Descriptor`: a type support that `analyze_type_support` accepts.
-/

namespace OpenRtdds

open Lib

/-- The chunk of an integer, aligned to its width. -/
def intChunk (little : Bool) (width value : ℕ) : Chunk := ⟨width, storeInt little width value⟩

/-- The chunk of a string: the length with the terminator, the characters, a NUL. -/
def stringChunk (little : Bool) (text : List UInt8) : Chunk :=
  ⟨4, storeInt little 4 (text.length + 1) ++ text ++ [0]⟩

/-- The characters of a string. -/
abbrev Text := List UInt8

section Values

variable {S T M N : Type}

/-- `f` on the strings and `g` on the nested messages. -/
def Element.map (f : S → T) (g : M → N) : Element S M → Element T N
  | .scalar bits => .scalar bits
  | .text string => .text (f string)
  | .nested message => .nested (g message)

def Field.map (f : S → T) (g : M → N) : Field S M → Field T N
  | .single element => .single (element.map f g)
  | .array elements => .array (elements.map (Element.map f g))

def Message.map (f : S → T) : (depth : ℕ) → Message S depth → Message T depth
  | 0, message => nomatch message
  | depth + 1, message => List.map (Field.map f (Message.map f depth)) message

/-- The characters a string is serialized as. -/
def StringStorage.text (strings : StringStorage S) (string : S) : Text :=
  ((strings.load string).map Span.data).getD []

/-- The value of a message. -/
def Message.view (strings : StringStorage S) (depth : ℕ) : Message S depth → Message Text depth :=
  Message.map strings.text depth

/-- Two elements of the same shape, with related scalars, strings and nested messages. -/
inductive Element.Rel (B : ℕ → ℕ → Prop) (R : S → T → Prop) (Q : M → N → Prop) :
    Element S M → Element T N → Prop
  | scalar {a b : ℕ} : B a b → Rel B R Q (.scalar a) (.scalar b)
  | text {s : S} {t : T} : R s t → Rel B R Q (.text s) (.text t)
  | nested {v : M} {m : N} : Q v m → Rel B R Q (.nested v) (.nested m)

inductive Field.Rel (B : ℕ → ℕ → Prop) (R : S → T → Prop) (Q : M → N → Prop) :
    Field S M → Field T N → Prop
  | single {a : Element S M} {b : Element T N} : a.Rel B R Q b → Rel B R Q (.single a) (.single b)
  | array {as : List (Element S M)} {bs : List (Element T N)} :
      List.Forall₂ (Element.Rel B R Q) as bs → Rel B R Q (.array as) (.array bs)

def Message.Rel (B : ℕ → ℕ → Prop) (R : S → T → Prop) :
    (depth : ℕ) → Message S depth → Message T depth → Prop
  | 0, v, _ => nomatch v
  | depth + 1, v, m => List.Forall₂ (Field.Rel B R (Message.Rel B R depth)) v m

/-- The string stores the characters. -/
def Loads (strings : StringStorage S) (s : S) (t : Text) : Prop :=
  ∃ span, strings.load s = some span ∧ span.data = t

/-- The message stores the value. -/
def Represents (strings : StringStorage S) (depth : ℕ) : Message S depth → Message Text depth → Prop :=
  Message.Rel (· = ·) (Loads strings) depth

/-- The message has the sequence sizes of the value and room for its strings. -/
def Accommodates (strings : StringStorage S) (depth : ℕ) :
    Message S depth → Message Text depth → Prop :=
  Message.Rel (fun _ _ => True) (fun s t => strings.fits s t.length = true) depth

end Values

section Types

variable {S M : Type}

/-- Conditions on the scalars, the strings and the element counts of a message. -/
structure Checks (S : Type) where
  scalar : Member → ℕ → Prop
  text : Member → S → Prop
  array : Member → ℕ → Prop

inductive ElementMeets (c : Checks S) (nested : Pointer → M → Prop) (member : Member) :
    Element S M → Prop
  | scalar {bits : ℕ} (width : ℕ) : scalarLayout member.typeId = some width →
      c.scalar member bits → ElementMeets c nested member (.scalar bits)
  | text {string : S} : member.typeId = .string → c.text member string →
      ElementMeets c nested member (.text string)
  | nested {pointer : Pointer} {message : M} : member.typeId = .message →
      nestedMembers member = some pointer → nested pointer message →
      ElementMeets c nested member (.nested message)

inductive FieldMeets (c : Checks S) (nested : Pointer → M → Prop) (member : Member) :
    Field S M → Prop
  | single {element : Element S M} : member.isArray = false →
      ElementMeets c nested member element → FieldMeets c nested member (.single element)
  | array {elements : List (Element S M)} : member.isArray = true →
      c.array member elements.length → (∀ e ∈ elements, ElementMeets c nested member e) →
      FieldMeets c nested member (.array elements)

/-- The message has the shape its type gives it and meets the checks. -/
def Meets (c : Checks S) (memory : Memory) : (depth : ℕ) → Pointer → Message S depth → Prop
  | 0, _, message => nomatch message
  | depth + 1, pointer, message =>
    List.Forall₂ (FieldMeets c (Meets c memory depth)) (memory pointer).list message

/-- Scalars are values of their type, and the lengths of strings and sequences are `within`
their declared bounds; an array has its declared size. -/
def bounded (within : ℕ → ℕ → Prop) : Checks Text where
  scalar member bits :=
    bits < 2 ^ (8 * (scalarLayout member.typeId).getD 0) ∧ (member.typeId = .boolean → bits < 2)
  text member text := within text.length member.stringUpperBound
  array member count :=
    if member.isUpperBound then within count member.arraySize else count = member.arraySize

/-- The strings of the message can be read, and its arrays have callbacks to read them and a
count of 32 bits. -/
def ready (strings : StringStorage S) : Checks S where
  scalar _ _ := True
  text _ string := (strings.load string).isSome = true
  array member count := member.readable = true ∧ count ≤ uint32Max

/-- The scalars of the message are values of their types; nothing is asked of the lengths of its
strings and arrays. -/
def typed : Checks S where
  scalar := (bounded (· ≤ ·)).scalar
  text _ _ := True
  array _ _ := True

/-- Every member of the type, nested ones included, has the property. -/
def AllMembers (P : Member → Prop) (memory : Memory) : ℕ → Pointer → Prop
  | 0, _ => True
  | depth + 1, pointer => ∀ member ∈ (memory pointer).list, P member ∧
      (member.typeId = .message → ∀ nested, nestedMembers member = some nested →
        AllMembers P memory depth nested)

/-- The callbacks rosidl generates for an array: its size with access to the elements in
place, or with `fetch_function` and `assign_function` for the booleans of a C++ sequence. -/
def Member.generated (member : Member) : Bool :=
  !member.isArray || member.callbacks.size &&
    (member.callbacks.getConst && member.callbacks.get ||
      member.typeId == .boolean && member.callbacks.fetch && member.callbacks.assign)

/-- The members agree on everything but names, offsets and callbacks. -/
structure SameMember (nested : Pointer → Pointer → Prop) (a b : Member) : Prop where
  typeId : a.typeId = b.typeId
  stringUpperBound : a.stringUpperBound = b.stringUpperBound
  isArray : a.isArray = b.isArray
  arraySize : a.arraySize = b.arraySize
  isUpperBound : a.isUpperBound = b.isUpperBound
  members : a.typeId = .message →
    ∃ p q, nestedMembers a = some p ∧ nestedMembers b = some q ∧ nested p q

/-- Two descriptors of one schema. -/
def SameSchema (memory memory' : Memory) : ℕ → Pointer → Pointer → Prop
  | 0, _, _ => True
  | depth + 1, p, q =>
    List.Forall₂ (SameMember (SameSchema memory memory' depth)) (memory p).list (memory' q).list

end Types

section Layout

variable {M : Type}

/-- The slots of an element of the largest size. -/
def elementSlots (nested : Pointer → List Slot) (member : Member) : List Slot :=
  match scalarLayout member.typeId with
  | some width => [⟨width, width⟩]
  | none =>
    match member.typeId with
    | .string => [⟨4, 4 + (member.stringUpperBound + 1)⟩]
    | .message => (nestedMembers member).elim [] nested
    | _ => []

def fieldSlots (nested : Pointer → List Slot) (member : Member) : List Slot :=
  (if member.isArray && member.isUpperBound then [⟨4, 4⟩] else []) ++
    (List.replicate (if member.isArray then member.arraySize else 1)
      (elementSlots nested member)).flatten

/-- The slots of the value of a type with every string and sequence at its bound. -/
def messageSlots (memory : Memory) : ℕ → Pointer → List Slot
  | 0, _ => []
  | depth + 1, pointer => (memory pointer).list.flatMap (fieldSlots (messageSlots memory depth))

/-- The chunks of an element. -/
def elementChunks (little : Bool) (nested : Pointer → M → List Chunk) (member : Member) :
    Element Text M → List Chunk
  | .scalar bits => [intChunk little ((scalarLayout member.typeId).getD 0) bits]
  | .text text => [stringChunk little text]
  | .nested message => (nestedMembers member).elim [] (nested · message)

def fieldChunks (little : Bool) (nested : Pointer → M → List Chunk) (member : Member) :
    Field Text M → List Chunk
  | .single element => elementChunks little nested member element
  | .array elements =>
    (if member.isUpperBound then [intChunk little 4 elements.length] else []) ++
      elements.flatMap (elementChunks little nested member)

/-- The chunks of a value of a type. -/
def messageChunks (little : Bool) (memory : Memory) :
    (depth : ℕ) → Pointer → Message Text depth → List Chunk
  | 0, _, message => nomatch message
  | depth + 1, pointer, message =>
    (List.zipWith (fieldChunks little (messageChunks little memory depth)) (memory pointer).list
      message).flatten

end Layout

section Decoding

variable {S M N : Type}

/-- The element at the position of the reader. -/
def decodeElement (nested : Pointer → CdrReader → Option (M × CdrReader)) (member : Member)
    (r : CdrReader) : Option (Element Text M × CdrReader) :=
  match member.typeId with
  | .string =>
    match r.readStringView member.stringUpperBound with
    | (none, _) => none
    | (some text, r) => some (.text text, r)
  | .message => do
    let pointer ← nestedMembers member
    let (message, r) ← nested pointer r
    return (.nested message, r)
  | typeId =>
    match readScalar typeId r with
    | .error _ => none
    | .ok (bits, r) => some (.scalar bits, r)

def decodeElements {E : Type} (decode : CdrReader → Option (E × CdrReader)) :
    ℕ → CdrReader → Option (List E × CdrReader)
  | 0, r => some ([], r)
  | count + 1, r => do
    let (element, r) ← decode r
    let (elements, r) ← decodeElements decode count r
    return (element :: elements, r)

def decodeField (nested : Pointer → CdrReader → Option (M × CdrReader)) (member : Member)
    (r : CdrReader) : Option (Field Text M × CdrReader) :=
  if member.isArray then
    match readCount member r with
    | .error _ => none
    | .ok (count, r) => do
      let (elements, r) ← decodeElements (decodeElement nested member) count r
      return (.array elements, r)
  else do
    let (element, r) ← decodeElement nested member r
    return (.single element, r)

def decodeFields {F : Type} (decode : Member → CdrReader → Option (F × CdrReader)) :
    List Member → CdrReader → Option (List F × CdrReader)
  | [], r => some ([], r)
  | member :: members, r => do
    let (field, r) ← decode member r
    let (fields, r) ← decodeFields decode members r
    return (field :: fields, r)

/-- The value of a type at the position of the reader. -/
def decodeMembers (memory : Memory) :
    (depth : ℕ) → Pointer → CdrReader → Option (Message Text depth × CdrReader)
  | 0, _, _ => none
  | depth + 1, pointer, r =>
    decodeFields (decodeField (decodeMembers memory depth)) (memory pointer).list r

/-- What a store leaves, and whether it got to the end. -/
abbrev Stored (α : Type) := α × Bool

/-- Stores one by one until a store does not get to its end. -/
def storeList {A B : Type} (store : A → B → Stored A) : List A → List B → Stored (List A)
  | a :: as, b :: bs =>
    if (store a b).2 then (storeList store as bs).map ((store a b).1 :: ·) id
    else ((store a b).1 :: as, false)
  | as, _ => (as, true)

def storeElement (strings : StringStorage S) (nested : Pointer → M → N → Stored M)
    (member : Member) : Element S M → Element Text N → Stored (Element S M)
  | .text string, .text text => (.text (strings.assign string text), true)
  | .nested v, .nested m =>
    match nestedMembers member with
    | none => (.nested v, true)
    | some pointer => (nested pointer v m).map .nested id
  | .scalar _, .scalar bits => (.scalar bits, true)
  | element, _ => (element, true)

/-- An array that has neither `get_function` nor, for booleans, `assign_function` cannot be
stored. -/
def storeField (strings : StringStorage S) (nested : Pointer → M → N → Stored M)
    (member : Member) : Field S M → Field Text N → Stored (Field S M)
  | .single v, .single m => (storeElement strings nested member v m).map .single id
  | .array vs, .array ms =>
    if member.reachable true then
      (storeList (storeElement strings nested member) vs ms).map .array id
    else (.array vs, false)
  | field, _ => (field, true)

/-- Stores the fields of a value in order, up to the first array that cannot be stored. -/
def storeMembers (strings : StringStorage S) (memory : Memory) :
    (depth : ℕ) → Pointer → Message S depth → Message Text depth → Stored (Message S depth)
  | 0, _, v, _ => nomatch v
  | depth + 1, pointer, v, m =>
    storeList (fun field value =>
      storeField strings (storeMembers strings memory depth) value.1 field value.2)
      v ((memory pointer).list.zip m)

end Decoding

section Places

variable {S M N : Type}

/-- What a store goes through: a scalar or a string of the destination with what the value has for
it, or the start of an array. -/
inductive Place (S : Type) where
  | scalar (old new : ℕ)
  | text (old : S) (new : Text)
  | array (member : Member)

namespace Place

/-- The destination has there what the value has. -/
def Holds (strings : StringStorage S) : Place S → Prop
  | .scalar old new => old = new
  | .text old new => Loads strings old new
  | .array _ => True

/-- What validation asks of an array: `size_function`, and `get_const_function` or, for booleans,
`assign_function`. -/
def Checked : Place S → Prop
  | .array member => member.callbacks.size = true ∧ (member.callbacks.getConst = true ∨
      member.typeId = .boolean ∧ member.callbacks.assign = true)
  | _ => True

/-- What the store asks of an array: `get_function` or, for booleans, `assign_function`. -/
def storable : Place S → Bool
  | .array member =>
    member.callbacks.get || member.typeId == .boolean && member.callbacks.assign
  | _ => true

end Place

def elementPlaces (nested : Pointer → M → N → List (Place S)) (member : Member) :
    Element S M → Element Text N → List (Place S)
  | .scalar old, .scalar new => [.scalar old new]
  | .text old, .text new => [.text old new]
  | .nested v, .nested m => (nestedMembers member).elim [] (nested · v m)
  | _, _ => []

def fieldPlaces (nested : Pointer → M → N → List (Place S)) (member : Member) :
    Field S M → Field Text N → List (Place S)
  | .single v, .single m => elementPlaces nested member v m
  | .array vs, .array ms =>
    .array member :: (List.zipWith (elementPlaces nested member) vs ms).flatten
  | _, _ => []

/-- The places of a destination and a value, in the order of the bytes. -/
def messagePlaces (memory : Memory) :
    (depth : ℕ) → Pointer → Message S depth → Message Text depth → List (Place S)
  | 0, _, v, _ => nomatch v
  | depth + 1, pointer, v, m =>
    (List.zipWith (fun field value =>
      fieldPlaces (messagePlaces memory depth) value.1 field value.2)
      v ((memory pointer).list.zip m)).flatten

end Places

/-- The strings of a language. -/
def StringOf : TypeSupportLanguage → Type
  | .introspectionC => CString
  | .introspectionCpp => CppString

def stringsOf : (language : TypeSupportLanguage) → StringStorage (StringOf language)
  | .introspectionC => cStrings
  | .introspectionCpp => cppStrings

/-- A message of a language. -/
abbrev Sample (language : TypeSupportLanguage) := Message (StringOf language) maximumTypeNestingDepth

/-- A type support of a language that the analysis accepts with a sample limit, which is a
`std::size_t`. -/
structure Descriptor (language : TypeSupportLanguage) where
  memory : Memory
  handle : TypeSupportHandle
  limit : ℕ
  info : TypeSupportInfo
  accepted : analyzeTypeSupport memory handle limit = .ok info
  introspection : info.language = language
  machine : limit ≤ uint64Max

namespace Descriptor

variable {language : TypeSupportLanguage} (D : Descriptor language)

/-- The record of the type. -/
def root : Pointer := D.handle.data.getD 0

/-- The strings and sequences of the message are within their bounds. -/
def InBounds (v : Sample language) : Prop :=
  Meets (bounded (· ≤ ·)) D.memory maximumTypeNestingDepth D.root
    (Message.view (stringsOf language) maximumTypeNestingDepth v)

/-- The strings and sequences of the message are at their bounds. -/
def AtBounds (v : Sample language) : Prop :=
  Meets (bounded (· = ·)) D.memory maximumTypeNestingDepth D.root
    (Message.view (stringsOf language) maximumTypeNestingDepth v)

/-- The codec can read the message. -/
def Ready (v : Sample language) : Prop :=
  Meets (ready (stringsOf language)) D.memory maximumTypeNestingDepth D.root v

/-- The message is one of the type. -/
def Typed (v : Sample language) : Prop := Meets typed D.memory maximumTypeNestingDepth D.root v

/-- The arrays of the type have the callbacks that rosidl generates. -/
def Generated : Prop :=
  AllMembers (fun member => member.generated = true) D.memory maximumTypeNestingDepth D.root

/-- The arrays and sequences of the type have counts of 32 bits. -/
def Counted : Prop :=
  AllMembers (fun member => member.isArray = true → member.arraySize ≤ uint32Max) D.memory
    maximumTypeNestingDepth D.root

/-- `serialize_xcdr1` of a message into a buffer of `capacity` bytes. -/
def serialize (v : Sample language) (capacity : ℕ) (order : ByteOrder) :
    Except CodecFailure (List UInt8) :=
  serializeXcdr1 (stringsOf language) D.memory D.handle v capacity order

/-- `deserialize_xcdr1` of a buffer into a message. -/
def deserialize (buffer : Span) (dest : Sample language) : Except CodecFailure ℕ × Sample language :=
  deserializeXcdr1 (stringsOf language) D.memory D.handle buffer D.limit dest

/-- The places of a destination and a value of the type. -/
def places (dest : Sample language) (m : Message Text maximumTypeNestingDepth) :
    List (Place (StringOf language)) :=
  messagePlaces D.memory maximumTypeNestingDepth D.root dest m

/-- The bytes of the buffer behind its header are those of the value `m`, from `r` to `r'`; the
destination has room for the value, and its arrays have what validation asks for. -/
structure Validates (buffer : Span) (dest : Sample language)
    (m : Message Text maximumTypeNestingDepth) (r r' : CdrReader) : Prop where
  real : buffer.isNull = false
  fits : buffer.size ≤ D.limit
  begins : CdrReader.begin { buffer } = (true, r)
  decodes : decodeMembers D.memory maximumTypeNestingDepth D.root r = some (m, r')
  ends : r'.remaining = 0
  room : Accommodates (stringsOf language) maximumTypeNestingDepth dest m
  callbacks : ∀ p ∈ D.places dest m, p.Checked

end Descriptor

end OpenRtdds
