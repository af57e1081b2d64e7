import OpenRtdds.Spec.TypeSupport

/-!
# The XCDR1 codec

`rmw_openrtdds_cpp/src/xcdr1_codec.cpp`: `serialize_xcdr1` walks a descriptor and a message
and writes CDR primitives; `deserialize_xcdr1` walks them twice over the same bytes, first
to validate and then to store.

The C++ templates are instantiated for the C and the C++ introspection, which differ only in
their strings; here they are functions of a `StringStorage`. A message is the list of its
fields in the order of the members, whose storage does not overlap; `Message S depth` are the
messages that nest at most `depth` levels, which is what the type analysis admits for sixteen
levels. A value of another shape than its member has is no message of the type; the walks answer
it with `invalid_message_storage`.
-/

namespace OpenRtdds

/-- The value of one element: the bits of a scalar, a string, a nested message. -/
inductive Element (S M : Type) where
  | scalar (bits : ℕ)
  | text (string : S)
  | nested (message : M)
  deriving DecidableEq

/-- The value of a member: one element, or the elements of an array or sequence. -/
inductive Field (S M : Type) where
  | single (element : Element S M)
  | array (elements : List (Element S M))
  deriving DecidableEq

/-- A message with strings in `S` that nests at most `depth` levels. -/
def Message (S : Type) : ℕ → Type
  | 0 => Empty
  | depth + 1 => List (Field S (Message S depth))

/-- `CodecError` without `none`. -/
inductive CodecError where
  | invalidArgument
  | typeSupportRejected
  | invalidMessageStorage
  | callbackMissing
  | fieldBoundExceeded
  | destinationSizeMismatch
  | outputTooSmall
  | inputTruncated
  | unsupportedEncoding
  | invalidWireData
  | trailingData
  | cdrFailure
  deriving DecidableEq

/-- `CodecResult` of a call that returned false. -/
structure CodecFailure where
  error : CodecError
  typeSupportError : Option TypeSupportError := none
  bytesProcessed : ℕ := 0
  deriving DecidableEq

/-- `map_cdr_error`. -/
def mapCdrError : Option CdrError → CodecError
  | some .overflow => .outputTooSmall
  | some .underflow => .inputTruncated
  | some .unsupportedEncoding => .unsupportedEncoding
  | some .invalidData => .invalidWireData
  | some .boundExceeded => .fieldBoundExceeded
  | some .invalidArgument | some .notInitialized | none => .cdrFailure

/-- `writer_failure` and `reader_failure`. -/
def writerFailure (w : CdrWriter) : CodecFailure :=
  { error := mapCdrError w.error, bytesProcessed := w.size }

def readerFailure (r : CdrReader) : CodecFailure :=
  { error := mapCdrError r.error, bytesProcessed := r.offset }

/-- How the messages of a language store strings: the characters that are serialized, whether
a length fits, and the string after a store. -/
structure StringStorage (S : Type) where
  load : S → Option Span
  fits : S → ℕ → Bool
  assign : S → List UInt8 → S

/-- `rosidl_runtime_c__String`; `data` is the memory of `capacity` characters, if not null. -/
structure CString where
  data : Option (List UInt8)
  size : ℕ
  capacity : ℕ
  owned : ∀ d ∈ data, d.length = capacity
  deriving DecidableEq

theorem CString.assign_owned (s : CString) (bytes : List UInt8) :
    ∀ d ∈ s.data.map fun d => (bytes ++ 0 :: d.drop (bytes.length + 1)).take s.capacity,
      d.length = s.capacity := by
  intro d hd
  cases hs : s.data with
  | none => rw [hs] at hd; cases hd
  | some d' =>
    have hlen := s.owned d' (by rw [hs]; exact rfl)
    rw [hs] at hd
    cases hd
    rw [List.length_take, List.length_append, List.length_cons, List.length_drop]
    omega

/-- The strings of the C introspection. -/
def cStrings : StringStorage CString where
  load s :=
    match s.data with
    | none => if s.size ≠ 0 then none else some (.null 0)
    | some d => if s.capacity ≤ s.size ∨ byteAt d s.size ≠ 0 then none else some (.bytes (d.take s.size))
  fits s length := s.data.isSome && decide (s.capacity > length)
  assign s bytes :=
    { data := s.data.map fun d => (bytes ++ 0 :: d.drop (bytes.length + 1)).take s.capacity
      size := bytes.length
      capacity := s.capacity
      owned := s.assign_owned bytes }

/-- `std::string`: its characters and its capacity. -/
structure CppString where
  content : List UInt8
  capacity : ℕ
  bounded : content.length ≤ capacity
  deriving DecidableEq

/-- The strings of the C++ introspection; `resize` within the capacity does not throw. -/
def cppStrings : StringStorage CppString where
  load s := some (.bytes s.content)
  fits s length := decide (length ≤ s.capacity)
  assign s bytes :=
    { content := bytes.take s.capacity
      capacity := s.capacity
      bounded := by rw [List.length_take]; omega }

/-- The pointer `nested_members` follows. -/
def nestedMembers (member : Member) : Option Pointer := member.members.bind TypeSupportHandle.data

/-- `write_scalar`. -/
def writeScalar (typeId : FieldType) (bits : ℕ) (w : CdrWriter) : Except CodecFailure CdrWriter :=
  let finish := fun r : Bool × CdrWriter => if r.1 then .ok r.2 else .error (writerFailure r.2)
  match typeId with
  | .boolean => finish (w.writeBool (bits != 0))
  | .char | .octet | .uint8 | .int8 => finish (w.writeUint8 bits)
  | .uint16 | .int16 => finish (w.writeUint16 bits)
  | .float | .uint32 | .int32 => finish (w.writeUint32 bits)
  | .double | .uint64 | .int64 => finish (w.writeUint64 bits)
  | .string | .message | .other _ =>
    .error { error := .typeSupportRejected, bytesProcessed := w.size }

/-- `read_scalar`: the value that is stored if `apply` is set. -/
def readScalar (typeId : FieldType) (r : CdrReader) : Except CodecFailure (ℕ × CdrReader) :=
  let finish := fun r : Option ℕ × CdrReader =>
    match r.1 with
    | some value => .ok (value, r.2)
    | none => .error (readerFailure r.2)
  match typeId with
  | .boolean => finish (r.readBool.map (Option.map fun b => if b then 1 else 0) id)
  | .char | .octet | .uint8 | .int8 => finish r.readUint8
  | .uint16 | .int16 => finish r.readUint16
  | .float | .uint32 | .int32 => finish r.readUint32
  | .double | .uint64 | .int64 => finish r.readUint64
  | .string | .message | .other _ =>
    .error { error := .typeSupportRejected, bytesProcessed := r.offset }

section Serialize

variable {S M : Type} (strings : StringStorage S)

/-- `serialize_value`, given the serialization of nested members. -/
def serializeValue (serializeMembers : Pointer → M → CdrWriter → Except CodecFailure CdrWriter)
    (member : Member) (value : Element S M) (w : CdrWriter) : Except CodecFailure CdrWriter :=
  let storage : CodecFailure := { error := .invalidMessageStorage, bytesProcessed := w.size }
  match member.typeId, value with
  | .string, .text string =>
    match strings.load string with
    | none => .error storage
    | some data =>
      if data.size > member.stringUpperBound then
        .error { error := .fieldBoundExceeded, bytesProcessed := w.size }
      else
        let r := w.writeString data member.stringUpperBound
        if r.1 then .ok r.2 else .error (writerFailure r.2)
  | .message, .nested message =>
    match nestedMembers member with
    | none => .error { error := .typeSupportRejected, bytesProcessed := w.size }
    | some pointer => serializeMembers pointer message w
  | typeId, .scalar bits => writeScalar typeId bits w
  | _, _ => .error storage

/-- The element loop of `serialize_members`. -/
def serializeElements (serialize : Element S M → CdrWriter → Except CodecFailure CdrWriter) :
    List (Element S M) → CdrWriter → Except CodecFailure CdrWriter
  | [], w => .ok w
  | element :: elements, w => do
    let w ← serialize element w
    serializeElements serialize elements w

/-- `serialize_members` can read the elements of the array. -/
def Member.readable (member : Member) : Bool :=
  member.callbacks.size &&
    (member.callbacks.getConst || member.typeId == .boolean && member.callbacks.fetch)

/-- The body of the member loop of `serialize_members`. -/
def serializeField (serializeMembers : Pointer → M → CdrWriter → Except CodecFailure CdrWriter)
    (member : Member) (field : Field S M) (w : CdrWriter) : Except CodecFailure CdrWriter :=
  let element := serializeValue strings serializeMembers member
  match member.isArray, field with
  | false, .single value => element value w
  | true, .array elements =>
    if !member.readable then .error { error := .callbackMissing, bytesProcessed := w.size }
    else
      let count := elements.length
      if member.isUpperBound ∧ count > member.arraySize ∨
          ¬ member.isUpperBound ∧ count ≠ member.arraySize ∨ count > uint32Max then
        .error { error := .fieldBoundExceeded, bytesProcessed := w.size }
      else if member.isUpperBound then
        let r := w.writeUint32 count
        if r.1 then serializeElements element elements r.2 else .error (writerFailure r.2)
      else serializeElements element elements w
  | _, _ => .error { error := .invalidMessageStorage, bytesProcessed := w.size }

/-- The member loop of `serialize_members`. -/
def serializeFields (serialize : Member → Field S M → CdrWriter → Except CodecFailure CdrWriter) :
    List Member → List (Field S M) → CdrWriter → Except CodecFailure CdrWriter
  | [], [], w => .ok w
  | member :: members, field :: fields, w => do
    let w ← serialize member field w
    serializeFields serialize members fields w
  | _, _, w => .error { error := .invalidMessageStorage, bytesProcessed := w.size }

/-- `serialize_members`. -/
def serializeMembers (memory : Memory) :
    (depth : ℕ) → Pointer → Message S depth → CdrWriter → Except CodecFailure CdrWriter
  | 0, _, message, _ => nomatch message
  | depth + 1, pointer, message, w =>
    serializeFields (serializeField strings (serializeMembers memory depth)) (memory pointer).list
      message w

/-- `serialize_xcdr1` into a buffer of `capacity` bytes: the serialized sample. -/
def serializeXcdr1 (memory : Memory) (typeSupport : TypeSupportHandle)
    (message : Message S maximumTypeNestingDepth) (capacity : ℕ) (byteOrder : ByteOrder) :
    Except CodecFailure (List UInt8) :=
  if byteOrder ≠ .bigEndian ∧ byteOrder ≠ .littleEndian then .error { error := .invalidArgument }
  else match typeSupport.data, analyzeTypeSupport memory typeSupport capacity with
    | some pointer, .ok _ =>
      let w := CdrWriter.begin { capacity } byteOrder
      if w.1 then do
        let w ← serializeMembers strings memory _ pointer message w.2
        return w.written
      else .error (writerFailure w.2)
    | _, .error e => .error { error := .typeSupportRejected, typeSupportError := some e }
    | none, .ok _ => .error { error := .typeSupportRejected }

end Serialize

section Process

variable {S M : Type} (strings : StringStorage S) (apply : Bool)

/-- What a walk over the bytes returns: the reader or a failure, and the value it leaves. -/
abbrev Processed (α : Type) := Except CodecFailure CdrReader × α

/-- `process_string` and `process_value`, given the processing of nested members. -/
def processValue (processMembers : Pointer → M → CdrReader → Processed M) (member : Member)
    (value : Element S M) (r : CdrReader) : Processed (Element S M) :=
  match member.typeId, value with
  | .string, .text string =>
    match r.readStringView member.stringUpperBound with
    | (none, r) => (.error (readerFailure r), value)
    | (some data, r) =>
      if !strings.fits string data.length then
        (.error { error := .invalidMessageStorage, bytesProcessed := r.offset }, value)
      else (.ok r, if apply then .text (strings.assign string data) else value)
  | .message, .nested message =>
    match nestedMembers member with
    | none => (.error { error := .typeSupportRejected, bytesProcessed := r.offset }, value)
    | some pointer => (processMembers pointer message r).map id .nested
  | typeId, .scalar _ =>
    match readScalar typeId r with
    | .error e => (.error e, value)
    | .ok (bits, r) => (.ok r, if apply then .scalar bits else value)
  | _, _ => (.error { error := .invalidMessageStorage, bytesProcessed := r.offset }, value)

/-- The body of the element loop of `process_members`: the element is processed in place if
the callback for that exists, and a boolean through `assign_function` otherwise. -/
def processElement (processMembers : Pointer → M → CdrReader → Processed M) (member : Member)
    (value : Element S M) (r : CdrReader) : Processed (Element S M) :=
  if (if apply then member.callbacks.get else member.callbacks.getConst) then
    processValue strings apply processMembers member value r
  else match value with
    | .scalar _ =>
      match processValue strings apply processMembers member (.scalar 0) r with
      | (.error e, _) => (.error e, value)
      | (.ok r, boolean) => (.ok r, if apply then boolean else value)
    | _ => (.error { error := .invalidMessageStorage, bytesProcessed := r.offset }, value)

/-- The element loop of `process_members`. -/
def processElements (process : Element S M → CdrReader → Processed (Element S M)) :
    List (Element S M) → CdrReader → Processed (List (Element S M))
  | [], r => (.ok r, [])
  | element :: elements, r =>
    match process element r with
    | (.error e, element) => (.error e, element :: elements)
    | (.ok r, element) => (processElements process elements r).map id (element :: ·)

/-- The callback that a pass needs for the elements of the array: `get_const_function` to
validate, `get_function` to store, or `assign_function` for booleans. -/
def Member.reachable (member : Member) : Bool :=
  (if apply then member.callbacks.get else member.callbacks.getConst) ||
    member.typeId == .boolean && member.callbacks.assign

/-- The element count of an array, which for a sequence is read from the bytes. -/
def readCount (member : Member) (r : CdrReader) : Except CodecFailure (ℕ × CdrReader) :=
  if member.isUpperBound then
    match r.readUint32 with
    | (none, r) => .error (readerFailure r)
    | (some count, r) =>
      if count > member.arraySize then
        .error { error := .fieldBoundExceeded, bytesProcessed := r.offset }
      else .ok (count, r)
  else .ok (member.arraySize, r)

/-- The body of the member loop of `process_members`. -/
def processField (processMembers : Pointer → M → CdrReader → Processed M) (member : Member)
    (field : Field S M) (r : CdrReader) : Processed (Field S M) :=
  match member.isArray, field with
  | false, .single value => (processValue strings apply processMembers member value r).map id .single
  | true, .array elements =>
    if !member.callbacks.size then
      (.error { error := .callbackMissing, bytesProcessed := r.offset }, field)
    else match readCount member r with
      | .error e => (.error e, field)
      | .ok (count, r) =>
        if elements.length ≠ count then
          (.error { error := .destinationSizeMismatch, bytesProcessed := r.offset }, field)
        else if !member.reachable apply then
          (.error { error := .callbackMissing, bytesProcessed := r.offset }, field)
        else
          (processElements (processElement strings apply processMembers member) elements r).map id
            .array
  | _, _ => (.error { error := .invalidMessageStorage, bytesProcessed := r.offset }, field)

/-- The member loop of `process_members`. -/
def processFields (process : Member → Field S M → CdrReader → Processed (Field S M)) :
    List Member → List (Field S M) → CdrReader → Processed (List (Field S M))
  | [], [], r => (.ok r, [])
  | member :: members, field :: fields, r =>
    match process member field r with
    | (.error e, field) => (.error e, field :: fields)
    | (.ok r, field) => (processFields process members fields r).map id (field :: ·)
  | _, fields, r => (.error { error := .invalidMessageStorage, bytesProcessed := r.offset }, fields)

/-- `process_members`. -/
def processMembers (memory : Memory) :
    (depth : ℕ) → Pointer → Message S depth → CdrReader → Processed (Message S depth)
  | 0, _, message, _ => nomatch message
  | depth + 1, pointer, message, r =>
    processFields (processField strings apply (processMembers memory depth)) (memory pointer).list
      message r

/-- `deserialize_xcdr1`: the number of bytes read or the failure, and the message it leaves. -/
def deserializeXcdr1 (memory : Memory) (typeSupport : TypeSupportHandle) (buffer : Span)
    (maximumSampleSize : ℕ) (message : Message S maximumTypeNestingDepth) :
    Except CodecFailure ℕ × Message S maximumTypeNestingDepth :=
  if buffer.isNull || buffer.size > maximumSampleSize then (.error { error := .invalidArgument }, message)
  else match typeSupport.data, analyzeTypeSupport memory typeSupport maximumSampleSize with
    | some pointer, .ok _ =>
      let start := CdrReader.begin { buffer }
      if !start.1 then (.error (readerFailure start.2), message)
      else
        -- the validation pass
        match processMembers strings false memory _ pointer message start.2 with
        | (.error e, message) => (.error e, message)
        | (.ok validator, message) =>
          if validator.remaining ≠ 0 then
            (.error { error := .trailingData, bytesProcessed := validator.offset }, message)
          else
            -- the storing pass, over the same bytes
            match processMembers strings true memory _ pointer message start.2 with
            | (.error e, message) => (.error e, message)
            | (.ok reader, message) => (.ok reader.offset, message)
    | _, .error e => (.error { error := .typeSupportRejected, typeSupportError := some e }, message)
    | none, .ok _ => (.error { error := .typeSupportRejected }, message)

end Process

end OpenRtdds
