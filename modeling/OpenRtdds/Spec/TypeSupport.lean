import OpenRtdds.Spec.Cdr

/-!
# Type analysis

`rmw_openrtdds_cpp/src/type_support.cpp`: the descriptors of the rosidl introspection type
supports, and `analyze_type_support`, which admits bounded types and computes the size of
their largest sample.

The C and the C++ introspection have descriptors of the same form. A descriptor is a graph,
possibly with cycles: `Memory` holds the `MessageMembers` records, and a nested message
names its record by a pointer. Of a callback only its presence matters; the callbacks act on
the elements that the message stores. Member offsets matter only to the check of the
analysis: a message is modelled by the values of its fields.
-/

namespace OpenRtdds

/-- The field types of `rosidl_typesupport_introspection_c/field_types.h`; `other` stands for
the ones the code does not name. -/
inductive FieldType where
  | float
  | double
  | char
  | boolean
  | octet
  | uint8
  | int8
  | uint16
  | int16
  | uint32
  | int32
  | uint64
  | int64
  | string
  | message
  | other (id : UInt8)
  deriving DecidableEq

/-- The address of a `MessageMembers` record. -/
abbrev Pointer := ℕ

/-- `TypeSupportLanguage`. -/
inductive TypeSupportLanguage where
  | introspectionC
  | introspectionCpp
  deriving DecidableEq

/-- What a `typesupport_identifier` string says. -/
inductive Identifier where
  | introspectionC
  | introspectionCpp
  | other
  deriving DecidableEq

/-- `rosidl_message_type_support_t`; null pointers are `none`. -/
structure TypeSupportHandle where
  typesupportIdentifier : Option Identifier
  data : Option Pointer
  deriving DecidableEq

/-- Which of the array callbacks of a member are not null. -/
structure ArrayCallbacks where
  size : Bool := false
  getConst : Bool := false
  get : Bool := false
  fetch : Bool := false
  assign : Bool := false
  deriving DecidableEq

/-- `MessageMember`; `named` says that `name_` is not null. -/
structure Member where
  named : Bool := true
  typeId : FieldType
  stringUpperBound : ℕ := 0
  members : Option TypeSupportHandle := none
  isArray : Bool := false
  arraySize : ℕ := 0
  isUpperBound : Bool := false
  offset : ℕ := 0
  callbacks : ArrayCallbacks := {}
  deriving DecidableEq

/-- `MessageMembers`; null pointers are `none`. -/
structure MessageMembers where
  messageNamespace : Option (List Char)
  messageName : Option (List Char)
  sizeOf : ℕ
  memberCount : ℕ
  members : Option (Vector Member memberCount)

/-- The member table; the code reads it only if there are members. -/
def MessageMembers.list (m : MessageMembers) : List Member :=
  match m.members with
  | none => []
  | some table => table.toList

/-- The records the pointers of descriptors lead to. -/
abbrev Memory := Pointer → MessageMembers

/-- `TypeSupportError` without `none`. -/
inductive TypeSupportError where
  | invalidArgument
  | unsupportedIdentifier
  | invalidMembers
  | unsupportedField
  | unboundedType
  | recursiveType
  | nestingLimitExceeded
  | arithmeticOverflow
  | sampleLimitExceeded
  | invalidName
  | nameLimitExceeded
  deriving DecidableEq

/-- `kDdsNameCapacity`, `kMaximumTypeNestingDepth` and `kXcdr1EncapsulationSize`. -/
def ddsNameCapacity : ℕ := 256

def maximumTypeNestingDepth : ℕ := 16

def xcdr1EncapsulationSize : ℕ := 4

/-- `TypeSupportInfo`. -/
structure TypeSupportInfo where
  language : TypeSupportLanguage
  maximumSerializedSize : ℕ
  maximumAlignment : ℕ
  maximumNestingDepth : ℕ
  ddsTypeName : List Char
  deriving DecidableEq

/-- `AnalysisState`; the stack is an argument of `analyzeMembers` and the error its result. -/
structure AnalysisState where
  offset : ℕ := 0
  maximumAlignment : ℕ := 1
  maximumDepth : ℕ := 0
  bodyLimit : ℕ := 0
  deriving DecidableEq

/-- `append_aligned`. -/
def appendAligned (s : AnalysisState) (alignment width : ℕ) : Except TypeSupportError AnalysisState :=
  if !isPowerOfTwo alignment then .error .invalidMembers
  else
    let remainder := s.offset % alignment
    let padding := if remainder = 0 then 0 else alignment - remainder
    if padding > uint64Max - s.offset ∨ width > uint64Max - (s.offset + padding) then
      .error .arithmeticOverflow
    else
      let next := s.offset + padding + width
      if next > s.bodyLimit then .error .sampleLimitExceeded
      else .ok { s with
        offset := next
        maximumAlignment := if alignment > s.maximumAlignment then alignment else s.maximumAlignment }

/-- `scalar_layout`: the width of a scalar, which is its alignment too. -/
def scalarLayout : FieldType → Option ℕ
  | .boolean | .char | .octet | .uint8 | .int8 => some 1
  | .uint16 | .int16 => some 2
  | .float | .uint32 | .int32 => some 4
  | .double | .uint64 | .int64 => some 8
  | .string | .message | .other _ => none

/-- `identifier_language`. -/
def identifierLanguage : Option Identifier → Option TypeSupportLanguage
  | some .introspectionC => some .introspectionC
  | some .introspectionCpp => some .introspectionCpp
  | _ => none

/-- The record of a nested message, if its handle is one of the language. -/
def nestedPointer (language : TypeSupportLanguage) (member : Member) :
    Except TypeSupportError Pointer :=
  match member.members with
  | none => .error .invalidMembers
  | some handle =>
    match identifierLanguage handle.typesupportIdentifier, handle.data with
    | some nested, some pointer =>
      if nested = language then .ok pointer else .error .unsupportedIdentifier
    | _, _ => .error .unsupportedIdentifier

/-- `analyze_element`, given the analysis of nested members. -/
def analyzeElement (analyzeMembers : Pointer → AnalysisState → Except TypeSupportError AnalysisState)
    (language : TypeSupportLanguage) (member : Member) (s : AnalysisState) :
    Except TypeSupportError AnalysisState :=
  match scalarLayout member.typeId with
  | some width => appendAligned s width width
  | none =>
    match member.typeId with
    | .string =>
      if member.stringUpperBound = 0 then .error .unboundedType
      else if member.stringUpperBound ≥ uint32Max then .error .arithmeticOverflow
      else do
        let s ← appendAligned s 4 4
        appendAligned s 1 (member.stringUpperBound + 1)
    | .message => do
      let pointer ← nestedPointer language member
      analyzeMembers pointer s
    | _ => .error .unsupportedField

/-- The loop over the `count` elements of a member. -/
def repeatElement (analyze : AnalysisState → Except TypeSupportError AnalysisState) :
    ℕ → AnalysisState → Except TypeSupportError AnalysisState
  | 0, s => .ok s
  | count + 1, s => do
    let s ← analyze s
    repeatElement analyze count s

/-- `analyze_member`. -/
def analyzeMember (analyzeMembers : Pointer → AnalysisState → Except TypeSupportError AnalysisState)
    (language : TypeSupportLanguage) (member : Member) (s : AnalysisState) :
    Except TypeSupportError AnalysisState :=
  let element := analyzeElement analyzeMembers language member
  if !member.named then .error .invalidMembers
  else if !member.isArray then repeatElement element 1 s
  else if member.isUpperBound then
    if member.arraySize = 0 then .error .invalidMembers
    else if member.arraySize > uint32Max then .error .arithmeticOverflow
    else do
      let s ← appendAligned s 4 4
      repeatElement element member.arraySize s
  else if member.arraySize = 0 then .error .unboundedType
  else repeatElement element member.arraySize s

/-- The loop over the members of a record. -/
def analyzeFields (sizeOf : ℕ) (analyze : Member → AnalysisState → Except TypeSupportError AnalysisState) :
    List Member → AnalysisState → Except TypeSupportError AnalysisState
  | [], s => .ok s
  | member :: members, s =>
    if member.offset ≥ sizeOf then .error .invalidMembers
    else do
      let s ← analyze member s
      analyzeFields sizeOf analyze members s

/-- The null checks of `analyze_members`. -/
def MessageMembers.wellFormed (m : MessageMembers) : Bool :=
  m.messageName.isSome && m.messageNamespace.isSome && !(m.memberCount != 0 && m.sizeOf == 0) &&
    !(m.memberCount != 0 && m.members.isNone)

/-- `analyze_members` at the depth `maximumTypeNestingDepth + 1 - levels`; `stack` holds the
records that are being analysed. -/
def analyzeMembers (memory : Memory) (language : TypeSupportLanguage) :
    ℕ → List Pointer → Pointer → AnalysisState → Except TypeSupportError AnalysisState
  | 0, _, pointer, _ =>
    if !(memory pointer).wellFormed then .error .invalidMembers else .error .nestingLimitExceeded
  | levels + 1, stack, pointer, s =>
    if !(memory pointer).wellFormed then .error .invalidMembers
    else if stack.contains pointer then .error .recursiveType
    else
      let depth := maximumTypeNestingDepth - levels
      let s := { s with maximumDepth := if depth > s.maximumDepth then depth else s.maximumDepth }
      analyzeFields (memory pointer).sizeOf
        (analyzeMember (analyzeMembers memory language levels (stack ++ [pointer])) language)
        (memory pointer).list s

/-- `append_character`: the text must leave room for the terminator. -/
def appendCharacter (output : List Char) (value : Char) : Option (List Char) :=
  if ddsNameCapacity - output.length ≤ 1 then none else some (output ++ [value])

/-- `append_text`. -/
def appendText (convertCNamespace : Bool) : List Char → List Char → Option (List Char)
  | output, [] => some output
  | output, [c] => appendCharacter output c
  | output, c :: c' :: rest =>
    if convertCNamespace && c == '_' && c' == '_' then do
      let output ← appendCharacter output ':'
      let output ← appendCharacter output ':'
      appendText convertCNamespace output rest
    else do
      let output ← appendCharacter output c
      appendText convertCNamespace output (c' :: rest)

/-- `build_type_name` for names that are not null; the message name is not empty. -/
def buildTypeName (convertCNamespace : Bool) (messageNamespace messageName : List Char) :
    Option (List Char) := do
  let output ←
    if messageNamespace.isEmpty then some []
    else do
      let output ← appendText convertCNamespace [] messageNamespace
      appendText false output [':', ':']
  let output ← appendText false output ['d', 'd', 's', '_', ':', ':']
  let output ← appendText false output messageName
  appendCharacter output '_'

/-- `derive_type_name`: the language of a handle, its record and its DDS type name. -/
def deriveTypeName (memory : Memory) (typeSupport : TypeSupportHandle) :
    Except TypeSupportError (TypeSupportLanguage × Pointer × List Char) :=
  match typeSupport.data with
  | none => .error .invalidArgument
  | some pointer =>
    match identifierLanguage typeSupport.typesupportIdentifier with
    | none => .error .unsupportedIdentifier
    | some language =>
      match (memory pointer).messageNamespace, (memory pointer).messageName with
      | some messageNamespace, some messageName =>
        if messageName.isEmpty then .error .invalidName
        else match buildTypeName (language == .introspectionC) messageNamespace messageName with
          | none => .error .nameLimitExceeded
          | some name => .ok (language, pointer, name)
      | _, _ => .error .invalidMembers

/-- `analyze_type_support`. -/
def analyzeTypeSupport (memory : Memory) (typeSupport : TypeSupportHandle) (maximumSampleSize : ℕ) :
    Except TypeSupportError TypeSupportInfo :=
  if typeSupport.data.isNone || maximumSampleSize < xcdr1EncapsulationSize then
    .error .invalidArgument
  else do
    let (language, pointer, name) ← deriveTypeName memory typeSupport
    let s ← analyzeMembers memory language maximumTypeNestingDepth [] pointer
      { bodyLimit := maximumSampleSize - xcdr1EncapsulationSize }
    return {
      language
      maximumSerializedSize := s.offset + xcdr1EncapsulationSize
      maximumAlignment := s.maximumAlignment
      maximumNestingDepth := s.maximumDepth
      ddsTypeName := name }

end OpenRtdds
