import OpenRtdds.Proof.Layout
import OpenRtdds.Spec.Raw

/-!
# The parsers stay inside the message

Each parser over raw memory has no fault, and its outcome is the one of the parser over lists of
bytes, with the positions of its pointers read back as bytes. The checks that the code makes before a
read are exactly what the read needs; the two parsers are compared check by check.

* `At.readWord`, `At.copyBytes`, `At.bytesAt`, `At.load`: reading what is at a position.
* `RoutedSubmessageView.Inside`, `DataMessageView.Inside`: where the pointers of a view lie.
* `routeLoop_agrees`: the loop of `find_submessage`, by induction on the bytes that remain.
* `findSubmessage_agrees`, `parseDataMessage_agrees`, `parseHeartbeatMessage_agrees`,
  `parseAcknackMessage_agrees`: the four parsers.
-/

namespace OpenRtdds

open Lib Guarded

namespace At

variable {ε : Type} {m x : List UInt8} {i n : ℕ}

theorem readWord {order : ByteOrder} {value : ℕ} (h : At m i (storeInt (order == .littleEndian) n value))
    (hlt : value < 2 ^ (8 * n)) : (Raw.readWord m i n order : Guarded ε ℕ) = .ok value := by
  have hle := h.le
  rw [storeInt_length] at hle
  exact (access_of_le hle _).trans (congrArg Guarded.ok (h.readAt hlt))

theorem copyBytes {v : Vector UInt8 n} (h : At m i v.toList) :
    (Raw.copyBytes m i n : Guarded ε (Vector UInt8 n)) = .ok v := by
  have hle := h.le
  rw [Vector.length_toList] at hle
  exact (access_of_le hle _).trans (congrArg Guarded.ok h.copyAt)

theorem bytesAt (h : At m i x) (hn : x.length = n) :
    (Raw.bytesAt m i n : Guarded ε (List UInt8)) = .ok x := by
  have hle := h.le
  rw [hn] at hle
  obtain ⟨before, rest, rfl, hi⟩ := h
  refine (access_of_le hle _).trans (congrArg Guarded.ok ?_)
  rw [List.drop_left' hi, List.take_left' hn]

theorem load {b : UInt8} (h : At m i [b]) : (Raw.load m i : Guarded ε UInt8) = .ok b := by
  have hle := h.le
  obtain ⟨before, rest, rfl, hi⟩ := h
  refine (access_of_le hle _).trans (congrArg Guarded.ok ?_)
  rw [byteAt_skip hi.le, hi, Nat.sub_self]
  rfl

end At

namespace Raw

section Route

/-- The view with the bytes of its content. -/
def RoutedSubmessageView.read (m : List UInt8) (v : RoutedSubmessageView) :
    OpenRtdds.RoutedSubmessageView where
  context := v.context
  id := v.id
  flags := v.flags
  byteOrder := v.byteOrder
  content := (m.drop v.content).take v.contentSize
  offset := v.offset

/-- The content lies inside the message, behind the two headers. -/
structure RoutedSubmessageView.Inside (m : List UInt8) (v : RoutedSubmessageView) : Prop where
  headers : 24 ≤ v.content
  content : v.content + v.contentSize ≤ m.length

/-- The loop variables with the bytes of the candidate. -/
def RouteState.read (m : List UInt8) (s : RouteState) : OpenRtdds.RouteState where
  context := s.context
  candidate := s.candidate.map (·.read m)
  occurrence := s.occurrence
  offset := s.offset

/-- The invariant of the loop. -/
structure RouteState.Inside (m : List UInt8) (s : RouteState) : Prop where
  header : 20 ≤ s.offset
  offset : s.offset ≤ m.length
  candidate : ∀ v, s.candidate = some v → v.Inside m

variable {m : List UInt8}

theorem applyInfo_agrees (id flags : UInt8) (order : ByteOrder) {content size : ℕ}
    (h : content + size ≤ m.length) (c : RouteContext) :
    Agrees Eq (applyInfo m id flags order content size c)
      (OpenRtdds.applyInfo id flags order ((m.drop content).take size) c) := by
  unfold applyInfo OpenRtdds.applyInfo
  rw [length_part h]
  by_cases hd : id = submessageIdInfoDestination
  · rw [if_pos hd, if_pos hd]
    refine .require_ite Iff.rfl fun hsize => .access_bind (by omega) (.ok ?_)
    rw [copyAt_part (by omega), Nat.add_zero]
  rw [if_neg hd, if_neg hd]
  by_cases hs : id = submessageIdInfoSource
  · rw [if_pos hs, if_pos hs]
    refine .require_ite Iff.rfl fun hsize => ?_
    rw [byteAt_part (by omega), byteAt_part (by omega), copyAt_part (by omega),
      copyAt_part (by omega)]
    refine .access_bind (by omega) (.access_bind (by omega) ?_)
    refine .require_ite (by simp) fun _ => ?_
    exact .access_bind (by omega) (.access_bind (by omega) (.ok rfl))
  rw [if_neg hs, if_neg hs]
  by_cases ht : id = submessageIdInfoTimestamp
  · rw [if_pos ht, if_pos ht]
    by_cases hf : flags &&& 0x02 ≠ 0
    · rw [if_pos hf, if_pos hf]
      exact .require_ite Iff.rfl fun _ => .ok rfl
    · rw [if_neg hf, if_neg hf]
      refine .require_ite Iff.rfl fun hsize => ?_
      rw [readAt_part order (by omega), readAt_part order (by omega)]
      exact .access_bind (by omega) (.access_bind (by omega) (.ok rfl))
  · rw [if_neg ht, if_neg ht]
    exact .ok rfl

/-- What one submessage does: the loop variables agree, and at least its header was consumed. -/
structure Stepped (m : List UInt8) (s : RouteState) (next : RouteState × Bool)
    (plain : OpenRtdds.RouteState × Bool) : Prop where
  state : plain.1 = next.1.read m
  again : plain.2 = !next.2
  inside : next.1.Inside m
  consumed : s.offset + 4 ≤ next.1.offset

/-- The plain loop body behind the header of a submessage. -/
def plainSubmessage (m : List UInt8) (wantedId : UInt8) (wantedOccurrence : ℕ)
    (s : OpenRtdds.RouteState) (id flags : UInt8) (order : ByteOrder)
    (contentOffset available contentSize : ℕ) (extendsToEnd : Bool) :
    Except MessageRouteError (OpenRtdds.RouteState × Bool) :=
  if contentSize > available then .error .truncated
  else
    let content := (m.drop contentOffset).take contentSize
    match OpenRtdds.applyInfo id flags order content s.context with
    | .error e => .error e
    | .ok context =>
      .ok (
        { context
          candidate := if id = wantedId ∧ s.occurrence = wantedOccurrence then
              some { context := s.context, id, flags, byteOrder := order, content, offset := s.offset }
            else s.candidate
          occurrence := if id = wantedId then s.occurrence + 1 else s.occurrence
          offset := contentOffset + contentSize }, extendsToEnd)

theorem takeSubmessage_agrees (hm : m.length ≤ uint64Max) (wantedId : UInt8) (wantedOccurrence : ℕ)
    {s : RouteState} (hs : s.Inside m) (hfour : s.offset + 4 ≤ m.length) (id flags : UInt8)
    (order : ByteOrder) (size : ℕ) (extendsToEnd : Bool) :
    Agrees (Stepped m s)
      (takeSubmessage m wantedId wantedOccurrence s id flags order (s.offset + 4)
        (m.length - (s.offset + 4)) size extendsToEnd)
      (plainSubmessage m wantedId wantedOccurrence (s.read m) id flags order (s.offset + 4)
        (m.length - (s.offset + 4)) size extendsToEnd) := by
  have hheader := hs.header
  unfold takeSubmessage plainSubmessage
  refine .require_ite not_le.symm fun hsize => ?_
  have hcontent : s.offset + 4 + size ≤ m.length := by omega
  have hwrap : s.offset + 4 + size < 2 ^ 64 := by
    unfold uint64Max at hm
    omega
  refine .access_bind (by omega) ?_
  refine (applyInfo_agrees id flags order hcontent s.context).bind ?_ ?_
  · intro e he
    simp only [RouteState.read, he]
  · rintro context _ hcontext rfl
    simp only [RouteState.read, hcontext]
    rw [sizeAdd_of_lt hwrap, ok_bind]
    refine .ok ⟨?_, (Bool.not_not _).symm, ⟨Nat.le_add_right_of_le (by omega), hcontent, ?_⟩,
      Nat.le_add_right _ _⟩
    · simp only [RouteState.read, apply_ite (Option.map (RoutedSubmessageView.read m))]
      rfl
    · -- the candidate is the submessage or an earlier one
      intro v hv
      simp only at hv
      split at hv
      · cases hv
        exact ⟨Nat.add_le_add_right hheader 4, hcontent⟩
      · exact hs.candidate v hv

theorem routeStep_agrees (hm : m.length ≤ uint64Max) (wantedId : UInt8) (wantedOccurrence : ℕ)
    {s : RouteState} (hs : s.Inside m) (hlt : s.offset < m.length) :
    Agrees (Stepped m s) (routeStep m m.length wantedId wantedOccurrence s)
      (OpenRtdds.routeStep m wantedId wantedOccurrence (s.read m)) := by
  have hplain : OpenRtdds.routeStep m wantedId wantedOccurrence (s.read m) =
      if m.length - s.offset < 4 then .error .malformedSubmessage
      else plainSubmessage m wantedId wantedOccurrence (s.read m) _ _ _ (s.offset + 4)
        (m.length - (s.offset + 4)) _ _ := rfl
  rw [hplain]
  unfold routeStep
  rw [if_pos hlt, sizeSub_of_le hlt.le, ok_bind]
  refine .require_ite not_le.symm fun hremaining => ?_
  have hfour : s.offset + 4 ≤ m.length := by omega
  have hwrap : s.offset + 4 < 2 ^ 64 := by
    unfold uint64Max at hm
    omega
  refine .access_bind (by omega) (.access_bind (by omega) (.access_bind (by omega) ?_))
  rw [sizeAdd_of_lt hwrap, ok_bind, sizeSub_of_le hfour, ok_bind]
  exact takeSubmessage_agrees hm wantedId wantedOccurrence hs hfour _ _ _ _ _

/-- The loop of `find_submessage`: with as much fuel as there are bytes it comes to its end. -/
theorem routeLoop_agrees (hm : m.length ≤ uint64Max) (wantedId : UInt8) (wantedOccurrence : ℕ) :
    ∀ (fuel : ℕ) (s : RouteState), s.Inside m → m.length - s.offset ≤ fuel →
      Agrees (fun t plain => plain = t.read m ∧ t.Inside m)
        (loop (routeStep m m.length wantedId wantedOccurrence) (fuel + 1) s)
        (routeLoop m wantedId wantedOccurrence fuel (s.read m)) := by
  have hend : ∀ (fuel : ℕ) (s : RouteState), s.Inside m → ¬ s.offset < m.length →
      loop (routeStep m m.length wantedId wantedOccurrence) (fuel + 1) s = .ok s := by
    intro fuel s _ hge
    rw [loop_succ]
    unfold routeStep
    rw [if_neg hge]
    rfl
  intro fuel
  induction fuel with
  | zero =>
    intro s hs hfuel
    rw [hend 0 s hs (by omega)]
    exact .ok ⟨rfl, hs⟩
  | succ fuel ih =>
    intro s hs hfuel
    by_cases hlt : s.offset < m.length
    swap
    · rw [hend (fuel + 1) s hs hlt, routeLoop, if_neg (show ¬ (s.read m).offset < m.length from hlt)]
      exact .ok ⟨rfl, hs⟩
    rw [loop_succ, routeLoop, if_pos (show (s.read m).offset < m.length from hlt)]
    refine (routeStep_agrees hm wantedId wantedOccurrence hs hlt).bind ?_ ?_
    · intro e he
      rw [he]
    · rintro ⟨next, again⟩ ⟨plain, extendsToEnd⟩ hplain hstep
      have hconsumed := hstep.consumed
      have hagain : extendsToEnd = !again := hstep.again
      have hstate : plain = next.read m := hstep.state
      rw [hplain, hagain, hstate]
      cases again with
      | false => exact .ok ⟨rfl, hstep.inside⟩
      | true => exact ih next hstep.inside (by simp only at hconsumed; omega)

/-- **`find_submessage` stays inside the message** and returns the view of the submessage. -/
theorem findSubmessage_agrees {message : Span} (hsize : message.size ≤ uint64Max) (wantedId : UInt8)
    (wantedOccurrence : ℕ) :
    Agrees (fun v plain => plain = v.read message.data ∧ v.Inside message.data)
      (findSubmessage message wantedId wantedOccurrence)
      (OpenRtdds.findSubmessage message wantedId wantedOccurrence) := by
  unfold findSubmessage OpenRtdds.findSubmessage
  simp only
  refine .require_ite not_not.symm fun hnull => ?_
  cases message with
  | null n =>
    -- a null pointer with size zero is too short
    have hzero : n = 0 := by simpa [Span.isNull, Span.size] using hnull
    refine .require_ite (by simp [Span.data, Span.size, hzero]) fun hlong => ?_
    simp only [Span.size] at hlong
    omega
  | bytes m =>
    simp only [Span.size, Span.data] at hsize ⊢
    refine .require_ite (by omega) fun hlong => .access_bind (by omega) ?_
    rw [List.drop_zero]
    refine .require_ite Iff.rfl fun _ => .access_bind (by omega) (.access_bind (by omega) ?_)
    refine .require_ite (by simp) fun _ => ?_
    refine .access_bind (by omega) (.access_bind (by omega) ?_)
    have hstart : RouteState.Inside m
        { context :=
          { version := ⟨byteAt m 4, byteAt m 5⟩, vendorId := copyAt m 6 2
            source := copyAt m 8 12 } } :=
      ⟨le_rfl, hlong, fun v hv => absurd hv (Option.some_ne_none v).symm⟩
    refine (routeLoop_agrees hsize wantedId wantedOccurrence m.length _ hstart
      (Nat.sub_le _ _)).bind ?_ ?_
    · intro e he
      simp only [RouteState.read, Option.map_none] at he
      rw [he]
    · rintro s _ hloop ⟨rfl, hs⟩
      simp only [RouteState.read, Option.map_none] at hloop
      rw [hloop]
      refine .require_ite Iff.rfl fun _ => ?_
      cases hcandidate : s.candidate with
      | none => exact .error _
      | some v => exact .ok ⟨rfl, hs.candidate v hcandidate⟩

end Route

section Data

/-- The view with the bytes of its payload. -/
def DataMessageView.read (m : List UInt8) (v : DataMessageView) : OpenRtdds.DataMessageView where
  context := v.context
  readerId := v.readerId
  writerId := v.writerId
  sequenceNumber := v.sequenceNumber
  submessageByteOrder := v.submessageByteOrder
  payload := (m.drop v.serializedPayload).take v.payloadSize

/-- The payload lies inside the message, behind the fixed part of a DATA message. -/
structure DataMessageView.Inside (m : List UInt8) (v : DataMessageView) : Prop where
  headers : 44 ≤ v.serializedPayload
  size : 4 ≤ v.payloadSize
  payload : v.serializedPayload + v.payloadSize ≤ m.length

theorem supportedSerializedPayload_eq {ε : Type} {m : List UInt8} {payload size : ℕ} (h : 4 ≤ size)
    (hin : payload + size ≤ m.length) :
    (supportedSerializedPayload m payload size : Guarded ε Bool) =
      .ok (OpenRtdds.supportedSerializedPayload (.bytes ((m.drop payload).take size))) := by
  have hfirst : byteAt ((m.drop payload).take size) 0 = byteAt m payload := byteAt_part (by omega)
  have hsecond : byteAt ((m.drop payload).take size) 1 = byteAt m (payload + 1) :=
    byteAt_part (by omega)
  unfold supportedSerializedPayload OpenRtdds.supportedSerializedPayload load
  rw [if_pos h, access_of_le (by omega), ok_bind]
  simp only [Span.isNull, Span.size, Span.data, length_part hin, hfirst, hsecond]
  by_cases hzero : byteAt m payload = 0
  · rw [if_pos hzero, access_of_le (by omega)]
    simp [h, hzero]
  · rw [if_neg hzero]
    simp [hzero]

/-- **`parse_data_message` stays inside the message**, and so does the payload of its view. -/
theorem parseDataMessage_agrees {message : Span} (hsize : message.size ≤ uint64Max) :
    Agrees (fun v plain => plain = v.read message.data ∧ v.Inside message.data)
      (parseDataMessage message) (OpenRtdds.parseDataMessage message) := by
  have hfind := findSubmessage_agrees hsize submessageIdData 0
  unfold parseDataMessage OpenRtdds.parseDataMessage
  generalize findSubmessage message submessageIdData 0 = c at hfind ⊢
  generalize OpenRtdds.findSubmessage message submessageIdData 0 = d at hfind ⊢
  generalize message.data = m at hfind ⊢
  cases hfind with
  | error e => exact .error _
  | @ok routed _ h =>
    obtain ⟨rfl, hrouted⟩ := h
    have hheaders := hrouted.headers
    have hcontent := hrouted.content
    dsimp only [Guarded.mapError, RoutedSubmessageView.read]
    rw [ok_bind]
    refine .require_ite (by simp) fun _ => .require_ite Iff.rfl fun _ => ?_
    rw [length_part hcontent]
    refine .require_ite not_le.symm fun hlong => ?_
    -- the fixed part of the submessage is inside the content
    rw [readAt_part _ (by omega), readAt_part _ (by omega), readAt_part _ (by omega),
      readAt_part _ (by omega), copyAt_part (by omega), copyAt_part (by omega), Nat.add_zero]
    refine .access_bind (by omega) (.require_ite Iff.rfl fun _ => .access_bind (by omega) ?_)
    refine .require_ite not_le.symm fun hfixed => ?_
    have hqos := readAt_lt m (routed.content + 2) 2 routed.byteOrder
    generalize readAt m (routed.content + 2) 2 routed.byteOrder = offset at hfixed hqos ⊢
    rw [sizeAdd_of_lt (by omega), ok_bind, ite_or]
    refine .require_ite not_le.symm fun hoffset => ?_
    rw [sizeSub_of_le hoffset, ok_bind]
    refine .require_ite not_le.symm fun hfour => ?_
    refine .access_bind (by omega) (.access_bind (by omega) ?_)
    refine .require_ite not_lt.symm fun _ => .require_ite not_not.symm fun _ => ?_
    -- the payload is the rest of the content
    have hpayload : ((m.drop routed.content).take routed.contentSize).drop (4 + offset) =
        (m.drop (routed.content + (4 + offset))).take (routed.contentSize - (4 + offset)) := by
      rw [List.drop_take, List.drop_drop]
    have hinside : routed.content + (4 + offset) + (routed.contentSize - (4 + offset)) ≤ m.length := by
      omega
    rw [hpayload]
    refine .access_bind (by omega) ?_
    rw [supportedSerializedPayload_eq hfour hinside, ok_bind]
    refine .require_ite (by simp) fun _ => .access_bind (by omega) (.access_bind (by omega) (.ok ?_))
    exact ⟨rfl, ⟨by simp only; omega, hfour, hinside⟩⟩

end Data

section Reliability

variable {m : List UInt8} {content size : ℕ}

/-- The content with the bytes of the message. -/
def ParsedPrefix.read (m : List UInt8) (p : ParsedPrefix) : OpenRtdds.ParsedPrefix where
  header := p.header
  byteOrder := p.byteOrder
  flags := p.flags
  content := (m.drop p.content).take p.contentSize

theorem parsePrefix_agrees {message : Span} (hsize : message.size ≤ uint64Max) (id : UInt8) :
    Agrees (fun p plain => plain = p.read message.data ∧
        p.content + p.contentSize ≤ message.data.length)
      (parsePrefix message id) (OpenRtdds.parsePrefix message id) := by
  have hfind := findSubmessage_agrees hsize id 0
  unfold parsePrefix OpenRtdds.parsePrefix
  refine .require_ite not_not.symm fun _ => ?_
  generalize findSubmessage message id 0 = c at hfind ⊢
  generalize OpenRtdds.findSubmessage message id 0 = d at hfind ⊢
  cases hfind with
  | error e => exact .error _
  | @ok routed _ h =>
    obtain ⟨rfl, hrouted⟩ := h
    exact .ok ⟨rfl, hrouted.content⟩

/-- `read_sequence_number` reads the eight bytes at its pointer. -/
theorem readSequenceNumber_eq {i : ℕ} (order : ByteOrder) (allowZero : Bool) (h : i + 8 ≤ size)
    (hin : content + size ≤ m.length) :
    readSequenceNumber m (content + i) order allowZero =
      (OpenRtdds.readSequenceNumber ((m.drop content).take size) i order allowZero).elim
        (.error .invalidSequenceNumber) .ok := by
  unfold readSequenceNumber OpenRtdds.readSequenceNumber readWord
  rw [readAt_part order (by omega), readAt_part order (by omega), access_of_le (by omega), ok_bind,
    ← Nat.add_assoc]
  by_cases hhigh : readAt m (content + i) 4 order ≥ 2 ^ 31
  · rw [require_neg (by omega), if_pos hhigh]
    rfl
  rw [require_pos (by omega), if_neg hhigh, ok_bind, access_of_le (by omega), ok_bind]
  simp only
  split
  next hrange =>
    rw [require_neg (not_not.2 hrange)]
    rfl
  next hrange =>
    rw [require_pos hrange]
    rfl

/-- **`parse_heartbeat_message` stays inside the message.** -/
theorem parseHeartbeatMessage_agrees {message : Span} (hsize : message.size ≤ uint64Max) :
    Agrees Eq (parseHeartbeatMessage message) (OpenRtdds.parseHeartbeatMessage message) := by
  have hparsed := parsePrefix_agrees hsize submessageIdHeartbeat
  unfold parseHeartbeatMessage OpenRtdds.parseHeartbeatMessage
  generalize parsePrefix message submessageIdHeartbeat = c at hparsed ⊢
  generalize OpenRtdds.parsePrefix message submessageIdHeartbeat = d at hparsed ⊢
  generalize message.data = m at hparsed ⊢
  cases hparsed with
  | error e => exact .error e
  | @ok parsed _ h =>
    obtain ⟨rfl, hcontent⟩ := h
    dsimp only [ParsedPrefix.read]
    rw [ok_bind]
    refine .require_ite Iff.rfl fun _ => .require_ite Iff.rfl fun _ => ?_
    rw [length_part hcontent]
    refine .require_ite Iff.rfl fun hlength => ?_
    refine .access_bind (by omega) (.access_bind (by omega) ?_)
    rw [readSequenceNumber_eq _ _ (by omega) hcontent, readSequenceNumber_eq _ _ (by omega) hcontent,
      readAt_part _ (by omega), copyAt_part (by omega), copyAt_part (by omega), Nat.add_zero]
    cases hfirst : OpenRtdds.readSequenceNumber
        ((m.drop parsed.content).take parsed.contentSize) 8 parsed.byteOrder false with
    | none => exact .error _
    | some first =>
      rw [Option.elim_some, ok_bind]
      cases OpenRtdds.readSequenceNumber
          ((m.drop parsed.content).take parsed.contentSize) 16 parsed.byteOrder true with
      | none => exact .error _
      | some last =>
        -- the first number is not zero
        have hpos : 1 ≤ first := by
          unfold OpenRtdds.readSequenceNumber at hfirst
          simp only [Bool.not_false, Bool.true_and, Bool.or_eq_true, beq_iff_eq,
            decide_eq_true_eq] at hfirst
          split at hfirst
          · cases hfirst
          split at hfirst
          · cases hfirst
          next hrange =>
            cases hfirst
            omega
        rw [Option.elim_some, ok_bind, sizeSub_of_le hpos, ok_bind]
        refine .require_ite not_le.symm fun _ => .access_bind (by omega) (.ok rfl)

/-- `set` writes a word of the bitmap, since a set has at most 256 bits. -/
theorem setBit_eq {ε : Type} (s : SequenceNumberSet) (offset : ℕ) :
    (setBit s offset : Guarded ε SequenceNumberSet) = .ok (s.set offset).2 := by
  have hbits := s.bits_le
  have hword : offset < s.numBits → offset / 32 < 8 := fun h => by omega
  unfold setBit Guarded.guard
  rw [if_pos hword]
  rfl

theorem parseWord_eq {ε : Type} (numBits wordIndex : ℕ) (word : BitVec 32) (s : SequenceNumberSet) :
    (parseWord numBits wordIndex word s : Guarded ε SequenceNumberSet) =
      .ok (OpenRtdds.parseWord numBits wordIndex word s) := by
  refine foldlM_ok s fun t bitIndex _ => ?_
  simp only
  split
  · exact setBit_eq t _
  · rfl

theorem parseWords_eq {ε : Type} (order : ByteOrder) {numBits wordCount : ℕ}
    (h : 20 + wordCount * 4 ≤ size) (hin : content + size ≤ m.length) (s : SequenceNumberSet) :
    (parseWords m content order numBits wordCount s : Guarded ε SequenceNumberSet) =
      .ok (OpenRtdds.parseWords ((m.drop content).take size) order numBits wordCount s) := by
  refine foldlM_ok s fun t wordIndex hmem => ?_
  have hlt : wordIndex < wordCount := List.mem_range.1 hmem
  simp only [readWord]
  rw [access_of_le (by omega), ok_bind, readAt_part order (by omega)]
  exact parseWord_eq numBits wordIndex _ t

/-- **`parse_acknack_message` stays inside the message** and inside its bitmap. -/
theorem parseAcknackMessage_agrees {message : Span} (hsize : message.size ≤ uint64Max) :
    Agrees Eq (parseAcknackMessage message) (OpenRtdds.parseAcknackMessage message) := by
  have hparsed := parsePrefix_agrees hsize submessageIdAcknack
  unfold parseAcknackMessage OpenRtdds.parseAcknackMessage
  generalize parsePrefix message submessageIdAcknack = c at hparsed ⊢
  generalize OpenRtdds.parsePrefix message submessageIdAcknack = d at hparsed ⊢
  generalize message.data = m at hparsed ⊢
  cases hparsed with
  | error e => exact .error e
  | @ok parsed _ h =>
    obtain ⟨rfl, hcontent⟩ := h
    dsimp only [ParsedPrefix.read]
    rw [ok_bind]
    refine .require_ite Iff.rfl fun _ => ?_
    rw [length_part hcontent]
    refine .require_ite not_le.symm fun hlength => ?_
    rw [readSequenceNumber_eq _ _ (by omega) hcontent]
    cases OpenRtdds.readSequenceNumber
        ((m.drop parsed.content).take parsed.contentSize) 8 parsed.byteOrder false with
    | none => exact .error _
    | some bitmapBase =>
      rw [Option.elim_some, ok_bind]
      dsimp only
      rw [readAt_part (k := 16) _ (by omega), copyAt_part (by omega), copyAt_part (by omega),
        Nat.add_zero]
      refine .access_bind (by omega) ?_
      generalize readAt m (parsed.content + 16) 4 parsed.byteOrder = numBits
      refine .require_ite not_le.symm fun hbits => ?_
      refine .require_ite Iff.rfl fun hwords => ?_
      refine .access_bind (by omega) (.access_bind (by omega) ?_)
      refine .require_ite (by simp) fun _ => ?_
      rw [parseWords_eq parsed.byteOrder (by omega) hcontent, ok_bind, readAt_part _ (by omega)]
      exact .access_bind (by omega) (.ok rfl)

end Reliability

end Raw

end OpenRtdds
