import OpenRtdds.Proof.Sedp
import OpenRtdds.Proof.Spdp

/-!
# The order of parameters does not matter

Two datagrams have the same frame: the same RTPS header, the same submessages around the first DATA
and the same fixed part of it; they differ in the parameters before the sentinel, and so in the length
of the DATA submessage.

* `Frame`, `Frame.Framed`: a datagram with a parameter list in its first DATA.
* `Frame.parse_data`: the DATA parser sees the difference in the payload only.
* `Reordered`: what may be done to the parameters.
* `Spdp.receive_reordered`, `Sedp.receive_reordered`: the slots hold the same.
* `parameter_order_irrelevant`: the resulting statement about both parsers.
-/

namespace OpenRtdds

open Lib Guarded Submessage

section Frame

/-- A submessage, wherever it is in a message. -/
def Submessage.block (s : Submessage) : UInt8 × UInt8 × List UInt8 := (s.id, s.flags, s.content)

/-- What is around the parameters of a datagram: the RTPS header, the submessages before and after the
first DATA, the flags and the fixed part of the DATA, the encapsulation of its payload, and what
follows the id of the sentinel. -/
structure Frame where
  header : List UInt8
  before : List (UInt8 × UInt8 × List UInt8)
  flags : UInt8
  body : List UInt8
  encapsulation : List UInt8
  rest : List UInt8
  after : List (UInt8 × UInt8 × List UInt8)

namespace Frame

/-- The byte order of the DATA submessage. -/
def order (f : Frame) : ByteOrder := if f.flags &&& 0x01 ≠ 0 then .littleEndian else .bigEndian

/-- The payload with a parameter list. -/
def payload (f : Frame) (ps : List Parameter) : List UInt8 :=
  f.encapsulation ++ (parameterBytes (announcedOrder f.encapsulation) ps ++
    (storeInt (announcedOrder f.encapsulation == .littleEndian) 2 pidSentinel ++ f.rest))

/-- The parts of the frame have their sizes; the payload starts where the DATA says that it does. -/
structure WellFormed (f : Frame) : Prop where
  header : f.header.length = 20
  first : ∀ x ∈ f.before, x.1 ≠ submessageIdData
  body : f.body.length = 4 + readAt f.body 2 2 f.order
  encapsulation : f.encapsulation.length = 4
  rest : 2 ≤ f.rest.length

/-- **The datagram `m` has this frame** around the parameters `ps`. -/
structure Framed (f : Frame) (ps : List Parameter) (m : List UInt8) : Prop where
  size : m.length ≤ uint64Max
  header : m.take 20 = f.header
  splits : ∃ subs, Splits 20 (m.drop 20) subs ∧ subs.map block =
    f.before ++ (submessageIdData, f.flags, f.body ++ f.payload ps) :: f.after
  parameters : ∀ p ∈ ps, p.WellFormed

end Frame

/-- `parse_data_message` behind the router. -/
def dataView (context : RouteContext) (flags : UInt8) (order : ByteOrder) (content : List UInt8) :
    Except RtpsError DataMessageView :=
  if flags &&& 0x04 = 0 then .error .invalidSubmessage
  else if flags &&& (0x02 ||| 0x08 ||| 0x10) ≠ 0 then .error .unsupportedFeature
  else if content.length < 24 then .error .invalidSubmessage
  else if readAt content 0 2 order ≠ 0 then .error .unsupportedFeature
  else if readAt content 2 2 order < 16 then .error .invalidSubmessage
  else if 4 + readAt content 2 2 order > content.length ∨
      content.length - (4 + readAt content 2 2 order) < 4 then .error .invalidSubmessage
  else if readAt content 12 4 order ≥ 2 ^ 31 then .error .invalidSequenceNumber
  else if readAt content 12 4 order <<< 32 ||| readAt content 16 4 order = 0 then
    .error .invalidSequenceNumber
  else if !supportedSerializedPayload (.bytes (content.drop (4 + readAt content 2 2 order))) then
    .error .invalidSerializedPayload
  else .ok
    { context := context
      readerId := copyAt content 4 4
      writerId := copyAt content 8 4
      sequenceNumber := readAt content 12 4 order <<< 32 ||| readAt content 16 4 order
      submessageByteOrder := order
      payload := content.drop (4 + readAt content 2 2 order) }

theorem parseDataMessage_eq_dataView {message : Span} {routed : RoutedSubmessageView}
    (h : findSubmessage message submessageIdData 0 = .ok routed) :
    parseDataMessage message =
      dataView routed.context routed.flags routed.byteOrder routed.content := by
  unfold parseDataMessage
  rw [h]
  rfl

theorem supportedSerializedPayload_append {enc : List UInt8} (h : enc.length = 4)
    (rest rest' : List UInt8) :
    supportedSerializedPayload (.bytes (enc ++ rest)) =
      supportedSerializedPayload (.bytes (enc ++ rest')) := by
  have hlength : ∀ rest : List UInt8, 4 ≤ (enc ++ rest).length := by
    intro rest
    rw [List.length_append]
    omega
  have hbyte : ∀ (k : ℕ) (rest : List UInt8), k < 4 →
      byteAt (enc ++ rest) k = byteAt enc k :=
    fun k rest hk => byteAt_left (by omega)
  simp only [supportedSerializedPayload, Span.isNull, Span.size, Span.data, hlength,
    hbyte 0 _ (by omega), hbyte 1 _ (by omega)]

/-- Another payload behind the same fixed part and encapsulation is accepted as well. -/
theorem dataView_payload {context : RouteContext} {flags : UInt8} {order : ByteOrder}
    {body enc rest rest' : List UInt8} {data : DataMessageView}
    (hbody : body.length = 4 + readAt body 2 2 order) (hfour : enc.length = 4)
    (h : dataView context flags order (body ++ (enc ++ rest)) = .ok data) :
    data.payload = enc ++ rest ∧
      dataView context flags order (body ++ (enc ++ rest')) =
        .ok { data with payload := enc ++ rest' } := by
  have hoffset : ∀ tail, readAt (body ++ tail) 2 2 order = readAt body 2 2 order :=
    fun tail => readAt_left order (by omega)
  unfold dataView at h
  rw [hoffset] at h
  obtain ⟨hpayloadFlag, h⟩ := ite_error_ok h
  obtain ⟨hfeature, h⟩ := ite_error_ok h
  obtain ⟨hlength, h⟩ := ite_error_ok h
  obtain ⟨hextra, h⟩ := ite_error_ok h
  obtain ⟨hqos, h⟩ := ite_error_ok h
  obtain ⟨-, h⟩ := ite_error_ok h
  obtain ⟨hhigh, h⟩ := ite_error_ok h
  obtain ⟨hnumber, h⟩ := ite_error_ok h
  obtain ⟨hsupported, h⟩ := ite_error_ok h
  -- the fixed part is long enough for every field before the payload
  have htwenty : 20 ≤ body.length := by omega
  have hread : ∀ i width tail, i + width ≤ 20 → readAt (body ++ tail) i width order =
      readAt body i width order := fun i width tail hi => readAt_left order (by omega)
  have hcopy : ∀ i tail, i + 4 ≤ 20 → copyAt (body ++ tail) i 4 = copyAt body i 4 :=
    fun i tail hi => copyAt_left (by omega)
  have hdrop : ∀ tail, (body ++ tail).drop (4 + readAt body 2 2 order) = tail :=
    fun tail => List.drop_left' hbody
  rw [hread _ _ _ (by omega)] at hextra hhigh
  rw [hread _ _ _ (by omega), hread _ _ _ (by omega)] at hnumber
  rw [hdrop] at hsupported
  have hlong : 24 ≤ (body ++ (enc ++ rest')).length := by
    simp only [List.length_append, hfour]
    omega
  have hfits : ¬ (4 + readAt body 2 2 order > (body ++ (enc ++ rest')).length ∨
      (body ++ (enc ++ rest')).length - (4 + readAt body 2 2 order) < 4) := by
    simp only [List.length_append, hfour]
    omega
  cases h
  refine ⟨hdrop _, ?_⟩
  unfold dataView
  rw [hoffset, if_neg hpayloadFlag, if_neg hfeature, if_neg (by omega),
    if_neg (by rwa [hread _ _ _ (by omega)]), if_neg hqos, if_neg hfits,
    if_neg (by rwa [hread _ _ _ (by omega)]),
    if_neg (by rwa [hread _ _ _ (by omega), hread _ _ _ (by omega)]),
    if_neg (by rwa [hdrop, supportedSerializedPayload_append hfour rest' rest])]
  simp only [hread 12 4 _ (by omega), hread 16 4 _ (by omega), hcopy 4 _ (by omega),
    hcopy 8 _ (by omega), hdrop]

theorem first_unique {α : Type} {p : α → Prop} {x x' : α} : ∀ {l l' r r' : List α},
    l ++ x :: r = l' ++ x' :: r' → (∀ a ∈ l, ¬ p a) → p x → (∀ a ∈ l', ¬ p a) → p x' →
    l = l' ∧ x = x' ∧ r = r'
  | [], [], r, r', h, _, _, _, _ => by
    obtain ⟨hx, hr⟩ := List.cons.inj h
    exact ⟨rfl, hx, hr⟩
  | [], a :: l', r, r', h, _, hx, hl', _ => by
    obtain ⟨hxa, -⟩ := List.cons.inj h
    exact absurd (hxa ▸ hx) (hl' a List.mem_cons_self)
  | a :: l, [], r, r', h, hl, _, _, hx' => by
    obtain ⟨hax, -⟩ := List.cons.inj h
    exact absurd (hax ▸ hx') (hl a List.mem_cons_self)
  | a :: l, b :: l', r, r', h, hl, hx, hl', hx' => by
    obtain ⟨hab, h⟩ := List.cons.inj h
    obtain ⟨hll, hxx, hrr⟩ := first_unique h (fun c hc => hl c (List.mem_cons_of_mem a hc)) hx
      (fun c hc => hl' c (List.mem_cons_of_mem b hc)) hx'
    exact ⟨by rw [hab, hll], hxx, hrr⟩

/-- A block as a submessage; its offset does not matter. -/
def ofBlock (b : UInt8 × UInt8 × List UInt8) : Submessage := ⟨b.1, b.2.1, b.2.2, 0⟩

theorem wellFormed_block (s : Submessage) : s.WellFormed ↔ (ofBlock s.block).WellFormed :=
  ⟨fun h => ⟨h.destination, h.source, h.timestamp⟩, fun h => ⟨h.destination, h.source, h.timestamp⟩⟩

theorem contextAfter_block (c : RouteContext) (subs : List Submessage) :
    contextAfter c subs = ((subs.map block).map ofBlock).foldl effect c := by
  rw [contextAfter_eq, List.map_map, List.foldl_map]
  rfl

namespace Frame

variable {f : Frame} {ps ps' : List Parameter} {m m' : List UInt8}

/-- The context of the first DATA. -/
def context (f : Frame) : RouteContext := (f.before.map ofBlock).foldl effect (headerContext f.header)

theorem Framed.eq_header (hf : f.WellFormed) (hm : f.Framed ps m) :
    m = f.header ++ m.drop 20 ∧ 20 ≤ m.length := by
  have hlength := congrArg List.length hm.header
  rw [List.length_take, hf.header] at hlength
  refine ⟨?_, by omega⟩
  rw [← hm.header, List.take_append_drop]

theorem Framed.find (hf : f.WellFormed) (hm : f.Framed ps m) {routed : RoutedSubmessageView}
    (h : findSubmessage (.bytes m) submessageIdData 0 = .ok routed) :
    ValidHeader f.header ∧ (∀ b ∈ f.before ++ f.after, (ofBlock b).WellFormed) ∧
      routed.context = f.context ∧ routed.flags = f.flags ∧ routed.byteOrder = f.order ∧
      routed.content = f.body ++ f.payload ps := by
  obtain ⟨heq, -⟩ := hm.eq_header hf
  obtain ⟨subs, hsplits, hblocks⟩ := hm.splits
  obtain ⟨hvalid, subs', hsplits', hwf, before, data, after, hsubs, hdata, hfirst, hview⟩ :=
    (findSubmessage_ok_iff _ _ _ _).1 h
  cases splits_unique hsplits hsplits'
  rw [hsubs, List.map_append, List.map_cons] at hblocks
  have hnone : ∀ a ∈ before.map block, ¬ a.1 = submessageIdData := by
    intro a ha hid
    obtain ⟨s, hs, rfl⟩ := List.mem_map.1 ha
    exact (List.countP_eq_zero.1 hfirst) s hs (beq_iff_eq.2 hid)
  obtain ⟨hbefore, hblock, hafter⟩ := first_unique (p := fun a => a.1 = submessageIdData) hblocks
    hnone hdata hf.first rfl
  have hheader : ValidHeader f.header := by
    have hvalid : ValidHeader (f.header ++ m.drop 20) := heq ▸ hvalid
    have hmagic := hvalid.magic
    have hversion := hvalid.version
    rw [List.take_append_of_le_length (by rw [hf.header]; omega)] at hmagic
    rw [byteAt_left (by rw [hf.header]; omega), byteAt_left (by rw [hf.header]; omega)] at hversion
    exact ⟨hf.header.ge, hmagic, hversion⟩
  refine ⟨hheader, ?_, ?_, ?_, ?_, ?_⟩
  · intro b hb
    have hmem : b ∈ subs.map block := by
      rw [hsubs, List.map_append, List.map_cons, hbefore, hafter]
      rcases List.mem_append.1 hb with hb | hb
      · exact List.mem_append_left _ hb
      · exact List.mem_append_right _ (List.mem_cons_of_mem _ hb)
    obtain ⟨s, hs, rfl⟩ := List.mem_map.1 hmem
    exact (wellFormed_block s).1 (hwf s hs)
  · rw [hview]
    change contextAfter (headerContext m) before = _
    rw [contextAfter_block, hbefore, heq, headerContext_append hf.header.ge]
    rfl
  · rw [hview]
    exact congrArg (·.2.1) hblock
  · rw [hview]
    change data.order = f.order
    have hflags : data.flags = f.flags := congrArg (·.2.1) hblock
    unfold Submessage.order Frame.order
    rw [hflags]
  · rw [hview]
    exact congrArg (·.2.2) hblock

theorem Framed.find_exists (hf : f.WellFormed) (hm : f.Framed ps m) (hheader : ValidHeader f.header)
    (hwf : ∀ b ∈ f.before ++ f.after, (ofBlock b).WellFormed) :
    ∃ routed, findSubmessage (.bytes m) submessageIdData 0 = .ok routed := by
  obtain ⟨heq, -⟩ := hm.eq_header hf
  obtain ⟨subs, hsplits, hblocks⟩ := hm.splits
  obtain ⟨before, rest, hsubs, hbefore, hrest⟩ := List.map_eq_append_iff.1 hblocks
  obtain ⟨data, after, hcons, hdata, hafter⟩ := List.map_eq_cons_iff.1 hrest
  have hid : data.id = submessageIdData := congrArg (·.1) hdata
  have hvalid : ValidHeader m := by
    rw [heq]
    exact hheader.append _
  have hall : ∀ s ∈ subs, s.WellFormed := by
    intro s hs
    rw [hsubs, hcons] at hs
    rw [wellFormed_block]
    rcases List.mem_append.1 hs with hs | hs
    · refine hwf _ (List.mem_append_left _ ?_)
      rw [← hbefore]
      exact List.mem_map_of_mem hs
    · rcases List.mem_cons.1 hs with rfl | hs
      · -- a DATA is no INFO
        have hblock : (ofBlock s.block).id = submessageIdData := hid
        exact ⟨fun h => absurd (h.symm.trans hblock) (by decide),
          fun h => absurd (h.symm.trans hblock) (by decide),
          fun h => absurd (h.symm.trans hblock) (by decide)⟩
      · refine hwf _ (List.mem_append_right _ ?_)
        rw [← hafter]
        exact List.mem_map_of_mem hs
  refine ⟨_, (findSubmessage_ok_iff _ _ _ _).2 ⟨hvalid, subs, hsplits, hall, before, data, after,
    by rw [hsubs, hcons], hid, ?_, rfl⟩⟩
  refine List.countP_eq_zero.2 fun s hs hid => hf.first s.block ?_ (beq_iff_eq.1 hid)
  rw [← hbefore]
  exact List.mem_map_of_mem hs

/-- **The DATA parser sees the difference in the payload only.** -/
theorem Framed.parse_data (hf : f.WellFormed) (hm : f.Framed ps m) (hm' : f.Framed ps' m')
    {data : DataMessageView} (h : parseDataMessage (.bytes m) = .ok data) :
    data.payload = f.payload ps ∧
      parseDataMessage (.bytes m') = .ok { data with payload := f.payload ps' } := by
  have hfound : ∃ routed, findSubmessage (.bytes m) submessageIdData 0 = .ok routed := by
    unfold parseDataMessage at h
    cases hfind : findSubmessage (.bytes m) submessageIdData 0 with
    | error e =>
      rw [hfind] at h
      cases h
    | ok routed => exact ⟨routed, rfl⟩
  obtain ⟨routed, hfind⟩ := hfound
  obtain ⟨hheader, hwf, hcontext, hflags, horder, hcontent⟩ := hm.find hf hfind
  obtain ⟨routed', hfind'⟩ := hm'.find_exists hf hheader hwf
  obtain ⟨-, -, hcontext', hflags', horder', hcontent'⟩ := hm'.find hf hfind'
  rw [parseDataMessage_eq_dataView hfind, hcontext, hflags, horder, hcontent] at h
  rw [parseDataMessage_eq_dataView hfind', hcontext', hflags', horder', hcontent']
  exact dataView_payload hf.body hf.encapsulation h

end Frame

end Frame

section Reorder

/-- A parameter that a parser with these ids ignores: PID_PAD, or an unknown one that need not be
understood. -/
def Ignorable (knownIds : List ℕ) (p : Parameter) : Prop :=
  p.id = 0 ∨ (p.id ∉ knownIds ∧ p.id &&& mustUnderstandMask = 0)

theorem Ignorable.not_known {knownIds : List ℕ} (hpad : 0 ∉ knownIds) {p : Parameter}
    (h : Ignorable knownIds p) : p.id ∉ knownIds := by
  rcases h with hzero | ⟨hunknown, -⟩
  · rwa [hzero]
  · exact hunknown

/-- **What may be done to the parameters**: they are reordered, but those of each locator list keep
their order, and ignorable ones are inserted. -/
structure Reordered (knownIds locatorIds : List ℕ) (ps ps' : List Parameter) : Prop where
  perm : ∃ inserted, ps'.Perm (ps ++ inserted) ∧ ∀ p ∈ inserted, Ignorable knownIds p
  locators : ∀ id ∈ locatorIds, (ps'.filter fun p => p.id = id) = ps.filter fun p => p.id = id

section Slots

variable {ι ε : Type} [DecidableEq ι] {State : ι → Type} {slots : List (ℕ × ι)} {other : ι}
  {item : (i : ι) → State i → Parameter → Guarded ε (State i)} {noParameters : (i : ι) → State i}
  {knownIds locatorIds : List ℕ} {ps ps' : List Parameter}

/-- A table gives each slot but the default one to a single id, which is not that of a pad. -/
structure WellFormedSlots (slots : List (ℕ × ι)) (other : ι) : Prop where
  distinctIds : (slots.map Prod.fst).Nodup
  distinctSlots : (slots.map Prod.snd).Nodup
  pad : 0 ∉ slots.map Prod.fst
  other : other ∉ slots.map Prod.snd

omit [DecidableEq ι] in
theorem WellFormedSlots.slotIn_eq_iff (hwf : WellFormedSlots slots other) {id : ℕ} {i : ι}
    (hid : (id, i) ∈ slots) (p : Parameter) : slotIn slots other p = i ↔ p.id = id := by
  have hmem : ∀ {n j}, slots.lookup n = some j → (n, j) ∈ slots := by
    intro n j hlookup
    obtain ⟨before, after, heq, -⟩ := List.lookup_eq_some_iff.1 hlookup
    rw [heq]
    exact List.mem_append_right _ List.mem_cons_self
  unfold slotIn
  constructor
  · intro hslot
    cases hlookup : slots.lookup p.id with
    | none =>
      rw [hlookup, Option.getD_none] at hslot
      exact absurd (hslot ▸ List.mem_map_of_mem hid) hwf.other
    | some j =>
      rw [hlookup] at hslot
      exact congrArg Prod.fst (List.inj_on_of_nodup_map hwf.distinctSlots (hmem hlookup) hid hslot)
  · rintro rfl
    cases hlookup : slots.lookup p.id with
    | none => exact absurd rfl (bne_iff_ne.1 (List.lookup_eq_none_iff.1 hlookup _ hid))
    | some j => exact congrArg Prod.snd (List.inj_on_of_nodup_map hwf.distinctIds (hmem hlookup) hid rfl)

/-- The fold over the slots does not see a reordering: the parameters of a slot may come in any order,
or they are those of one locator list. -/
theorem foldlM_reordered (h : Reordered (slots.map Prod.fst) locatorIds ps ps')
    (hwf : WellFormedSlots slots other)
    (hother : ∀ (p : Parameter) (s : State other), p.id = 0 ∨ p.id &&& mustUnderstandMask = 0 →
      item other s p = .ok s)
    (hslot : ∀ i, OrderFree (item i) (noParameters i) ∨ ∃ id ∈ locatorIds, (id, i) ∈ slots)
    (t : (i : ι) → State i) :
    ps'.foldlM (Slots.step (slotIn slots other) item) noParameters = .ok t ↔
      ps.foldlM (Slots.step (slotIn slots other) item) noParameters = .ok t := by
  obtain ⟨⟨inserted, hperm, hignorable⟩, hlocators⟩ := h
  refine Slots.foldlM_reorder hperm (fun p hp => ?_) (fun i => ?_) t
  · have hslot : slotIn slots other p = other := slotIn_other ((hignorable p hp).not_known hwf.pad)
    generalize slotIn slots other p = i at hslot
    subst hslot
    exact fun s => hother p s ((hignorable p hp).imp_right And.right)
  · refine (hslot i).imp_right ?_
    rintro ⟨id, hid, hi⟩
    have hitems : ∀ l : List Parameter,
        Slots.items (slotIn slots other) l i = l.filter fun p => p.id = id :=
      fun l => List.filter_congr fun p _ => by simp only [hwf.slotIn_eq_iff hi]
    rw [hitems, hitems, hlocators id hid]

end Slots

namespace Spdp

def knownIds : List ℕ := slots.map Prod.fst

def locatorIds : List ℕ :=
  [pidMetatrafficUnicastLocator, pidMetatrafficMulticastLocator, pidDefaultUnicastLocator,
    pidDefaultMulticastLocator]

theorem slots_wellFormed : WellFormedSlots slots .other := ⟨by decide, by decide, by decide, by decide⟩

theorem other_ignores {order : ByteOrder} (p : Parameter) (s : Unit)
    (h : p.id = 0 ∨ p.id &&& mustUnderstandMask = 0) : item order .other s p = .ok s := require_pos h _

theorem slot_free_or_list (order : ByteOrder) (i : Slot) :
    OrderFree (item order i) (noParameters i) ∨ ∃ id ∈ locatorIds, (id, i) ∈ slots := by
  cases i with
  | metatrafficUnicast | metatrafficMulticast | defaultUnicast | defaultMulticast =>
    exact .inr (by decide)
  | other => exact .inl (OrderFree.check _)
  | _ => exact .inl (once_orderFree _ _ _)

variable {ps ps' : List Parameter}

/-- **The SPDP parser accepts a reordered list**, with the same outcome. -/
theorem receive_reordered (h : Reordered knownIds locatorIds ps ps') (data : DataMessageView)
    (payload enc : List UInt8) (domainId size size' : ℕ) (view : SpdpMessageView) :
    Prod.fst <$> receive { data with payload := payload } enc ps' domainId size' = .ok view ↔
      Prod.fst <$> receive data enc ps domainId size = .ok view := by
  simp only [receive, map_bind, map_ok, bind_eq_ok, pure_eq, ok.injEq,
    foldlM_reordered h slots_wellFormed other_ignores (slot_free_or_list _)]

end Spdp

namespace Sedp

def knownIds : List ℕ := slots.map Prod.fst

def locatorIds : List ℕ := [pidUnicastLocator, pidMulticastLocator]

theorem slots_wellFormed : WellFormedSlots slots .other := ⟨by decide, by decide, by decide, by decide⟩

variable {order : ByteOrder} {peer : GuidPrefix} {ps ps' : List Parameter}

theorem other_ignores (p : Parameter) (s : Unit) (h : p.id = 0 ∨ p.id &&& mustUnderstandMask = 0) :
    item order peer .other s p = .ok s := require_pos h _

theorem slot_free_or_list (i : Slot) :
    OrderFree (item order peer i) (noParameters i) ∨
      ∃ id ∈ locatorIds, (id, i) ∈ slots := by
  cases i with
  | unicast | multicast => exact .inr (by decide)
  | other => exact .inl (OrderFree.check _)
  | _ => exact .inl (once_orderFree _ _ _)

/-- **The SEDP parser accepts a reordered list**, with the same outcome. -/
theorem receive_reordered (h : Reordered knownIds locatorIds ps ps') (data : DataMessageView)
    (payload enc : List UInt8) (size size' : ℕ) (view : SedpMessageView) :
    Prod.fst <$> receive { data with payload := payload } enc ps' peer size' =
        .ok view ↔
      Prod.fst <$> receive data enc ps peer size = .ok view := by
  unfold receive
  cases announcedKind data.writerId with
  | none => exact iff_of_false (fun h => by cases h) fun h => by cases h
  | some announced =>
    simp only [map_bind, map_ok, bind_eq_ok, pure_eq, ok.injEq,
      foldlM_reordered h slots_wellFormed other_ignores slot_free_or_list]

end Sedp

end Reorder

/-- Only a DATA message is an announcement. -/
theorem parseDataMessage_of_ok {message : Span} (hsize : message.size ≤ uint64Max) {ε β γ : Type}
    {wrap : RtpsError → ε} {f : Raw.DataMessageView → Guarded ε β}
    {g : β → γ} {c : γ} (h : g <$> ((Raw.parseDataMessage message).mapError wrap >>= f) = .ok c) :
    ∃ data, parseDataMessage message = .ok data := by
  have hagrees := Raw.parseDataMessage_agrees hsize
  obtain ⟨b, hb, -⟩ := map_eq_ok.1 h
  obtain ⟨view, hview, -⟩ := bind_eq_ok.1 hb
  generalize Raw.parseDataMessage message = c at hagrees hview
  generalize parseDataMessage message = d at hagrees
  cases hagrees with
  | ok => exact ⟨_, rfl⟩
  | error e => cases hview

section Results

variable {f : Frame} {ps ps' : List Parameter} {m m' : List UInt8}

namespace Frame

theorem Framed.isParameterList (hf : f.WellFormed) (hm : f.Framed ps m) :
    IsParameterList (f.payload ps) f.encapsulation ps f.rest :=
  ⟨hf.encapsulation, hf.rest, hm.parameters, rfl⟩

/-- Both datagrams hold a DATA message, or neither does. -/
theorem Framed.parse_data_both (hf : f.WellFormed) (hm : f.Framed ps m) (hm' : f.Framed ps' m') :
    (∃ data : DataMessageView, parseDataMessage (.bytes m) = .ok { data with payload := f.payload ps } ∧
      parseDataMessage (.bytes m') = .ok { data with payload := f.payload ps' }) ∨
    ((¬ ∃ data, parseDataMessage (.bytes m) = .ok data) ∧
      ¬ ∃ data, parseDataMessage (.bytes m') = .ok data) := by
  by_cases h : ∃ data, parseDataMessage (.bytes m) = .ok data
  · obtain ⟨data, hdata⟩ := h
    exact .inl ⟨data, (hm.parse_data hf hm hdata).2, (hm.parse_data hf hm' hdata).2⟩
  · refine .inr ⟨h, fun h' => ?_⟩
    obtain ⟨data, hdata⟩ := h'
    exact h ⟨_, (hm'.parse_data hf hm hdata).2⟩

end Frame

/-- **Parameter order and ignorable parameters do not matter.** Two datagrams with the same frame, whose
parameters are reordered and mixed with ignorable ones, are both accepted or both rejected, and when
they are accepted they mean the same. -/
theorem parameter_order_irrelevant (hf : f.WellFormed) (hm : f.Framed ps m) (hm' : f.Framed ps' m') :
    (Reordered Spdp.knownIds Spdp.locatorIds ps ps' → ∀ domainId view,
      Prod.fst <$> parseSpdpMessage (.bytes m') domainId = .ok view ↔
        Prod.fst <$> parseSpdpMessage (.bytes m) domainId = .ok view) ∧
    (Reordered Sedp.knownIds Sedp.locatorIds ps ps' → ∀ peer view,
      Prod.fst <$> parseSedpMessage (.bytes m') peer = .ok view ↔
        Prod.fst <$> parseSedpMessage (.bytes m) peer = .ok view) := by
  rcases hm.parse_data_both hf hm' with ⟨data, hdata, hdata'⟩ | ⟨hnone, hnone'⟩
  · refine ⟨fun h domainId view => ?_, fun h peer view => ?_⟩
    · rw [@Spdp.parseSpdpMessage_eq (.bytes m) _ _ _ _ hm.size hdata (hm.isParameterList hf),
        @Spdp.parseSpdpMessage_eq (.bytes m') _ _ _ _ hm'.size hdata' (hm'.isParameterList hf)]
      exact Spdp.receive_reordered h { data with payload := f.payload ps } _ _ _ _ _ _
    · rw [@Sedp.parseSedpMessage_eq (.bytes m) _ _ _ _ hm.size hdata (hm.isParameterList hf),
        @Sedp.parseSedpMessage_eq (.bytes m') _ _ _ _ hm'.size hdata' (hm'.isParameterList hf)]
      exact Sedp.receive_reordered h { data with payload := f.payload ps } _ _ _ _ _
  · -- without a DATA message neither datagram is an announcement
    have hrejected := @parseDataMessage_of_ok (.bytes m) hm.size
    have hrejected' := @parseDataMessage_of_ok (.bytes m') hm'.size
    exact ⟨fun _ _ _ => iff_of_false (fun h => hnone' (hrejected' h)) fun h => hnone (hrejected h),
      fun _ _ _ => iff_of_false (fun h => hnone' (hrejected' h)) fun h => hnone (hrejected h)⟩

/-- The frame of a message of the builder whose payload is a parameter list. -/
def builtFrame (c : DataMessageConfig) (order : ByteOrder) : Frame where
  header := dataHeader c
  before := []
  flags := dataFlags c.submessageByteOrder
  body := dataContent c []
  encapsulation := encapsulation order
  rest := storeInt (order == .littleEndian) 2 0
  after := []

theorem order_dataFlags {order : ByteOrder} (h : order = .bigEndian ∨ order = .littleEndian) :
    (if dataFlags order &&& 0x01 ≠ 0 then ByteOrder.littleEndian else .bigEndian) = order := by
  rcases h with rfl | rfl <;> decide

variable {c : DataMessageConfig} {order : ByteOrder}

theorem builtFrame_wellFormed
    (horder : c.submessageByteOrder = .bigEndian ∨ c.submessageByteOrder = .littleEndian) :
    (builtFrame c order).WellFormed where
  header := dataHeader_length c
  first := fun x hx => absurd hx List.not_mem_nil
  body := by
    have hoffset : readAt (dataContent c []) 2 2 c.submessageByteOrder = 16 := by
      rw [dataContent, readAt_skip _ _ (by simp), storeInt_length]
      exact readAt_storeInt _ _ _
    have hflags : (builtFrame c order).order = c.submessageByteOrder := order_dataFlags horder
    rw [hflags]
    exact (dataContent_length c []).trans (congrArg (4 + ·) hoffset.symm)
  encapsulation := rfl
  rest := (storeInt_length _ 2 0).ge

theorem builtFrame_framed
    (horder : c.submessageByteOrder = .bigEndian ∨ c.submessageByteOrder = .littleEndian)
    (hfit : 20 + ((builtFrame c order).payload ps).length < 2 ^ 16) (hps : ∀ p ∈ ps, p.WellFormed) :
    (builtFrame c order).Framed ps (dataMessageBytes c ((builtFrame c order).payload ps)) where
  size := by
    rw [dataMessageBytes_length]
    exact (show _ ≤ 2 ^ 16 + 24 by omega).trans (by decide)
  header := by
    rw [dataMessageBytes_eq]
    exact List.take_left' (dataHeader_length c)
  splits := by
    have hcontent : dataContent c ((builtFrame c order).payload ps) =
        dataContent c [] ++ (builtFrame c order).payload ps := by
      simp only [dataContent, List.append_assoc, List.append_nil]
    have hlength := dataContent_length c ((builtFrame c order).payload ps)
    refine ⟨[⟨submessageIdData, dataFlags c.submessageByteOrder,
      dataContent c ((builtFrame c order).payload ps), 20⟩], ?_, ?_⟩
    · rw [dataMessageBytes_eq, List.drop_left' (dataHeader_length c), ← hlength]
      exact splits_single (order_dataFlags horder) (by omega) (by omega)
    · rw [hcontent]
      rfl
  parameters := hps

/-- The announcement of `loopbackParticipant`, backwards and behind a pad parameter, is accepted with
the same meaning. -/
theorem loopbackParticipant_backwards :
    let config : SpdpAnnouncementConfig := { participant := loopbackParticipant }
    let f := builtFrame (Spdp.dataConfig config) .littleEndian
    let ps := Spdp.announcement loopbackParticipant .littleEndian
    let ps' := ⟨0, [1, 2, 3, 4]⟩ :: ps.reverse
    ∃ view, Prod.fst <$> parseSpdpMessage
        (.bytes (dataMessageBytes (Spdp.dataConfig config) (f.payload ps))) 7 = .ok view ∧
      Prod.fst <$> parseSpdpMessage
        (.bytes (dataMessageBytes (Spdp.dataConfig config) (f.payload ps'))) 7 = .ok view := by
  intro config f ps ps'
  have hps : ∀ p ∈ ps, p.WellFormed := Spdp.announced_wellFormed _ _ (by decide)
  have hps' : ∀ p ∈ ps', p.WellFormed := by
    intro p hp
    rcases List.mem_cons.1 hp with rfl | hp
    · exact ⟨by decide, by decide, rfl, by decide⟩
    · exact hps p (List.mem_reverse.1 hp)
  have hreordered : Reordered Spdp.knownIds Spdp.locatorIds ps ps' := by
    refine ⟨⟨[⟨0, [1, 2, 3, 4]⟩], ?_, ?_⟩, ?_⟩
    · exact (List.Perm.cons _ (List.reverse_perm ps)).trans (List.perm_append_singleton _ ps).symm
    · intro p hp
      exact .inl (by rw [List.mem_singleton.1 hp])
    · decide
  obtain ⟨m, hm⟩ := buildSpdpMessage_accepts loopbackParticipant_valid le_rfl
  obtain ⟨view, hview, -⟩ := parseSpdpMessage_build (by decide) (by decide) hm
  obtain ⟨-, payload, hpayload, hbuild⟩ := buildSpdpMessage_ok hm
  have hbytes : m = dataMessageBytes (Spdp.dataConfig config) (f.payload ps) := by
    rw [(build_ok hbuild).1.bytes]
    exact congrArg _ hpayload
  rw [hbytes] at hview
  have haccepted : Prod.fst <$> parseSpdpMessage
      (.bytes (dataMessageBytes (Spdp.dataConfig config) (f.payload ps))) 7 = .ok view :=
    map_eq_ok.2 ⟨_, hview, rfl⟩
  have hf : f.WellFormed := builtFrame_wellFormed (.inr rfl)
  have hframed : f.Framed ps (dataMessageBytes (Spdp.dataConfig config) (f.payload ps)) :=
    builtFrame_framed (.inr rfl) (by decide +kernel) hps
  have hframed' : f.Framed ps' (dataMessageBytes (Spdp.dataConfig config) (f.payload ps')) :=
    builtFrame_framed (.inr rfl) (by decide +kernel) hps'
  have hsame := (parameter_order_irrelevant hf hframed hframed').1 hreordered 7 view
  exact ⟨view, haccepted, hsame.2 haccepted⟩

end Results

end OpenRtdds
