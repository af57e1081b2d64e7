import OpenRtdds.Lib.Slots
import OpenRtdds.Proof.ParserSafety

/-!
# Parameter lists, written and read

The payload of a discovery message is an encapsulation, a list of parameters and a sentinel. What the
writer appends is such a list, and the walk of the parsers is a fold over it.

* `Parameter`, `parameterBytes`, `IsParameterList`: the list and its bytes.
* `parseParameters_eq`: the walk hands the value of each parameter to the handler.
* `Written`, `Written.append`, `Written.finish`: what `ParameterWriter` has written.
* `parseLocator_locatorValue`, `parseText_textValue`, `durationNs_bounds`: reading what was written.
-/

namespace OpenRtdds

open Lib Guarded Raw

/-- A parameter: its id and its value with the padding. -/
structure Parameter where
  id : ℕ
  value : List UInt8
  deriving DecidableEq

/-- The parameter, as the walk over the list comes to it: not the sentinel, and of a length that its
header can hold. -/
structure Parameter.WellFormed (p : Parameter) : Prop where
  id : p.id < 2 ^ 16
  inner : p.id ≠ pidSentinel
  aligned : p.value.length % 4 = 0
  length : p.value.length < 2 ^ 16

def Parameter.bytes (order : ByteOrder) (p : Parameter) : List UInt8 :=
  storeInt (order == .littleEndian) 2 p.id ++
    (storeInt (order == .littleEndian) 2 p.value.length ++ p.value)

def parameterBytes (order : ByteOrder) (ps : List Parameter) : List UInt8 :=
  ps.flatMap (Parameter.bytes order)

@[simp] theorem Parameter.bytes_length (order : ByteOrder) (p : Parameter) :
    (p.bytes order).length = 4 + p.value.length := by
  simp only [Parameter.bytes, List.length_append, storeInt_length]
  omega

theorem parameterBytes_cons (order : ByteOrder) (p : Parameter) (ps : List Parameter) :
    parameterBytes order (p :: ps) = p.bytes order ++ parameterBytes order ps := rfl

theorem parameterBytes_append (order : ByteOrder) (ps qs : List Parameter) :
    parameterBytes order (ps ++ qs) = parameterBytes order ps ++ parameterBytes order qs :=
  List.flatMap_append

section Walk

variable {ε σ : Type} {m : List UInt8} {order : ByteOrder} {payload payloadSize : ℕ}

/-- What the handler does with a parameter. -/
def handle (parameter : List UInt8 → ℕ → ℕ → ℕ → σ → Guarded ε σ) (c : σ) (p : Parameter) :
    Guarded ε σ := parameter p.value p.id p.value.length 0 c

variable {malformedParameter : ε} {parameter : List UInt8 → ℕ → ℕ → ℕ → σ → Guarded ε σ}
  {inv : σ → Prop}

variable {rest : List UInt8}

theorem parameterStep_parameter {done : List UInt8} {p : Parameter} {s : ParameterState σ}
    (hhandles : Handles inv parameter) (hin : payload + payloadSize ≤ m.length)
    (hwrap : payloadSize + 4 < 2 ^ 64) (hp : p.WellFormed)
    (hpayload : (m.drop payload).take payloadSize = done ++ (p.bytes order ++ rest))
    (hoffset : s.offset = done.length) :
    parameterStep malformedParameter m payload payloadSize order (parameter m) s =
      handle parameter s.candidate p >>= fun c =>
        .ok ({ s with candidate := c, offset := s.offset + 4 + p.value.length }, true) := by
  have hlen : payloadSize = done.length + (4 + p.value.length + rest.length) := by
    rw [← length_part hin, hpayload]
    simp only [List.length_append, Parameter.bytes_length]
  have hat : At m (payload + s.offset) (p.bytes order) := hoffset ▸ .of_part hin hpayload
  obtain ⟨hid, hfields⟩ := hat.split (storeInt_length _ 2 _)
  obtain ⟨hlength, hvalue⟩ := hfields.split (storeInt_length _ 2 _)
  unfold parameterStep
  rw [sizeAdd_of_lt (by omega), ok_bind, if_pos (by omega), hid.readWord hp.id, ok_bind, ← Nat.add_assoc,
    hlength.readWord hp.length, ok_bind, if_neg hp.inner,
    require_pos (show p.value.length &&& 3 = 0 from
      (Nat.and_two_pow_sub_one_eq_mod _ 2).trans hp.aligned), ok_bind, sizeSub_of_le (by omega),
    ok_bind, require_pos (by omega), ok_bind]
  rw [show (address m (payload + (s.offset + 4)) : Guarded ε ℕ) = .ok (payload + (s.offset + 4)) from
    access_of_le (by omega) _, ok_bind, (hhandles m _ _ _ _ (by omega)).eq]
  -- the value is where the walk takes it from
  rw [show payload + (s.offset + 4) = payload + s.offset + 2 + 2 by omega, hvalue.take_eq]
  unfold handle
  congr 1
  funext c
  rw [sizeAdd_of_lt (by omega)]
  rfl

theorem parameterStep_sentinel {done : List UInt8} {s : ParameterState σ}
    {handler : ℕ → ℕ → ℕ → σ → Guarded ε σ} (hin : payload + payloadSize ≤ m.length)
    (hwrap : payloadSize + 4 < 2 ^ 64) (hrest : 2 ≤ rest.length)
    (hpayload : (m.drop payload).take payloadSize =
      done ++ (storeInt (order == .littleEndian) 2 pidSentinel ++ rest))
    (hoffset : s.offset = done.length) :
    parameterStep malformedParameter m payload payloadSize order handler s =
      .ok ({ s with offset := s.offset + 4, seenSentinel := true }, false) := by
  have hlen : payloadSize = done.length + (2 + rest.length) := by
    rw [← length_part hin, hpayload]
    simp only [List.length_append, storeInt_length]
  have hid := At.of_part hin hpayload
  rw [← hoffset] at hid
  have hread : (readWord m (payload + (s.offset + 2)) 2 order : Guarded ε ℕ) = .ok _ :=
    access_of_le (by omega) _
  unfold parameterStep
  rw [sizeAdd_of_lt (by omega), ok_bind, if_pos (by omega), hid.readWord (by decide), ok_bind, hread,
    ok_bind, if_pos rfl]
  rfl

theorem loop_parameters (hhandles : Handles inv parameter) (hin : payload + payloadSize ≤ m.length)
    (hwrap : payloadSize + 4 < 2 ^ 64) (hrest : 2 ≤ rest.length) :
    ∀ (ps : List Parameter) (done : List UInt8) (s : ParameterState σ) (fuel : ℕ),
      (∀ p ∈ ps, p.WellFormed) →
      (m.drop payload).take payloadSize = done ++ (parameterBytes order ps ++
        (storeInt (order == .littleEndian) 2 pidSentinel ++ rest)) →
      s.offset = done.length → ps.length < fuel →
      (loop (parameterStep malformedParameter m payload payloadSize order (parameter m)) fuel s >>=
          fun s => require (s.seenSentinel = true) malformedParameter >>= fun _ => pure s.candidate) =
        ps.foldlM (handle parameter) s.candidate := by
  intro ps
  -- the induction is on the parameters that are left
  induction ps with
  | nil =>
    rintro done s (- | fuel) - hpayload hoffset hfuel
    · exact absurd hfuel (Nat.not_lt_zero _)
    · rw [loop_succ, parameterStep_sentinel hin hwrap hrest hpayload hoffset, ok_bind,
        if_neg Bool.false_ne_true, pure_eq, ok_bind, require_pos rfl, ok_bind]
      rfl
  | cons p ps ih =>
    rintro done s (- | fuel) hwf hpayload hoffset hfuel
    · exact absurd hfuel (Nat.not_lt_zero _)
    have hp := hwf p List.mem_cons_self
    rw [parameterBytes_cons, List.append_assoc] at hpayload
    rw [loop_succ, parameterStep_parameter hhandles hin hwrap hp hpayload hoffset, List.foldlM_cons,
      bind_assoc, bind_assoc]
    congr 1
    funext c
    rw [ok_bind, if_pos rfl]
    refine ih (done ++ p.bytes order) _ fuel (fun q hq => hwf q (List.mem_cons_of_mem p hq)) ?_ ?_
      (Nat.lt_of_succ_lt_succ hfuel)
    · rw [hpayload, List.append_assoc]
    · simp only [List.length_append, Parameter.bytes_length, hoffset, Nat.add_assoc]

theorem length_le_parameterBytes (order : ByteOrder) (ps : List Parameter) :
    ps.length ≤ (parameterBytes order ps).length := by
  induction ps with
  | nil => exact Nat.zero_le _
  | cons p ps ih =>
    rw [parameterBytes_cons, List.length_cons, List.length_append, Parameter.bytes_length]
    omega

/-- The byte order that an encapsulation announces. -/
def announcedOrder (enc : List UInt8) : ByteOrder :=
  if byteAt enc 1 = 3 then .littleEndian else .bigEndian

/-- The bytes are an encapsulation, parameters in the order that it announces, the sentinel and a
rest that holds at least its length. -/
structure IsParameterList (bytes enc : List UInt8) (ps : List Parameter) (rest : List UInt8) : Prop where
  four : enc.length = 4
  two_le : 2 ≤ rest.length
  wellFormed : ∀ p ∈ ps, p.WellFormed
  eq : bytes = enc ++ (parameterBytes (announcedOrder enc) ps ++
    (storeInt (announcedOrder enc == .littleEndian) 2 pidSentinel ++ rest))

variable {enc : List UInt8} {ps : List Parameter}

/-- **The walk over a parameter list is a fold** of the handler over the parameters before the
sentinel. -/
theorem parseParameters_eq (hhandles : Handles inv parameter)
    (hin : payload + payloadSize ≤ m.length) (hwrap : payloadSize + 4 < 2 ^ 64)
    (h : IsParameterList ((m.drop payload).take payloadSize) enc ps rest) (candidate : σ) :
    parseParameters malformedParameter m payload payloadSize (announcedOrder enc) (parameter m)
      candidate = ps.foldlM (handle parameter) candidate := by
  have hcount := length_le_parameterBytes (announcedOrder enc) ps
  have hlen : payloadSize =
      4 + ((parameterBytes (announcedOrder enc) ps).length + (2 + rest.length)) := by
    rw [← length_part hin, h.eq]
    simp only [List.length_append, storeInt_length, h.four]
  exact loop_parameters hhandles hin hwrap h.two_le ps enc { candidate } (payloadSize + 1) h.wellFormed
    h.eq h.four.symm (by omega)

theorem parameterByteOrder_eq {unsupportedRepresentation : ε} (hin : payload + payloadSize ≤ m.length)
    (height : 8 ≤ payloadSize) (hfour : enc.length = 4)
    (hpayload : (m.drop payload).take payloadSize = enc ++ rest) :
    parameterByteOrder unsupportedRepresentation m payload payloadSize =
      require (byteAt enc 0 = 0) unsupportedRepresentation >>= fun _ =>
        require (byteAt enc 1 = 2 ∨ byteAt enc 1 = 3) unsupportedRepresentation >>=
          fun _ => .ok (announcedOrder enc) := by
  have hload : ∀ k, k < 4 → (load m (payload + k) : Guarded ε UInt8) =
      .ok (byteAt enc k) := by
    intro k hk
    refine (access_of_le (by omega) _).trans (congrArg Guarded.ok ?_)
    rw [← byteAt_part (show k < payloadSize by omega), hpayload, byteAt_left (by omega)]
  have hfirst : (load m payload : Guarded ε UInt8) = _ := hload 0 (by omega)
  unfold parameterByteOrder
  rw [require_pos height, ok_bind, hfirst, ok_bind, hload 1 (by omega)]
  rfl

/-- The slot of a parameter, from the table of the ids that a parser knows. -/
def slotIn {ι : Type} (slots : List (ℕ × ι)) (other : ι) (p : Parameter) : ι :=
  (slots.lookup p.id).getD other

theorem slotIn_other {ι : Type} {slots : List (ℕ × ι)} {other : ι} {p : Parameter}
    (hp : p.id ∉ slots.map Prod.fst) : slotIn slots other p = other := by
  have hnone : slots.lookup p.id = none := by
    rw [List.lookup_eq_none_iff]
    intro x hx
    exact bne_iff_ne.2 fun h => hp (h ▸ List.mem_map_of_mem hx)
  rw [slotIn, hnone, Option.getD_none]

section Switch

variable {ι : Type} [DecidableEq ι] {S : ι → Type} {slotOf : Parameter → ι}
  {item : (i : ι) → S i → Parameter → Guarded ε (S i)} {assemble : ((i : ι) → S i) → σ}
  {t : (i : ι) → S i}

/-- One case of the switch over the ids: it changes its slot. -/
theorem switch_case {slots : List (ℕ × ι)} {other : ι} {p : Parameter} {i : ι} {id : ℕ}
    {c rest : Guarded ε σ} (hslot : (slots.lookup id).getD other = i)
    (hcase : p.id = id → c = item i (t i) p >>= fun x => pure (assemble (Function.update t i x)))
    (hrest : p.id ≠ id →
      rest = Slots.step (slotIn slots other) item t p >>= fun t => pure (assemble t)) :
    (if p.id = id then c else rest) =
      Slots.step (slotIn slots other) item t p >>= fun t => pure (assemble t) := by
  by_cases h : p.id = id
  · have hp : slotIn slots other p = i := by rw [slotIn, h, hslot]
    rw [if_pos h, hcase h, Slots.step_of_slot hp, bind_assoc]
    rfl
  · rw [if_neg h, hrest h]

theorem switch_default {slots : List (ℕ × ι)} {other : ι} {p : Parameter} {c : Guarded ε σ}
    (hp : p.id ∉ slots.map Prod.fst)
    (hcase : c = item other (t other) p >>= fun x =>
      pure (assemble (Function.update t other x))) :
    c = Slots.step (slotIn slots other) item t p >>= fun t => pure (assemble t) := by
  rw [hcase, Slots.step_of_slot (slotIn_other hp), bind_assoc]
  rfl

theorem foldlM_handle
    (hswitch : ∀ t p, handle parameter (assemble t) p =
      Slots.step slotOf item t p >>= fun t => pure (assemble t)) (ps : List Parameter) :
    ps.foldlM (handle parameter) (assemble t) =
      ps.foldlM (Slots.step slotOf item) t >>= fun t => pure (assemble t) := by
  induction ps generalizing t with
  | nil => rfl
  | cons p ps ih =>
    rw [List.foldlM_cons, List.foldlM_cons, hswitch, bind_assoc, bind_assoc]
    congr 1
    funext t
    rw [pure_bind, ih]

/-- **The payload of a discovery message is read slot by slot**, in the byte order that it announces. -/
theorem parsePayload_eq {β : Type} {unsupportedRepresentation : ε}
    {parameter : ByteOrder → List UInt8 → ℕ → ℕ → ℕ → σ → Guarded ε σ}
    {item : ByteOrder → (i : ι) → S i → Parameter → Guarded ε (S i)} {f : ByteOrder → σ → Guarded ε β}
    (hhandles : ∀ order, Handles inv (parameter order))
    (hswitch : ∀ order t p, handle (parameter order) (assemble t) p =
      Slots.step slotOf (item order) t p >>= fun t => pure (assemble t))
    (hin : payload + payloadSize ≤ m.length) (hwrap : payloadSize + 4 < 2 ^ 64) {enc : List UInt8}
    (h : IsParameterList ((m.drop payload).take payloadSize) enc ps rest) :
    (parameterByteOrder unsupportedRepresentation m payload payloadSize >>= fun order =>
      parseParameters malformedParameter m payload payloadSize order (parameter order m) (assemble t) >>=
        f order) =
      require (byteAt enc 0 = 0) unsupportedRepresentation >>= fun _ =>
        require (byteAt enc 1 = 2 ∨ byteAt enc 1 = 3) unsupportedRepresentation >>=
          fun _ => ps.foldlM (Slots.step slotOf (item (announcedOrder enc))) t >>= fun t =>
            f (announcedOrder enc) (assemble t) := by
  have hlength : 8 ≤ payloadSize := by
    have := h.four
    have := h.two_le
    rw [← length_part hin, h.eq]
    simp only [List.length_append, storeInt_length]
    omega
  rw [parameterByteOrder_eq hin hlength h.four h.eq]
  simp only [bind_assoc]
  rw [ok_bind, parseParameters_eq (hhandles _) hin hwrap h, foldlM_handle (hswitch _), bind_assoc]
  simp only [pure_bind]

end Switch

end Walk

section Writer

variable {order : ByteOrder}

theorem paddedSize_bounds (n : ℕ) : n ≤ paddedSize n ∧ paddedSize n < n + 4 ∧ paddedSize n % 4 = 0 := by
  unfold paddedSize
  omega

@[simp] theorem paddedValue_length (value : List UInt8) :
    (paddedValue value).length = paddedSize value.length := by
  have := (paddedSize_bounds value.length).1
  simp only [paddedValue, List.length_append, List.length_replicate]
  omega

variable {value : List UInt8}

theorem paddedValue_of_aligned (h : value.length % 4 = 0) :
    paddedValue value = value := by
  have hsize : paddedSize value.length = value.length := by
    unfold paddedSize
    omega
  rw [paddedValue, hsize, Nat.sub_self, List.replicate_zero, List.append_nil]

theorem at_paddedValue (value : List UInt8) : At (paddedValue value) 0 value :=
  (At.refl (paddedValue value)).left

/-- The encapsulation that the constructor writes. -/
def encapsulation (order : ByteOrder) : List UInt8 := [0, if order = .littleEndian then 3 else 2, 0, 0]

/-- The end of a list: the sentinel, whose length is zero. -/
def sentinel (order : ByteOrder) : List UInt8 :=
  storeInt (order == .littleEndian) 2 pidSentinel ++ storeInt (order == .littleEndian) 2 0

theorem announcedOrder_encapsulation (rest : List UInt8)
    (h : order = .bigEndian ∨ order = .littleEndian) :
    byteAt (encapsulation order) 0 = 0 ∧
      (byteAt (encapsulation order) 1 = 2 ∨ byteAt (encapsulation order) 1 = 3) ∧
      announcedOrder (encapsulation order) = order ∧
      supportedSerializedPayload (.bytes (encapsulation order ++ rest)) = true := by
  have hlength : 4 ≤ (encapsulation order ++ rest).length := by
    rw [List.length_append]
    exact Nat.le_add_right 4 _
  simp only [supportedSerializedPayload, Span.isNull, Span.size, Span.data, hlength]
  rcases h with rfl | rfl <;> exact ⟨rfl, by decide, rfl, rfl⟩

theorem written_announced {payload : List UInt8} {ps : List Parameter}
    (h : order = .bigEndian ∨ order = .littleEndian)
    (hpayload : payload = encapsulation order ++ (parameterBytes order ps ++ sentinel order))
    (hwf : ∀ p ∈ ps, p.WellFormed) :
    IsParameterList payload (encapsulation order) ps (storeInt (order == .littleEndian) 2 0) := by
  refine ⟨rfl, (storeInt_length _ 2 0).ge, hwf, ?_⟩
  rw [(announcedOrder_encapsulation [] h).2.2.1]
  exact hpayload

/-- What a writer has written. -/
structure Written (w : ParameterWriter) (capacity : ℕ) (order : ByteOrder) (ps : List Parameter) :
    Prop where
  bytes : w.bytes = encapsulation order ++ parameterBytes order ps
  capacity : w.capacity = capacity
  order : w.order = order

variable {w : ParameterWriter} {capacity : ℕ} {ps : List Parameter}

theorem Written.start (h : 4 ≤ capacity) :
    Written (.start capacity order) capacity order [] ∧
      (ParameterWriter.start capacity order).bytes.length = 4 := by
  have hbytes : (ParameterWriter.start capacity order).bytes = encapsulation order := if_pos h
  exact ⟨⟨by rw [hbytes]; exact (List.append_nil _).symm, rfl, rfl⟩, by rw [hbytes]; rfl⟩

theorem Written.word (h : Written w capacity order ps) :
    w.word = storeInt (order == .littleEndian) := by
  unfold ParameterWriter.word
  rw [h.order]

/-- **A parameter that fits is appended**; `n` is its padded size. -/
theorem Written.append (h : Written w capacity order ps) (id : ℕ) {n : ℕ}
    (hn : paddedSize value.length = n) (hlength : n ≤ 65535)
    (hfit : w.bytes.length + (4 + n) ≤ capacity) :
    ∃ w', w.append id value = some w' ∧ Written w' capacity order (ps ++ [⟨id, paddedValue value⟩]) ∧
      w'.bytes.length = w.bytes.length + (4 + n) := by
  subst hn
  have hcapacity := h.capacity
  have hnew : w.word 2 id ++ (w.word 2 (paddedSize value.length) ++ paddedValue value) =
      (⟨id, paddedValue value⟩ : Parameter).bytes order := by
    simp only [h.word, Parameter.bytes, paddedValue_length]
  unfold ParameterWriter.append
  rw [if_neg (by omega), hnew]
  refine ⟨_, rfl, ⟨?_, h.capacity, h.order⟩, ?_⟩
  · rw [parameterBytes_append, ← List.append_assoc, ← h.bytes]
    exact congrArg (w.bytes ++ ·) (List.append_nil _).symm
  · simp only [List.length_append, Parameter.bytes_length, paddedValue_length]

theorem wellFormed_padded {id : ℕ} (hid : id < 2 ^ 16 ∧ id ≠ pidSentinel)
    (h : value.length ≤ 65532) : (⟨id, paddedValue value⟩ : Parameter).WellFormed := by
  obtain ⟨-, hle, hmod⟩ := paddedSize_bounds value.length
  have hlength := paddedValue_length value
  exact ⟨hid.1, hid.2, by rw [hlength]; exact hmod, by rw [hlength]; omega⟩

/-- The value of a locator parameter. -/
def locatorValue (order : ByteOrder) (locator : Locator) : List UInt8 :=
  storeInt (order == .littleEndian) 4 locator.kind.toNat ++
    (storeInt (order == .littleEndian) 4 locator.port ++ locator.address.toList)

def locatorParameter (order : ByteOrder) (id : ℕ) (locator : Locator) : Parameter :=
  ⟨id, locatorValue order locator⟩

theorem locatorParameter_wellFormed {id : ℕ} (hid : id < 2 ^ 16 ∧ id ≠ pidSentinel)
    (locator : Locator) : (locatorParameter order id locator).WellFormed := by
  have hlength : (locatorParameter order id locator).value.length = 24 := by
    simp [locatorParameter, locatorValue]
  exact ⟨hid.1, hid.2, by rw [hlength], by rw [hlength]; decide⟩

@[simp] theorem locatorValue_length (order : ByteOrder) (locator : Locator) :
    (locatorValue order locator).length = 24 := by
  simp [locatorValue]

theorem Written.appendLocators (id : ℕ) : ∀ (ls : List Locator) {w : ParameterWriter}
    {ps : List Parameter}, Written w capacity order ps → w.bytes.length + 28 * ls.length ≤ capacity →
    ∃ w', ls.foldlM (ParameterWriter.appendLocator id) w = some w' ∧
      Written w' capacity order (ps ++ ls.map (locatorParameter order id)) ∧
      w'.bytes.length = w.bytes.length + 28 * ls.length := by
  intro ls
  induction ls with
  | nil =>
    intro w ps h _
    exact ⟨w, rfl, by simpa using h, rfl⟩
  | cons l ls ih =>
    intro w ps h hfit
    rw [List.length_cons] at hfit
    have hvalue : w.word 4 l.kind.toNat ++ (w.word 4 l.port ++ l.address.toList) =
        locatorValue order l := by
      rw [h.word]
      rfl
    have hpadded : paddedSize (locatorValue order l).length = 24 := by
      rw [locatorValue_length]
      rfl
    obtain ⟨w₁, hw₁, h₁, hlen₁⟩ := h.append id hpadded (by omega) (by omega)
    obtain ⟨w₂, hw₂, h₂, hlen₂⟩ := ih h₁ (by omega)
    refine ⟨w₂, ?_, ?_, ?_⟩
    · rw [List.foldlM_cons, ParameterWriter.appendLocator, hvalue, hw₁]
      exact hw₂
    · rw [paddedValue_of_aligned (by rw [locatorValue_length]), List.append_assoc] at h₂
      exact h₂
    · rw [hlen₂, hlen₁, List.length_cons]
      omega

theorem Written.appendList (h : Written w capacity order ps) (id : ℕ) (list : BoundedLocatorList 4)
    (hfit : w.bytes.length + 28 * 4 ≤ capacity) :
    ∃ w', w.appendList id list = some w' ∧
      Written w' capacity order (ps ++ list.entries.map (locatorParameter order id)) ∧
      w'.bytes.length ≤ w.bytes.length + 28 * 4 := by
  have hfour : list.entries.length ≤ 4 := by
    rw [BoundedLocatorList.entries, List.length_take, Vector.length_toList]
    exact min_le_right _ _
  obtain ⟨w', hw', h', hlen⟩ := Written.appendLocators id list.entries h (by omega)
  exact ⟨w', hw', h', by omega⟩

/-- The value of a text parameter. -/
def textValue (order : ByteOrder) (text : List UInt8) : List UInt8 :=
  paddedValue (storeInt (order == .littleEndian) 4 (text.length + 1) ++ (text ++ [0]))

theorem Written.appendText (h : Written w capacity order ps) (id : ℕ) {n : ℕ}
    (text : Vector UInt8 n) (size : ℕ) (hsize : size ≤ n) (hlength : size ≤ 65000)
    (hfit : w.bytes.length + (4 + paddedSize (size + 5)) ≤ capacity) :
    ∃ w', w.append id (w.text text size) = some w' ∧
      Written w' capacity order (ps ++ [⟨id, textValue order (text.toList.take size)⟩]) ∧
      w'.bytes.length = w.bytes.length + (4 + paddedSize (size + 5)) := by
  have htake : (text.toList.take size).length = size := by
    rw [List.length_take, Vector.length_toList]
    exact min_eq_left hsize
  have hvalue : w.text text size =
      storeInt (order == .littleEndian) 4 ((text.toList.take size).length + 1) ++
        (text.toList.take size ++ [0]) := by
    rw [ParameterWriter.text, h.word, htake]
  have hpadded : paddedSize (w.text text size).length = paddedSize (size + 5) := by
    rw [hvalue]
    simp only [List.length_append, storeInt_length, htake, List.length_singleton]
    congr 1
    omega
  have hbound := paddedSize_bounds (size + 5)
  obtain ⟨w', hw', h', hlen⟩ := h.append id hpadded (by omega) hfit
  refine ⟨w', hw', ?_, hlen⟩
  rw [hvalue] at h'
  exact h'

/-- A write that succeeds, and the writes after it. -/
theorem bind_succeeds {c : Option ParameterWriter} {f : ParameterWriter → Option ParameterWriter}
    {P Q R : ParameterWriter → Prop} (h : ∃ w, c = some w ∧ P w ∧ Q w)
    (hf : ∀ w, P w → Q w → ∃ w', f w = some w' ∧ R w') : ∃ w', c >>= f = some w' ∧ R w' := by
  obtain ⟨w, rfl, hp, hq⟩ := h
  exact hf w hp hq

/-- **The sentinel ends the list.** -/
theorem Written.finish (h : Written w capacity order ps) (hfit : w.bytes.length + 4 ≤ capacity) :
    ∃ w', w.finish = some w' ∧ w'.bytes.length = w.bytes.length + 4 ∧
      w'.bytes = encapsulation order ++ (parameterBytes order ps ++ sentinel order) := by
  obtain ⟨w', hw', h', hlen⟩ := h.append pidSentinel (show paddedSize ([] : List UInt8).length = 0 from rfl)
    (by omega) hfit
  refine ⟨w', hw', hlen, ?_⟩
  rw [h'.bytes, parameterBytes_append]
  rfl

end Writer

section ReadBack

variable {ε : Type} {order : ByteOrder}

theorem validUdpV4Locator_bounds {l : Locator} (h : validUdpV4Locator l = true) :
    l.kind = 1 ∧ l.port ≤ 65535 := by
  simp only [validUdpV4Locator, Bool.and_eq_true, Bool.not_eq_true', Bool.or_eq_false_iff,
    bne_eq_false_iff_eq, decide_eq_false_iff_not] at h
  exact ⟨h.1.1.1.1, by omega⟩

variable {list : BoundedLocatorList 4}

/-- **A written locator is read back.** -/
theorem parseLocator_locatorValue (malformed invalid full : ε) {l : Locator}
    (hl : validUdpV4Locator l = true) (h : list.size < 4) :
    ∃ list', parseLocator malformed invalid full (locatorValue order l) 0
        (locatorValue order l).length order list = .ok list' ∧
      list'.size = list.size + 1 ∧ list'.entries = list.entries ++ [l] := by
  obtain ⟨hkind, hport⟩ := validUdpV4Locator_bounds hl
  obtain ⟨list', hpush, hsize, hentries⟩ := @pushBack_entries ε list l h
  have hlen := locatorValue_length order l
  obtain ⟨hkindAt, hfields⟩ := (At.refl (locatorValue order l)).split (storeInt_length _ 4 _)
  obtain ⟨hportAt, haddress⟩ := hfields.split (storeInt_length _ 4 _)
  have hlocator : ({ port := l.port, address := l.address } : Locator) = l := by
    rw [← hkind]
  refine ⟨list', ?_, hsize, hentries⟩
  unfold parseLocator
  rw [require_pos hlen, ok_bind, hkindAt.readWord (BitVec.isLt _), ok_bind, hkind, if_neg (by decide),
    hportAt.readWord (by omega), ok_bind, haddress.copyBytes, ok_bind]
  simp only [hlocator]
  rw [require_pos hl, ok_bind, hpush, ok_bind]
  rfl

theorem foldlM_locators (malformed invalid full : ε) (id : ℕ) : ∀ (ls : List Locator)
    (list : BoundedLocatorList 4), (∀ l ∈ ls, validUdpV4Locator l = true) →
    list.size + ls.length ≤ 4 →
    ∃ list', (ls.map (locatorParameter order id)).foldlM (fun list p =>
        parseLocator malformed invalid full p.value 0 p.value.length order list) list = .ok list' ∧
      list'.size = list.size + ls.length ∧ list'.entries = list.entries ++ ls := by
  intro ls
  induction ls with
  | nil => exact fun list _ _ => ⟨list, rfl, rfl, (List.append_nil _).symm⟩
  | cons l ls ih =>
    intro list hvalid hroom
    rw [List.length_cons] at hroom
    have hfirst : list.size < 4 := by omega
    obtain ⟨list₁, h₁, hsize₁, hentries₁⟩ := @parseLocator_locatorValue ε order list malformed
      invalid full l (hvalid l List.mem_cons_self) hfirst
    obtain ⟨list₂, h₂, hsize₂, hentries₂⟩ := ih list₁
      (fun x hx => hvalid x (List.mem_cons_of_mem l hx)) (by omega)
    refine ⟨list₂, ?_, ?_, ?_⟩
    · rw [List.map_cons, List.foldlM_cons]
      exact (congrArg (· >>= _) h₁).trans h₂
    · rw [hsize₂, hsize₁, List.length_cons]
      omega
    · rw [hentries₂, hentries₁, List.append_assoc]
      rfl

theorem validLocators_iff : validLocators list = true ↔
    list.size ≤ 4 ∧ ∀ l ∈ list.entries, validUdpV4Locator l = true := by
  simp only [validLocators, Bool.and_eq_true, decide_eq_true_eq, List.all_eq_true]

/-- A list that the builders accept is read back. -/
theorem foldlM_validLocators (malformed invalid full : ε) (id : ℕ) (h : validLocators list = true) :
    ∃ x : BoundedLocatorList 4, (list.entries.map (locatorParameter order id)).foldlM (fun list p =>
        parseLocator malformed invalid full p.value 0 p.value.length order list) {} = .ok x ∧
      x.size = list.size ∧ x.entries = list.entries := by
  obtain ⟨hfour, hvalid⟩ := validLocators_iff.1 h
  have hlength := entries_length hfour
  obtain ⟨x, hx, hsize, hentries⟩ := @foldlM_locators ε order malformed invalid full id list.entries {}
    hvalid (by rw [hlength]; simpa using hfour)
  refine ⟨x, hx, ?_, hentries⟩
  rw [hsize, hlength]
  exact Nat.zero_add _

/-- A parameter that may occur once. -/
def once {V : Type} (duplicateParameter : ε) (read : Parameter → Guarded ε V) (s : Option V)
    (p : Parameter) : Guarded ε (Option V) := do
  require (s.isSome = false) duplicateParameter
  let v ← read p
  pure (some v)

theorem foldlM_once {V : Type} {duplicateParameter : ε} {read : Parameter → Guarded ε V}
    {p : Parameter} {v : V} (h : read p = .ok v) :
    [p].foldlM (once duplicateParameter read) none = .ok (some v) := by
  have hfirst : once duplicateParameter read none p = .ok (some v) := by
    unfold once
    rw [require_pos (show (none : Option V).isSome = false from rfl), ok_bind, h]
    rfl
  rw [List.foldlM_cons, hfirst]
  rfl

theorem once_orderFree {V : Type} (duplicateParameter : ε) (read : Parameter → Guarded ε V)
    (s : Option V) : OrderFree (once duplicateParameter read) s := by
  refine OrderFree.once (fun s p h => ?_) (fun v p u h => ?_) s
  · obtain ⟨-, h⟩ := require_bind_eq_ok.1 h
    obtain ⟨v, -, h⟩ := bind_eq_ok.1 h
    cases h
  · obtain ⟨hnone, -⟩ := require_bind_eq_ok.1 h
    cases hnone

/-- `pid_expects_inline_qos`. -/
def readFlag (malformedParameter : ε) (p : Parameter) : Guarded ε Bool := do
  require (p.value.length = 4) malformedParameter
  let flag ← load p.value 0
  require (flag ≤ 1) malformedParameter
  pure (flag != 0)

theorem readFlag_padded (malformedParameter : ε) (id : ℕ) (b : Bool) :
    readFlag malformedParameter ⟨id, paddedValue [if b then 1 else 0]⟩ = .ok b := by
  cases b <;> rfl

theorem textValue_length (order : ByteOrder) (text : List UInt8) :
    (textValue order text).length = paddedSize (text.length + 5) := by
  rw [textValue, paddedValue_length]
  congr 1
  simp only [List.length_append, storeInt_length, List.length_singleton]
  omega

/-- **A written text is read back.** -/
theorem parseText_textValue (malformedParameter : ε) {least capacity : ℕ} {text : List UInt8}
    (hleast : least ≤ text.length) (hcapacity : text.length < capacity) (hmax : capacity ≤ 2 ^ 16) :
    parseText malformedParameter least capacity (textValue order text) 0
      (textValue order text).length order = .ok (text, text.length) := by
  have hlength := textValue_length order text
  have hpadded := paddedSize_bounds (text.length + 5)
  have hat : At (textValue order text) 0 _ := at_paddedValue _
  obtain ⟨hsize, hrest⟩ := hat.split (storeInt_length _ 4 _)
  obtain ⟨htext, hzero⟩ := hrest.split (n := text.length) rfl
  unfold parseText
  rw [require_pos (by omega), ok_bind, hsize.readWord (by omega), ok_bind, require_pos (by omega), ok_bind,
    sizeSub_of_le (by omega), ok_bind, require_pos (by omega), ok_bind, require_pos (by omega), ok_bind,
    sizeSub_of_le (by omega), ok_bind,
    show 0 + (4 + (text.length + 1) - 1) = 0 + 4 + text.length by omega, hzero.load, ok_bind,
    require_pos rfl, ok_bind, sizeSub_of_le (by omega), ok_bind, Nat.add_sub_cancel, htext.bytesAt rfl]
  rfl

theorem fill_text {n : ℕ} (v : Vector UInt8 n) {text : List UInt8} (h : text.length ≤ n) :
    ∃ v', (fill v text : Guarded ε (Vector UInt8 n)) = .ok v' ∧ v'.toList.take text.length = text := by
  refine ⟨_, if_pos h, ?_⟩
  apply List.ext_getElem
  · simpa using h
  · intro k hk hk'
    simp [hk']

/-- The words of a duration. -/
def durationValue (order : ByteOrder) (ns : ℕ) : List UInt8 :=
  storeInt (order == .littleEndian) 4 (ns / nanosecondsPerSecond) ++
    storeInt (order == .littleEndian) 4 (((ns % nanosecondsPerSecond) <<< 32) / nanosecondsPerSecond)

@[simp] theorem durationValue_length (order : ByteOrder) (ns : ℕ) :
    (durationValue order ns).length = 8 := by
  simp [durationValue]

/-- **A duration loses at most a nanosecond.** -/
theorem durationNs_bounds (ns : ℕ) :
    let fraction := ((ns % nanosecondsPerSecond) <<< 32) / nanosecondsPerSecond
    fraction < 2 ^ 32 ∧
      ns - 1 ≤ durationNs (ns / nanosecondsPerSecond) fraction ∧
      durationNs (ns / nanosecondsPerSecond) fraction ≤ ns := by
  simp only [durationNs, nanosecondsPerSecond, Nat.shiftLeft_eq, Nat.shiftRight_eq_div_pow]
  omega

theorem readWord_duration {m : List UInt8} {ns i : ℕ} (h : At m i (durationValue order ns))
    (hns : ns / nanosecondsPerSecond ≤ int32Max) :
    (readWord m i 4 order : Guarded ε ℕ) = .ok (ns / nanosecondsPerSecond) ∧
      (readWord m (i + 4) 4 order : Guarded ε ℕ) =
        .ok (((ns % nanosecondsPerSecond) <<< 32) / nanosecondsPerSecond) := by
  have hmax : int32Max < 2 ^ 32 := by decide
  obtain ⟨hseconds, hfraction⟩ := h.split (storeInt_length _ 4 _)
  exact ⟨hseconds.readWord (by omega), hfraction.readWord (durationNs_bounds ns).1⟩

end ReadBack

/-- One locator on the loopback address. -/
def loopbackLocators (port : ℕ) : BoundedLocatorList 4 where
  values := .replicate 4 { port, address := #v[0, 0, 0, 0, 0, 0, 0, 0, 0, 0, 0, 0, 127, 0, 0, 1] }
  size := 1

/-- An accepted DATA message, with its payload where the raw parser found it. -/
theorem raw_view {message : Span} (hsize : message.size ≤ uint64Max) {data : DataMessageView}
    (hdata : parseDataMessage message = .ok data) :
    ∃ view : Raw.DataMessageView, Raw.parseDataMessage message = .ok view ∧
      data = view.read message.data ∧ view.serializedPayload + view.payloadSize ≤ message.data.length ∧
      view.payloadSize + 4 < 2 ^ 64 := by
  have hagrees := parseDataMessage_agrees hsize
  have hsafe := parseDataMessage_safe hsize
  rw [hdata] at hagrees
  cases hview : Raw.parseDataMessage message with
  | ok view =>
    rw [hview] at hagrees hsafe
    cases hagrees with
    | ok h =>
      cases hsafe with
      | ok hin => exact ⟨view, rfl, h.1, hin⟩
  | error e =>
    rw [hview] at hagrees
    cases hagrees
  | fault =>
    rw [hview] at hagrees
    cases hagrees

end OpenRtdds
