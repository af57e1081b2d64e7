import OpenRtdds.Spec.ReliabilityMessages
import OpenRtdds.Proof.Router

/-!
# Control messages make a round trip

A HEARTBEAT and an ACKNACK that the builder writes are parsed to the record they were built from; an
ACKNACK that the parser accepts is built again with the stray bits of its bitmap cleared.

* `parseWords_spec`: the two loops over the bitmap set the bits of its words.
* `buildHeartbeat_ok_iff`, `buildAcknack_ok_iff`: the domains of the builders.
* `parseHeartbeat_build`, `parseAcknack_build`: what was built is parsed.
* `parseAcknack_ok`, `AcknackAccepted.content`: what an accepted ACKNACK is made of, and that it is
  built again in canonical form.
* `reliability_messages_round_trip`: the resulting statement.
-/

namespace OpenRtdds

open Lib

section Words

variable {s : SequenceNumberSet} {numBits : ℕ}

theorem parseWord_spec (i : ℕ) (word : BitVec 32) (hs : s.numBits = numBits) :
    let t := parseWord numBits i word s
    t.bitmapBase = s.bitmapBase ∧ t.numBits = s.numBits ∧
      ∀ j, j < numBits →
        t.test j = (s.test j || (decide (j / 32 = i) && (word &&& Bitmap.mask j != 0))) := by
  -- the loop over the bits is a loop over the offsets of the word
  have hloop : parseWord numBits i word s = ((List.range 32).map (i * 32 + ·)).foldl
      (fun t k => if decide (k < numBits) && (word &&& Bitmap.mask k != 0) then (t.set k).2 else t)
      s := by
    unfold parseWord
    rw [List.foldl_map]
    apply List.foldl_ext
    intro t b hb
    have hb := List.mem_range.1 hb
    have hbit : (i * 32 + b) % 32 = b := by omega
    simp [Bitmap.mask, hbit]
  obtain ⟨hbase, hbits, htest⟩ := SequenceNumberSet.foldl_set
    (fun k => decide (k < numBits) && (word &&& Bitmap.mask k != 0))
    ((List.range 32).map (i * 32 + ·)) s
  simp only [hloop]
  refine ⟨hbase, hbits, fun j hj => ?_⟩
  have hmem : j ∈ (List.range 32).map (i * 32 + ·) ↔ j / 32 = i := by
    rw [List.mem_map]
    constructor
    · rintro ⟨b, hb, rfl⟩
      have hb := List.mem_range.1 hb
      omega
    · intro hdiv
      exact ⟨j % 32, List.mem_range.2 (by omega), by omega⟩
  rw [htest j (by omega)]
  simp only [hmem, hj, decide_true, Bool.true_and]

/-- **The loops over the bitmap**, after their first `n` words. -/
theorem parseWords_spec (content : List UInt8) (order : ByteOrder) (hs : s.numBits = numBits) :
    ∀ n, let t := parseWords content order numBits n s
    t.bitmapBase = s.bitmapBase ∧ t.numBits = s.numBits ∧
      ∀ j, j < numBits → t.test j = (s.test j || (decide (j / 32 < n) &&
        (BitVec.ofNat 32 (readAt content (20 + j / 32 * 4) 4 order) &&& Bitmap.mask j != 0))) := by
  intro n
  induction n with
  | zero => exact ⟨rfl, rfl, fun j _ => by simp [parseWords]⟩
  | succ n ih =>
    obtain ⟨hbase, hbits, htest⟩ := ih
    have hstep : parseWords content order numBits (n + 1) s =
        parseWord numBits n (BitVec.ofNat 32 (readAt content (20 + n * 4) 4 order))
          (parseWords content order numBits n s) := by
      unfold parseWords
      rw [List.range_succ, List.foldl_append]
      rfl
    obtain ⟨hbase', hbits', htest'⟩ := parseWord_spec n
      (BitVec.ofNat 32 (readAt content (20 + n * 4) 4 order)) (hbits.trans hs)
    simp only [hstep]
    refine ⟨hbase'.trans hbase, hbits'.trans hbits, fun j hj => ?_⟩
    rw [htest' j hj, htest j hj, Bool.or_assoc]
    congr 1
    -- the word of an offset is an earlier one, the last one or a later one
    rcases Nat.lt_trichotomy (j / 32) n with hlt | heq | hgt
    · have hne : j / 32 ≠ n := by omega
      have hlt' : j / 32 < n + 1 := by omega
      simp [hlt, hne, hlt']
    · simp [heq]
    · have h1 : ¬ j / 32 < n := by omega
      have h2 : j / 32 ≠ n := by omega
      have h3 : ¬ j / 32 < n + 1 := by omega
      simp [h1, h2, h3]

theorem parseWords_test {base j : ℕ} (content : List UInt8) (order : ByteOrder)
    (hbits : s.numBits = numBits) (hbase : s.bitmapBase = base) (hclear : s.bitmap = fun _ => 0) :
    let t := parseWords content order numBits ((numBits + 31) / 32) s
    t.bitmapBase = base ∧ t.numBits = numBits ∧ (j < numBits → t.test j =
      (BitVec.ofNat 32 (readAt content (20 + j / 32 * 4) 4 order) &&& Bitmap.mask j != 0)) := by
  obtain ⟨hbase', hbits', htest⟩ := parseWords_spec content order hbits ((numBits + 31) / 32)
  refine ⟨hbase'.trans hbase, hbits'.trans hbits, fun hj => ?_⟩
  have hfresh : s.test j = false := by
    unfold SequenceNumberSet.test
    rw [hclear, Bitmap.test_zero, ite_self]
  have hword : j / 32 < (numBits + 31) / 32 := by omega
  rw [htest j hj, hfresh]
  simp [hword]

theorem word_getLsbD (s : SequenceNumberSet) {i b : ℕ} (hi : i < s.wordCount) (hb : b < 32) :
    (s.word i).getLsbD b = s.test (i * 32 + (31 - b)) := by
  have hle := s.bits_le
  have hwords : i < (s.numBits + 31) / 32 := hi
  have hdiv : (i * 32 + (31 - b)) / 32 = i := by omega
  have hbit : 31 - (i * 32 + (31 - b)) % 32 = b := by omega
  have hraw : s.bitmap.test (i * 32 + (31 - b)) = (s.bitmap (wrap i)).getLsbD b := by
    rw [Bitmap.test_eq, hdiv, hbit]
  unfold SequenceNumberSet.word SequenceNumberSet.test
  rw [if_pos hi, ← hraw]
  split
  · exact s.tail _ (by omega) (by omega)
  · rfl

theorem mask_getLsbD (word : BitVec 32) {i b : ℕ} (hb : b < 32) :
    (word &&& Bitmap.mask (i * 32 + (31 - b)) != 0) = word.getLsbD b := by
  have hbit : 31 - (i * 32 + (31 - b)) % 32 = b := by omega
  have hconst := Bitmap.test_eq (fun _ => word) (i * 32 + (31 - b))
  rw [hbit] at hconst
  exact hconst

end Words

section Chunks

variable {f : ℕ → List UInt8}

theorem flatMap_range_length (hf : ∀ i, (f i).length = 4) (n : ℕ) :
    ((List.range n).flatMap f).length = n * 4 := by
  induction n with
  | zero => rfl
  | succ n ih =>
    rw [List.range_succ, List.flatMap_append, List.length_append, ih]
    simp [hf]
    omega

end Chunks

section Build

/-- What the checks of `begin` ask for. -/
structure Begins (null : Bool) (capacity : ℕ) (header : ReliabilityMessageHeader) (size : ℕ) :
    Prop where
  buffer : null = true → capacity = 0
  version : supportedVersion header.version = true
  order : header.submessageByteOrder = .bigEndian ∨ header.submessageByteOrder = .littleEndian
  fits : size ≤ capacity

variable {null : Bool} {capacity : ℕ}

theorem beginMessage_ok_iff {header : ReliabilityMessageHeader} {size : ℕ} {bytes : List UInt8} :
    beginMessage null capacity header size = .ok bytes ↔
      Begins null capacity header size ∧ bytes = rtpsHeader header := by
  have horder : supportedByteOrder header.submessageByteOrder = true ↔
      header.submessageByteOrder = .bigEndian ∨ header.submessageByteOrder = .littleEndian := by
    simp [supportedByteOrder]
  unfold beginMessage
  constructor
  · intro h
    split_ifs at h with h1 h2 h3 h4
    cases h
    refine ⟨⟨?_, by simpa using h2, horder.1 (by simpa using h3), by omega⟩, rfl⟩
    intro hnull
    simpa [hnull] using h1
  · rintro ⟨⟨hbuf, hv, ho, hfit⟩, rfl⟩
    have hbuf' : ¬ (null && capacity != 0) = true := by
      simpa using hbuf
    rw [if_neg hbuf', if_neg (by simp [hv]), if_neg (by simp [horder.2 ho]), if_neg (by omega)]

@[simp] theorem rtpsHeader_length (header : ReliabilityMessageHeader) :
    (rtpsHeader header).length = 20 := by
  simp [rtpsHeader]

@[simp] theorem sequenceNumberBytes_length (order : ByteOrder) (n : ℕ) :
    (sequenceNumberBytes order n).length = 8 := by
  simp [sequenceNumberBytes]

@[simp] theorem wordBytes_length (order : ByteOrder) (s : SequenceNumberSet) :
    (wordBytes order s).length = s.wordCount * 4 :=
  flatMap_range_length (fun _ => storeInt_length _ _ _) _

@[simp] theorem heartbeatContent_length (c : Heartbeat) : (heartbeatContent c).length = 28 := by
  simp [heartbeatContent]

@[simp] theorem acknackContent_length (c : AckNack) :
    (acknackContent c).length = 24 + c.readerState.wordCount * 4 := by
  simp [acknackContent]
  omega

/-- A control message: the RTPS header and one submessage. -/
def controlMessage (header : ReliabilityMessageHeader) (id flags : UInt8) (content : List UInt8) :
    List UInt8 :=
  rtpsHeader header ++ ([id, flags] ++
    (storeInt (header.submessageByteOrder == .littleEndian) 2 content.length ++ content))

theorem buildHeartbeat_ok_iff {c : Heartbeat} {m : List UInt8} :
    buildHeartbeat null capacity c = .ok m ↔
      (1 ≤ c.firstSequenceNumber ∧ c.firstSequenceNumber ≤ int64Max ∧
        c.lastSequenceNumber ≤ int64Max ∧ c.firstSequenceNumber ≤ c.lastSequenceNumber + 1) ∧
      Begins null capacity c.header 52 ∧
      m = controlMessage c.header submessageIdHeartbeat
        (controlFlags c.header.submessageByteOrder c.finalFlag c.livelinessFlag)
        (heartbeatContent c) := by
  have hrange : (!validSequenceNumber c.firstSequenceNumber ||
      decide (c.lastSequenceNumber > int64Max) ||
      decide (c.lastSequenceNumber < c.firstSequenceNumber - 1)) = false ↔
      1 ≤ c.firstSequenceNumber ∧ c.firstSequenceNumber ≤ int64Max ∧
        c.lastSequenceNumber ≤ int64Max ∧ c.firstSequenceNumber ≤ c.lastSequenceNumber + 1 := by
    simp only [validSequenceNumber, Bool.or_eq_false_iff, Bool.not_eq_false', Bool.and_eq_true,
      bne_iff_ne, decide_eq_true_eq, decide_eq_false_iff_not]
    omega
  rw [← hrange, ← and_assoc]
  unfold buildHeartbeat controlMessage
  rw [heartbeatContent_length]
  cases hr : (!validSequenceNumber c.firstSequenceNumber ||
      decide (c.lastSequenceNumber > int64Max) ||
      decide (c.lastSequenceNumber < c.firstSequenceNumber - 1)) with
  | true => simp
  | false =>
    simp only [Bool.false_eq_true, if_false, true_and]
    cases hb : beginMessage null capacity c.header 52 with
    | error e =>
      have hno : ¬ Begins null capacity c.header 52 := by
        intro hbegin
        have hok := beginMessage_ok_iff.2 ⟨hbegin, rfl⟩
        rw [hb] at hok
        cases hok
      simp [hno]
    | ok bytes =>
      obtain ⟨hbegin, rfl⟩ := beginMessage_ok_iff.1 hb
      simp only [hbegin, true_and, Except.ok.injEq]
      exact eq_comm

/-- The domain of `build_acknack`: the invariant of the set makes its own checks pass. -/
theorem buildAcknack_ok_iff {c : AckNack} {m : List UInt8} :
    buildAcknack null capacity c = .ok m ↔
      Begins null capacity c.header (48 + c.readerState.wordCount * 4) ∧
      m = controlMessage c.header submessageIdAcknack
        (controlFlags c.header.submessageByteOrder c.finalFlag false) (acknackContent c) := by
  have hbase := c.readerState.base_valid
  have hbits := c.readerState.bits_le
  have hsize : 20 + 4 + (24 + c.readerState.wordCount * 4) = 48 + c.readerState.wordCount * 4 := by
    omega
  unfold buildAcknack controlMessage
  rw [if_neg (by simp [hbase]), if_neg (by omega), acknackContent_length]
  simp only [hsize]
  cases hb : beginMessage null capacity c.header (48 + c.readerState.wordCount * 4) with
  | error e =>
    have hno : ¬ Begins null capacity c.header (48 + c.readerState.wordCount * 4) := by
      intro hbegin
      have hok := beginMessage_ok_iff.2 ⟨hbegin, rfl⟩
      rw [hb] at hok
      cases hok
    simp [hno]
  | ok bytes =>
    obtain ⟨hbegin, rfl⟩ := beginMessage_ok_iff.1 hb
    simp only [hbegin, true_and, Except.ok.injEq]
    exact eq_comm

theorem controlFlags_spec {order : ByteOrder} (ho : order = .bigEndian ∨ order = .littleEndian)
    (final liveliness : Bool) :
    (if controlFlags order final liveliness &&& 0x01 ≠ 0 then ByteOrder.littleEndian
        else .bigEndian) = order ∧
      controlFlags order final liveliness &&& 0x08 = 0 ∧
      controlFlags order final liveliness &&& ~~~(0x01 ||| 0x02 ||| 0x04) = 0 ∧
      controlFlags order final false &&& ~~~(0x01 ||| 0x02) = 0 ∧
      (controlFlags order final liveliness &&& 0x02 != 0) = final ∧
      (controlFlags order final liveliness &&& 0x04 != 0) = liveliness := by
  rcases ho with rfl | rfl <;> cases final <;> cases liveliness <;> decide

theorem parsePrefix_control {header : ReliabilityMessageHeader} {id flags : UInt8}
    {content : List UInt8} (hv : supportedVersion header.version = true)
    (horder : (if flags &&& 0x01 ≠ 0 then ByteOrder.littleEndian else .bigEndian) =
      header.submessageByteOrder)
    (hinfo : (⟨id, flags, content, 20⟩ : Submessage).isInfo = false) (hpos : 0 < content.length)
    (hfit : content.length < 2 ^ 16) :
    parsePrefix (.bytes (controlMessage header id flags content)) id =
      .ok { header, byteOrder := header.submessageByteOrder, flags, content } := by
  have hfind := findSubmessage_single (rtpsHeader_length header) (validHeader_bytes _ _ _ hv) horder
    hinfo hpos hfit
  have hcontext : headerContext (rtpsHeader header) = _ := headerContext_bytes _ _ _
  unfold parsePrefix controlMessage
  rw [hfind, hcontext]
  rfl

end Build

section Parse

variable {x rest : List UInt8} {order : ByteOrder}

theorem readSequenceNumber_at {m : List UInt8} {i n : ℕ} {allowZero : Bool}
    (h : At m i (sequenceNumberBytes order n)) (hn : n ≤ int64Max) (hz : allowZero = true ∨ n ≠ 0) :
    readSequenceNumber m i order allowZero = some n := by
  have hmax : n < 2 ^ 63 := lt_of_le_of_lt hn (by decide)
  obtain ⟨hhighAt, hlowAt⟩ := At.split h (storeInt_length _ 4 _)
  have hhigh : readAt m i 4 order = n >>> 32 := hhighAt.readAt (by omega)
  have hlow : readAt m (i + 4) 4 order = n &&& 0xFFFFFFFF :=
    hlowAt.readAt (lt_of_le_of_lt Nat.and_le_right (by decide))
  have hcheck : ¬ ((!allowZero && n == 0) || decide (n > int64Max)) = true := by
    rcases hz with rfl | hz
    · simpa using hn
    · simp [hz, hn]
  unfold readSequenceNumber
  simp only [hhigh, hlow, joinWords]
  rw [if_neg (by omega), if_neg hcheck]

theorem readBits_at {m : List UInt8} {i : ℕ} {v : BitVec 32}
    (h : At m i (storeInt (order == .littleEndian) 4 v.toNat)) :
    BitVec.ofNat 32 (readAt m i 4 order) = v := by
  rw [h.readAt v.isLt]
  exact BitVec.ofNat_toNat 32 v

/-- **A built HEARTBEAT is parsed to its record.** -/
theorem parseHeartbeat_build {null : Bool} {capacity : ℕ} {c : Heartbeat} {m : List UInt8}
    (h : buildHeartbeat null capacity c = .ok m) : parseHeartbeatMessage (.bytes m) = .ok c := by
  obtain ⟨⟨h1, h2, h3, h4⟩, hbegin, rfl⟩ := buildHeartbeat_ok_iff.1 h
  obtain ⟨horder, hgroup, hallowed, -, hfinal, hliveliness⟩ :=
    controlFlags_spec hbegin.order c.finalFlag c.livelinessFlag
  have hlen := heartbeatContent_length c
  have hparsed := @parsePrefix_control c.header submessageIdHeartbeat _ (heartbeatContent c)
    hbegin.version horder rfl (by omega) (by omega)
  obtain ⟨hreaderAt, hat⟩ := (At.refl (heartbeatContent c)).split Vector.length_toList
  obtain ⟨hwriterAt, hat⟩ := hat.split Vector.length_toList
  obtain ⟨hfirstAt, hat⟩ := hat.split (sequenceNumberBytes_length _ _)
  obtain ⟨hlastAt, hcountAt⟩ := hat.split (sequenceNumberBytes_length _ _)
  have hreader : copyAt (heartbeatContent c) 0 4 = c.readerId := hreaderAt.copyAt
  have hwriter : copyAt (heartbeatContent c) 4 4 = c.writerId := hwriterAt.copyAt
  have hfirst : readSequenceNumber (heartbeatContent c) 8 c.header.submessageByteOrder false =
      some c.firstSequenceNumber := readSequenceNumber_at hfirstAt h2 (.inr (by omega))
  have hlast : readSequenceNumber (heartbeatContent c) 16 c.header.submessageByteOrder true =
      some c.lastSequenceNumber := readSequenceNumber_at hlastAt h3 (.inl rfl)
  have hcount : BitVec.ofNat 32 (readAt (heartbeatContent c) 24 4 c.header.submessageByteOrder) =
      c.count := readBits_at hcountAt
  unfold parseHeartbeatMessage
  rw [hparsed]
  simp only [hreader, hwriter, hfirst, hlast, hcount, hfinal, hliveliness, hgroup, hallowed, hlen]
  rw [if_neg (by simp), if_neg (by simp), if_neg (by simp), if_neg (by omega)]

/-- What the parser reads from the content of a built ACKNACK. -/
structure AcknackFields (c : AckNack) (content : List UInt8) (order : ByteOrder) : Prop where
  reader : copyAt content 0 4 = c.readerId
  writer : copyAt content 4 4 = c.writerId
  base : readSequenceNumber content 8 order false = some c.readerState.bitmapBase
  bits : readAt content 16 4 order = c.readerState.numBits
  word : ∀ i, i < c.readerState.wordCount →
    BitVec.ofNat 32 (readAt content (20 + i * 4) 4 order) = c.readerState.word i
  count : BitVec.ofNat 32 (readAt content (20 + c.readerState.wordCount * 4) 4 order) = c.count

theorem SequenceNumberSet.base_range (s : SequenceNumberSet) :
    1 ≤ s.bitmapBase ∧ s.bitmapBase ≤ int64Max := by
  have hvalid := s.base_valid
  simp only [validSequenceNumber, Bool.and_eq_true, bne_iff_ne, decide_eq_true_eq] at hvalid
  omega

theorem acknackContent_fields (c : AckNack) :
    AcknackFields c (acknackContent c) c.header.submessageByteOrder := by
  have hbits := c.readerState.bits_le
  have hbase := c.readerState.base_range
  obtain ⟨hreaderAt, hat⟩ := (At.refl (acknackContent c)).split Vector.length_toList
  obtain ⟨hwriterAt, hat⟩ := hat.split Vector.length_toList
  obtain ⟨hbaseAt, hat⟩ := hat.split (sequenceNumberBytes_length _ _)
  obtain ⟨hbitsAt, hat⟩ := hat.split (storeInt_length _ 4 _)
  obtain ⟨hwordsAt, hcountAt⟩ := hat.split (wordBytes_length _ _)
  refine ⟨hreaderAt.copyAt, hwriterAt.copyAt, readSequenceNumber_at hbaseAt hbase.2 (.inr (by omega)),
    hbitsAt.readAt (by omega), fun i hi => ?_, readBits_at hcountAt⟩
  have hword := hwordsAt.flatMap (k := i) (by rwa [List.length_range])
  rw [List.take_range, Nat.min_eq_left hi.le, flatMap_range_length fun _ => storeInt_length _ _ _,
    List.getElem_range] at hword
  exact readBits_at hword

/-- The parser resets and fills a set like the one that was built. -/
theorem AcknackFields.readerState {c : AckNack} {content : List UInt8} {o : ByteOrder}
    (h : AcknackFields c content o) :
    let fresh := SequenceNumberSet.empty.reset c.readerState.bitmapBase c.readerState.numBits
    fresh.1 = true ∧ parseWords content o c.readerState.numBits c.readerState.wordCount fresh.2 =
      c.readerState := by
  have hbase := c.readerState.base_range
  have hlast := c.readerState.last_valid
  obtain ⟨hok, hb, hn, hz⟩ := SequenceNumberSet.reset_ok .empty c.readerState.bitmapBase
    c.readerState.numBits hbase.1 hbase.2 c.readerState.bits_le (by omega)
  refine ⟨hok, ?_⟩
  have hwords : (c.readerState.numBits + 31) / 32 = c.readerState.wordCount := rfl
  have hspec := fun j => @parseWords_test _ _ _ j content o hn hb hz
  rw [hwords] at hspec
  obtain ⟨hsbase, hsbits, -⟩ := hspec 0
  refine SequenceNumberSet.ext_test hsbase hsbits fun k hk => ?_
  rw [hsbits] at hk
  have hkword : k / 32 < c.readerState.wordCount := by
    rw [← hwords]
    omega
  rw [(hspec k).2.2 hk, h.word _ hkword, SequenceNumberSet.word, if_pos hkword,
    SequenceNumberSet.test, if_neg (by omega)]
  rfl

/-- **A built ACKNACK is parsed to its record**, its set included. -/
theorem parseAcknack_build {null : Bool} {capacity : ℕ} {c : AckNack} {m : List UInt8}
    (h : buildAcknack null capacity c = .ok m) : parseAcknackMessage (.bytes m) = .ok c := by
  obtain ⟨hbegin, rfl⟩ := buildAcknack_ok_iff.1 h
  obtain ⟨horder, -, -, hallowed, hfinal, -⟩ := controlFlags_spec hbegin.order c.finalFlag false
  have hlen := acknackContent_length c
  have hbits := c.readerState.bits_le
  have hwords : (c.readerState.numBits + 31) / 32 = c.readerState.wordCount := rfl
  have hparsed := @parsePrefix_control c.header submessageIdAcknack _ (acknackContent c)
    hbegin.version horder rfl (by omega) (by omega)
  have hfields := acknackContent_fields c
  obtain ⟨hok, hset⟩ := hfields.readerState
  unfold parseAcknackMessage
  rw [hparsed]
  simp only [hfields.reader, hfields.writer, hfields.base, hfields.bits, hwords, hlen, hfinal,
    hallowed, hfields.count, hok, hset]
  rw [if_neg (by simp), if_neg (by omega), if_neg (by omega), if_neg (by simp), if_neg (by simp)]

end Parse

section Canonical

/-- **What an accepted ACKNACK is made of.** -/
structure AcknackAccepted (routed : RoutedSubmessageView) (view : AckNack) : Prop where
  flags : routed.flags &&& ~~~(0x01 ||| 0x02) = 0
  header : view.header = ⟨routed.context.version, routed.context.vendorId, routed.context.source,
    routed.byteOrder⟩
  reader : view.readerId = copyAt routed.content 0 4
  writer : view.writerId = copyAt routed.content 4 4
  base : readSequenceNumber routed.content 8 routed.byteOrder false =
    some view.readerState.bitmapBase
  bits : readAt routed.content 16 4 routed.byteOrder = view.readerState.numBits
  size : routed.content.length = 24 + view.readerState.wordCount * 4
  test : ∀ k, k < view.readerState.numBits → view.readerState.test k =
    (BitVec.ofNat 32 (readAt routed.content (20 + k / 32 * 4) 4 routed.byteOrder) &&&
      Bitmap.mask k != 0)
  count : view.count = BitVec.ofNat 32
    (readAt routed.content (20 + view.readerState.wordCount * 4) 4 routed.byteOrder)
  final : view.finalFlag = (routed.flags &&& 0x02 != 0)

theorem parseAcknack_ok {message : Span} {view : AckNack}
    (h : parseAcknackMessage message = .ok view) :
    ∃ routed, findSubmessage message submessageIdAcknack 0 = .ok routed ∧
      AcknackAccepted routed view := by
  unfold parseAcknackMessage parsePrefix at h
  split_ifs at h with hnull
  cases hfind : findSubmessage message submessageIdAcknack 0 with
  | error e =>
    rw [hfind] at h
    cases h
  | ok routed =>
    rw [hfind] at h
    simp only at h
    cases hbase : readSequenceNumber routed.content 8 routed.byteOrder false with
    | none =>
      rw [hbase] at h
      split_ifs at h
    | some base =>
      rw [hbase] at h
      simp only at h
      split_ifs at h with hflags hshort hbits hsize hreset
      cases h
      set n := readAt routed.content 16 4 routed.byteOrder with hn
      -- an accepted reset leaves a clear set of the size that was asked for
      obtain ⟨hrb, hrn, hrz⟩ : (SequenceNumberSet.empty.reset base n).2.bitmapBase = base ∧
          (SequenceNumberSet.empty.reset base n).2.numBits = n ∧
          (SequenceNumberSet.empty.reset base n).2.bitmap = fun _ => 0 := by
        revert hreset
        unfold SequenceNumberSet.reset
        split_ifs
        · simp
        · simp
        · exact fun _ => ⟨rfl, rfl, rfl⟩
      have hspec := fun j => @parseWords_test _ n base j routed.content routed.byteOrder hrn hrb hrz
      have hword : (parseWords routed.content routed.byteOrder n ((n + 31) / 32)
          (SequenceNumberSet.empty.reset base n).2).wordCount = (n + 31) / 32 := by
        rw [SequenceNumberSet.wordCount, (hspec 0).2.1]
      refine ⟨routed, rfl, by simpa using hflags, rfl, rfl, rfl, ?_, (hspec 0).2.1.symm, ?_, ?_, ?_,
        rfl⟩
      · rw [hbase, (hspec 0).1]
      · rw [hword]
        simpa using hsize
      · intro k hk
        exact (hspec k).2.2 (lt_of_lt_of_eq hk (hspec 0).2.1)
      · rw [hword]

theorem controlFlags_of_allowed {flags : UInt8} (h : flags &&& ~~~(0x01 ||| 0x02) = 0) :
    controlFlags (if flags &&& 0x01 ≠ 0 then .littleEndian else .bigEndian) (flags &&& 0x02 != 0)
      false = flags := by
  have hall : ∀ n < 256, UInt8.ofNat n &&& ~~~(0x01 ||| 0x02) = 0 →
      controlFlags (if UInt8.ofNat n &&& 0x01 ≠ 0 then .littleEndian else .bigEndian)
        (UInt8.ofNat n &&& 0x02 != 0) false = UInt8.ofNat n := by
    decide +kernel
  have hflags := hall flags.toNat flags.toNat_lt
  rw [UInt8.ofNat_toNat] at hflags
  exact hflags h

namespace AcknackAccepted

variable {routed : RoutedSubmessageView} {view : AckNack}

theorem word (h : AcknackAccepted routed view) {i : ℕ} (hi : i < view.readerState.wordCount) :
    view.readerState.word i = canonicalWord view.readerState.numBits i
      (BitVec.ofNat 32 (readAt routed.content (20 + i * 4) 4 routed.byteOrder)) := by
  apply BitVec.eq_of_getLsbD_eq
  intro b hb
  have hdiv : (i * 32 + (31 - b)) / 32 = i := by omega
  rw [word_getLsbD _ hi hb, canonicalWord, BitVec.getLsbD_and, BitVec.getLsbD_shiftLeft]
  by_cases hk : i * 32 + (31 - b) < view.readerState.numBits
  · have hkeep : ¬ b < 32 * (i + 1) - view.readerState.numBits := by omega
    have hone : (BitVec.allOnes 32).getLsbD (b - (32 * (i + 1) - view.readerState.numBits)) = true := by
      rw [BitVec.getLsbD_allOnes, decide_eq_true_eq]
      omega
    rw [h.test _ hk, hdiv, mask_getLsbD _ hb, hone]
    simp [hb, hkeep]
  · have hclear : b < 32 * (i + 1) - view.readerState.numBits := by omega
    rw [SequenceNumberSet.test, if_pos (by omega)]
    simp [hclear]

theorem base_bytes (h : AcknackAccepted routed view) :
    sequenceNumberBytes routed.byteOrder view.readerState.bitmapBase =
      (routed.content.drop 8).take 4 ++ (routed.content.drop 12).take 4 := by
  have hsize := h.size
  have hbase := h.base
  unfold readSequenceNumber at hbase
  simp only at hbase
  split_ifs at hbase
  have hwords := @splitWords (readAt routed.content 8 4 routed.byteOrder)
    (readAt routed.content (8 + 4) 4 routed.byteOrder) (readAt_lt _ _ _ _)
  rw [← Option.some.inj hbase, sequenceNumberBytes, hwords.1, hwords.2,
    storeInt_readAt _ (by omega), storeInt_readAt _ (by omega)]

/-- **The view is built again in canonical form.** -/
theorem content (h : AcknackAccepted routed view) :
    acknackContent view = canonicalContent routed.byteOrder routed.content := by
  have hsize := h.size
  have horder : view.header.submessageByteOrder = routed.byteOrder := by rw [h.header]
  have hcount : view.count.toNat = readAt routed.content (20 + view.readerState.wordCount * 4) 4
      routed.byteOrder := by
    rw [h.count, BitVec.toNat_ofNat]
    exact Nat.mod_eq_of_lt (readAt_lt _ _ _ _)
  have hwords : wordBytes routed.byteOrder view.readerState =
      (List.range view.readerState.wordCount).flatMap fun i =>
        storeInt (routed.byteOrder == .littleEndian) 4 (canonicalWord view.readerState.numBits i
          (BitVec.ofNat 32 (readAt routed.content (20 + i * 4) 4 routed.byteOrder))).toNat := by
    unfold wordBytes
    apply List.flatMap_congr
    intro i hi
    rw [h.word (List.mem_range.1 hi)]
  -- the fields before the bitmap are consecutive slices of the datagram
  have hfixed : routed.content.take 20 = routed.content.take 4 ++ ((routed.content.drop 4).take 4 ++
      (((routed.content.drop 8).take 4 ++ (routed.content.drop 12).take 4) ++
        (routed.content.drop 16).take 4)) := by
    rw [show (20 : ℕ) = 4 + (4 + (4 + (4 + 4))) from rfl]
    simp only [List.take_add, List.drop_drop, List.append_assoc]
  have hrest : (routed.content.drop (20 + view.readerState.wordCount * 4)).take 4 =
      routed.content.drop (20 + view.readerState.wordCount * 4) :=
    List.take_of_length_le (by rw [List.length_drop]; omega)
  have hnum : view.readerState.numBits = readAt routed.content 16 4 routed.byteOrder := h.bits.symm
  unfold acknackContent
  simp only [horder, h.reader, h.writer, h.base_bytes, hcount, hwords]
  rw [copyAt_slice (by omega), copyAt_slice (by omega), storeInt_readAt _ (by omega), hrest]
  unfold canonicalContent
  simp only [h.bits]
  rw [hfixed]
  nth_rewrite 1 [hnum]
  rw [storeInt_readAt _ (by omega)]
  simp only [List.append_assoc, List.drop_zero]
  rfl

end AcknackAccepted

end Canonical

/-- **Control messages make a round trip.** What `build_heartbeat` or `build_acknack` writes is parsed
to the record it was built from: the header, the ids, the numbers, the count, the flags and, for an
ACKNACK, the whole set. Every ACKNACK that is accepted, with whatever bits behind the last one of its
bitmap, has a set without those bits and is built again in canonical form. -/
theorem reliability_messages_round_trip :
    (∀ (null : Bool) (capacity : ℕ) (c : Heartbeat) (m : List UInt8),
      buildHeartbeat null capacity c = .ok m → parseHeartbeatMessage (.bytes m) = .ok c) ∧
    (∀ (null : Bool) (capacity : ℕ) (c : AckNack) (m : List UInt8),
      buildAcknack null capacity c = .ok m → parseAcknackMessage (.bytes m) = .ok c) ∧
    ∀ (message : Span) (view : AckNack), parseAcknackMessage message = .ok view →
      (∀ k, view.readerState.numBits ≤ k → view.readerState.test k = false) ∧
      ∃ routed, findSubmessage message submessageIdAcknack 0 = .ok routed ∧
        ∀ capacity, 24 + routed.content.length ≤ capacity →
          buildAcknack false capacity view = .ok
            (controlMessage view.header submessageIdAcknack routed.flags
              (canonicalContent routed.byteOrder routed.content)) := by
  refine ⟨fun _ _ _ _ => parseHeartbeat_build, fun _ _ _ _ => parseAcknack_build, ?_⟩
  intro message view hparse
  obtain ⟨routed, hfind, hview⟩ := parseAcknack_ok hparse
  obtain ⟨-, hversion, horder⟩ := findSubmessage_view hfind
  have hsize := hview.size
  refine ⟨fun k hk => if_pos hk, routed, hfind, fun capacity hfit => ?_⟩
  have hflags : controlFlags view.header.submessageByteOrder view.finalFlag false = routed.flags := by
    rw [hview.header, hview.final]
    exact horder ▸ controlFlags_of_allowed hview.flags
  have hbegin : Begins false capacity view.header (48 + view.readerState.wordCount * 4) := by
    refine ⟨fun h => absurd h (by decide), ?_, ?_, by omega⟩
    · rw [hview.header]
      exact hversion
    · rw [hview.header]
      simp only [horder]
      split
      · exact .inr rfl
      · exact .inl rfl
  rw [buildAcknack_ok_iff, hflags, hview.content]
  exact ⟨hbegin, rfl⟩

/-- An ACKNACK of one bit with all the bits of its word set. -/
def strayAcknack : List UInt8 :=
  controlMessage {} submessageIdAcknack 0x01
    (List.replicate 8 0 ++ (sequenceNumberBytes .littleEndian 1 ++
      (storeInt true 4 1 ++ ([0xFF, 0xFF, 0xFF, 0xFF] ++ storeInt true 4 1))))

theorem strayAcknack_round_trip :
    (∃ m, buildHeartbeat false 52 {} = .ok m ∧ parseHeartbeatMessage (.bytes m) = .ok {}) ∧
    ∃ view, parseAcknackMessage (.bytes strayAcknack) = .ok view ∧ view.readerState.test 1 = false ∧
      ∃ m, buildAcknack false 52 view = .ok m ∧ parseAcknackMessage (.bytes m) = .ok view := by
  obtain ⟨hheartbeat, hacknack, hstray⟩ := reliability_messages_round_trip
  refine ⟨⟨_, rfl, hheartbeat false 52 {} _ rfl⟩, ?_⟩
  have hok : (parseAcknackMessage (.bytes strayAcknack)).toOption.map (·.readerState.numBits) =
      some 1 := by
    decide +kernel
  have hlen : (findSubmessage (.bytes strayAcknack) submessageIdAcknack 0).toOption.map
      (·.content.length) = some 28 := by
    decide +kernel
  cases hview : parseAcknackMessage (.bytes strayAcknack) with
  | error e =>
    rw [hview] at hok
    cases hok
  | ok view =>
    obtain ⟨htest, routed, hrouted, hbuild⟩ := hstray _ view hview
    rw [hview] at hok
    rw [hrouted] at hlen
    have hbits : view.readerState.numBits = 1 := Option.some.inj hok
    have hbytes : routed.content.length = 28 := Option.some.inj hlen
    have hbuilt := hbuild 52 (by omega)
    exact ⟨view, rfl, htest 1 hbits.le, _, hbuilt, hacknack false 52 view _ hbuilt⟩

end OpenRtdds
