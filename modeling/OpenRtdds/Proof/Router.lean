import OpenRtdds.Proof.Layout

/-!
# The router is its reference

`find_submessage` splits, folds and remembers in one loop; the reference splits first and folds then.
The loop is followed by induction on the bytes that remain: one iteration is one submessage of the
split (`routeStep_ok_iff`), and the state it leaves is the fold of what it has seen.

* `applyInfo_ok_iff`: what `apply_info` accepts and does.
* `routeLoop_ok_iff`: the loop succeeds exactly if the rest of the message splits.
* `findSubmessage_ok_iff`: the view of the router is the occurrence of the reference.
* `findSubmessage_single`: a message with one submessage.
* `router_equals_reference`: the resulting statement about the router.
-/

namespace OpenRtdds

open Lib

namespace Submessage

/-- `apply_info` accepts the well-formed submessages and has their effect. -/
theorem applyInfo_ok_iff (s : Submessage) (c c' : RouteContext) :
    applyInfo s.id s.flags s.order s.content c = .ok c' ↔ s.WellFormed ∧ c' = effect c s := by
  have hne : submessageIdInfoSource ≠ submessageIdInfoDestination ∧
      submessageIdInfoTimestamp ≠ submessageIdInfoDestination ∧
      submessageIdInfoTimestamp ≠ submessageIdInfoSource := by decide
  unfold applyInfo effect
  by_cases hd : s.id = submessageIdInfoDestination
  · rw [if_pos hd, if_pos hd]
    have hwf : s.WellFormed ↔ s.content.length = 12 := by
      refine ⟨fun h => h.destination hd, fun h => ⟨fun _ => h, fun he => ?_, fun he => ?_⟩⟩
      · exact absurd (he.symm.trans hd) hne.1
      · exact absurd (he.symm.trans hd) hne.2.1
    rw [hwf]
    by_cases hl : s.content.length = 12
    · simp [hl, eq_comm]
    · simp [hl]
  rw [if_neg hd, if_neg hd]
  by_cases hs : s.id = submessageIdInfoSource
  · rw [if_pos hs, if_pos hs]
    have hwf : s.WellFormed ↔ s.content.length = 20 ∧
        supportedVersion ⟨byteAt s.content 4, byteAt s.content 5⟩ = true := by
      refine ⟨fun h => h.source hs, fun h => ⟨fun he => absurd he hd, fun _ => h, fun he => ?_⟩⟩
      exact absurd (he.symm.trans hs) hne.2.2
    rw [hwf]
    by_cases hl : s.content.length = 20
    · cases hv : supportedVersion ⟨byteAt s.content 4, byteAt s.content 5⟩ <;> simp [hl, hv, eq_comm]
    · simp [hl]
  rw [if_neg hs, if_neg hs]
  by_cases ht : s.id = submessageIdInfoTimestamp
  · rw [if_pos ht, if_pos ht]
    have hwf : s.WellFormed ↔ s.content.length = if s.flags &&& 0x02 ≠ 0 then 0 else 8 :=
      ⟨fun h => h.timestamp ht, fun h => ⟨fun he => absurd he hd, fun he => absurd he hs, fun _ => h⟩⟩
    rw [hwf]
    by_cases hf : s.flags &&& 0x02 ≠ 0
    · rw [if_pos hf, if_pos hf, if_pos hf]
      by_cases hl : s.content.length = 0
      · simp [hl, eq_comm]
      · simp [hl]
    · rw [if_neg hf, if_neg hf, if_neg hf]
      by_cases hl : s.content.length = 8
      · simp [hl, eq_comm]
      · simp [hl]
  · rw [if_neg ht, if_neg ht]
    have hwf : s.WellFormed :=
      ⟨fun he => absurd he hd, fun he => absurd he hs, fun he => absurd he ht⟩
    simp [hwf, eq_comm]

theorem applyInfo_cases (id flags : UInt8) (content : List UInt8) (offset : ℕ) (c : RouteContext) :
    let s : Submessage := ⟨id, flags, content, offset⟩
    let order : ByteOrder := if flags &&& 0x01 ≠ 0 then .littleEndian else .bigEndian
    (∃ e, applyInfo id flags order content c = .error e ∧ ¬ s.WellFormed) ∨
      (applyInfo id flags order content c = .ok (effect c s) ∧ s.WellFormed) := by
  intro s order
  have hiff := applyInfo_ok_iff s c
  cases happ : applyInfo id flags order content c with
  | error e =>
    refine .inl ⟨e, rfl, fun hwf => ?_⟩
    have hok : applyInfo id flags order content c = .ok (effect c s) := (hiff _).2 ⟨hwf, rfl⟩
    rw [happ] at hok
    cases hok
  | ok c' =>
    obtain ⟨hwf, rfl⟩ := (hiff c').1 happ
    exact .inr ⟨rfl, hwf⟩

theorem effect_of_not_info {s : Submessage} (h : s.isInfo = false) (c : RouteContext) :
    effect c s = c := by
  simp only [isInfo, Bool.or_eq_false_iff, beq_eq_false_iff_ne] at h
  unfold effect
  rw [if_neg h.1.1, if_neg h.1.2, if_neg h.2]

theorem declared_eq (flags l0 l1 : UInt8) (byte : ℕ → UInt8) (h0 : byte 0 = l0) (h1 : byte 1 = l1) :
    loadInt ((if flags &&& 0x01 ≠ 0 then ByteOrder.littleEndian else .bigEndian) == .littleEndian) 2
      byte = declared flags l0 l1 := by
  have hor : ∀ a b : UInt8, a.toNat ||| b.toNat <<< 8 = a.toNat + 256 * b.toNat := by
    intro a b
    have ha : a.toNat < 2 ^ 8 := a.toNat_lt
    rw [Nat.or_comm, ← Nat.shiftLeft_add_eq_or_of_lt ha, Nat.shiftLeft_eq]
    omega
  unfold declared
  split
  · have hload : loadInt true 2 byte = l0.toNat ||| l1.toNat <<< 8 := by
      simp [loadInt, List.range_succ, shiftIndex, h0, h1]
    exact hload.trans (hor l0 l1)
  · have hload : loadInt false 2 byte = l0.toNat <<< 8 ||| l1.toNat := by
      simp [loadInt, List.range_succ, shiftIndex, h0, h1]
    exact hload.trans ((Nat.or_comm _ _).trans ((hor l1 l0).trans (Nat.add_comm _ _)))

end Submessage

open Submessage

theorem contextAfter_eq (c : RouteContext) (subs : List Submessage) :
    contextAfter c subs = subs.foldl effect c := by
  unfold contextAfter
  rw [List.foldl_filter]
  congr 1
  funext c s
  cases h : s.isInfo with
  | true => rfl
  | false => simp [effect_of_not_info h]

/-- One iteration of the loop, on a submessage. -/
def seen (wantedId : UInt8) (wantedOccurrence : ℕ) (s : RouteState) (x : Submessage) : RouteState where
  context := effect s.context x
  candidate := if x.id = wantedId ∧ s.occurrence = wantedOccurrence then some (x.view s.context)
    else s.candidate
  occurrence := if x.id = wantedId then s.occurrence + 1 else s.occurrence
  offset := x.offset + 4 + x.content.length

section Loop

variable {m : List UInt8} {w : UInt8} {k : ℕ}

theorem byteAt_of_drop {i : ℕ} {a : UInt8} {l : List UInt8} (h : m.drop i = a :: l) :
    byteAt m i = a ∧ m.drop (i + 1) = l := by
  refine ⟨?_, ?_⟩
  · have hget : (m.drop i)[0]? = some a := by rw [h]; rfl
    rw [List.getElem?_drop, Nat.add_zero] at hget
    simp [byteAt, List.getD, hget]
  · rw [← List.tail_drop, h]
    rfl

/-- The submessage an iteration takes from the bytes behind its header. -/
def Cut (id : UInt8) (length : ℕ) (tail content : List UInt8) : Bool → Prop
  | true => toEnd id length ∧ content = tail
  | false => ¬ toEnd id length ∧ length ≤ tail.length ∧ content = tail.take length

/-- **One iteration** is one submessage, which is well formed. -/
theorem routeStep_ok_iff {s s' : RouteState} {ext : Bool} {id flags l0 l1 : UInt8}
    {tail : List UInt8} (h : m.drop s.offset = id :: flags :: l0 :: l1 :: tail) :
    routeStep m w k s = .ok (s', ext) ↔
      ∃ content, Cut id (declared flags l0 l1) tail content ext ∧
        (⟨id, flags, content, s.offset⟩ : Submessage).WellFormed ∧
        s' = seen w k s ⟨id, flags, content, s.offset⟩ := by
  obtain ⟨hid, h1⟩ := byteAt_of_drop h
  obtain ⟨hflags, h2⟩ := byteAt_of_drop h1
  obtain ⟨hl0, h3⟩ := byteAt_of_drop h2
  obtain ⟨hl1, h4⟩ := byteAt_of_drop h3
  have hlen : m.length - s.offset = tail.length + 4 := by
    rw [← List.length_drop, h]
    simp
  have hread : readAt m (s.offset + 2) 2
      (if flags &&& 0x01 ≠ 0 then ByteOrder.littleEndian else .bigEndian) = declared flags l0 l1 :=
    declared_eq flags l0 l1 _ hl0 hl1
  have hdrop : m.drop (s.offset + 4) = tail := h4
  have havail : m.length - (s.offset + 4) = tail.length := by omega
  have hend : (decide (declared flags l0 l1 = 0) &&
      !(id == submessageIdPad || id == submessageIdInfoTimestamp)) = true ↔
      toEnd id (declared flags l0 l1) := by
    simp [toEnd]
  unfold routeStep
  rw [if_neg (by omega)]
  simp only [hid, hflags, hread, hdrop, havail]
  by_cases hto : toEnd id (declared flags l0 l1)
  · rw [if_pos (hend.2 hto), if_neg (lt_irrefl _), List.take_length]
    simp only [hend.2 hto]
    rcases applyInfo_cases id flags tail s.offset s.context with ⟨e, he, hwf⟩ | ⟨he, hwf⟩
    · rw [he]
      cases ext <;> simp [Cut, hto, hwf]
    · rw [he]
      cases ext with
      | false => simp [Cut, hto]
      | true => simp [Cut, hto, hwf, seen, Submessage.view, Submessage.order, eq_comm]
  · have hend' := mt hend.1 hto
    rw [if_neg hend']
    simp only [Bool.not_eq_true] at hend'
    simp only [hend']
    by_cases hfit : declared flags l0 l1 ≤ tail.length
    · rw [if_neg (by omega)]
      rcases applyInfo_cases id flags (tail.take (declared flags l0 l1)) s.offset s.context with
        ⟨e, he, hwf⟩ | ⟨he, hwf⟩
      · rw [he]
        cases ext <;> simp [Cut, hto, hwf]
      · rw [he]
        cases ext with
        | true => simp [Cut, hto]
        | false => simp [Cut, hto, hfit, hwf, seen, Submessage.view, Submessage.order, eq_comm]
    · rw [if_pos (by omega)]
      cases ext <;> simp [Cut, hto, hfit]

theorem splits_header_iff {offset : ℕ} {id flags l0 l1 : UInt8} {tail : List UInt8}
    {subs : List Submessage} :
    Splits offset (id :: flags :: l0 :: l1 :: tail) subs ↔
      ∃ content ext subs', Cut id (declared flags l0 l1) tail content ext ∧
        subs = ⟨id, flags, content, offset⟩ :: subs' ∧
        if ext = true then subs' = []
        else Splits (offset + 4 + content.length) (tail.drop content.length) subs' := by
  constructor
  · intro h
    generalize hl : id :: flags :: l0 :: l1 :: tail = bytes at h
    cases h with
    | done => cases hl
    | @next _ _ _ _ _ content rest subs' hlen hin htail =>
      cases hl
      refine ⟨content, false, subs', ⟨hlen ▸ hin, ?_, ?_⟩, rfl, ?_⟩
      · rw [hlen, List.length_append]
        omega
      · rw [hlen, List.take_left]
      · rw [if_neg (by decide), List.drop_left]
        exact htail
    | last hzero =>
      cases hl
      exact ⟨tail, true, [], ⟨hzero, rfl⟩, rfl, rfl⟩
  · rintro ⟨content, ext, subs', hcut, rfl, htail⟩
    cases ext with
    | true =>
      obtain ⟨hto, rfl⟩ := hcut
      rw [if_pos rfl] at htail
      rw [htail]
      exact .last hto
    | false =>
      obtain ⟨hto, hfit, rfl⟩ := hcut
      have hlen : (tail.take (declared flags l0 l1)).length = declared flags l0 l1 := by
        rw [List.length_take, min_eq_left hfit]
      rw [if_neg (by decide)] at htail
      have hsplit := List.take_append_drop (declared flags l0 l1) tail
      rw [hlen] at htail
      have hnext := @Splits.next offset id flags l0 l1 _ _ _ hlen.symm (by rw [hlen]; exact hto)
        (by rw [hlen]; exact htail)
      rwa [hsplit] at hnext

theorem splits_length {offset : ℕ} {bytes : List UInt8} {subs : List Submessage}
    (h : Splits offset bytes subs) : bytes = [] ∨ 4 ≤ bytes.length := by
  cases h with
  | done => exact .inl rfl
  | next => exact .inr (by simp)
  | last => exact .inr (by simp)

theorem splits_end {offset : ℕ} {bytes : List UInt8} {subs : List Submessage}
    (h : Splits offset bytes subs) : ∀ s : RouteState, s.offset = offset →
      (subs.foldl (seen w k) s).offset = offset + bytes.length := by
  induction h with
  | done => intro s hs; simpa using hs
  | @next _ _ _ _ _ _ _ _ _ _ _ ih =>
    intro s hs
    rw [List.foldl_cons, ih _ rfl]
    simp
    omega
  | last =>
    intro s hs
    simp [seen]
    omega

/-- **The loop succeeds exactly if the rest of the message splits** into well-formed submessages, and
then it has seen all of them. -/
theorem routeLoop_ok_iff : ∀ (fuel : ℕ) (s s' : RouteState), m.length - s.offset ≤ fuel →
    s.offset ≤ m.length →
    (routeLoop m w k fuel s = .ok s' ↔ ∃ subs, Splits s.offset (m.drop s.offset) subs ∧
      (∀ x ∈ subs, x.WellFormed) ∧ s' = subs.foldl (seen w k) s) := by
  intro fuel
  induction fuel with
  | zero =>
    intro s s' hfuel hle
    rw [List.drop_eq_nil_of_le (by omega), routeLoop]
    constructor
    · intro h
      cases h
      exact ⟨[], .done _, by simp, rfl⟩
    · rintro ⟨subs, hsplit, -, rfl⟩
      cases hsplit
      rfl
  | succ fuel ih =>
    intro s s' hfuel hle
    rw [routeLoop]
    by_cases hlt : s.offset < m.length
    swap
    · rw [if_neg hlt, List.drop_eq_nil_of_le (by omega)]
      constructor
      · intro h
        cases h
        exact ⟨[], .done _, by simp, rfl⟩
      · rintro ⟨subs, hsplit, -, rfl⟩
        cases hsplit
        rfl
    rw [if_pos hlt]
    have hlen : (m.drop s.offset).length = m.length - s.offset := List.length_drop
    by_cases hfour : m.length - s.offset < 4
    · -- a partial header
      rw [routeStep, if_pos hfour]
      constructor
      · intro h
        cases h
      · rintro ⟨subs, hsplit, -⟩
        rcases splits_length hsplit with hnil | hge
        · rw [hnil] at hlen
          simp at hlen
          omega
        · omega
    · obtain ⟨id, flags, l0, l1, tail, hdrop⟩ : ∃ id flags l0 l1 tail,
          m.drop s.offset = id :: flags :: l0 :: l1 :: tail := by
        rcases hcase : m.drop s.offset with _ | ⟨a, _ | ⟨b, _ | ⟨c, _ | ⟨d, tail⟩⟩⟩⟩
        iterate 4 · rw [hcase] at hlen; simp at hlen; omega
        exact ⟨a, b, c, d, tail, rfl⟩
      have hstep := fun s1 ext => @routeStep_ok_iff m w k s s1 ext _ _ _ _ _ hdrop
      rw [hdrop, List.length_cons, List.length_cons, List.length_cons, List.length_cons] at hlen
      -- what follows a submessage that does not extend to the end
      have hrest : ∀ content, Cut id (declared flags l0 l1) tail content false →
          m.drop (s.offset + 4 + content.length) = tail.drop content.length ∧
            content.length ≤ tail.length := by
        rintro content ⟨-, hfit, rfl⟩
        refine ⟨?_, by rw [List.length_take, min_eq_left hfit]; exact hfit⟩
        rw [Nat.add_assoc, ← List.drop_drop, hdrop, Nat.add_comm 4]
        rfl
      rw [hdrop]
      constructor
      · intro h
        cases hs : routeStep m w k s with
        | error e => rw [hs] at h; cases h
        | ok r =>
          obtain ⟨s1, ext⟩ := r
          obtain ⟨content, hcut, hwf, rfl⟩ := (hstep s1 ext).1 hs
          rw [hs] at h
          simp only at h
          cases ext with
          | true =>
            rw [if_pos rfl] at h
            cases h
            exact ⟨_, splits_header_iff.2 ⟨content, true, [], hcut, rfl, rfl⟩, by simpa using hwf, rfl⟩
          | false =>
            rw [if_neg (by decide)] at h
            obtain ⟨htail, hlec⟩ := hrest content hcut
            obtain ⟨subs, hsplit, hwfs, rfl⟩ :=
              (ih _ _ (by simp only [seen]; omega) (by simp only [seen]; omega)).1 h
            have hsplit' : Splits (s.offset + 4 + content.length) (tail.drop content.length) subs := by
              rw [← htail]
              exact hsplit
            refine ⟨_, splits_header_iff.2 ⟨content, false, subs, hcut, rfl, hsplit'⟩, ?_, rfl⟩
            intro x hx
            rcases List.mem_cons.1 hx with rfl | hx
            · exact hwf
            · exact hwfs x hx
      · rintro ⟨subs, hsplit, hwfs, rfl⟩
        obtain ⟨content, ext, subs', hcut, rfl, htail⟩ := splits_header_iff.1 hsplit
        rw [(hstep _ ext).2 ⟨content, hcut, hwfs _ List.mem_cons_self, rfl⟩]
        simp only
        cases ext with
        | true =>
          rw [if_pos rfl] at htail ⊢
          rw [htail]
          rfl
        | false =>
          rw [if_neg (by decide)] at htail ⊢
          obtain ⟨hdrop', hlec⟩ := hrest content hcut
          refine (ih _ _ (by simp only [seen]; omega) (by simp only [seen]; omega)).2
            ⟨subs', ?_, fun x hx => hwfs x (List.mem_cons_of_mem _ hx), rfl⟩
          show Splits (s.offset + 4 + content.length) (m.drop (s.offset + 4 + content.length)) subs'
          rw [hdrop']
          exact htail

end Loop

/-- The occurrence that the fold remembers. -/
theorem candidate_iff {w : UInt8} {k : ℕ} {view : RoutedSubmessageView} : ∀ {subs : List Submessage}
    {s : RouteState}, s.candidate = none → s.occurrence ≤ k →
    ((subs.foldl (seen w k) s).candidate = some view ↔ ∃ pre x post, subs = pre ++ x :: post ∧
      x.id = w ∧ s.occurrence + pre.countP (·.id == w) = k ∧
      view = x.view (pre.foldl effect s.context)) := by
  -- once the occurrence has passed, the candidate stays
  have hkeep : ∀ (subs : List Submessage) (s : RouteState), k < s.occurrence →
      (subs.foldl (seen w k) s).candidate = s.candidate := by
    intro subs
    induction subs with
    | nil => intro s _; rfl
    | cons x subs ih =>
      intro s hs
      rw [List.foldl_cons, ih]
      · simp only [seen]
        rw [if_neg (by omega)]
      · simp only [seen]
        split <;> omega
  intro subs
  induction subs with
  | nil =>
    intro s hnone _
    simp [hnone]
  | cons x subs ih =>
    intro s hnone hle
    rw [List.foldl_cons]
    by_cases hx : x.id = w
    · by_cases hk : s.occurrence = k
      · rw [hkeep _ _ (by simp only [seen]; rw [if_pos hx]; omega)]
        simp only [seen]
        rw [if_pos ⟨hx, hk⟩, Option.some.injEq]
        constructor
        · rintro rfl
          exact ⟨[], x, subs, rfl, hx, by simpa using hk, rfl⟩
        · rintro ⟨pre, y, post, heq, hy, hcount, rfl⟩
          cases pre with
          | nil =>
            cases heq
            rfl
          | cons z pre =>
            -- a later occurrence has a larger index
            cases heq
            rw [List.countP_cons_of_pos (by simpa using hx)] at hcount
            omega
      · rw [ih (by simp only [seen]; rw [if_neg (by omega)]; exact hnone)
          (by simp only [seen]; rw [if_pos hx]; omega)]
        simp only [seen, if_pos hx]
        constructor
        · rintro ⟨pre, y, post, rfl, hy, hcount, rfl⟩
          refine ⟨x :: pre, y, post, rfl, hy, ?_, rfl⟩
          rw [List.countP_cons_of_pos (by simpa using hx)]
          omega
        · rintro ⟨pre, y, post, heq, hy, hcount, rfl⟩
          cases pre with
          | nil =>
            simp at hcount
            omega
          | cons z pre =>
            cases heq
            rw [List.countP_cons_of_pos (by simpa using hx)] at hcount
            exact ⟨pre, y, post, rfl, hy, by omega, rfl⟩
    · rw [ih (by simp only [seen]; rw [if_neg (by tauto)]; exact hnone)
        (by simp only [seen]; rw [if_neg hx]; exact hle)]
      simp only [seen, if_neg hx]
      constructor
      · rintro ⟨pre, y, post, rfl, hy, hcount, rfl⟩
        refine ⟨x :: pre, y, post, rfl, hy, ?_, rfl⟩
        rw [List.countP_cons_of_neg (by simpa using hx)]
        exact hcount
      · rintro ⟨pre, y, post, heq, hy, hcount, rfl⟩
        cases pre with
        | nil =>
          cases heq
          exact absurd hy hx
        | cons z pre =>
          cases heq
          rw [List.countP_cons_of_neg (by simpa using hx)] at hcount
          exact ⟨pre, y, post, rfl, hy, hcount, rfl⟩

/-- **The view of the router is the wanted occurrence of the reference.** -/
theorem findSubmessage_ok_iff (message : Span) (w : UInt8) (k : ℕ) (view : RoutedSubmessageView) :
    findSubmessage message w k = .ok view ↔ ValidHeader message.data ∧
      ∃ subs, Splits 20 (message.data.drop 20) subs ∧ (∀ x ∈ subs, x.WellFormed) ∧
        ∃ pre x post, subs = pre ++ x :: post ∧ x.id = w ∧ pre.countP (·.id == w) = k ∧
          view = x.view (contextAfter (headerContext message.data) pre) := by
  set m := message.data with hm
  unfold findSubmessage
  simp only [← hm]
  by_cases hvalid : ValidHeader m
  swap
  · -- an invalid header is refused by one of the first checks
    have hno : ¬ (20 ≤ m.length ∧ m.take 4 = [0x52, 0x54, 0x50, 0x53] ∧
        supportedVersion ⟨byteAt m 4, byteAt m 5⟩ = true) := fun h => hvalid ⟨h.1, h.2.1, h.2.2⟩
    simp only [hvalid, false_and, iff_false]
    split_ifs with h1 h2 h3 h4
    iterate 4 · exact fun h => by cases h
    exact absurd ⟨by omega, by simpa using h3, by simpa using h4⟩ hno
  have hnull : ¬ (message.isNull && message.size != 0) = true := by
    intro h
    cases message with
    | null n =>
      have := hvalid.size
      simp [hm, Span.data] at this
    | bytes d => simp [Span.isNull] at h
  have hsize := hvalid.size
  rw [if_neg hnull, if_neg (by omega), if_neg (by simp [hvalid.magic]), if_neg (by simp [hvalid.version])]
  have hloop := fun s' => routeLoop_ok_iff (m := m) (w := w) (k := k) m.length
    { context := headerContext m } s' (Nat.sub_le _ _) hsize
  have hcand := fun subs => @candidate_iff w k view subs { context := headerContext m } rfl
    (Nat.zero_le k)
  simp only [Nat.zero_add, ← contextAfter_eq] at hcand
  have hctx : ({ version := ⟨byteAt m 4, byteAt m 5⟩, vendorId := copyAt m 6 2
                 source := copyAt m 8 12 } : RouteContext) = headerContext m := rfl
  rw [hctx]
  simp only [hvalid, true_and]
  cases hr : routeLoop m w k m.length { context := headerContext m } with
  | error e =>
    simp only
    refine ⟨fun h => absurd h (by simp), ?_⟩
    rintro ⟨subs, hsplit, hwf, -⟩
    have := (hloop _).2 ⟨subs, hsplit, hwf, rfl⟩
    rw [hr] at this
    cases this
  | ok s' =>
    obtain ⟨subs, hsplit, hwf, rfl⟩ := (hloop s').1 hr
    have hend : (subs.foldl (seen w k) { context := headerContext m }).offset = m.length := by
      rw [splits_end hsplit _ rfl, List.length_drop]
      exact Nat.add_sub_cancel' hsize
    simp only [hend]
    rw [if_neg (by simp)]
    constructor
    · intro h
      refine ⟨subs, hsplit, hwf, (hcand subs).1 ?_⟩
      cases hc : (subs.foldl (seen w k) { context := headerContext m }).candidate with
      | none => rw [hc] at h; cases h
      | some v =>
        rw [hc] at h
        cases h
        rfl
    · rintro ⟨subs', hsplit', hwf', hocc⟩
      -- both splits leave the same state
      have hsame := (hloop _).2 ⟨subs', hsplit', hwf', rfl⟩
      rw [hr, Except.ok.injEq] at hsame
      rw [hsame, (hcand subs').2 hocc]

/-- INFO submessages that are well formed keep the version supported. -/
theorem contextAfter_version {c : RouteContext} {subs : List Submessage}
    (hc : supportedVersion c.version = true) (hwf : ∀ s ∈ subs, s.WellFormed) :
    supportedVersion (contextAfter c subs).version = true := by
  rw [contextAfter_eq]
  induction subs generalizing c with
  | nil => exact hc
  | cons s subs ih =>
    rw [List.foldl_cons]
    refine ih ?_ fun x hx => hwf x (List.mem_cons_of_mem _ hx)
    have hsource := (hwf s List.mem_cons_self).source
    unfold effect
    split_ifs with h1 h2 h3 h4
    · exact hc
    · exact (hsource h2).2
    · exact hc
    · exact hc
    · exact hc

theorem findSubmessage_view {message : Span} {w : UInt8} {k : ℕ} {view : RoutedSubmessageView}
    (h : findSubmessage message w k = .ok view) :
    view.id = w ∧ supportedVersion view.context.version = true ∧
      view.byteOrder = if view.flags &&& 0x01 ≠ 0 then .littleEndian else .bigEndian := by
  obtain ⟨hvalid, subs, -, hwf, pre, x, post, rfl, hx, -, rfl⟩ := (findSubmessage_ok_iff _ _ _ _).1 h
  refine ⟨hx, contextAfter_version hvalid.version fun y hy => hwf y ?_, rfl⟩
  exact List.mem_append_left _ hy

theorem splits_single {content : List UInt8} {id flags : UInt8} {order : ByteOrder}
    (horder : (if flags &&& 0x01 ≠ 0 then ByteOrder.littleEndian else .bigEndian) = order)
    (hpos : 0 < content.length) (hfit : content.length < 2 ^ 16) :
    Splits 20 ([id, flags] ++ (storeInt (order == .littleEndian) 2 content.length ++ content))
      [⟨id, flags, content, 20⟩] := by
  obtain ⟨l0, l1, hstore⟩ : ∃ l0 l1, storeInt (order == .littleEndian) 2 content.length = [l0, l1] :=
    List.length_eq_two.1 (storeInt_length _ _ _)
  have hdeclared : declared flags l0 l1 = content.length := by
    rw [← declared_eq flags l0 l1 (byteAt [l0, l1]) rfl rfl, horder, ← hstore]
    exact (load_store _ _ _).trans (Nat.mod_eq_of_lt hfit)
  have hcut : [id, flags] ++ (storeInt (order == .littleEndian) 2 content.length ++ content) =
      id :: flags :: l0 :: l1 :: (content ++ []) := by
    rw [hstore, List.append_nil]
    rfl
  rw [hcut]
  exact .next hdeclared (fun hto => absurd hto.1 (by omega)) (.done _)

/-- A message with one submessage that is not an INFO. -/
theorem findSubmessage_single {header content : List UInt8} {id flags : UInt8} {order : ByteOrder}
    (hlen : header.length = 20) (hvalid : ValidHeader header)
    (horder : (if flags &&& 0x01 ≠ 0 then ByteOrder.littleEndian else .bigEndian) = order)
    (hinfo : (⟨id, flags, content, 20⟩ : Submessage).isInfo = false) (hpos : 0 < content.length)
    (hfit : content.length < 2 ^ 16) :
    findSubmessage (.bytes (header ++ ([id, flags] ++
        (storeInt (order == .littleEndian) 2 content.length ++ content)))) id 0 = .ok
      { context := headerContext header, id, flags, byteOrder := order, content, offset := 20 } := by
  set tail := [id, flags] ++ (storeInt (order == .littleEndian) 2 content.length ++ content) with htail
  have hsplit : Splits 20 tail [⟨id, flags, content, 20⟩] := splits_single horder hpos hfit
  have hwf : (⟨id, flags, content, 20⟩ : Submessage).WellFormed := by
    simp only [isInfo, Bool.or_eq_false_iff, beq_eq_false_iff_ne] at hinfo
    exact ⟨fun h => absurd h hinfo.1.1, fun h => absurd h hinfo.1.2, fun h => absurd h hinfo.2⟩
  refine (findSubmessage_ok_iff _ _ _ _).2 ⟨hvalid.append tail, [⟨id, flags, content, 20⟩], ?_, ?_,
    [], ⟨id, flags, content, 20⟩, [], rfl, rfl, rfl, ?_⟩
  · exact (List.drop_left' hlen).symm ▸ hsplit
  · simpa using hwf
  · have hcontext : headerContext (header ++ tail) = headerContext header :=
      headerContext_append hvalid.size tail
    rw [← horder, ← hcontext]
    rfl

theorem splits_unique {offset : ℕ} {bytes : List UInt8} {subs subs' : List Submessage}
    (h : Splits offset bytes subs) (h' : Splits offset bytes subs') : subs = subs' := by
  induction h generalizing subs' with
  | done =>
    cases h'
    rfl
  | @next offset id flags l0 l1 content rest subs hlen hin _ ih =>
    obtain ⟨content', ext, subs'', hcut, rfl, htail⟩ := splits_header_iff.1 h'
    cases ext with
    | true => exact absurd hcut.1 (hlen ▸ hin)
    | false =>
      obtain ⟨-, -, hc⟩ := hcut
      rw [hlen, List.take_left] at hc
      subst hc
      rw [if_neg (by decide), List.drop_left] at htail
      rw [ih htail]
  | last hzero =>
    obtain ⟨content', ext, subs'', hcut, rfl, htail⟩ := splits_header_iff.1 h'
    cases ext with
    | true =>
      obtain ⟨-, rfl⟩ := hcut
      rw [if_pos rfl] at htail
      rw [htail]
    | false => exact absurd hzero hcut.1

/-- The occurrence with index `k` exists if there are more than `k` of them. -/
theorem exists_occurrence_iff {α : Type} (p : α → Bool) : ∀ (l : List α) (k : ℕ),
    (∃ pre x post, l = pre ++ x :: post ∧ p x = true ∧ pre.countP p = k) ↔ k < l.countP p := by
  intro l
  induction l with
  | nil =>
    intro k
    simp
  | cons a l ih =>
    intro k
    constructor
    · rintro ⟨pre, x, post, heq, hx, rfl⟩
      rw [heq, List.countP_append, List.countP_cons_of_pos hx]
      omega
    · intro hk
      by_cases ha : p a = true
      · rw [List.countP_cons_of_pos ha] at hk
        cases k with
        | zero => exact ⟨[], a, l, rfl, ha, rfl⟩
        | succ k =>
          obtain ⟨pre, x, post, rfl, hx, hcount⟩ := (ih k).2 (by omega)
          exact ⟨a :: pre, x, post, rfl, hx, by rw [List.countP_cons_of_pos ha, hcount]⟩
      · rw [List.countP_cons_of_neg ha] at hk
        obtain ⟨pre, x, post, rfl, hx, hcount⟩ := (ih k).2 hk
        exact ⟨a :: pre, x, post, rfl, hx, by rw [List.countP_cons_of_neg ha, hcount]⟩

/-- **Routing equals the reference.** `find_submessage` succeeds exactly if the header is valid, the
bytes after it split into submessages, every INFO submessage of the whole message is well formed and
the wanted id occurs more than `k` times. The view is then the occurrence with index `k`, in the
context that the INFO submessages before it leave; what comes after it has no part in the view. -/
theorem router_equals_reference (message : Span) (wantedId : UInt8) (k : ℕ) :
    ((∃ view, findSubmessage message wantedId k = .ok view) ↔ ValidHeader message.data ∧
      ∃ subs, Splits 20 (message.data.drop 20) subs ∧ (∀ s ∈ subs, s.WellFormed) ∧
        k < subs.countP (·.id == wantedId)) ∧
    ∀ view subs, findSubmessage message wantedId k = .ok view →
      Splits 20 (message.data.drop 20) subs →
      ∃ pre s post, subs = pre ++ s :: post ∧ s.id = wantedId ∧
        pre.countP (·.id == wantedId) = k ∧
        view = s.view (contextAfter (headerContext message.data) pre) := by
  have hiff := findSubmessage_ok_iff message wantedId k
  refine ⟨⟨?_, ?_⟩, ?_⟩
  · rintro ⟨view, hview⟩
    obtain ⟨hvalid, subs, hsplit, hwf, pre, s, post, heq, hs, hcount, -⟩ := (hiff view).1 hview
    refine ⟨hvalid, subs, hsplit, hwf, (exists_occurrence_iff _ _ _).1 ?_⟩
    exact ⟨pre, s, post, heq, by simpa using hs, hcount⟩
  · rintro ⟨hvalid, subs, hsplit, hwf, hcount⟩
    obtain ⟨pre, s, post, heq, hs, hk⟩ := (exists_occurrence_iff _ _ _).2 hcount
    exact ⟨_, (hiff _).2 ⟨hvalid, subs, hsplit, hwf, pre, s, post, heq, by simpa using hs, hk, rfl⟩⟩
  · intro view subs hview hsplit
    obtain ⟨-, subs', hsplit', -, hocc⟩ := (hiff view).1 hview
    rw [splits_unique hsplit hsplit']
    exact hocc

end OpenRtdds
