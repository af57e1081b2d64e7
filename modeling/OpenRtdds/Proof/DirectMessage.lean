import OpenRtdds.Proof.Router
import OpenRtdds.Spec.Network
import OpenRtdds.Spec.ReliabilityMessages

/-!
# Directing a message changes only its destination

`direct_message` puts an INFO_DST in front of the submessages of a message. The router then finds the same
submessages 16 bytes later, and their context differs in the destination until an INFO_DST of the message
itself sets it.

* `splits_moved_iff`, `splits_direct_iff`: the submessages of the directed message.
* `effect_redirect`, `context_redirect`: the context with another destination.
* `find_direct_iff`: a view of the directed message is a moved view of the message.
* `precedes_iff`: an INFO_DST precedes a submessage if the router finds it at a smaller offset.
* `direct_changes_only_destination`.
-/

namespace OpenRtdds

open Lib Submessage

/-- A submessage 16 bytes later. -/
def Submessage.moved (s : Submessage) : Submessage := { s with offset := s.offset + 16 }

/-- A context with another destination. -/
def RouteContext.redirect (c : RouteContext) (d : GuidPrefix) : RouteContext :=
  { c with destination := d, hasDestination := nonzeroPrefix d }

/-- The submessage that `direct_message` inserts. -/
def destinationSubmessage (d : GuidPrefix) : Submessage :=
  ⟨submessageIdInfoDestination, 0x01, d.toList, 20⟩

section Split

variable {offset : ℕ} {bytes : List UInt8} {subs : List Submessage}

theorem splits_moved (h : Splits offset bytes subs) : Splits (offset + 16) bytes (subs.map moved) := by
  induction h with
  | done offset => exact .done _
  | @next offset id flags l0 l1 content rest subs hlength hinside _ ih =>
    refine .next hlength hinside ?_
    have hoffset : offset + 16 + 4 + content.length = offset + 4 + content.length + 16 := by omega
    rw [hoffset]
    exact ih
  | last hzero => exact .last hzero

/-- **The same bytes 16 later** split into the same submessages, moved. -/
theorem splits_moved_iff : Splits (offset + 16) bytes subs ↔
    ∃ subs', subs = subs'.map moved ∧ Splits offset bytes subs' := by
  constructor
  · intro h
    generalize hlater : offset + 16 = later at h
    induction h generalizing offset with
    | done later => exact ⟨[], rfl, .done _⟩
    | @next later id flags l0 l1 content rest subs hlength hinside _ ih =>
      obtain ⟨subs', rfl, hsplit⟩ := @ih (offset + 4 + content.length) (by omega)
      refine ⟨⟨id, flags, content, offset⟩ :: subs', ?_, .next hlength hinside hsplit⟩
      rw [List.map_cons, ← hlater]
      rfl
    | @last later id flags l0 l1 content hzero =>
      refine ⟨[⟨id, flags, content, offset⟩], ?_, .last hzero⟩
      rw [← hlater]
      rfl
  · rintro ⟨subs', rfl, hsplit⟩
    exact splits_moved hsplit

/-- **The submessages of a directed message.** -/
theorem splits_direct_iff {d : GuidPrefix} :
    Splits 20 ([submessageIdInfoDestination, 0x01, 12, 0] ++ d.toList ++ bytes) subs ↔
      ∃ subs', subs = destinationSubmessage d :: subs'.map moved ∧ Splits 20 bytes subs' := by
  have hlength : d.toList.length = 12 := Vector.length_toList
  have hdeclared : declared 0x01 12 0 = d.toList.length := hlength.symm
  have hinside : ¬ toEnd submessageIdInfoDestination d.toList.length := by
    rw [hlength]
    exact fun h => absurd h.1 (by decide)
  have hnext : 20 + 4 + d.toList.length = 20 + 16 := by rw [hlength]
  have hbytes : [submessageIdInfoDestination, 0x01, 12, 0] ++ d.toList ++ bytes =
      submessageIdInfoDestination :: 0x01 :: 12 :: 0 :: (d.toList ++ bytes) := rfl
  rw [hbytes]
  constructor
  · intro h
    obtain ⟨content, ext, subs', hcut, rfl, htail⟩ := splits_header_iff.1 h
    cases ext with
    | true => exact absurd hcut.1 (hdeclared ▸ hinside)
    | false =>
      obtain ⟨-, -, hcontent⟩ := hcut
      rw [hdeclared, List.take_left] at hcontent
      subst hcontent
      rw [if_neg Bool.false_ne_true, List.drop_left, hnext] at htail
      obtain ⟨subs'', rfl, hsplit⟩ := splits_moved_iff.1 htail
      exact ⟨subs'', rfl, hsplit⟩
  · rintro ⟨subs', rfl, hsplit⟩
    refine .next hdeclared hinside ?_
    rw [hnext]
    exact splits_moved hsplit

theorem splits_sorted (h : Splits offset bytes subs) :
    (∀ s ∈ subs, offset ≤ s.offset) ∧ subs.Pairwise fun a b => a.offset < b.offset := by
  induction h with
  | done offset => exact ⟨fun s hs => absurd hs List.not_mem_nil, .nil⟩
  | @next offset id flags l0 l1 content rest subs hlength hinside _ ih =>
    refine ⟨fun s hs => ?_, List.pairwise_cons.2 ⟨fun s hs => ?_, ih.2⟩⟩
    · rcases List.mem_cons.1 hs with rfl | hs
      · exact le_rfl
      · exact le_trans (by omega) (ih.1 s hs)
    · exact lt_of_lt_of_le (by dsimp only; omega) (ih.1 s hs)
  | last hzero =>
    refine ⟨fun s hs => ?_, List.pairwise_singleton _ _⟩
    rw [List.mem_singleton.1 hs]

end Split

section Context

variable {d : GuidPrefix} {c : RouteContext}

theorem effect_destination (d : GuidPrefix) (c : RouteContext) :
    effect c (destinationSubmessage d) = c.redirect d := by
  have hcopy : copyAt (destinationSubmessage d).content 0 12 = d := by
    refine Vector.ext fun i hi => ?_
    unfold copyAt byteAt
    rw [Vector.getElem_ofFn, Nat.zero_add]
    change d.toList.getD i 0 = d[i]
    rw [List.getD_eq_getElem _ _ (by rw [Vector.length_toList]; exact hi), Vector.getElem_toList]
  unfold effect
  rw [if_pos (show (destinationSubmessage d).id = submessageIdInfoDestination from rfl), hcopy]
  rfl

theorem effect_redirect {s : Submessage} (h : s.id ≠ submessageIdInfoDestination) :
    effect (c.redirect d) s = (effect c s).redirect d := by
  unfold effect
  rw [if_neg h, if_neg h]
  split
  · rfl
  split
  · split
    · rfl
    · rfl
  · rfl

theorem effect_redirect_of_eq {s : Submessage} (h : s.id = submessageIdInfoDestination) :
    effect (c.redirect d) s = effect c s := by
  unfold effect
  rw [if_pos h, if_pos h]
  rfl

theorem context_moved (c : RouteContext) (subs : List Submessage) :
    (subs.map moved).foldl effect c = subs.foldl effect c := by
  rw [List.foldl_map]
  rfl

/-- **The context differs in the destination** until an INFO_DST sets it. -/
theorem context_redirect (subs : List Submessage) :
    subs.foldl effect (c.redirect d) = if subs.any (·.id == submessageIdInfoDestination)
      then subs.foldl effect c else (subs.foldl effect c).redirect d := by
  induction subs generalizing c with
  | nil => rfl
  | cons s subs ih =>
    rw [List.foldl_cons, List.foldl_cons, List.any_cons]
    by_cases hs : s.id = submessageIdInfoDestination
    · rw [effect_redirect_of_eq hs, if_pos (by rw [beq_iff_eq.2 hs, Bool.true_or])]
    · rw [effect_redirect hs, ih, beq_eq_false_iff_ne.2 hs, Bool.false_or]

end Context

section Find

variable {m : List UInt8} {d : GuidPrefix} {w : UInt8} {k : ℕ}

theorem validHeader_take (hsize : 20 ≤ m.length) : ValidHeader (m.take 20) ↔ ValidHeader m := by
  have hbyte : ∀ i < 20, byteAt (m.take 20) i = byteAt m i := by
    intro i hi
    unfold byteAt
    rw [List.getD_eq_getElem?_getD, List.getElem?_take_of_lt hi, ← List.getD_eq_getElem?_getD]
  have hmagic : (m.take 20).take 4 = m.take 4 := List.take_take
  constructor
  · rintro ⟨-, hmagic', hversion⟩
    refine ⟨hsize, hmagic ▸ hmagic', ?_⟩
    rw [← hbyte 4 (by decide), ← hbyte 5 (by decide)]
    exact hversion
  · rintro ⟨-, hmagic', hversion⟩
    refine ⟨(List.length_take_of_le hsize).ge, hmagic.trans hmagic', ?_⟩
    rw [hbyte 4 (by decide), hbyte 5 (by decide)]
    exact hversion

/-- The bytes of a directed message. -/
def directed (m : List UInt8) (d : GuidPrefix) : List UInt8 :=
  m.take 20 ++ ([submessageIdInfoDestination, 0x01, 12, 0] ++ d.toList ++ m.drop 20)

theorem directed_header (hsize : 20 ≤ m.length) : (ValidHeader (directed m d) ↔ ValidHeader m) ∧
    headerContext (directed m d) = headerContext m ∧
    (directed m d).drop 20 = [submessageIdInfoDestination, 0x01, 12, 0] ++ d.toList ++ m.drop 20 := by
  have hlength : (m.take 20).length = 20 := List.length_take_of_le hsize
  have hsplit : m.take 20 ++ m.drop 20 = m := List.take_append_drop 20 m
  have hlong : 20 ≤ (directed m d).length := by
    unfold directed
    rw [List.length_append]
    omega
  have htake : (directed m d).take 20 = m.take 20 := List.take_left' hlength
  refine ⟨?_, ?_, List.drop_left' hlength⟩
  · rw [← validHeader_take hlong, htake, validHeader_take hsize]
  · have hold : headerContext m = headerContext (m.take 20) := by
      nth_rewrite 1 [← hsplit]
      exact headerContext_append hlength.ge _
    rw [hold]
    exact headerContext_append hlength.ge _

/-- The view of a submessage of the directed message. -/
def movedView (v : RoutedSubmessageView) (d : GuidPrefix) (precedes : Bool) : RoutedSubmessageView :=
  { v with offset := v.offset + 16, context := if precedes then v.context else v.context.redirect d }

/-- **A view of the directed message is a moved view of the message.** -/
theorem find_direct_iff (hsize : 20 ≤ m.length) (hw : w ≠ submessageIdInfoDestination)
    (view : RoutedSubmessageView) :
    findSubmessage (.bytes (directed m d)) w k = .ok view ↔ ValidHeader m ∧
      ∃ subs, Splits 20 (m.drop 20) subs ∧ (∀ x ∈ subs, x.WellFormed) ∧
        ∃ pre x post, subs = pre ++ x :: post ∧ x.id = w ∧ pre.countP (·.id == w) = k ∧
          view = movedView (x.view (contextAfter (headerContext m) pre)) d
            (pre.any (·.id == submessageIdInfoDestination)) := by
  obtain ⟨hvalid, hcontext, hdrop⟩ := @directed_header m d hsize
  have hwf : (destinationSubmessage d).WellFormed :=
    ⟨fun _ => Vector.length_toList,
      fun h => absurd h (show submessageIdInfoDestination ≠ submessageIdInfoSource by decide),
      fun h => absurd h (show submessageIdInfoDestination ≠ submessageIdInfoTimestamp by decide)⟩
  have hfirst : ((destinationSubmessage d).id == w) = false := beq_eq_false_iff_ne.2 hw.symm
  have hcount : ∀ pre : List Submessage, (destinationSubmessage d :: pre.map moved).countP (·.id == w) =
      pre.countP (·.id == w) := by
    intro pre
    rw [List.countP_cons_of_neg (by rw [hfirst]; exact Bool.false_ne_true), List.countP_map]
    rfl
  have hview : ∀ (pre : List Submessage) (x : Submessage), x.moved.view
      (contextAfter (headerContext (directed m d)) (destinationSubmessage d :: pre.map moved)) =
      movedView (x.view (contextAfter (headerContext m) pre)) d
        (pre.any (·.id == submessageIdInfoDestination)) := by
    intro pre x
    have hafter : contextAfter (headerContext (directed m d)) (destinationSubmessage d :: pre.map moved) =
        if pre.any (·.id == submessageIdInfoDestination) then contextAfter (headerContext m) pre
        else (contextAfter (headerContext m) pre).redirect d := by
      rw [contextAfter_eq, contextAfter_eq, List.foldl_cons, effect_destination, context_moved, hcontext,
        context_redirect]
    rw [hafter]
    rfl
  rw [findSubmessage_ok_iff]
  change ValidHeader (directed m d) ∧ (∃ subs, Splits 20 ((directed m d).drop 20) subs ∧ _) ↔ _
  rw [hvalid, hdrop]
  refine and_congr_right fun _ => ⟨?_, ?_⟩
  · rintro ⟨subs, hsplit, hwfs, pre, x, post, heq, hx, hk, hv⟩
    obtain ⟨subs', rfl, hsplit'⟩ := splits_direct_iff.1 hsplit
    -- the submessage is not the one that was inserted
    cases pre with
    | nil =>
      obtain ⟨rfl, -⟩ := List.cons.inj heq
      exact absurd hx.symm hw
    | cons y pre =>
      obtain ⟨rfl, htail⟩ := List.cons.inj heq
      obtain ⟨pre', rest, rfl, rfl, hrest⟩ := List.map_eq_append_iff.1 htail
      obtain ⟨x', post', rfl, rfl, rfl⟩ := List.map_eq_cons_iff.1 hrest
      refine ⟨_, hsplit', fun z hz => ?_, pre', x', post', rfl, hx, (hcount pre').symm.trans hk,
        hv.trans (hview pre' x')⟩
      have hmoved := hwfs z.moved (List.mem_cons_of_mem _ (List.mem_map_of_mem hz))
      exact ⟨hmoved.destination, hmoved.source, hmoved.timestamp⟩
  · rintro ⟨subs, hsplit, hwfs, pre, x, post, rfl, hx, hk, hv⟩
    refine ⟨_, splits_direct_iff.2 ⟨_, rfl, hsplit⟩, fun z hz => ?_, destinationSubmessage d :: pre.map moved,
      x.moved, post.map moved, ?_, hx, (hcount pre).trans hk, hv.trans (hview pre x).symm⟩
    · rcases List.mem_cons.1 hz with rfl | hz
      · exact hwf
      · obtain ⟨y, hy, rfl⟩ := List.mem_map.1 hz
        have hwfy := hwfs y hy
        exact ⟨hwfy.destination, hwfy.source, hwfy.timestamp⟩
    · rw [List.map_append, List.map_cons, List.cons_append]

/-- An INFO_DST of the message stands before the offset. -/
def DestinationPrecedes (m : List UInt8) (offset : ℕ) : Prop :=
  ∃ info, findSubmessage (.bytes m) submessageIdInfoDestination 0 = .ok info ∧ info.offset < offset

/-- **An INFO_DST precedes a submessage** if there is one among those before it. -/
theorem precedes_iff {subs pre post : List Submessage} {x : Submessage} (hvalid : ValidHeader m)
    (hsplit : Splits 20 (m.drop 20) subs) (hwf : ∀ s ∈ subs, s.WellFormed) (hsubs : subs = pre ++ x :: post) :
    pre.any (·.id == submessageIdInfoDestination) = true ↔ DestinationPrecedes m x.offset := by
  have hsorted := (splits_sorted hsplit).2
  rw [hsubs] at hsorted
  obtain ⟨-, hlater, hless⟩ := List.pairwise_append.1 hsorted
  constructor
  · intro hany
    have hpositive : 0 < pre.countP (·.id == submessageIdInfoDestination) := by
      obtain ⟨y, hy, hid⟩ := List.any_eq_true.1 hany
      exact List.countP_pos_iff.2 ⟨y, hy, hid⟩
    obtain ⟨before, y, after, rfl, hid, hcount⟩ := (exists_occurrence_iff _ _ _).2 hpositive
    refine ⟨_, (findSubmessage_ok_iff _ _ _ _).2 ⟨hvalid, subs, hsplit, hwf, before, y, after ++ x :: post, ?_,
      beq_iff_eq.1 hid, hcount, rfl⟩, ?_⟩
    · rw [hsubs, List.append_assoc, List.cons_append]
    · exact hless y (List.mem_append_right _ List.mem_cons_self) x List.mem_cons_self
  · rintro ⟨info, hfind, hbefore⟩
    obtain ⟨-, subs', hsplit', -, before, y, after, heq, hid, -, rfl⟩ := (findSubmessage_ok_iff _ _ _ _).1 hfind
    have hsame := splits_unique hsplit' hsplit
    have hmem : y ∈ pre ++ x :: post := by
      rw [← hsubs, ← hsame, heq]
      exact List.mem_append_right _ List.mem_cons_self
    have hlt : y.offset < x.offset := hbefore
    rcases List.mem_append.1 hmem with hy | hy
    · exact List.any_eq_true.2 ⟨y, hy, beq_iff_eq.2 hid⟩
    · -- it is not the submessage, and not behind it
      rcases List.mem_cons.1 hy with rfl | hy
      · exact absurd hlt (lt_irrefl _)
      · exact absurd hlt ((List.pairwise_cons.1 hlater).1 y hy).not_gt

/-- What agrees in the views of a submessage before and after the message was directed. -/
structure SameButDestination (m : List UInt8) (d : GuidPrefix) (v v' : RoutedSubmessageView) : Prop where
  version : v'.context.version = v.context.version
  vendorId : v'.context.vendorId = v.context.vendorId
  source : v'.context.source = v.context.source
  timestamp : v'.context.timestamp = v.context.timestamp
  hasTimestamp : v'.context.hasTimestamp = v.context.hasTimestamp
  id : v'.id = v.id
  flags : v'.flags = v.flags
  byteOrder : v'.byteOrder = v.byteOrder
  content : v'.content = v.content
  offset : v'.offset = v.offset + 16
  directed : ¬ DestinationPrecedes m v.offset →
    v'.context.destination = d ∧ v'.context.hasDestination = nonzeroPrefix d
  kept : DestinationPrecedes m v.offset →
    v'.context.destination = v.context.destination ∧ v'.context.hasDestination = v.context.hasDestination

/-- The view of the message is the view of the directed message. -/
theorem find_of_direct (hsize : 20 ≤ m.length) (hw : w ≠ submessageIdInfoDestination)
    {v' : RoutedSubmessageView} (h : findSubmessage (.bytes (directed m d)) w k = .ok v') :
    ∃ v, findSubmessage (.bytes m) w k = .ok v ∧ SameButDestination m d v v' := by
  obtain ⟨hvalid, subs, hsplit, hwf, pre, x, post, hsubs, hx, hk, rfl⟩ := (find_direct_iff hsize hw v').1 h
  refine ⟨_, (findSubmessage_ok_iff _ _ _ _).2 ⟨hvalid, subs, hsplit, hwf, pre, x, post, hsubs, hx, hk, rfl⟩, ?_⟩
  have hprecedes := precedes_iff hvalid hsplit hwf hsubs
  unfold movedView
  cases hany : pre.any (·.id == submessageIdInfoDestination) with
  | true => exact ⟨rfl, rfl, rfl, rfl, rfl, rfl, rfl, rfl, rfl, rfl, fun hnot => absurd (hprecedes.1 hany) hnot,
      fun _ => ⟨rfl, rfl⟩⟩
  | false =>
    refine ⟨rfl, rfl, rfl, rfl, rfl, rfl, rfl, rfl, rfl, rfl, fun _ => ⟨rfl, rfl⟩, fun hyes => ?_⟩
    have hno := hprecedes.2 hyes
    rw [hany] at hno
    cases hno

theorem direct_of_find (hsize : 20 ≤ m.length) (hw : w ≠ submessageIdInfoDestination)
    {v : RoutedSubmessageView} (h : findSubmessage (.bytes m) w k = .ok v) :
    ∃ v', findSubmessage (.bytes (directed m d)) w k = .ok v' := by
  obtain ⟨hvalid, subs, hsplit, hwf, pre, x, post, hsubs, hx, hk, -⟩ := (findSubmessage_ok_iff _ _ _ _).1 h
  exact ⟨_, (find_direct_iff hsize hw _).2 ⟨hvalid, subs, hsplit, hwf, pre, x, post, hsubs, hx, hk, rfl⟩⟩

theorem parsePrefix_direct (hsize : 20 ≤ m.length) (hw : w ≠ submessageIdInfoDestination) :
    (∃ parsed, parsePrefix (.bytes m) w = .ok parsed ∧ parsePrefix (.bytes (directed m d)) w = .ok parsed) ∨
      ∃ e e', parsePrefix (.bytes m) w = .error e ∧ parsePrefix (.bytes (directed m d)) w = .error e' := by
  have hnull : ∀ bytes : List UInt8, ¬ ((Span.bytes bytes).isNull && (Span.bytes bytes).size != 0) = true :=
    fun bytes => Bool.false_ne_true
  unfold parsePrefix
  rw [if_neg (hnull m), if_neg (hnull (directed m d))]
  cases hfind : findSubmessage (.bytes m) w 0 with
  | ok v =>
    obtain ⟨v', hfind'⟩ := @direct_of_find m d w 0 hsize hw v hfind
    obtain ⟨v₀, hv₀, hsame⟩ := find_of_direct hsize hw hfind'
    obtain rfl : v₀ = v := Except.ok.inj (hv₀.symm.trans hfind)
    rw [hfind']
    refine .inl ⟨_, rfl, ?_⟩
    dsimp only
    rw [hsame.version, hsame.vendorId, hsame.source, hsame.byteOrder, hsame.flags, hsame.content]
  | error e =>
    cases hfind' : findSubmessage (.bytes (directed m d)) w 0 with
    | ok v' =>
      obtain ⟨v, hv, -⟩ := find_of_direct hsize hw hfind'
      rw [hfind] at hv
      cases hv
    | error e' => exact .inr ⟨_, _, rfl, rfl⟩

end Find

/-- **Directing a message changes only its destination.** For every message and destination and an output
that is large enough, `direct_message` succeeds, and for every submessage id but INFO_DST and every
occurrence the router finds the submessage in the one exactly if it finds it in the other. The views agree but
for the offset, which is 16 larger, and for the destination, which is the given one if no INFO_DST of the
message precedes the submessage. Heartbeats and ACKNACKs parse to the same. -/
theorem direct_changes_only_destination (m : List UInt8) (d : GuidPrefix) (capacity : ℕ)
    (hsize : 20 ≤ m.length) (hcapacity : m.length + 16 ≤ capacity) :
    ∃ out, directMessage (.bytes m) d (some capacity) = some out ∧
      (∀ w k, w ≠ submessageIdInfoDestination →
        ((∃ v', findSubmessage (.bytes out) w k = .ok v') ↔ ∃ v, findSubmessage (.bytes m) w k = .ok v) ∧
        ∀ v v', findSubmessage (.bytes m) w k = .ok v → findSubmessage (.bytes out) w k = .ok v' →
          SameButDestination m d v v') ∧
      (∀ heartbeat, parseHeartbeatMessage (.bytes out) = .ok heartbeat ↔
        parseHeartbeatMessage (.bytes m) = .ok heartbeat) ∧
      (∀ acknack, parseAcknackMessage (.bytes out) = .ok acknack ↔
        parseAcknackMessage (.bytes m) = .ok acknack) := by
  have hdirect : directMessage (.bytes m) d (some capacity) = some (directed m d) := by
    unfold directMessage
    rw [Option.bind_some, if_neg]
    · rfl
    · change ¬ (false = true ∨ capacity < 16 ∨ m.length < 20 ∨ m.length > capacity - 16)
      rw [or_iff_right Bool.false_ne_true]
      omega
  refine ⟨directed m d, hdirect, fun w k hw => ⟨⟨?_, ?_⟩, fun v v' hv hv' => ?_⟩, fun heartbeat => ?_,
    fun acknack => ?_⟩
  · rintro ⟨v', hv'⟩
    obtain ⟨v, hv, -⟩ := find_of_direct hsize hw hv'
    exact ⟨v, hv⟩
  · rintro ⟨v, hv⟩
    exact direct_of_find hsize hw hv
  · obtain ⟨v₀, hv₀, hsame⟩ := find_of_direct hsize hw hv'
    obtain rfl : v₀ = v := Except.ok.inj (hv₀.symm.trans hv)
    exact hsame
  · unfold parseHeartbeatMessage
    rcases @parsePrefix_direct m d submessageIdHeartbeat hsize (by decide) with
      ⟨parsed, hparsed, hparsed'⟩ | ⟨e, e', herror, herror'⟩
    · rw [hparsed, hparsed']
    · rw [herror, herror']
      exact iff_of_false (fun h => by cases h) fun h => by cases h
  · unfold parseAcknackMessage
    rcases @parsePrefix_direct m d submessageIdAcknack hsize (by decide) with
      ⟨parsed, hparsed, hparsed'⟩ | ⟨e, e', herror, herror'⟩
    · rw [hparsed, hparsed']
    · rw [herror, herror']
      exact iff_of_false (fun h => by cases h) fun h => by cases h

/-- A message with one DATA submessage of four bytes. -/
def fourByteData : List UInt8 :=
  [0x52, 0x54, 0x50, 0x53, 2, 5, 1, 1, 1, 2, 3, 4, 5, 6, 7, 8, 9, 10, 11, 12, 0x15, 0x01, 4, 0, 7, 7, 7, 7]

/-- It is found 16 bytes later, with its content. -/
theorem fourByteData_directed :
    ∃ out v v', directMessage (.bytes fourByteData) (.replicate 12 9) (some 64) = some out ∧
      findSubmessage (.bytes fourByteData) submessageIdData 0 = .ok v ∧ v.content = [7, 7, 7, 7] ∧
      findSubmessage (.bytes out) submessageIdData 0 = .ok v' ∧
      SameButDestination fourByteData (.replicate 12 9) v v' := by
  obtain ⟨out, hout, hfind, -, -⟩ := direct_changes_only_destination fourByteData (.replicate 12 9) 64
    (by decide) (by decide)
  obtain ⟨hiff, hsame⟩ := hfind submessageIdData 0 (by decide)
  obtain ⟨v, hv, hcontent⟩ : ∃ v, findSubmessage (.bytes fourByteData) submessageIdData 0 = .ok v ∧
      v.content = [7, 7, 7, 7] := ⟨_, rfl, rfl⟩
  obtain ⟨v', hv'⟩ := hiff.2 ⟨v, hv⟩
  exact ⟨out, v, v', hout, hv, hcontent, hv', hsame v v' hv hv'⟩

end OpenRtdds
