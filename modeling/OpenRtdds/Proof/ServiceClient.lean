import OpenRtdds.Proof.TakeSequence
import OpenRtdds.Spec.ServiceClient

/-!
# A response completes a request once

The table of a client holds the requests that were sent and not completed. A response is taken only if
its identity is in the table, and its entry is released with it.

* `takeService_cases`: what a take from the response subscription does.
* `ResponseEffect`: what the loop leaves of the client. `takeResponseLoop_succ`: an iteration ends the loop,
  or it removes a sample, or a datagram has arrived. `takeResponseLoop_ends`: the loop ends, and more
  iterations do not matter.
* `Outstanding`: the numbers in the table. `outstanding_sent`, `outstanding_completed`.
* `ClientInv`: the invariant, over the log of the answers. `perform_inv`, `clientRun_inv`.
* `service_responses_complete_once`.
-/

namespace OpenRtdds

open Lib

namespace Endpoint

variable {language : TypeSupportLanguage} {D : ℕ} [NeZero D]

/-- **What a take from a service subscription does**: it fails and leaves the sample, finds none, drops one
that the filter refuses, or takes one that it accepts. -/
theorem takeService_cases (e : Endpoint language) (s : Subscription D) (accept : RequestId → Bool)
    (message : Sample language) :
    let r := e.takeService s (some accept) message
    (∃ error, r.1 = .error error) ∧ r.2.1 = s ∨
      r.1 = .ok none ∧ (s.historySize = 0 ∧ r.2.1 = s ∨ s.historySize ≠ 0 ∧ r.2.1 = s.dropHead) ∨
      (∃ info, r.1 = .ok (some info) ∧ accept info.requestId = true) ∧ s.historySize ≠ 0 ∧
        r.2.1 = s.dropHead := by
  intro r
  have hr : r = e.takeService s (some accept) message := rfl
  unfold takeService at hr
  split at hr
  · rw [hr]
    exact .inl ⟨⟨_, rfl⟩, rfl⟩
  split at hr
  · rw [hr]
    exact .inl ⟨⟨_, rfl⟩, rfl⟩
  split at hr
  next hempty =>
    rw [hr]
    exact .inr (.inl ⟨rfl, .inl ⟨hempty, rfl⟩⟩)
  next hsize =>
    dsimp only at hr
    split at hr
    · rw [hr]
      exact .inl ⟨⟨_, rfl⟩, rfl⟩
    split at hr
    · rw [hr]
      exact .inr (.inl ⟨rfl, .inr ⟨hsize, rfl⟩⟩)
    next haccept =>
      split at hr
      · rw [hr]
        exact .inl ⟨⟨_, rfl⟩, rfl⟩
      · rw [hr]
        refine .inr (.inr ⟨⟨_, rfl, ?_⟩, hsize, rfl⟩)
        simpa using haccept

end Endpoint

namespace ServiceClient

variable {language : TypeSupportLanguage} {D : ℕ} [NeZero D] {e : Endpoint language} {c c' : ServiceClient D}

section Arrivals

/-- The fields that the response subscription does not touch. -/
structure SameRequests (c c' : ServiceClient D) : Prop where
  gid : c'.gid = c.gid
  next : c'.nextSequence = c.nextSequence
  outstanding : c'.outstanding = c.outstanding

omit [NeZero D] in
theorem SameRequests.trans {c'' : ServiceClient D} (h : SameRequests c c') (h' : SameRequests c' c'') :
    SameRequests c c'' :=
  ⟨h'.gid.trans h.gid, h'.next.trans h.next, h'.outstanding.trans h.outstanding⟩

omit [NeZero D] in
theorem SameRequests.accept (h : SameRequests c c') (id : RequestId) :
    c'.acceptClientResponse id = c.acceptClientResponse id := by
  unfold acceptClientResponse
  rw [h.gid, h.outstanding]

theorem arrive_historySize (c : ServiceClient D) (arrival : Arrival) :
    (c.arrive arrival).responses.historySize ≤ c.responses.historySize + 1 := by
  unfold arrive
  have houtcome := c.responses.receive_outcome arrival.packet arrival.sourceTimestampNs
    arrival.receivedTimestampNs
  dsimp only
  generalize c.responses.receiveDataMessage arrival.packet arrival.sourceTimestampNs
    arrival.receivedTimestampNs = out at houtcome ⊢
  cases houtcome with
  | refused => exact Nat.le_succ _
  | accepted =>
    unfold Subscription.commit
    dsimp only
    split
    · exact Nat.le_succ _
    · exact le_rfl

theorem run_arrive (c : ServiceClient D) (batch : List Arrival) :
    SameRequests c (run arrive c batch) ∧
      (run arrive c batch).responses.historySize ≤ c.responses.historySize + batch.length := by
  induction batch generalizing c with
  | nil => exact ⟨⟨rfl, rfl, rfl⟩, le_rfl⟩
  | cons arrival batch ih =>
    obtain ⟨hsame, hsize⟩ := ih (c.arrive arrival)
    have hone := c.arrive_historySize arrival
    refine ⟨(⟨rfl, rfl, rfl⟩ : SameRequests c (c.arrive arrival)).trans hsame, ?_⟩
    rw [run_cons, List.length_cons]
    omega

end Arrivals

section Loop

variable {arrivals : List (List Arrival)} {message : Sample language}

theorem flatten_length_headD (arrivals : List (List Arrival)) :
    (arrivals.headD []).length + arrivals.tail.flatten.length = arrivals.flatten.length := by
  cases arrivals with
  | nil => rfl
  | cons batch rest => rw [List.headD_cons, List.tail_cons, List.flatten_cons, List.length_append]

/-- **What the loop leaves of the client**: its requests, but for the one whose response was taken. -/
inductive ResponseEffect (c : ServiceClient D) :
    Except TakeServiceError (Option ServiceInfo) → ServiceClient D → Prop where
  | kept {result c'} (hsame : SameRequests c c') (hnone : ∀ info, result ≠ .ok (some info)) :
      ResponseEffect c result c'
  | completed {info slot c'} (hslot : c.acceptClientResponse info.requestId = some slot)
      (hgid : c'.gid = c.gid) (hnext : c'.nextSequence = c.nextSequence)
      (houtstanding : c'.outstanding = setSlot c.outstanding slot
        { c.outstanding.get slot with occupied := false }) :
      ResponseEffect c (.ok (some info)) c'

omit [NeZero D] in
theorem ResponseEffect.of_same {result} {c'' : ServiceClient D} (hsame : SameRequests c c')
    (h : ResponseEffect c' result c'') : ResponseEffect c result c'' := by
  cases h with
  | kept hkept hnone => exact .kept (hsame.trans hkept) hnone
  | completed hslot hgid hnext houtstanding =>
    rw [hsame.accept] at hslot
    rw [hsame.outstanding] at houtstanding
    exact .completed hslot (hgid.trans hsame.gid) (hnext.trans hsame.next) houtstanding

/-- What the loop has left to do: the samples, and the datagrams that may become samples. -/
def pending (c : ServiceClient D) (arrivals : List (List Arrival)) : ℕ :=
  c.responses.historySize + 2 * arrivals.flatten.length

/-- **One iteration** ends the loop, or leaves the requests and less to do. -/
theorem takeResponseLoop_succ (e : Endpoint language) (c : ServiceClient D) (arrivals : List (List Arrival))
    (message : Sample language) :
    (∃ result c' message', (∀ fuel, c.takeResponseLoop e (fuel + 1) arrivals message = some (result, c', message')) ∧
      ResponseEffect c result c') ∨
    ∃ c' arrivals' message', (∀ fuel, c.takeResponseLoop e (fuel + 1) arrivals message =
        c'.takeResponseLoop e fuel arrivals' message') ∧
      SameRequests c c' ∧ c'.pending arrivals' < c.pending arrivals := by
  obtain ⟨hsame, hbatch⟩ := run_arrive c (arrivals.headD [])
  have hrest := flatten_length_headD arrivals
  have hrest' := flatten_length_headD arrivals.tail
  simp only [takeResponseLoop, pending]
  set c₁ := run arrive c (arrivals.headD []) with hc₁
  have hcases := e.takeService_cases c₁.responses (fun id => (c₁.acceptClientResponse id).isSome) message
  dsimp only at hcases
  generalize e.takeService c₁.responses
    (some fun id => (c₁.acceptClientResponse id).isSome) message = r at hcases ⊢
  rcases hcases with ⟨⟨error, herror⟩, -⟩ | ⟨hnone, hleft⟩ | ⟨⟨info, hsome, haccept⟩, -, -⟩
  · rw [herror]
    exact .inl ⟨_, _, _, fun _ => rfl, .kept ⟨hsame.gid, hsame.next, hsame.outstanding⟩ (by rintro info ⟨⟩)⟩
  · rw [hnone]
    dsimp only
    obtain ⟨hkept, hbatch'⟩ := run_arrive { c₁ with responses := r.2.1 } (arrivals.tail.headD [])
    have hkept : SameRequests c₁ _ := ⟨hkept.gid, hkept.next, hkept.outstanding⟩
    split
    next hready =>
      refine .inr ⟨_, _, _, fun _ => rfl, hsame.trans hkept, ?_⟩
      -- a sample was removed, or the subscription was empty and a datagram has arrived
      rcases hleft with ⟨hempty, hold⟩ | ⟨hsize, hdrop⟩
      · rw [hold] at hbatch' hready ⊢
        dsimp only at hbatch'
        omega
      · have hone : r.2.1.historySize = c₁.responses.historySize - 1 := by
          rw [hdrop]
          rfl
        dsimp only at hbatch'
        omega
    · exact .inl ⟨_, _, _, fun _ => rfl, .kept (hsame.trans hkept) (by rintro info ⟨⟩)⟩
  · rw [hsome]
    dsimp only
    obtain ⟨slot, hslot⟩ := Option.isSome_iff_exists.1 haccept
    rw [hslot]
    exact .inl ⟨_, _, _, fun _ => rfl, .of_same hsame (.completed hslot rfl rfl rfl)⟩

/-- **The loop ends**, and more iterations do not matter. -/
theorem takeResponseLoop_ends {fuel : ℕ} (h : c.pending arrivals < fuel) :
    ∃ result c' message', (∀ more, c.takeResponseLoop e (fuel + more) arrivals message =
      some (result, c', message')) ∧ ResponseEffect c result c' := by
  induction fuel generalizing c arrivals message with
  | zero => exact absurd h (Nat.not_lt_zero _)
  | succ fuel ih =>
    rcases takeResponseLoop_succ e c arrivals message with
      ⟨result, c', message', hends, heffect⟩ | ⟨c', arrivals', message', hagain, hsame, hless⟩
    · refine ⟨result, c', message', fun more => ?_, heffect⟩
      rw [Nat.succ_add]
      exact hends _
    · obtain ⟨result, c'', message'', hends, heffect⟩ := ih (hless.trans_le (Nat.le_of_lt_succ h))
      refine ⟨result, c'', message'', fun more => ?_, .of_same hsame heffect⟩
      rw [Nat.succ_add, hagain]
      exact hends more

end Loop

section Table

variable {n : ℕ} {table : Vector OutstandingRequest n} {i : Fin n}

/-- The number is in the table. -/
def Outstanding (table : Vector OutstandingRequest n) (number : ℕ) : Prop :=
  ∃ i, (table.get i).occupied = true ∧ (table.get i).sequence = number

/-- A number is in the table once. -/
def Unique (table : Vector OutstandingRequest n) : Prop :=
  ∀ i j, (table.get i).occupied = true → (table.get j).occupied = true →
    (table.get i).sequence = (table.get j).sequence → i = j

theorem outstanding_sent (hfree : (table.get i).occupied = false) (number m : ℕ) :
    Outstanding (setSlot table i { sequence := number, occupied := true }) m ↔
      m = number ∨ Outstanding table m := by
  constructor
  · rintro ⟨j, hoccupied, hnumber⟩
    by_cases hj : i = j
    · rw [← hj, setSlot_get_self] at hnumber
      exact .inl hnumber.symm
    · rw [setSlot_get_of_ne _ hj] at hoccupied hnumber
      exact .inr ⟨j, hoccupied, hnumber⟩
  · rintro (rfl | ⟨j, hoccupied, hnumber⟩)
    · refine ⟨i, ?_, ?_⟩
      · rw [setSlot_get_self]
      · rw [setSlot_get_self]
    · have hj : i ≠ j := by
        rintro rfl
        rw [hfree] at hoccupied
        cases hoccupied
      refine ⟨j, ?_, ?_⟩
      · rw [setSlot_get_of_ne _ hj]
        exact hoccupied
      · rw [setSlot_get_of_ne _ hj]
        exact hnumber

theorem unique_sent (h : Unique table) {number : ℕ} (hfresh : ¬ Outstanding table number) :
    Unique (setSlot table i { sequence := number, occupied := true }) := by
  intro j k hj hk hnumber
  by_cases hij : i = j
  · by_cases hik : i = k
    · exact hij.symm.trans hik
    · rw [← hij, setSlot_get_self, setSlot_get_of_ne _ hik] at hnumber
      rw [setSlot_get_of_ne _ hik] at hk
      exact absurd ⟨k, hk, hnumber.symm⟩ hfresh
  · rw [setSlot_get_of_ne _ hij] at hj hnumber
    by_cases hik : i = k
    · rw [← hik, setSlot_get_self] at hnumber
      exact absurd ⟨j, hj, hnumber⟩ hfresh
    · rw [setSlot_get_of_ne _ hik] at hk hnumber
      exact h j k hj hk hnumber

theorem outstanding_completed (h : Unique table) (hoccupied : (table.get i).occupied = true) (m : ℕ) :
    Outstanding (setSlot table i { table.get i with occupied := false }) m ↔
      m ≠ (table.get i).sequence ∧ Outstanding table m := by
  constructor
  · rintro ⟨j, hj, hnumber⟩
    have hij : i ≠ j := by
      rintro rfl
      rw [setSlot_get_self] at hj
      cases hj
    rw [setSlot_get_of_ne _ hij] at hj hnumber
    refine ⟨fun heq => hij ?_, j, hj, hnumber⟩
    exact h i j hoccupied hj (heq.symm.trans hnumber.symm)
  · rintro ⟨hne, j, hj, hnumber⟩
    have hij : i ≠ j := by
      rintro rfl
      exact hne hnumber.symm
    refine ⟨j, ?_, ?_⟩
    · rw [setSlot_get_of_ne _ hij]
      exact hj
    · rw [setSlot_get_of_ne _ hij]
      exact hnumber

theorem unique_completed (h : Unique table) :
    Unique (setSlot table i { table.get i with occupied := false }) := by
  have hold : ∀ j, ((setSlot table i { table.get i with occupied := false }).get j).occupied = true →
      (setSlot table i { table.get i with occupied := false }).get j = table.get j := by
    intro j hj
    refine setSlot_get_of_ne _ ?_ _
    rintro rfl
    rw [setSlot_get_self] at hj
    cases hj
  intro j k hj hk hnumber
  rw [hold j hj, hold k hk] at hnumber
  rw [hold j hj] at hj
  rw [hold k hk] at hk
  exact h j k hj hk hnumber

end Table

section Invariant

/-- The numbers of the requests that were completed. -/
def completedNumbers (replies : List ClientReply) : List ℕ :=
  (completedLog replies).map RequestId.sequenceNumber

/-- **The table holds what was sent and not completed**, after the answers of a run. -/
structure ClientInv (c : ServiceClient D) (gid : Gid) (replies : List ClientReply) : Prop where
  owner : c.gid = gid
  below : ∀ n ∈ sentLog replies, n < c.nextSequence
  increasing : (sentLog replies).Pairwise (· < ·)
  unique : Unique c.outstanding
  outstanding : ∀ n, Outstanding c.outstanding n ↔ n ∈ sentLog replies ∧ n ∉ completedNumbers replies
  once : (completedNumbers replies).Nodup
  ended : .unfinished ∉ replies
  sound : ∀ before info rest, replies = before ++ .tookResponse (.ok (some info)) :: rest →
    info.requestId.writerGuid = gid ∧ info.requestId.sequenceNumber ∈ sentLog before ∧
      info.requestId.sequenceNumber ∉ completedNumbers before

variable {gid : Gid} {replies : List ClientReply} {reply : ClientReply}

theorem sentLog_snoc : sentLog (replies ++ [reply]) = sentLog replies ++ (sentId reply).toList :=
  filterMap_snoc sentId replies reply

theorem completedNumbers_snoc : completedNumbers (replies ++ [reply]) =
    completedNumbers replies ++ ((completedId reply).map RequestId.sequenceNumber).toList := by
  unfold completedNumbers completedLog
  rw [filterMap_snoc, List.map_append, Option.toList_map]

omit [NeZero D] in
theorem ClientInv.ended_snoc (h : c.ClientInv gid replies) (hreply : reply ≠ .unfinished) :
    .unfinished ∉ replies ++ [reply] := by
  intro hmem
  rcases List.mem_append.1 hmem with hmem | hmem
  · exact h.ended hmem
  · exact hreply (List.mem_singleton.1 hmem).symm

omit [NeZero D] in
/-- The responses that were taken, when the last answer is not one. -/
theorem ClientInv.sound_snoc (h : c.ClientInv gid replies) (hreply : completedId reply = none) :
    ∀ before info rest, replies ++ [reply] = before ++ .tookResponse (.ok (some info)) :: rest →
      info.requestId.writerGuid = gid ∧ info.requestId.sequenceNumber ∈ sentLog before ∧
        info.requestId.sequenceNumber ∉ completedNumbers before := by
  intro before info rest hsplit
  rcases snoc_eq_append_cons hsplit with ⟨hlast, -⟩ | ⟨rest', -, hsplit⟩
  · rw [hlast] at hreply
    cases hreply
  · exact h.sound before info rest' hsplit

omit [NeZero D] in
/-- An answer that neither sends nor completes. -/
theorem ClientInv.kept (h : c.ClientInv gid replies) (hsame : SameRequests c c') (hsent : sentId reply = none)
    (hcompleted : completedId reply = none) (hended : reply ≠ .unfinished) :
    c'.ClientInv gid (replies ++ [reply]) := by
  have hsound := h.sound_snoc hcompleted
  have hlog : sentLog (replies ++ [reply]) = sentLog replies := by
    rw [sentLog_snoc, hsent, Option.toList_none, List.append_nil]
  have hdone : completedNumbers (replies ++ [reply]) = completedNumbers replies := by
    rw [completedNumbers_snoc, hcompleted, Option.map_none, Option.toList_none, List.append_nil]
  refine ⟨hsame.gid.trans h.owner, ?_, ?_, ?_, ?_, ?_, h.ended_snoc hended, hsound⟩
  · rw [hlog, hsame.next]
    exact h.below
  · rw [hlog]
    exact h.increasing
  · rw [hsame.outstanding]
    exact h.unique
  · rw [hlog, hdone, hsame.outstanding]
    exact h.outstanding
  · rw [hdone]
    exact h.once

omit [NeZero D] in
/-- What a send does: nothing, or it puts the next number into a free entry. -/
theorem sendRequest_cases (c : ServiceClient D) (arguments published : Bool) :
    (∃ error, c.sendRequest arguments published = (.error error, c)) ∨
      ∃ slot, (c.outstanding.get slot).occupied = false ∧ c.sendRequest arguments published =
        (.ok c.nextSequence,
          { c with
            outstanding := setSlot c.outstanding slot { sequence := c.nextSequence, occupied := true }
            nextSequence := c.nextSequence + 1 }) := by
  unfold sendRequest
  split
  · exact .inl ⟨_, rfl⟩
  split
  · exact .inl ⟨_, rfl⟩
  next client hrequest =>
    split
    · exact .inl ⟨_, rfl⟩
    · obtain ⟨slot, hfree, rfl⟩ := ClientData.request_ok hrequest
      exact .inr ⟨slot, hfree, rfl⟩

omit [NeZero D] in
/-- **A request that was sent** has a number above all others and is in the table. -/
theorem ClientInv.sent (h : c.ClientInv gid replies) {slot : Fin serviceOutstandingCapacity}
    (hfree : (c.outstanding.get slot).occupied = false) :
    ClientInv { c with
        outstanding := setSlot c.outstanding slot { sequence := c.nextSequence, occupied := true }
        nextSequence := c.nextSequence + 1 } gid (replies ++ [.sent (.ok c.nextSequence)]) := by
  have hsent : sentLog (replies ++ [.sent (.ok c.nextSequence)]) = sentLog replies ++ [c.nextSequence] :=
    sentLog_snoc
  have hdone : completedNumbers (replies ++ [.sent (.ok c.nextSequence)]) = completedNumbers replies := by
    rw [completedNumbers_snoc]
    exact List.append_nil _
  have hnew : c.nextSequence ∉ sentLog replies := fun hmem => lt_irrefl _ (h.below _ hmem)
  have hnotDone : c.nextSequence ∉ completedNumbers replies := by
    intro hmem
    -- what was completed was sent before
    obtain ⟨id, hid, hnumber⟩ := List.mem_map.1 hmem
    obtain ⟨reply, hreply, hcompleted⟩ := List.mem_filterMap.1 hid
    obtain ⟨before, rest, hsplit⟩ := List.append_of_mem hreply
    cases reply with
    | tookResponse result =>
      rcases result with _ | (_ | info)
      · cases hcompleted
      · cases hcompleted
      · obtain rfl := Option.some.inj hcompleted
        obtain ⟨-, hbefore, -⟩ := h.sound before info rest hsplit
        refine hnew ?_
        rw [hsplit, ← hnumber]
        unfold sentLog at hbefore ⊢
        rw [List.filterMap_append]
        exact List.mem_append_left _ hbefore
    | _ => cases hcompleted
  refine ⟨h.owner, fun n hn => ?_, ?_, unique_sent h.unique fun hmem => hnew ((h.outstanding _).1 hmem).1,
    fun n => ?_, ?_, h.ended_snoc ClientReply.noConfusion, h.sound_snoc rfl⟩
  · rw [hsent] at hn
    rcases List.mem_append.1 hn with hn | hn
    · exact (h.below n hn).trans (Nat.lt_succ_self _)
    · rw [List.mem_singleton.1 hn]
      exact Nat.lt_succ_self _
  · rw [hsent]
    refine List.pairwise_append.2 ⟨h.increasing, List.pairwise_singleton _ _, fun a ha b hb => ?_⟩
    rw [List.mem_singleton.1 hb]
    exact h.below a ha
  · rw [hsent, hdone, outstanding_sent hfree, h.outstanding, List.mem_append, List.mem_singleton]
    constructor
    · rintro (rfl | ⟨hn, hnot⟩)
      · exact ⟨.inr rfl, hnotDone⟩
      · exact ⟨.inl hn, hnot⟩
    · rintro ⟨hn | rfl, hnot⟩
      · exact .inr ⟨hn, hnot⟩
      · exact .inl rfl
  · rw [hdone]
    exact h.once

omit [NeZero D] in
/-- **A response that was taken** completes a request of the table. -/
theorem ClientInv.completed (h : c.ClientInv gid replies) {info : ServiceInfo}
    {slot : Fin serviceOutstandingCapacity} (hslot : c.acceptClientResponse info.requestId = some slot)
    (hgid : c'.gid = c.gid) (hnext : c'.nextSequence = c.nextSequence)
    (houtstanding : c'.outstanding = setSlot c.outstanding slot
      { c.outstanding.get slot with occupied := false }) :
    c'.ClientInv gid (replies ++ [.tookResponse (.ok (some info))]) := by
  obtain ⟨hguid, hoccupied, hnumber⟩ : info.requestId.writerGuid = c.gid ∧
      (c.outstanding.get slot).occupied = true ∧
      (c.outstanding.get slot).sequence = info.requestId.sequenceNumber := by
    unfold acceptClientResponse at hslot
    split at hslot
    · cases hslot
    next hsame =>
      obtain ⟨-, -, -, -, hfound, -⟩ := findFinIdx?_split hslot {}
      obtain ⟨hoccupied, hnumber⟩ := Bool.and_eq_true_iff.1 hfound
      exact ⟨by simpa using hsame, hoccupied, beq_iff_eq.1 hnumber⟩
  obtain ⟨hsentBefore, hnotDone⟩ := (h.outstanding _).1 ⟨slot, hoccupied, hnumber⟩
  have hsent : sentLog (replies ++ [.tookResponse (.ok (some info))]) = sentLog replies := by
    rw [sentLog_snoc]
    exact List.append_nil _
  have hdone : completedNumbers (replies ++ [.tookResponse (.ok (some info))]) =
      completedNumbers replies ++ [info.requestId.sequenceNumber] := completedNumbers_snoc
  refine ⟨hgid.trans h.owner, ?_, ?_, ?_, fun n => ?_, ?_, h.ended_snoc ClientReply.noConfusion,
    fun before info' rest hsplit => ?_⟩
  · rw [hsent, hnext]
    exact h.below
  · rw [hsent]
    exact h.increasing
  · rw [houtstanding]
    exact unique_completed h.unique
  · rw [hsent, hdone, houtstanding, outstanding_completed h.unique hoccupied, h.outstanding, hnumber,
      List.mem_append, List.mem_singleton, not_or]
    constructor
    · exact fun hn => ⟨hn.2.1, hn.2.2, hn.1⟩
    · exact fun hn => ⟨hn.2.2, hn.1, hn.2.1⟩
  · rw [hdone]
    refine List.nodup_append.2 ⟨h.once, List.nodup_singleton _, fun a ha b hb heq => hnotDone ?_⟩
    rw [← List.mem_singleton.1 hb, ← heq]
    exact ha
  · rcases snoc_eq_append_cons hsplit with ⟨hlast, rfl⟩ | ⟨rest', -, hsplit⟩
    · cases hlast
      obtain ⟨rfl, -⟩ := List.append_inj' hsplit rfl
      exact ⟨hguid.trans h.owner, hsentBefore, hnotDone⟩
    · exact h.sound before info' rest' hsplit

/-- **Every event keeps the invariant.** -/
theorem perform_inv (h : c.ClientInv gid replies) (event : ClientEvent language) :
    (c.perform e event).2.ClientInv gid (replies ++ [(c.perform e event).1]) := by
  cases event with
  | send arguments published =>
    have hperform : c.perform e (.send arguments published) =
        (.sent (c.sendRequest arguments published).1, (c.sendRequest arguments published).2) := rfl
    rw [hperform]
    rcases c.sendRequest_cases arguments published with ⟨error, hsend⟩ | ⟨slot, hfree, hsend⟩
    · rw [hsend]
      exact h.kept ⟨rfl, rfl, rfl⟩ rfl rfl ClientReply.noConfusion
    · rw [hsend]
      exact h.sent hfree
  | arrive arrival => exact h.kept ⟨rfl, rfl, rfl⟩ rfl rfl ClientReply.noConfusion
  | takeResponse arrivals message =>
    obtain ⟨result, c', message', hends, heffect⟩ :
        ∃ result c' message', (∀ more, c.takeResponseLoop e (c.iterations arrivals + more) arrivals message =
          some (result, c', message')) ∧ ResponseEffect c result c' := takeResponseLoop_ends (Nat.lt_succ_self _)
    have hloop : c.takeResponseLoop e (c.iterations arrivals) arrivals message = _ := hends 0
    unfold perform
    dsimp only
    rw [hloop, Option.elim_some]
    cases heffect with
    | kept hsame hnone =>
      refine h.kept hsame rfl ?_ ClientReply.noConfusion
      rcases result with _ | (_ | info)
      · rfl
      · rfl
      · exact absurd rfl (hnone info)
    | completed hslot hgid hnext houtstanding => exact h.completed hslot hgid hnext houtstanding

omit [NeZero D] in
theorem clientInv_initial (gid : Gid) (responses : Subscription D) :
    ClientInv { gid, responses } gid [] := by
  have hfree : ∀ i, ((Vector.replicate serviceOutstandingCapacity ({} : OutstandingRequest)).get i).occupied =
      false := fun i => congrArg OutstandingRequest.occupied (Vector.getElem_replicate i.2)
  refine ⟨rfl, fun n hn => absurd hn List.not_mem_nil, .nil, fun i j hi => ?_, fun n => ?_, List.nodup_nil,
    List.not_mem_nil, fun before info rest hsplit => ?_⟩
  · rw [hfree i] at hi
    cases hi
  · refine iff_of_false ?_ fun hn => absurd hn.1 List.not_mem_nil
    rintro ⟨i, hi, -⟩
    rw [hfree i] at hi
    cases hi
  · exact absurd hsplit.symm (List.append_ne_nil_of_right_ne_nil before (List.cons_ne_nil _ rest))

omit [NeZero D] in
/-- The requests without a response are as many as fit into the table. -/
theorem ClientInv.length_le (h : c.ClientInv gid replies) :
    ((sentLog replies).filter (· ∉ completedNumbers replies)).length ≤ serviceOutstandingCapacity := by
  have hnodup : ((sentLog replies).filter (· ∉ completedNumbers replies)).Nodup :=
    (h.increasing.imp fun hlt => hlt.ne).filter _
  have hsubset : (sentLog replies).filter (· ∉ completedNumbers replies) ⊆
      c.outstanding.toList.map OutstandingRequest.sequence := by
    intro n hn
    obtain ⟨hsent, hnot⟩ := List.mem_filter.1 hn
    obtain ⟨i, -, hnumber⟩ := (h.outstanding n).2 ⟨hsent, of_decide_eq_true hnot⟩
    refine List.mem_map.2 ⟨c.outstanding.get i, ?_, hnumber⟩
    exact Vector.mem_toList_iff.2 (Vector.getElem_mem i.2)
  calc ((sentLog replies).filter (· ∉ completedNumbers replies)).length
      ≤ (c.outstanding.toList.map OutstandingRequest.sequence).length :=
        (List.subperm_of_subset hnodup hsubset).length_le
    _ = serviceOutstandingCapacity := by rw [List.length_map, Vector.length_toList]

theorem clientRun_inv (e : Endpoint language) (gid : Gid) (responses : Subscription D)
    (events : List (ClientEvent language)) :
    (clientRun e { gid, responses } events).1.ClientInv gid (clientRun e { gid, responses } events).2 :=
  collect_history (P := fun replies (c : ServiceClient D) => c.ClientInv gid replies)
    (fun _ _ event h => perform_inv h event) (clientInv_initial gid responses) events

/-- **Service responses complete each request at most once.** In every run of a client, with publications
that succeed or fail and any datagrams at its response subscription, also while a take runs: the sequence
ids that sends return increase; a send that fails changes nothing; a response that is taken carries the GID
of the client and an id that was sent and not completed before; the table holds, once each, the ids that
were sent and not completed, at most 32 of them; and every take ends, of the run and after it, with a
result that does not depend on how many more iterations are allowed. -/
theorem service_responses_complete_once (e : Endpoint language) (gid : Gid) (responses : Subscription D)
    (events : List (ClientEvent language)) :
    let r := clientRun e { gid, responses } events
    let sent := sentLog r.2
    let completed := (completedLog r.2).map RequestId.sequenceNumber
    sent.Pairwise (· < ·) ∧
      (∀ arguments published error, (r.1.sendRequest arguments published).1 = .error error →
        (r.1.sendRequest arguments published).2 = r.1) ∧
      (∀ before info rest, r.2 = before ++ .tookResponse (.ok (some info)) :: rest →
        info.requestId.writerGuid = gid ∧ info.requestId.sequenceNumber ∈ sentLog before ∧
          info.requestId.sequenceNumber ∉ (completedLog before).map RequestId.sequenceNumber) ∧
      (∀ n, (∃ i, (r.1.outstanding.get i).occupied = true ∧ (r.1.outstanding.get i).sequence = n) ↔
        n ∈ sent ∧ n ∉ completed) ∧
      (∀ i j, (r.1.outstanding.get i).occupied = true → (r.1.outstanding.get j).occupied = true →
        (r.1.outstanding.get i).sequence = (r.1.outstanding.get j).sequence → i = j) ∧
      (sent.filter (· ∉ completed)).length ≤ serviceOutstandingCapacity ∧
      .unfinished ∉ r.2 ∧
      (∀ arrivals message, ∃ result, ∀ fuel, r.1.iterations arrivals ≤ fuel →
        r.1.takeResponseLoop e fuel arrivals message = some result) := by
  intro r sent completed
  have hinv : r.1.ClientInv gid r.2 := clientRun_inv e gid responses events
  refine ⟨hinv.increasing, fun arguments published error herror => ?_, hinv.sound, hinv.outstanding,
    hinv.unique, hinv.length_le, hinv.ended, fun arrivals message => ?_⟩
  · rcases r.1.sendRequest_cases arguments published with ⟨error', hsend⟩ | ⟨slot, -, hsend⟩
    · rw [hsend]
    · rw [hsend] at herror
      cases herror
  · obtain ⟨result, c', message', hends, -⟩ := takeResponseLoop_ends (Nat.lt_succ_self (r.1.pending arrivals))
    refine ⟨(result, c', message'), fun fuel hfuel => ?_⟩
    obtain ⟨more, rfl⟩ := Nat.exists_eq_add_of_le hfuel
    exact hends more

/-- A response with a byte to a request of the client with the GID of zeros. -/
def byteResponse (sequenceNumber request : ℕ) : Arrival where
  packet := remoteDatagram sequenceNumber (correlationEnvelope ⟨.replicate 16 0, request⟩ ++ [0, 1, 0, 0, 9])
  sourceTimestampNs := 1
  receivedTimestampNs := 2

/-- A client whose response type is a byte sends, fails to send, sends again and takes the response to its
second request, which arrives twice. -/
def answeredTwice : ServiceClient 2 × List ClientReply :=
  clientRun { byteTopic with channel := .serviceResponse }
    { gid := .replicate 16 0, responses := .init (.replicate 12 1) (readerId 0) 29 false }
    [.send true true, .send true false, .send true true, .arrive (byteResponse 1 2),
      .takeResponse [[byteResponse 2 2]] (byteMessage 0), .takeResponse [] (byteMessage 0)]

/-- The second request is completed once, and the first one is outstanding. -/
theorem byte_request_completed_once :
    sentLog answeredTwice.2 = [1, 2] ∧
      (completedLog answeredTwice.2).map RequestId.sequenceNumber = [2] ∧
      ∀ n, (∃ i, (answeredTwice.1.outstanding.get i).occupied = true ∧
        (answeredTwice.1.outstanding.get i).sequence = n) ↔ n = 1 := by
  have hsent : sentLog answeredTwice.2 = [1, 2] := by decide +kernel
  have hcompleted : (completedLog answeredTwice.2).map RequestId.sequenceNumber = [2] := by decide +kernel
  obtain ⟨-, -, -, htable, -⟩ := service_responses_complete_once { byteTopic with channel := .serviceResponse }
    (.replicate 16 0) (.init (.replicate 12 1) (readerId 0) 29 false : Subscription 2) _
  refine ⟨hsent, hcompleted, fun n => (htable n).trans ?_⟩
  change n ∈ sentLog answeredTwice.2 ∧ n ∉ (completedLog answeredTwice.2).map RequestId.sequenceNumber ↔ n = 1
  rw [hsent, hcompleted]
  simp only [List.mem_cons, List.not_mem_nil, or_false]
  omega

end Invariant

end ServiceClient

end OpenRtdds
