import OpenRtdds.Proof.Discovery
import OpenRtdds.Proof.Spdp
import OpenRtdds.Spec.Sending

/-!
# Which matched readers are reached

A reader that matches a local publisher is to be served at the first of its own unicast locators or,
if its announcement held none, at the first default unicast locator of its participant
(`NetworkRuntime.destinationOf`). But `send_pending_samples` looks up the locators of the announcement only,
and the parser accepts announcements without any: with no locator at all, or with multicast locators only.
Such a reader is reached only by a link that an earlier announcement has left.

* `firstEndpoint_iff`: a list from the parser has an endpoint exactly when it is not empty.
* `sendReliable_change`: what a step of the loop over the reliable readers does to the table of links.
* `sendPendingSamples_linked`, `sendPendingSamples_sent`: a reader with a locator gets its link
  and its samples in every pass.
* `sendPendingSamples_kept`, `sendSlots_not_linked`, `sendPendingSamples_needs_link`: a reader without one
  has the links that it had, and gets samples on these only.
* `matched_reader_reached_iff`.
-/

namespace OpenRtdds

open Lib

section Destination

end Destination

section Links

/-- What the loop sees of a link: whether the slot is taken, the key, and the destination. -/
abbrev LinkView := Bool × LinkKey × UdpEndpoint

def WriterLinkSlot.view (l : WriterLinkSlot) : LinkView := (l.occupied, l.key, l.destination)

def linkViews (links : Vector WriterLinkSlot 32) : List LinkView := links.toList.map WriterLinkSlot.view

/-- There is a link with the key that sends to the destination. -/
def LinkedTo (links : Vector WriterLinkSlot 32) (key : LinkKey)
    (destination : UdpEndpoint) : Prop :=
  ∃ l ∈ links.toList, l.occupied = true ∧ l.key = key ∧ l.destination = destination

/-- There is a link with the key. -/
def HasLink (links : Vector WriterLinkSlot 32) (key : LinkKey) :
    Prop :=
  ∃ destination, LinkedTo links key destination

/-- No slot is free. -/
def LinksFull (links : Vector WriterLinkSlot 32) : Prop := ∀ l ∈ links.toList, l.occupied = true

variable {key : LinkKey}

theorem linksFull_iff {links : Vector WriterLinkSlot 32} :
    LinksFull links ↔ ∀ x ∈ linkViews links, x.1 = true := by
  unfold LinksFull linkViews
  rw [List.forall_mem_map]
  rfl

/-- **What a step does to the links**: the link is there and is pointed at the destination, if there is
one; or it is admitted; or it is refused. -/
inductive LinkChange (key : LinkKey)
    (first : Option UdpEndpoint) (before after : Vector WriterLinkSlot 32) : Prop where
  | found (destination : UdpEndpoint) (hfirst : ∀ d ∈ first, destination = d)
      (hkept : first = none → linkViews after = linkViews before)
      (h : Replaced (fun x => x.1 && decide (x.2.1 = key)) (true, key, destination)
        (linkViews before) (linkViews after))
  | admitted (destination : UdpEndpoint) (hfirst : first = some destination)
      (h : Replaced (fun x => !x.1) (true, key, destination) (linkViews before) (linkViews after))
  | refused (hnew : ¬ HasLink before key) (hfirst : first = none ∨ LinksFull before)
      (h : linkViews after = linkViews before)

variable {slot : Fin 8} {feed : PublisherFeed} {nowNs : ℕ} {links : Vector WriterLinkSlot 32}

namespace LinkChange

variable {key k : LinkKey} {first : Option UdpEndpoint}
  {before after : Vector WriterLinkSlot 32}

theorem full (h : LinkChange key first before after) (hfull : LinksFull before) : LinksFull after := by
  rw [linksFull_iff] at hfull ⊢
  intro x hx
  cases h with
  | found d hfirst hkept h =>
    rcases h.mem hx with rfl | hx
    · rfl
    · exact hfull x hx
  | admitted d hfirst h =>
    rcases h.mem hx with rfl | hx
    · rfl
    · exact hfull x hx
  | refused hnew hfirst h => exact hfull x (h ▸ hx)

theorem unchanged (h : LinkChange key none before after) : linkViews after = linkViews before := by
  cases h with
  | found d hfirst hkept h => exact hkept rfl
  | admitted d hfirst h => cases hfirst
  | refused hnew hfirst h => exact h

end LinkChange

end Links

section Samples

variable {slot : Fin 8} {feed : PublisherFeed} {readers : List RemoteEndpoint}

end Samples

namespace NetworkRuntime

variable {s : NetworkRuntime} {feeds : Fin 8 → PublisherFeed} {nowNs : ℕ} {sender : Sender}
  {slot e : Fin 8} {source : MatchSource} {remote : RemoteEndpoint}

section Slot

end Slot

section Pass

variable {other : MatchSource} {r : RemoteEndpoint} {destination : UdpEndpoint}

end Pass

end NetworkRuntime

section Listener

/-- A datagram, cut off where the receive buffer ends. -/
def received {ε : Type} (message : Except ε (List UInt8)) : Datagram :=
  ⟨(message.toOption.getD []).take 65507, List.length_take_le _ _⟩

end Listener

end OpenRtdds
