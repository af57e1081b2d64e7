import OpenRtdds.Lib.Run
import OpenRtdds.Lib.Table
import OpenRtdds.Spec.Endpoint

/-!
# Service clients

`rmw_send_request` and `rmw_take_response` of `rmw_openrtdds_cpp/src/services.cpp`: a client numbers its
requests, keeps those without a response in a table of 32 entries, and takes from its response
subscription what answers one of them.

Whether the request publisher accepts a request is left open. `rmw_take_response` locks the subscription
anew for each sample, so that datagrams may arrive while its loop runs; a batch of them is delivered
before each lock.
-/

namespace OpenRtdds

open Lib

/-- `kServiceOutstandingCapacity`. -/
def serviceOutstandingCapacity : ℕ := 32

/-- `OutstandingRequest`. -/
structure OutstandingRequest where
  sequence : ℕ := 0
  occupied : Bool := false

/-- `ClientData`: the stable GID, the next sequence number and the table. -/
structure ClientData where
  gid : Gid
  nextSequence : ℕ := 1
  outstanding : Vector OutstandingRequest serviceOutstandingCapacity := .replicate _ {}

/-- A client with its response subscription. -/
structure ServiceClient (D : ℕ) extends ClientData where
  responses : Subscription D

/-- Why `rmw_send_request` returns an error. -/
inductive SendRequestError where
  | invalidArgument
  | tableFull
  | sequenceExhausted
  | publishFailed
  deriving DecidableEq

namespace ClientData

/-- The client once `rmw_send_request` has published its next request. -/
def request (c : ClientData) : Except SendRequestError ClientData :=
  (c.outstanding.findFinIdx? fun request => !request.occupied).elim (.error .tableFull) fun slot =>
    if c.nextSequence = 0 ∨ c.nextSequence = int64Max then .error .sequenceExhausted
    else .ok
      { c with
        outstanding := setSlot c.outstanding slot { sequence := c.nextSequence, occupied := true }
        nextSequence := c.nextSequence + 1 }

/-- The entry of a request that has its response. -/
def complete (c : ClientData) (slot : Fin serviceOutstandingCapacity) : ClientData :=
  { c with
    outstanding := setSlot c.outstanding slot { c.outstanding.get slot with occupied := false } }

theorem request_ok {c c' : ClientData} (h : c.request = .ok c') :
    ∃ slot, (c.outstanding.get slot).occupied = false ∧ c' =
      { c with
        outstanding := setSlot c.outstanding slot { sequence := c.nextSequence, occupied := true }
        nextSequence := c.nextSequence + 1 } := by
  unfold request at h
  cases hfree : c.outstanding.findFinIdx? fun request => !request.occupied with
  | none =>
    rw [hfree] at h
    cases h
  | some slot =>
    rw [hfree, Option.elim_some] at h
    split at h
    · cases h
    · obtain ⟨-, -, -, -, hslot, -⟩ := findFinIdx?_split hfree {}
      exact ⟨slot, by simpa using hslot, (Except.ok.inj h).symm⟩

end ClientData

/-- A datagram that arrives at the response subscription, with its two timestamps. -/
structure Arrival where
  packet : Span
  sourceTimestampNs : ℕ
  receivedTimestampNs : ℕ

namespace ServiceClient

variable {language : TypeSupportLanguage} {D : ℕ}

/-- `rmw_send_request` for a valid client. `arguments` says whether the request and the output are there,
`published` whether `publish_service_sample` succeeds. -/
def sendRequest (c : ServiceClient D) (arguments published : Bool) :
    Except SendRequestError ℕ × ServiceClient D :=
  if !arguments then (.error .invalidArgument, c)
  else match c.request with
    | .error e => (.error e, c)
    | .ok client =>
      if !published then (.error .publishFailed, c)
      else (.ok c.nextSequence, { c with toClientData := client })

/-- `accept_client_response`: the entry of the table that the identity of a response matches. -/
def acceptClientResponse (c : ServiceClient D) (candidate : RequestId) :
    Option (Fin serviceOutstandingCapacity) :=
  if candidate.writerGuid != c.gid then none
  else c.outstanding.findFinIdx? fun request =>
    request.occupied && request.sequence == candidate.sequenceNumber

variable [NeZero D]

/-- A datagram arrives. -/
def arrive (c : ServiceClient D) (arrival : Arrival) : ServiceClient D :=
  { c with
    responses := (c.responses.receiveDataMessage arrival.packet arrival.sourceTimestampNs
      arrival.receivedTimestampNs).2 }

/-- The loop of `rmw_take_response`, with the datagrams that arrive before each lock; `none` if it has not
ended after `fuel` iterations. -/
def takeResponseLoop (e : Endpoint language) : ℕ → ServiceClient D → List (List Arrival) →
    Sample language →
    Option (Except TakeServiceError (Option ServiceInfo) × ServiceClient D × Sample language)
  | 0, _, _, _ => none
  | fuel + 1, c, arrivals, message =>
    let c := run arrive c (arrivals.headD [])
    let r := e.takeService c.responses (some fun id => (c.acceptClientResponse id).isSome) message
    match r.1 with
    | .error error => some (.error error, { c with responses := r.2.1 }, r.2.2)
    | .ok taken =>
      match taken with
      | none =>
        -- the sample was not for this client, or there was none
        let c := run arrive { c with responses := r.2.1 } (arrivals.tail.headD [])
        if c.responses.historySize ≠ 0 then takeResponseLoop e fuel c arrivals.tail.tail r.2.2
        else some (.ok none, c, r.2.2)
      | some info =>
        (c.acceptClientResponse info.requestId).elim
          (takeResponseLoop e fuel { c with responses := r.2.1 } arrivals.tail r.2.2)
          fun slot =>
            some (.ok (some info), { toClientData := c.complete slot, responses := r.2.1 }, r.2.2)

/-- The number of iterations after which the loop has ended. -/
def iterations (c : ServiceClient D) (arrivals : List (List Arrival)) : ℕ :=
  c.responses.historySize + 2 * arrivals.flatten.length + 1

end ServiceClient

/-- What happens to a client. -/
inductive ClientEvent (language : TypeSupportLanguage) where
  | send (arguments published : Bool)
  | arrive (arrival : Arrival)
  | takeResponse (arrivals : List (List Arrival)) (message : Sample language)

/-- What a call answers. -/
inductive ClientReply where
  | sent (result : Except SendRequestError ℕ)
  | arrived
  | tookResponse (result : Except TakeServiceError (Option ServiceInfo))
  | unfinished

namespace ServiceClient

variable {language : TypeSupportLanguage} {D : ℕ} [NeZero D]

/-- One event, with its answer. -/
def perform (e : Endpoint language) (c : ServiceClient D) :
    ClientEvent language → ClientReply × ServiceClient D
  | .send arguments published =>
    (.sent (c.sendRequest arguments published).1, (c.sendRequest arguments published).2)
  | .arrive arrival => (.arrived, c.arrive arrival)
  | .takeResponse arrivals message =>
    (c.takeResponseLoop e (c.iterations arrivals) arrivals message).elim (.unfinished, c) fun r =>
      (.tookResponse r.1, r.2.1)

/-- The client after a run of events, and the answers. -/
def clientRun (e : Endpoint language) (c : ServiceClient D) (events : List (ClientEvent language)) :
    ServiceClient D × List ClientReply :=
  collect (fun c event => ((c.perform e event).2, [(c.perform e event).1])) c events

/-- The sequence id that a call has returned. -/
def sentId : ClientReply → Option ℕ
  | .sent (.ok id) => some id
  | _ => none

/-- The request that a call has completed. -/
def completedId : ClientReply → Option RequestId
  | .tookResponse (.ok (some info)) => some info.requestId
  | _ => none

/-- The sequence ids that were sent in a run. -/
def sentLog (replies : List ClientReply) : List ℕ := replies.filterMap sentId

/-- The requests that were completed in a run. -/
def completedLog (replies : List ClientReply) : List RequestId := replies.filterMap completedId

end ServiceClient

end OpenRtdds
