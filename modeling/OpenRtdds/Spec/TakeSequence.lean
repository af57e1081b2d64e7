import OpenRtdds.Lib.Run
import OpenRtdds.Spec.Endpoint

/-!
# Batch takes and runs of a topic subscription

`rmw_take_sequence` of `subscription.cpp`, which reads several samples from a fixed head and moves it
once, and the calls on the subscription of a topic, each with its answer.

The destinations of a batch are an array of pointers to different messages, so that writing one of them
does not change another.
-/

namespace OpenRtdds

open Lib

/-- Why `rmw_take_sequence` returns an error. -/
inductive TakeSequenceError where
  | invalidArguments
  | allocationUnsupported
  | contextShutdown
  | nullMessage
  | deserializationFailed (failure : CodecFailure)

/-- `rmw_message_sequence_t`; a null array is `none`, and so is a null entry. -/
structure MessageSequence (language : TypeSupportLanguage) where
  data : Option (ℕ → Option (Sample language))
  size : ℕ
  capacity : ℕ

/-- `rmw_message_info_sequence_t`. -/
structure MessageInfoSequence where
  data : Option (ℕ → MessageInfo)
  size : ℕ
  capacity : ℕ

/-- The arguments of `rmw_take_sequence` besides the subscription; `taken` and `allocation` say whether
these pointers are there. -/
structure TakeSequenceArguments (language : TypeSupportLanguage) where
  count : ℕ
  messages : Option (MessageSequence language)
  infos : Option MessageInfoSequence
  taken : Bool
  allocation : Bool

/-- The arrays of a batch. -/
structure Batch (language : TypeSupportLanguage) where
  messages : ℕ → Option (Sample language)
  infos : ℕ → MessageInfo

namespace Endpoint

variable {language : TypeSupportLanguage} {D : ℕ} [NeZero D]

/-- The call of `deserialize_xcdr1` for the payload of a sample. -/
def decode (e : Endpoint language) (payload : List UInt8) (message : Sample language) :
    Except CodecFailure ℕ × Sample language :=
  deserializeXcdr1 (stringsOf language) e.type.memory e.type.handle (.bytes payload)
    e.type.info.maximumSerializedSize message

/-- The loop of `rmw_take_sequence` for the offsets from `offset` on. -/
def takeLoop (e : Endpoint language) (s : Subscription D) :
    ℕ → ℕ → Batch language → Option TakeSequenceError × Batch language
  | 0, _, batch => (none, batch)
  | remaining + 1, offset, batch =>
    match batch.messages offset with
    | none => (some .nullMessage, batch)
    | some message =>
      let sample := s.history (wrap (s.historyHead + offset))
      match e.decode sample.payload message with
      | (.error failure, message') =>
        (some (.deserializationFailed failure),
          { batch with messages := Function.update batch.messages offset (some message') })
      | (.ok _, message') =>
        e.takeLoop s remaining (offset + 1)
          { messages := Function.update batch.messages offset (some message')
            infos := Function.update batch.infos offset sample.messageInfo }

/-- `rmw_take_sequence` for a valid subscription handle: the number of samples taken, the subscription
and the two sequences. -/
def takeSequence (e : Endpoint language) (s : Subscription D) (args : TakeSequenceArguments language) :
    Except TakeSequenceError ℕ × Subscription D × Option (MessageSequence language) ×
      Option MessageInfoSequence :=
  match args.messages, args.infos with
  | some messages, some infos =>
    if !args.taken || (args.count != 0 && (messages.data.isNone || infos.data.isNone)) ||
        decide (messages.capacity < args.count) || decide (infos.capacity < args.count) then
      (.error .invalidArguments, s, some messages, some infos)
    else if args.allocation then (.error .allocationUnsupported, s, some messages, some infos)
    else if s.shutdown then (.error .contextShutdown, s, some messages, some infos)
    else
      let available := min args.count s.historySize
      match messages.data, infos.data with
      | some pointers, some entries =>
        if available = 0 then
          (.ok 0, s, some { messages with size := 0 }, some { infos with size := 0 })
        else
          match e.takeLoop s available 0 ⟨pointers, entries⟩ with
          | (some error, batch) =>
            (.error error, s, some { messages with data := some batch.messages },
              some { infos with data := some batch.infos })
          | (none, batch) =>
            (.ok available, s.dropMany available,
              some { messages with data := some batch.messages, size := available },
              some { infos with data := some batch.infos, size := available })
      -- a null array passes the checks only if the count is zero
      | _, _ => (.ok 0, s, some { messages with size := 0 }, some { infos with size := 0 })
  | messages, infos => (.error .invalidArguments, s, messages, infos)

end Endpoint

/-- A call on the subscription of a topic, or the shutdown of its context. -/
inductive TopicCall (language : TypeSupportLanguage) where
  | receive (packet : Span) (sourceTimestampNs receivedTimestampNs : ℕ)
  | takeOne (message : Sample language)
  | takeSequence (args : TakeSequenceArguments language)
  | shutdown

/-- The answer to a call. -/
inductive TopicReply (language : TypeSupportLanguage) where
  | received (result : Except SubscriptionReceiveError SubscriptionReceiveResult)
  | took (result : Except TakeError (Option MessageInfo)) (message : Sample language)
  | tookSequence (result : Except TakeSequenceError ℕ) (messages : Option (MessageSequence language))
      (infos : Option MessageInfoSequence)
  | done

namespace Endpoint

variable {language : TypeSupportLanguage} {D : ℕ} [NeZero D]

/-- One call, with its answer. -/
def topicCall (e : Endpoint language) (s : Subscription D) :
    TopicCall language → TopicReply language × Subscription D
  | .receive packet source received =>
    let r := s.receiveDataMessage packet source received
    (.received r.1, r.2)
  | .takeOne message =>
    let r := e.takeOne s message
    (.took r.1 r.2.2, r.2.1)
  | .takeSequence args =>
    let r := e.takeSequence s args
    (.tookSequence r.1 r.2.2.1 r.2.2.2, r.2.1)
  | .shutdown => (.done, { s with shutdown := true })

/-- The subscription after a run of calls, and the calls with their answers. -/
def topicRun (e : Endpoint language) (s : Subscription D) (calls : List (TopicCall language)) :
    Subscription D × List (TopicCall language × TopicReply language) :=
  collect (fun s call => ((e.topicCall s call).2, [(call, (e.topicCall s call).1)])) s calls

end Endpoint

section Logs

variable {language : TypeSupportLanguage}

/-- The sample of a datagram that was accepted under a reception number. -/
def sampleOf (packet : Span) (source received reception : ℕ) : Option StoredSample :=
  match parseDataMessage packet with
  | .error _ => none
  | .ok view =>
    some
      { publisherGid := makeGid view.guidPrefix view.writerId
        publicationSequenceNumber := view.sequenceNumber
        receptionSequenceNumber := reception
        sourceTimestampNs := if source = 0 then rtpsTimestampNs view else source
        receivedTimestampNs := received
        payload := view.payload }

/-- The sample that a call accepted, from the datagram and the answer. -/
def acceptedSample : TopicCall language × TopicReply language → Option StoredSample
  | (.receive packet source received, .received (.ok (.accepted _ reception _))) =>
    sampleOf packet source received reception
  | _ => none

/-- The metadata of the samples that a call took. -/
def takenInfos : TopicCall language × TopicReply language → List MessageInfo
  | (_, .took (.ok (some info)) _) => [info]
  | (_, .tookSequence (.ok n) _ (some infos)) => (infos.data.map fun entries => (List.range n).map entries).getD []
  | _ => []

/-- All samples that were accepted in a run. -/
def acceptedLog (trace : List (TopicCall language × TopicReply language)) : List StoredSample :=
  trace.filterMap acceptedSample

/-- The metadata of all samples that were taken in a run. -/
def takenLog (trace : List (TopicCall language × TopicReply language)) : List MessageInfo :=
  trace.flatMap takenInfos

end Logs

end OpenRtdds
