import OpenRtdds.Lib.Run
import OpenRtdds.Spec.Endpoint

/-!
# Runs of a publisher

The calls on a publisher, each with its answer: `publish_sample` and `publisher_network_copy_next`. A walk
asks for one sample after the other and gives the number of each back as the bound of the next call.
-/

namespace OpenRtdds

open Lib

/-- A call on a publisher; `clock` is the source timestamp if the clock can be read. -/
inductive PublisherCall (language : TypeSupportLanguage) where
  | publish (shutdown : Bool) (message : Sample language) (requestId : Option RequestId) (clock : Option ℕ)
  | copyNext (afterSequence capacity : ℕ)

/-- The answer to a call. -/
inductive PublisherReply where
  | published
  | failed (error : PublishSampleError)
  | copied (result : Option (ℕ × List UInt8))

namespace Endpoint

variable {language : TypeSupportLanguage} {D : ℕ} [NeZero D]

/-- One call, with its answer. -/
def publisherCall (e : Endpoint language) (p : Publisher D) :
    PublisherCall language → PublisherReply × Publisher D
  | .publish shutdown message requestId clock =>
    match e.publishSample shutdown p message requestId clock with
    | .error error => (.failed error, p)
    | .ok p' => (.published, p')
  | .copyNext afterSequence capacity => (.copied (p.networkCopyNext afterSequence capacity), p)

/-- The publisher after a run of calls, and the calls with their answers. -/
def publisherRun (e : Endpoint language) (p : Publisher D) (calls : List (PublisherCall language)) :
    Publisher D × List (PublisherCall language × PublisherReply) :=
  collect (fun p call => ((e.publisherCall p call).2, [(call, (e.publisherCall p call).1)])) p calls

/-- The timestamp and the serialized bytes of a call that published: the bytes that the message
serializes to, behind the envelope of a service sample. -/
def publishedBytes (e : Endpoint language) : PublisherCall language × PublisherReply → Option (ℕ × List UInt8)
  | (.publish _ message requestId (some timestamp), .published) =>
    match e.type.serialize message e.type.info.maximumSerializedSize .littleEndian with
    | .error _ => none
    | .ok body => some (timestamp, (requestId.map correlationEnvelope).getD [] ++ body)
  | _ => none

/-- The samples that were published in a run, numbered from one. -/
def publishedLog (e : Endpoint language) (trace : List (PublisherCall language × PublisherReply)) :
    List PublishedSample :=
  (trace.filterMap e.publishedBytes).mapIdx fun index sample =>
    { sequenceNumber := index + 1, sourceTimestampNs := sample.1, payload := sample.2 }

end Endpoint

/-- A walk over the history of a publisher: the number it asks behind, and those it has delivered. -/
structure HistoryWalk (D : ℕ) where
  publisher : Publisher D
  cursor : ℕ
  delivered : List ℕ

/-- What happens in a walk: any call on the publisher, or its next step. -/
inductive WalkEvent (language : TypeSupportLanguage) where
  | call (call : PublisherCall language)
  | next (capacity : ℕ)

/-- A walk after an event. -/
def Endpoint.walk {language : TypeSupportLanguage} {D : ℕ} [NeZero D] (e : Endpoint language)
    (w : HistoryWalk D) : WalkEvent language → HistoryWalk D
  | .call call => { w with publisher := (e.publisherCall w.publisher call).2 }
  | .next capacity =>
    (w.publisher.networkCopyNext w.cursor capacity).elim w fun sample =>
      { w with cursor := sample.1, delivered := w.delivered ++ [sample.1] }

end OpenRtdds
