import OpenRtdds.Proof.NoFalseDelivery
import OpenRtdds.Proof.AckedQueued
import OpenRtdds.Proof.Association
import OpenRtdds.Proof.RoundTrip
import OpenRtdds.Proof.Atomicity
import OpenRtdds.Proof.ServiceSample
import OpenRtdds.Proof.Identity
import OpenRtdds.Proof.LinkFlow
import OpenRtdds.Proof.Repairs
import OpenRtdds.Proof.ReliabilityMessages
import OpenRtdds.Proof.Router
import OpenRtdds.Proof.TopicSample
import OpenRtdds.Proof.Transactional
import OpenRtdds.Proof.ValidRtps
import OpenRtdds.Proof.ParserSafety
import OpenRtdds.Proof.EndpointMatch
import OpenRtdds.Proof.ParameterOrder
import OpenRtdds.Proof.GraphCapacity
import OpenRtdds.Proof.GraphQuery
import OpenRtdds.Proof.GraphViews
import OpenRtdds.Proof.Discovery
import OpenRtdds.Proof.Sending
import OpenRtdds.Proof.ParticipantTable
import OpenRtdds.Proof.EndpointTable
import OpenRtdds.Proof.AdapterHandles
import OpenRtdds.Proof.KeepLastHistory
import OpenRtdds.Proof.SubscriptionQueue
import OpenRtdds.Proof.PublisherHistory
import OpenRtdds.Proof.ServiceClient
import OpenRtdds.Proof.CdrRoundTrip
import OpenRtdds.Proof.MatchedEvents
import OpenRtdds.Proof.DirectMessage
import OpenRtdds.Proof.ControlCounts
import OpenRtdds.Proof.SpdpPorts
import OpenRtdds.Proof.StringReads
import OpenRtdds.Proof.QosVerdict
