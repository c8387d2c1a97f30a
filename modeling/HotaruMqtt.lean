import HotaruMqtt.Exec.Loop
import HotaruMqtt.Exec.Bytes
import HotaruMqtt.Exec.Read
import HotaruMqtt.Framing.Incremental
import HotaruMqtt.Codec.Primitives
import HotaruMqtt.Codec.Decode
import HotaruMqtt.Codec.Encode
import HotaruMqtt.Codec.Frame
import HotaruMqtt.Framing.Entries
import HotaruMqtt.Codec.Accept.Publish
import HotaruMqtt.Codec.Accept.Connect
import HotaruMqtt.Codec.Shape
import HotaruMqtt.Codec.Layout
import HotaruMqtt.Codec.RoundTrip
import HotaruMqtt.Codec.Refusal
import HotaruMqtt.Codec.Safety
import HotaruMqtt.Codec.Chunking
import HotaruMqtt.Codec.Agreement
import HotaruMqtt.Codec.Reconstruct
import HotaruMqtt.Codec.Strict
import HotaruMqtt.Codec.PublishWriter
import HotaruMqtt.Client.Dispatch
import HotaruMqtt.Client.Loop
import HotaruMqtt.Client.Framing
import HotaruMqtt.Exec.Transition
import HotaruMqtt.Topic
import HotaruMqtt.Broker.Subscriptions
import HotaruMqtt.Broker.State
import HotaruMqtt.Broker.Operations
import HotaruMqtt.Broker.Fanout
import HotaruMqtt.Broker.Store
import HotaruMqtt.Broker.Wills
import HotaruMqtt.Server.Dispatch
import HotaruMqtt.Inbound
import HotaruMqtt.Broker.Calls
import HotaruMqtt.Broker.Pool
import HotaruMqtt.Broker.Stages
import HotaruMqtt.Broker.Granted
import HotaruMqtt.Broker.Entitled
import HotaruMqtt.Broker.Takeover
import HotaruMqtt.Server.Admission
import HotaruMqtt.Server.System
import HotaruMqtt.Server.Host
import HotaruMqtt.Server.Leak
import HotaruMqtt.Server.Graceful
import HotaruMqtt.Server.Work
import HotaruMqtt.Server.WillOrder
import HotaruMqtt.Server.Order
import HotaruMqtt.Broker.Alone
import HotaruMqtt.Broker.Superseded
import HotaruMqtt.Broker.Mirror
import HotaruMqtt.Server.Records
import HotaruMqtt.Broker.Carried
import HotaruMqtt.Server.Demand
import HotaruMqtt.Server.WellFormed
import HotaruMqtt.Server.Topics
import HotaruMqtt.Channel.Link
import HotaruMqtt.Channel.Moves
import HotaruMqtt.Channel.Drain
import HotaruMqtt.Channel.Shutdown
import HotaruMqtt.Channel.Release
import HotaruMqtt.Channel.Flow
import HotaruMqtt.Channel.Acks
import HotaruMqtt.Channel.Pubcomp
import HotaruMqtt.Channel.Atomic
import HotaruMqtt.Topic.Grammar
import HotaruMqtt.Topic.Matching
import HotaruMqtt.Broker.Wildcards
import HotaruMqtt.Broker.Present
import HotaruMqtt.Channel.Slots
import HotaruMqtt.PacketIds
import HotaruMqtt.Topic.Patterns
import HotaruMqtt.Server.Flight
import HotaruMqtt.Server.Gate
import HotaruMqtt.Codec.Consume
import HotaruMqtt.Codec.LengthCoding
import HotaruMqtt.Broker.Growth
import HotaruMqtt.Server.Anonymous
import HotaruMqtt.Channel.Ledger
import HotaruMqtt.Channel.Overlap
import HotaruMqtt.Client.Session
import HotaruMqtt.Exec.Handover
import HotaruMqtt.Network.ClientEnd
import HotaruMqtt.Network.Delivery
import HotaruMqtt.Network.Greeting
import HotaruMqtt.Network.Handshake
import HotaruMqtt.Broker.Progress
import HotaruMqtt.Network.EndToEnd
import HotaruMqtt.Server.Echo
import HotaruMqtt.Codec.PacketWriter
import HotaruMqtt.Exec.Pipe
import HotaruMqtt.Network.Wire
import HotaruMqtt.Server.Chain
