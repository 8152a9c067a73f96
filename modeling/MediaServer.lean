import MediaServer.Lib.IndexMap
import MediaServer.Lib.Lease
import MediaServer.Lib.Machine
import MediaServer.Lib.Custody
import MediaServer.Lib.Format
import MediaServer.Lib.Slots
import MediaServer.Lib.TaskGroup
import MediaServer.AudioMixer
import MediaServer.Utils.IndexMap2d
import MediaServer.Utils.TaskTable
import MediaServer.Cluster.IdGenerator
import MediaServer.Cluster.MediaTrack.Publisher
import MediaServer.Cluster.MediaTrack.Subscriber
import MediaServer.Cluster.Metadata.Room
import MediaServer.Cluster.Metadata.Registry
import MediaServer.Cluster.Metadata.Subscription
import MediaServer.Cluster.Metadata.Publication
import MediaServer.Cluster.Metadata.TrackView
import MediaServer.Cluster.Metadata.Convergence
import MediaServer.Endpoint.Messages
import MediaServer.Endpoint.BitrateAllocator
import MediaServer.Endpoint.RemoteTrack
import MediaServer.Endpoint.LocalTrack
import MediaServer.Endpoint.Internal
import MediaServer.Endpoint.Turns
import MediaServer.Endpoint.Steps
import MediaServer.Endpoint.Membership
import MediaServer.Endpoint.TrackTables
import MediaServer.Endpoint.TrackTrace
import MediaServer.Endpoint.Outputs
import MediaServer.Endpoint.RpcAccounting
import MediaServer.Endpoint.Allocation
import MediaServer.Cluster.ChannelNames
import MediaServer.Cluster.MessageChannel.Channels
import MediaServer.Cluster.AudioMixer.Publisher
import MediaServer.Cluster.AudioMixer.Subscriber
import MediaServer.Cluster.AudioMixer.Manual
import MediaServer.Cluster.AudioMixer.Mixer
import MediaServer.Cluster.AudioMixer.AutoMode
import MediaServer.Cluster.AudioMixer.ManualMode
import MediaServer.Cluster.AudioMixer.Announcements
import MediaServer.Lib.Lifecycle
import MediaServer.Transport.Messages
import MediaServer.Transport.Link
import MediaServer.Transport.Sdk
import MediaServer.Transport.Whip
import MediaServer.Transport.Whep
import MediaServer.Transport.RtpEngine
import MediaServer.Transport.Refinement
import MediaServer.Transport.StateTrace
import MediaServer.Endpoint.LinkState
import MediaServer.Transport.ClientRpc
import MediaServer.Lib.Presence
import MediaServer.Gateway.ServiceStore
import MediaServer.Gateway.Store
import MediaServer.Gateway.Representation
import MediaServer.Gateway.Handlers
import MediaServer.Gateway.Dispatch
import MediaServer.Gateway.Routing
import MediaServer.Gateway.Federation
import MediaServer.Gateway.Kinds
import MediaServer.Server.Worker
import MediaServer.Lib.Execution
import MediaServer.Server.Node
import MediaServer.Server.Accounting
import MediaServer.Server.Isolation
import MediaServer.Transport.SharedPort
import MediaServer.Connector.MsgQueue
import MediaServer.Connector.AgentService
import MediaServer.Record.Chunk
import MediaServer.Record.SessionReader
import MediaServer.Record.ObjectKey
import MediaServer.Console.Storage
import MediaServer.Connector.SqlStorage
import MediaServer.Connector.HookEvents
import MediaServer.Connector.RoomLifecycle
import MediaServer.Record.Ebml
import MediaServer.Record.WebmCues
import MediaServer.Record.CueRepair
import MediaServer.Record.SessionRecord
import MediaServer.Endpoint.RecordTrace
import MediaServer.Lib.Serial
import MediaServer.Lib.SortedSet
import MediaServer.Utils.SeqExtend
import MediaServer.Utils.SeqRewrite
import MediaServer.Utils.SeqOrder
import MediaServer.Utils.SeqReorder
import MediaServer.Utils.TsRewrite
import MediaServer.Endpoint.BudgetShares
import MediaServer.Endpoint.EgressCap
import MediaServer.Lib.Places
import MediaServer.Transport.TrackIds
import MediaServer.Lib.Always
import MediaServer.Transport.LiveTracks
import MediaServer.Transport.WhepWatch
import MediaServer.Cluster.MediaTrack.BitrateFeedback
import MediaServer.Transport.RtpEngineAudio
import MediaServer.Record.Conservation
import MediaServer.Endpoint.Selector.Layers
import MediaServer.Endpoint.Selector.Context
import MediaServer.Endpoint.Selector.H264Sim
import MediaServer.Endpoint.Selector.Vp8Sim
import MediaServer.Endpoint.Selector.Vp9Svc
import MediaServer.Endpoint.Selector.Vp9Frames
import MediaServer.Endpoint.Selector.KeyFrames
import MediaServer.Endpoint.Selector.LayerChoice
import MediaServer.Endpoint.Selector.LayerLimits
import MediaServer.LoudestSpeaker
import MediaServer.Cluster.AudioMixer.MixMinus
import MediaServer.Cluster.AudioMixer.OutputCounts
import MediaServer.Endpoint.RemoteLimit
import MediaServer.Gateway.BroadcastStats
import MediaServer.Transport.Payload.BitRead
import MediaServer.Transport.Payload.PictureId
import MediaServer.Transport.Payload.Vp8
import MediaServer.Transport.Payload.Vp9
import MediaServer.Transport.Payload.Rewrite
import MediaServer.Transport.Payload.Vp9Descriptor
import MediaServer.Transport.Payload.Vp9Reads
import MediaServer.Transport.LayerBitrates
import MediaServer.Transport.MediaConvert
import MediaServer.Transport.WhipMedia
import MediaServer.Codecs.Transcoder
import MediaServer.Transport.RtpEngineIngress
import MediaServer.Transport.RtpEngineClock
import MediaServer.Endpoint.Durations
import MediaServer.Lib.Answers
import MediaServer.Transport.BwePhases
import MediaServer.Record.MixerBuffer
import MediaServer.Record.Mixing
import MediaServer.Record.MixAccounting
import MediaServer.Record.VpxDemuxer
import MediaServer.Lib.BinaryHeap
import MediaServer.Lib.Interleaving
import MediaServer.Record.SessionMerge
import MediaServer.Record.Composer
import MediaServer.Record.ComposerOutput
import MediaServer.Record.ComposerRun
