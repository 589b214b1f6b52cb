import SvcLbMux.Library.Dict
import SvcLbMux.Library.Text
import SvcLbMux.Library.Loop
import SvcLbMux.Library.Registry
import SvcLbMux.Library.Sorted
import SvcLbMux.Config
import SvcLbMux.Models
import SvcLbMux.PortIdentity
import SvcLbMux.Annotations
import SvcLbMux.ChannelPorts
import SvcLbMux.PortAllocations
import SvcLbMux.Library.CheckedCell
import SvcLbMux.SharedStore
import SvcLbMux.MuxState
import SvcLbMux.ChannelClaims
import SvcLbMux.Owners
import SvcLbMux.Limits
import SvcLbMux.Controller
import SvcLbMux.ChannelLoop
import SvcLbMux.Pass
import SvcLbMux.Allocator
import SvcLbMux.ExclusivePorts
import SvcLbMux.AllocatedConflicts
import SvcLbMux.PersistedClaims
import SvcLbMux.Incumbents
import SvcLbMux.Steady
import SvcLbMux.NextPass
import SvcLbMux.Restart
import SvcLbMux.StaticChannels
import SvcLbMux.Rejections
import SvcLbMux.Endpoints
import SvcLbMux.Library.MergePatch
import SvcLbMux.MuxAnnotations
import SvcLbMux.Library.History
import SvcLbMux.EndpointsCache
import SvcLbMux.DebugState
import SvcLbMux.Iteration
import SvcLbMux.MalformedObjects
import SvcLbMux.MuxRoutes
import SvcLbMux.UnreadableSettings
import SvcLbMux.Recovery
import SvcLbMux.LostState
import SvcLbMux.Library.Growing
import SvcLbMux.Established
import SvcLbMux.HeldPorts
import SvcLbMux.Settling
import SvcLbMux.Library.Unique
import SvcLbMux.ExternalDns
import SvcLbMux.PortLimit
import SvcLbMux.PortReaders
import SvcLbMux.ClaimSources
import SvcLbMux.StaticClaims
import SvcLbMux.Library.Simulation
import SvcLbMux.Library.Json
import SvcLbMux.PortAllocator
import SvcLbMux.CorruptState
import SvcLbMux.EndpointsMetadata
import SvcLbMux.IndexOrder
import SvcLbMux.StateReading
import SvcLbMux.NameEncodings
import SvcLbMux.Library.Recency
import SvcLbMux.DebugEvents
import SvcLbMux.EventCache
import SvcLbMux.Library.Regex
import SvcLbMux.Refs
import SvcLbMux.MuxDebugger
import SvcLbMux.MuxDeletion
import SvcLbMux.Library.Emission
import SvcLbMux.Requests
import SvcLbMux.Writes
import SvcLbMux.Interruptions
import SvcLbMux.Quiescence
import SvcLbMux.OwnFields
import SvcLbMux.Library.Mailbox
import SvcLbMux.Notifications
import SvcLbMux.Wakeups
import SvcLbMux.Freshness
import SvcLbMux.PortRanges
import SvcLbMux.DebugTopology
import SvcLbMux.Library.Interleaving
import SvcLbMux.ManyMuxes
import SvcLbMux.Library.Base64
import SvcLbMux.DebugAuth
import SvcLbMux.DebugRoutes
import SvcLbMux.EventCounts
import SvcLbMux.ShownPorts
import SvcLbMux.KubeClient
