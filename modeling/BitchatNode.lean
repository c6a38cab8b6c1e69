import BitchatNode.Packages
import BitchatNode.Python.Dict
import BitchatNode.Python.Exec
import BitchatNode.Python.Utf8
import BitchatNode.Encryption
import BitchatNode.NoiseChannel
import BitchatNode.XXAgreement
import BitchatNode.Protocol
import BitchatNode.Node
import BitchatNode.Mesh
import BitchatNode.PacketCodec
import BitchatNode.FragmentSets
import BitchatNode.FragmentDispatch
import BitchatNode.Footprint
import BitchatNode.Bystander
import BitchatNode.NewMessages
import BitchatNode.MessageCodec
import BitchatNode.Runs
import BitchatNode.ChannelSecrecy
import BitchatNode.Link
import BitchatNode.NonceSync
import BitchatNode.InStep
import BitchatNode.PeerLoss
import BitchatNode.Broadcasting
import BitchatNode.Presence
import BitchatNode.Framing
import BitchatNode.AtMostOnce
import BitchatNode.Systems
import BitchatNode.Transport
import BitchatNode.ConnectionTable
import BitchatNode.Relaying
import BitchatNode.Flooding
import BitchatNode.Network
import BitchatNode.Storm
import BitchatNode.Strangers
import BitchatNode.Queues
import BitchatNode.PrivateOrder
import BitchatNode.Reaching
import BitchatNode.Convergence
import BitchatNode.HandshakeTable
import BitchatNode.NonceReuse
import BitchatNode.Restart
import BitchatNode.Startup
import BitchatNode.PrivateDelivery
import BitchatNode.BlockedPeers
import BitchatNode.Python.Words
import BitchatNode.Client.State
import BitchatNode.Client.Commands
import BitchatNode.Client.Packets
import BitchatNode.Client.Channels
import BitchatNode.Client.KeyCommitments
import BitchatNode.Client.Ownership
import BitchatNode.Truncation
import BitchatNode.AnnouncementCodec
import BitchatNode.SignedIdentity
import BitchatNode.Fragmentation
import BitchatNode.ForgedCiphertexts
import BitchatNode.Parts
import BitchatNode.AtomicSending
import BitchatNode.RelayedAcks
import BitchatNode.MessageIds
import BitchatNode.Api
import BitchatNode.ContentSecrecy
import BitchatNode.Client.Conversation
import BitchatNode.Client.Sessions
import BitchatNode.Announcements
import BitchatNode.Client.Numbering
import BitchatNode.InterruptedSave
import BitchatNode.JsonAnnouncements
import BitchatNode.Padding
import BitchatNode.Config
import BitchatNode.SavedNickname
import BitchatNode.Farewell
import BitchatNode.AckReports
import BitchatNode.ChannelTables
import BitchatNode.Dashboard
import BitchatNode.Client.Typing
import BitchatNode.Replays
import BitchatNode.Shutdown
import BitchatNode.Discovery
