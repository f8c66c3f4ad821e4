import AppChat.Foundation.Transition
import AppChat.Storage.Database
import AppChat.Storage.MemorySqlite
import AppChat.Storage.ChatSafety
import AppChat.Channel.Channel
import AppChat.Channel.ChannelsManager
import AppChat.Channel.Membership
import AppChat.Channel.ChatState
import AppChat.Channel.History
import AppChat.Foundation.ProtoWire
import AppChat.Protocol.Messages
import AppChat.Protocol.Framing
import AppChat.Connection.ReadLoop
import AppChat.Connection.Server
import AppChat.Connection.Subscriptions
import AppChat.Connection.Delivery
import AppChat.Connection.Accounts
import AppChat.Connection.AccountIds
import AppChat.Channel.Interference
import AppChat.Client.Client
import AppChat.Client.Identity
import AppChat.Connection.Sessions
import AppChat.Connection.Handlers
import AppChat.Connection.SendQueue
import AppChat.Connection.Responses
import AppChat.Connection.Registrations
import AppChat.Channel.RoomThreads
import AppChat.Channel.RoomRaces
import AppChat.Channel.RoomJoins
import AppChat.Foundation.Calendar
import AppChat.Protocol.DateTime
import AppChat.Channel.Leaving
import AppChat.Client.BodySize
import AppChat.Client.ReadHandlers
import AppChat.Foundation.WriteQueue
import AppChat.Protocol.Sending
import AppChat.Connection.Frames
import AppChat.Storage.HistoryFaithful
import AppChat.Connection.Recycling
import AppChat.Connection.Reuse
import AppChat.Connection.Pipelining
import AppChat.Connection.Writes
import AppChat.Client.RoomHistory
import AppChat.Foundation.ProtoMerge
import AppChat.Protocol.Merging
import AppChat.Client.Segments
import AppChat.Client.Windows
import AppChat.Connection.Answers
import AppChat.Connection.Durability
import AppChat.Connection.Segments
import AppChat.Client.Station
import AppChat.Connection.Provenance
import AppChat.Connection.Requests
import AppChat.System.EndToEnd
