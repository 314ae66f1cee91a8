import BoostChat.Lib.Transition
import BoostChat.Lib.WhileLoop
import BoostChat.Lib.Decimal
import BoostChat.Lib.BigEndian
import BoostChat.Lib.Framing
import BoostChat.Lib.RoundRobin
import BoostChat.Lib.Seats
import BoostChat.Lib.Threads
import BoostChat.Lib.ExceptState
import BoostChat.Lib.Base64
import BoostChat.Lib.Wire
import BoostChat.Lib.WireParsing
import BoostChat.Lib.WireStrings
import BoostChat.Lib.Crc
import BoostChat.Lib.PartitionPoint
import BoostChat.Basic
import BoostChat.CxxString
import BoostChat.Server.ChatMessage
import BoostChat.Server.MessageCodec
import BoostChat.Server.PacketConverter
import BoostChat.Server.UserSession
import BoostChat.Server.HsLogger
import BoostChat.Server.Party
import BoostChat.Server.MySQLManager
import BoostChat.Server.Transactions
import BoostChat.Server.TcpServer
import BoostChat.Server.Environment
import BoostChat.Server.Frames
import BoostChat.Server.Verification
import BoostChat.Server.System
import BoostChat.Server.DispatchPass
import BoostChat.Server.UpdateLoop
import BoostChat.Server.LoginOrder
import BoostChat.Server.Duplicates
import BoostChat.Server.Dispatch
import BoostChat.Server.Writer
import BoostChat.Server.Reader
import BoostChat.Server.SwapQueue
import BoostChat.Server.ThreadPool
import BoostChat.Server.Shutdown
import BoostChat.Server.ShutdownJobs
import BoostChat.Server.Admission
import BoostChat.Server.Identity
import BoostChat.Server.Authenticity
import BoostChat.Server.Conservation
import BoostChat.Server.Relay
import BoostChat.Server.Whispers
import BoostChat.Server.Membership
import BoostChat.Server.PartySessions
import BoostChat.Server.Parties
import BoostChat.Server.OneRequest
import BoostChat.Server.PartyLeave
import BoostChat.Server.PartyLifetime
import BoostChat.Server.PartyIds
import BoostChat.Server.PartyPointers
import BoostChat.Server.PartyDelivery
import BoostChat.Server.Friends
import BoostChat.Server.FriendConsent
import BoostChat.Server.ConnectionMode
import BoostChat.Server.FriendTables
import BoostChat.Server.FriendRequests
import BoostChat.Server.Replies
import BoostChat.Redis.HashSlot
import BoostChat.Redis.ClusterSlots
import BoostChat.Redis.Pool
import BoostChat.Redis.Routing
import BoostChat.Api.HStarContext
import BoostChat.Api.PasswordHelper
import BoostChat.Api.Repository
import BoostChat.Api.UserService
import BoostChat.Api.Responses
import BoostChat.Client.ChatClient
import BoostChat.Client.HttpClient
import BoostChat.Client.Commands
import BoostChat.Api.Tracking
import BoostChat.Api.Requests
import BoostChat.Api.Sessions
import BoostChat.Api.FailedWrites
import BoostChat.Api.LostUpdates
import BoostChat.Api.PartialUpdate
import BoostChat.Api.Credentials
import BoostChat.Api.AccountStore
import BoostChat.Api.AccountRefinement
import BoostChat.Client.Accounts
import BoostChat.Api.UniqueIds
import BoostChat.Api.Deletion
import BoostChat.Joint.System
import BoostChat.Joint.Binding
import BoostChat.Joint.Deletion
import BoostChat.Network.System
import BoostChat.Network.Channels
import BoostChat.Network.Delivery
