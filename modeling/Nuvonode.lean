import Nuvonode.Foundation.Machine
import Nuvonode.Foundation.Table
import Nuvonode.Foundation.Transaction
import Nuvonode.Foundation.Locking
import Nuvonode.Database.Schema
import Nuvonode.Foundation.Text
import Nuvonode.Foundation.Word
import Nuvonode.Database.Store
import Nuvonode.Foundation.Rounding
import Nuvonode.Service.Config
import Nuvonode.Service.Pricing
import Nuvonode.Repository.Statements
import Nuvonode.Service.Effects
import Nuvonode.Service.Ledger
import Nuvonode.Service.Operations
import Nuvonode.Contract.Ledger
import Nuvonode.Contract.Settlement
import Nuvonode.Service.Background
import Nuvonode.Service.Progress
import Nuvonode.Handler.Chat
import Nuvonode.Handler.System
import Nuvonode.Handler.Frame
import Nuvonode.Handler.CallInvariant
import Nuvonode.Handler.Invariant
import Nuvonode.Contract.Reservations
import Nuvonode.Contract.Conservation
import Nuvonode.Contract.Completion
import Nuvonode.Contract.Failures
import Nuvonode.Ws.Hub
import Nuvonode.Ws.Network
import Nuvonode.Ws.Sockets
import Nuvonode.Contract.Connections
import Nuvonode.Handler.Api
import Nuvonode.Contract.Answers
import Nuvonode.Contract.Instances
import Nuvonode.Contract.Metering
import Nuvonode.Foundation.History
import Nuvonode.Ws.Channels
import Nuvonode.Contract.ReadLoops
import Nuvonode.Contract.Delivery
import Nuvonode.Contract.Frames
import Nuvonode.Contract.Candidates
import Nuvonode.Contract.Blame
import Nuvonode.Repository.Catalog
import Nuvonode.Repository.Registry
import Nuvonode.Service.Management
import Nuvonode.Handler.Market
import Nuvonode.Handler.Registration
import Nuvonode.Contract.Spending
import Nuvonode.Contract.Freshness
import Nuvonode.Contract.Moderation
import Nuvonode.Contract.Disabling
import Nuvonode.Contract.Blocking
import Nuvonode.Service.Bootstrap
import Nuvonode.Contract.Bootstrap
import Nuvonode.Service.Scoring
import Nuvonode.Service.Points
import Nuvonode.Contract.RouteChoice
import Nuvonode.Contract.Occupancy
import Nuvonode.Contract.Advertising
import Nuvonode.Handler.Session
import Nuvonode.Contract.Lanes
import Nuvonode.Database.Records
import Nuvonode.Foundation.Query
import Nuvonode.Service.Dashboard
import Nuvonode.Contract.Isolation
import Nuvonode.Contract.RequestLimit
import Nuvonode.Foundation.Scanning
import Nuvonode.Node.Config
import Nuvonode.Contract.NodeConfig
import Nuvonode.Foundation.Json
import Nuvonode.Node.Messages
import Nuvonode.Node.Serve
import Nuvonode.Ws.Wire
import Nuvonode.Contract.Messages
import Nuvonode.Auth.Tokens
import Nuvonode.Contract.Tokens
import Nuvonode.Contract.AuditLog
import Nuvonode.Contract.Statistics
import Nuvonode.Contract.Prices
import Nuvonode.Contract.ModelEdits
import Nuvonode.Contract.Heartbeats
import Nuvonode.Handler.Offers
import Nuvonode.Contract.Callable
import Nuvonode.Contract.ModelPatches
import Nuvonode.Foundation.Journal
import Nuvonode.Contract.LedgerPage
import Nuvonode.Contract.Characters
import Nuvonode.Contract.Preference
import Nuvonode.Contract.NodeLimits
import Nuvonode.Contract.ActiveModels
import Nuvonode.Contract.Reconnect
import Nuvonode.Foundation.Serial
import Nuvonode.Service.Serial
import Nuvonode.Foundation.LockOrder
import Nuvonode.Service.LockOrder
import Nuvonode.Contract.Transactions
import Nuvonode.Handler.JobRows
import Nuvonode.Handler.JobNames
import Nuvonode.Contract.Jobs
import Nuvonode.Handler.CallRequest
import Nuvonode.Fleet.Links
import Nuvonode.Fleet.Answers
import Nuvonode.Fleet.Carrying
import Nuvonode.Fleet.Invariant
import Nuvonode.Contract.Nodes
import Nuvonode.Foundation.Ending
import Nuvonode.Handler.Endings
import Nuvonode.Contract.Responses
import Nuvonode.Fleet.Tracing
import Nuvonode.Fleet.Draining
import Nuvonode.Contract.Waiting
import Nuvonode.Handler.Keys
import Nuvonode.Contract.Keys
import Nuvonode.Handler.Parties
import Nuvonode.Handler.Authority
import Nuvonode.Contract.Parties
import Nuvonode.Contract.Administration
import Nuvonode.Foundation.Escrow
import Nuvonode.Handler.Credits
import Nuvonode.Contract.Credits
import Nuvonode.Node.Session
import Nuvonode.Contract.Sessions
