import MuduoIm.Common.JWT.RoundTrip
import MuduoIm.Common.Logging
import MuduoIm.Common.RoutingKey
import MuduoIm.Data.Base64.Loops
import MuduoIm.Data.ExpiringKeys
import MuduoIm.Data.FlatMap
import MuduoIm.Data.Html
import MuduoIm.Data.JsString
import MuduoIm.Data.LogReader
import MuduoIm.Data.Pieces
import MuduoIm.Gateway.Answers
import MuduoIm.Gateway.EtcdMirror
import MuduoIm.Gateway.LogicClientPool.Rings
import MuduoIm.Gateway.Presence
import MuduoIm.Gateway.WatchMirror
import MuduoIm.Logic.EtcdRegistration
import MuduoIm.Logic.RegisterGateway.Presence
import MuduoIm.Logic.RegisterGateway.Replacement
import MuduoIm.Logic.Registration
import MuduoIm.Moderation.ContentModerationService.ReloadThread
import MuduoIm.Persister
import MuduoIm.PushRouter.AtLeastOnce
import MuduoIm.PushRouter.Transactional
import MuduoIm.Registry.SilentInstances
import MuduoIm.Server.Accounts.Secrets
import MuduoIm.Server.ClientAck.DeliveredOnce
import MuduoIm.Server.Conversations.Names
import MuduoIm.Server.Dispatch.Recalls
import MuduoIm.Server.Dispatch.Total
import MuduoIm.Server.FriendService.Handling.Once
import MuduoIm.Server.FriendService.Requests
import MuduoIm.Server.GroupService.Authority
import MuduoIm.Server.GroupService.Owners
import MuduoIm.Server.Handshake
import MuduoIm.Server.InstanceRouter.Holders
import MuduoIm.Server.LoginLockout.Bounded
import MuduoIm.Server.MessageEdits.AuditTrail
import MuduoIm.Server.MessageHandlers.Dedup
import MuduoIm.Server.MessageQueries.HistoryPages
import MuduoIm.Server.MessageQueue.SendOrder
import MuduoIm.Server.OnlineManager.AtRest
import MuduoIm.Server.OnlineManager.Presence
import MuduoIm.Server.OnlineManager.StaleClose
import MuduoIm.Server.OutboxService.DeliveryOrder
import MuduoIm.Server.OutboxService.Exclusive
import MuduoIm.Server.OutboxService.NoOrphan
import MuduoIm.Server.OutboxService.Soundness
import MuduoIm.Server.OutboxService.WakeUp
import MuduoIm.Server.Persistence.Converge
import MuduoIm.Server.PushPipeline.EndToEnd
import MuduoIm.Server.PushService
import MuduoIm.Server.Reactions.Linearized
import MuduoIm.Server.Recall.TakesEffect
import MuduoIm.Server.Responses.Current
import MuduoIm.Server.SagaCoordinator.AllOrNothing
import MuduoIm.Server.SagaCoordinator.ReverseOrder
import MuduoIm.Server.SagaCoordinator.TwoExecutors
import MuduoIm.Server.Thumbnails
import MuduoIm.Server.Thumbnails.Kept
import MuduoIm.Server.Thumbnails.Names
import MuduoIm.Server.Thumbnails.Served
import MuduoIm.Server.Tokens
import MuduoIm.Server.Transactions.Closing
import MuduoIm.Server.Uploads
import MuduoIm.Server.Uploads.Declared
import MuduoIm.Server.Uploads.Recorded
import MuduoIm.Server.Uploads.Runs
import MuduoIm.Server.Uploads.Undamaged
import MuduoIm.Tools.ArchiveWorker.Complete
import MuduoIm.Web.Connection
import MuduoIm.Web.Convergence
import MuduoIm.Web.Handlers
import MuduoIm.Web.Mentions
import MuduoIm.Web.MessageCache.Ordered
import MuduoIm.Web.MessageOrder
import MuduoIm.Web.View
import MuduoIm.Web.OnlineUsers
