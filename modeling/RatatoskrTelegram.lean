import RatatoskrTelegram.Relational
import RatatoskrTelegram.Transition
import RatatoskrTelegram.Fence
import RatatoskrTelegram.Schema
import RatatoskrTelegram.OutboundJobs
import RatatoskrTelegram.Dialogues
import RatatoskrTelegram.MessageBindings
import RatatoskrTelegram.OutboundAcknowledgements
import RatatoskrTelegram.ProjectionAccept
import RatatoskrTelegram.InteractionTokens
import RatatoskrTelegram.CaptureProjection
import RatatoskrTelegram.InteractionCleanup
import RatatoskrTelegram.NotificationDelivery
import RatatoskrTelegram.Updates
import RatatoskrTelegram.DialogueLifecycle
import RatatoskrTelegram.Calls
import RatatoskrTelegram.CallEffects
import RatatoskrTelegram.Delivery
import RatatoskrTelegram.Dispatcher
import RatatoskrTelegram.ChatExclusion
import RatatoskrTelegram.RepositoryRelease
import RatatoskrTelegram.AcknowledgementAtomicity
import RatatoskrTelegram.QueueFence
import RatatoskrTelegram.ProjectionInvariants
import RatatoskrTelegram.ConfirmationRetention
import RatatoskrTelegram.BindingSteps
import RatatoskrTelegram.AnsweredSends
import RatatoskrTelegram.RenderOrder
import RatatoskrTelegram.SendReplay
import RatatoskrTelegram.Follower
import RatatoskrTelegram.CallbackScope
import RatatoskrTelegram.TokenEffects
import RatatoskrTelegram.TokenReleases
import RatatoskrTelegram.CleanupSafety
import RatatoskrTelegram.CaptureConvergence
import RatatoskrTelegram.JobOrigins
import RatatoskrTelegram.DecisionEffects
import RatatoskrTelegram.NotificationMirror
import RatatoskrTelegram.NotificationAdmission
import RatatoskrTelegram.DirectOrder
import RatatoskrTelegram.UpdateFence
import RatatoskrTelegram.CallbackStamps
import RatatoskrTelegram.LivePrompts
import RatatoskrTelegram.PreferenceUpdates
import RatatoskrTelegram.AdmissionOnce
import RatatoskrTelegram.UpdateRecovery
import RatatoskrTelegram.AttemptBound
import RatatoskrTelegram.LimiterGate
import RatatoskrTelegram.SentRenders
import RatatoskrTelegram.DeliveryClasses
import RatatoskrTelegram.RenderThrottle
import RatatoskrTelegram.FrameOrder
import RatatoskrTelegram.TokenSecrecy
import RatatoskrTelegram.QuietHours
import RatatoskrTelegram.LimiterExact
import RatatoskrTelegram.LimiterBudget
import RatatoskrTelegram.ProviderPauses
import RatatoskrTelegram.EventStream
import RatatoskrTelegram.BlobStore
import RatatoskrTelegram.BlobPublication
import RatatoskrTelegram.Sessions
import RatatoskrTelegram.SessionFlight
import RatatoskrTelegram.Shutdown
import RatatoskrTelegram.ShutdownJoins
import RatatoskrTelegram.OperationFollower
import RatatoskrTelegram.FollowerSet
import RatatoskrTelegram.AdmissionFence
import RatatoskrTelegram.AdmissionSealed
import RatatoskrTelegram.DownloadStream
import RatatoskrTelegram.StuckUpdateRecovery
import RatatoskrTelegram.Calendar
import RatatoskrTelegram.Timestamps
import RatatoskrTelegram.TimestampSpelling
import RatatoskrTelegram.CaptureKeys
import RatatoskrTelegram.ForwardedLinks
import RatatoskrTelegram.Markup
import RatatoskrTelegram.LibraryPages
import RatatoskrTelegram.MarkupReader
import RatatoskrTelegram.OperationMessages
import RatatoskrTelegram.MessageDisplay
import RatatoskrTelegram.MessageLength
import RatatoskrTelegram.UnknownSendRecovery
import RatatoskrTelegram.CaptureIntents
import RatatoskrTelegram.QuietWindows
import RatatoskrTelegram.PrefixCodes
import RatatoskrTelegram.BodyMarkup
import RatatoskrTelegram.UrlRecords
import RatatoskrTelegram.RepositoryUrls
import RatatoskrTelegram.AccessRuns
import RatatoskrTelegram.CaptureCalls
import RatatoskrTelegram.LibraryReads
import RatatoskrTelegram.DialogueHistory
import RatatoskrTelegram.RepositoryActions
import RatatoskrTelegram.NotificationTransport
import RatatoskrTelegram.Service
import RatatoskrTelegram.HandlerRuns
import RatatoskrTelegram.CommandGrammars
