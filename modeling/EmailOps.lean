import EmailOps.Framework.System
import EmailOps.Framework.Log
import EmailOps.Framework.Once
import EmailOps.Framework.Text
import EmailOps.Framework.HighWater
import EmailOps.Framework.Separated
import EmailOps.Framework.AddressList
import EmailOps.Framework.Rewriting
import EmailOps.Email.Types
import EmailOps.Email.Autonomy
import EmailOps.Email.ComposeContext
import EmailOps.Email.Compose
import EmailOps.Email.ComposeProtocol
import EmailOps.Email.ComposeLedger
import EmailOps.Scheduling.Service
import EmailOps.Scheduling.Protocol
import EmailOps.Scheduling.AtMostOnce
import EmailOps.Scheduling.Truth
import EmailOps.Email.Approval
import EmailOps.Email.ApprovalProtocol
import EmailOps.Email.ApprovalFidelity
import EmailOps.Email.Engagement
import EmailOps.Email.EngagementProtocol
import EmailOps.Email.Lanes
import EmailOps.Email.Carriage
import EmailOps.Email.RecipientGate
import EmailOps.Mcp.Tools
import EmailOps.Mcp.Protocol
import EmailOps.Cleanup.Archive
import EmailOps.Cleanup.Protocol
import EmailOps.Cleanup.Restore
import EmailOps.Cleanup.Outcome
import EmailOps.Email.Reading
import EmailOps.Email.ReadFence
import EmailOps.Cleanup.Undo
import EmailOps.EngineAdmin.Boundary
import EmailOps.Cleanup.UndoOnce
import EmailOps.Cleanup.Runs
import EmailOps.Cleanup.Undoable
import EmailOps.Cleanup.Inbox
import EmailOps.Cleanup.InboxOnce
import EmailOps.Framework.Capped
import EmailOps.AgentReply.Runtime
import EmailOps.AgentReply.Caps
import EmailOps.Inbound.Poll
import EmailOps.Inbound.Watcher
import EmailOps.Inbound.NothingLost
import EmailOps.Inbound.ProcessedOnce
import EmailOps.Triage.Jmap
import EmailOps.Scheduling.Snooze
import EmailOps.Scheduling.SnoozeFrame
import EmailOps.Triage.Dispatch
import EmailOps.Triage.Disposition
import EmailOps.Scheduling.SnoozeProtocol
import EmailOps.Client.ComposeRetry
import EmailOps.Client.UndoSend
import EmailOps.Client.UndoSendEnds
import EmailOps.Cleanup.Binding
import EmailOps.Cleanup.Protection
import EmailOps.Triage.Listing
import EmailOps.Triage.Overlay
import EmailOps.Triage.Places
import EmailOps.Triage.Visibility
import EmailOps.Triage.Surfacing
import EmailOps.Workspaces.Members
import EmailOps.Workspaces.Protocol
import EmailOps.Workspaces.LastOwner
import EmailOps.Workspaces.Authority
import EmailOps.Workspaces.Revival
import EmailOps.Mailboxes.Connect
import EmailOps.Mailboxes.Provisioning
import EmailOps.Mailboxes.Cap
import EmailOps.Sms.Service
import EmailOps.Sms.Protocol
import EmailOps.Sms.AtMostOnce
import EmailOps.Email.ComposeWhole
import EmailOps.Framework.TwoRuns
import EmailOps.Scheduling.KillSwitch
import EmailOps.Framework.Sweep
import EmailOps.Sweeps.Snoozes
import EmailOps.Sweeps.Mailboxes
import EmailOps.Sweeps.Approvals
import EmailOps.Sweeps.Starvation
import EmailOps.Framework.Paging
import EmailOps.Paging.Aggregate
import EmailOps.Framework.MergedPages
import EmailOps.Paging.Mailbox
import EmailOps.Sms.Inbound
import EmailOps.Sms.Queue
import EmailOps.Framework.Claims
import EmailOps.Mailboxes.RequestStates
import EmailOps.Client.UiCommands
import EmailOps.Agents.Bindings
import EmailOps.Agents.OnePrimary
import EmailOps.Framework.LostUpdate
import EmailOps.Sweeps.PayloadWriters
import EmailOps.Email.AutonomyMatrix
import EmailOps.Email.TrustLearning
import EmailOps.Mailboxes.Fences
import EmailOps.Framework.IsoDate
import EmailOps.Webhooks.EventIdentity
import EmailOps.Framework.ClauseTree
import EmailOps.MailRules.Engine
import EmailOps.MailRules.Guard
import EmailOps.MailRules.Apply
import EmailOps.MailRules.Watched
import EmailOps.MailRules.Grammar
import EmailOps.MailRules.CatchAll
import EmailOps.Framework.QuotedWords
import EmailOps.Search.Query
import EmailOps.Search.Filter
import EmailOps.Triage.Classify
import EmailOps.Cleanup.PlanSafety
import EmailOps.Cleanup.QueryTranslation
import EmailOps.Cleanup.ApprovalRetry
import EmailOps.Framework.Replacement
import EmailOps.Stalwart.Responses
import EmailOps.Stalwart.Drafts
import EmailOps.Stalwart.Submission
import EmailOps.Framework.Draining
import EmailOps.Stalwart.EmptyFolder
import EmailOps.EngineAdmin.Reset
import EmailOps.AgentReply.ReplyRef
import EmailOps.Mailboxes.Applied
import EmailOps.Email.Untrust
import EmailOps.Scheduling.Fidelity
import EmailOps.Triage.Safety
import EmailOps.Assistant.ChatStream
import EmailOps.AgentReply.ReplyHtml
import EmailOps.AgentReply.Digest
import EmailOps.Framework.IsoOrder
import EmailOps.Auth.TokenExpiry
import EmailOps.Common.Concurrency
import EmailOps.Cleanup.Targets
import EmailOps.Framework.ReadCommitted
import EmailOps.Mailboxes.Signatures
import EmailOps.Framework.FileTree
import EmailOps.Cleanup.Backup
import EmailOps.Framework.Bisection
import EmailOps.Framework.IndexRuns
import EmailOps.Client.VirtualList
import EmailOps.Client.UndoRestore
import EmailOps.Framework.JsonTokens
import EmailOps.Framework.JsonReader
import EmailOps.Framework.JsonLiterals
import EmailOps.Assistant.JsonRepair
import EmailOps.Assistant.JsonResponse
import EmailOps.Framework.Utf8
import EmailOps.Framework.Frames
import EmailOps.Framework.JsonWriter
import EmailOps.Assistant.Wire
import EmailOps.Assistant.StreamRelay
import EmailOps.Auth.AccessList
import EmailOps.Auth.SignIn
import EmailOps.Auth.Identity
import EmailOps.Client.ThreadList
import EmailOps.Client.ThreadListView
import EmailOps.Client.RuleEditor
import EmailOps.Client.RuleResave
import EmailOps.Framework.Recency
import EmailOps.Client.DesktopNotifications
