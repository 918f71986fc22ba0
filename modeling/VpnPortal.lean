import VpnPortal.Sessions.Proc
import VpnPortal.Sessions.Pool
import VpnPortal.Db.Models
import VpnPortal.Portal.Json
import VpnPortal.Portal.World
import VpnPortal.Services.Notify
import VpnPortal.Services.Plans
import VpnPortal.Services.Credit
import VpnPortal.Services.Provisioner
import VpnPortal.Services.Trial
import VpnPortal.Api.Payment
import VpnPortal.Api.Account
import VpnPortal.Api.Register
import VpnPortal.Services.Subscriptions
import VpnPortal.Lifecycle.Activation
import VpnPortal.Lifecycle.Notification
import VpnPortal.Lifecycle.Sequential
import VpnPortal.Lifecycle.Callback
import VpnPortal.Lifecycle.Chargeback
import VpnPortal.Lifecycle.Delivery
import VpnPortal.Lifecycle.Rewards
import VpnPortal.Lifecycle.Extension
import VpnPortal.Sweeps.Loops
import VpnPortal.Sweeps.Effect
import VpnPortal.Sweeps.Job
import VpnPortal.Access.Operations
import VpnPortal.Access.Devices
import VpnPortal.Timeline.Meter
import VpnPortal.Timeline.Trail
import VpnPortal.Access.Time
import VpnPortal.Access.Calls
import VpnPortal.Lifecycle.Ledger
import VpnPortal.Lifecycle.Referral
import VpnPortal.Access.Refund
import VpnPortal.Text.Blocks
import VpnPortal.Nodes.DelPeer
import VpnPortal.Sweeps.Converge
import VpnPortal.Sessions.Protocol
import VpnPortal.Nodes.AddPeer
import VpnPortal.Mirror.Protocol
import VpnPortal.Mirror.Programs
import VpnPortal.Mirror.Concurrent
import VpnPortal.Nodes.Sections
import VpnPortal.Nodes.Backbone
import VpnPortal.Nodes.Together
import VpnPortal.Sessions.Guarded
import VpnPortal.Nodes.Overlap
import VpnPortal.Access.Limit
import VpnPortal.Sessions.Slots
import VpnPortal.Sessions.Turns
import VpnPortal.Access.Requests
import VpnPortal.Access.Trials
import VpnPortal.Access.Renewal
import VpnPortal.Accounts.Names
import VpnPortal.App.Models
import VpnPortal.App.Session
import VpnPortal.App.Contract
import VpnPortal.App.Selection
import VpnPortal.App.Renewal
import VpnPortal.App.Account
import VpnPortal.App.InStep
import VpnPortal.Monitor.Judge
import VpnPortal.Monitor.Watch
import VpnPortal.Monitor.Episodes
import VpnPortal.Monitor.Report
import VpnPortal.Monitor.Confirm
import VpnPortal.Monitor.Accepted
import VpnPortal.Monitor.Portal
import VpnPortal.Monitor.History
import VpnPortal.Monitor.Silence
import VpnPortal.Api.Telegram
import VpnPortal.Trials.Inbox
import VpnPortal.Trials.Grants
import VpnPortal.Trials.Starts
import VpnPortal.Shell.Script
import VpnPortal.TrialNet.Script
import VpnPortal.TrialNet.Check
import VpnPortal.TrialNet.Guarded
import VpnPortal.TrialNet.Repair
import VpnPortal.Reminders.Runs
import VpnPortal.Reminders.Once
import VpnPortal.Reminders.Assured
import VpnPortal.Nodes.Remove
import VpnPortal.Nodes.Reviewed
import VpnPortal.Services.RateLimit
import VpnPortal.Access.Offered
import VpnPortal.Monitor.Cards
import VpnPortal.Monitor.Page
import VpnPortal.Accounts.SignIn
import VpnPortal.Nodes.Arguments
import VpnPortal.Text.Percent
import VpnPortal.Api.Download
import VpnPortal.Nodes.Dump
import VpnPortal.Nodes.Restore
import VpnPortal.Json.Read
import VpnPortal.Json.RoundTrip
import VpnPortal.Json.Bytes
import VpnPortal.Json.Text
import VpnPortal.Services.Heleket
import VpnPortal.Api.Handshake
import VpnPortal.Access.Address
import VpnPortal.Monitor.Chain
import VpnPortal.Monitor.Completes
import VpnPortal.Api.InitData
import VpnPortal.Api.Recut
import VpnPortal.Text.Words
import VpnPortal.Nodes.Reconcile
import VpnPortal.Nodes.PutBack
import VpnPortal.Tokens.OneTime
import VpnPortal.Accounts.Mailbox
import VpnPortal.Accounts.Proven
import VpnPortal.Api.Android
import VpnPortal.Api.Relay
import VpnPortal.Backups.Nights
import VpnPortal.Shell.Nested
import VpnPortal.TrialNet.Rollback
