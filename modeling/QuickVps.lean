import QuickVps.Ncdu.Runner
import QuickVps.Go.Float64
import QuickVps.Alerts.Types
import QuickVps.Alerts.Evaluator
import QuickVps.Ncdu.StaleScans
import QuickVps.Alerts.EvaluatorHistory
import QuickVps.Alerts.Overload
import QuickVps.Go.Strings
import QuickVps.Ports.Lsof
import QuickVps.Ports.KillByPort
import QuickVps.Ncdu.Browser
import QuickVps.Ncdu.MissedScan
import QuickVps.Lib.Pool
import QuickVps.Lib.Guarded
import QuickVps.Auth.Store
import QuickVps.Auth.LastAdmin
import QuickVps.Auth.Session
import QuickVps.Go.Json
import QuickVps.Go.ServeMux
import QuickVps.Server.Http
import QuickVps.Server.Accounts
import QuickVps.Auth.Calls
import QuickVps.Server.Revocation
import QuickVps.Alerts.Notifier
import QuickVps.Alerts.Service
import QuickVps.Server.World
import QuickVps.Server.Handlers
import QuickVps.Server.Routes
import QuickVps.Server.Access
import QuickVps.Lib.Lockstep
import QuickVps.Alerts.Secrecy
import QuickVps.Server.TokenSecrecy
import QuickVps.Auth.Expiry
import QuickVps.Ncdu.Bookkeeping
import QuickVps.Lib.Chan
import QuickVps.Metrics.Collector
import QuickVps.Alerts.Silence
import QuickVps.Metrics.Convergence
import QuickVps.Alerts.Levels
import QuickVps.Alerts.Muting
import QuickVps.Metrics.Subscriptions
import QuickVps.Ws.Hub
import QuickVps.Ws.Placement
import QuickVps.Delivery.System
import QuickVps.Delivery.Losses
import QuickVps.Auth.Cache
import QuickVps.Auth.Changes
import QuickVps.Server.Audits
import QuickVps.Alerts.Cipher
import QuickVps.Go.JsonText
import QuickVps.Alerts.Rows
import QuickVps.Alerts.Restart
import QuickVps.Go.AesGcm
import QuickVps.Auth.HalfUpdate
import QuickVps.Alerts.Chats
import QuickVps.Alerts.HalfUpdate
import QuickVps.Go.Sort
import QuickVps.Ncdu.Parser
import QuickVps.Ncdu.Export
import QuickVps.Ncdu.Malformed
import QuickVps.Ncdu.DiskTotals
import QuickVps.Ncdu.FailedScan
import QuickVps.Frontend.Socket
import QuickVps.Frontend.Admin
import QuickVps.Js.Numbers
import QuickVps.Frontend.AlertForm
import QuickVps.Alerts.Reached
import QuickVps.Frontend.Untouched
import QuickVps.Alerts.Accounting
import QuickVps.Alerts.Seconds
import QuickVps.Alerts.ConfigHistory
import QuickVps.Alerts.HistoryWalk
import QuickVps.Go.Rounding
import QuickVps.Server.Durations
import QuickVps.Metrics.Rates
import QuickVps.Auth.Revoked
import QuickVps.Auth.Directory
import QuickVps.Firewall.Audit
import QuickVps.Lib.FirstMatch
import QuickVps.Firewall.Exposures
import QuickVps.Lib.Decode
import QuickVps.Lib.Firsts
import QuickVps.Ports.FieldOutput
import QuickVps.Packages.Audit
import QuickVps.Packages.Inventory
import QuickVps.Packages.DnfListing
import QuickVps.Packages.ExitCodes
import QuickVps.Packages.AptListing
import QuickVps.Firewall.UfwListing
import QuickVps.Firewall.NftRuleset
import QuickVps.Js.NumberText
import QuickVps.Frontend.RetryDelays
import QuickVps.Alerts.Methods
import QuickVps.Alerts.Evaluations
import QuickVps.Alerts.Feed
import QuickVps.Alerts.MuteWindow
import QuickVps.Alerts.Retention
import QuickVps.Lib.Spaced
import QuickVps.Alerts.Storms
import QuickVps.Alerts.LostKey
import QuickVps.Auth.Answers
import QuickVps.Server.Genuine
import QuickVps.Server.Authority
import QuickVps.Server.AuditTrail
import QuickVps.Server.Boot
import QuickVps.Server.Lives
import QuickVps.Metrics.Sampling
import QuickVps.Ws.Progress
import QuickVps.Frontend.Preferences
import QuickVps.Frontend.Dashboard
import QuickVps.Lib.Infix
import QuickVps.Firewall.Status
import QuickVps.Frontend.NumberForms
import QuickVps.Delivery.Watch
