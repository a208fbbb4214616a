import SRPanel.Lib.Prog
import SRPanel.Lib.Pool
import SRPanel.Lib.Made
import SRPanel.Lib.Faults
import SRPanel.Lib.Rely
import SRPanel.Lib.Zoom
import SRPanel.Lib.Reads
import SRPanel.Lib.Amid
import SRPanel.Lib.Overtake
import SRPanel.Lib.Metered
import SRPanel.Lib.Table
import SRPanel.Lib.Cell
import SRPanel.Lib.Chunks
import SRPanel.Lib.ReadCommitted
import SRPanel.Lib.Unicode
import SRPanel.Model.Text
import SRPanel.Model.Types
import SRPanel.Model.World
import SRPanel.Model.Wallet
import SRPanel.Model.Sql
import SRPanel.Model.Tron
import SRPanel.Model.Zarinpal
import SRPanel.Model.Crypto
import SRPanel.Model.Payments
import SRPanel.Model.Topups
import SRPanel.Model.CardAmounts
import SRPanel.Model.Plugins
import SRPanel.Model.CardAuto
import SRPanel.Model.Orders
import SRPanel.Model.Site
import SRPanel.Model.Access
import SRPanel.Model.Panels
import SRPanel.Model.Services
import SRPanel.Model.Credentials
import SRPanel.Model.SmtpReplies
import SRPanel.Lib.Binary64
import SRPanel.Model.Clients
import SRPanel.Model.Refunds
import SRPanel.Model.Renewals
import SRPanel.Model.Bulk
import SRPanel.Model.Quotes
import SRPanel.Model.PanelPlans
import SRPanel.Model.ResellerPlans
import SRPanel.Model.Fulfilment
import SRPanel.Model.Sync
import SRPanel.Model.Subscription
import SRPanel.Model.SubFormats
import SRPanel.Confirm.Frame
import SRPanel.Confirm.Once
import SRPanel.Confirm.Retry
import SRPanel.Calls.Upkeep
import SRPanel.Calls.Steps
import SRPanel.Calls.Walk
import SRPanel.Chain.Transfers
import SRPanel.Chain.Once
import SRPanel.Chain.Fresh
import SRPanel.Chain.Quote
import SRPanel.Model.Explorers
import SRPanel.Chain.Verdicts
import SRPanel.Deposits.Book
import SRPanel.Deposits.Match
import SRPanel.Deposits.Kept
import SRPanel.Deposits.Once
import SRPanel.Gateway.Binding
import SRPanel.Ledger.Admin
import SRPanel.Ledger.Customer
import SRPanel.Topups.Authorised
import SRPanel.Topups.Customer
import SRPanel.Orders.Frame
import SRPanel.Orders.Lifecycle
import SRPanel.Orders.Wallet
import SRPanel.Delivery.Frame
import SRPanel.Delivery.SubPanels
import SRPanel.Clients.Update
import SRPanel.Clients.Create
import SRPanel.Clients.Reset
import SRPanel.Clients.Removal
import SRPanel.Delivery.Subscriptions
import SRPanel.Billing.Prices
import SRPanel.Billing.Wholesale
import SRPanel.Billing.Quotes
import SRPanel.Billing.Refunds
import SRPanel.Billing.Allowance
import SRPanel.Billing.Days
import SRPanel.Billing.Extensions
import SRPanel.Clients.Refusal
import SRPanel.Clients.Deals
import SRPanel.Clients.Requests
import SRPanel.Clients.Kinds
import SRPanel.Delivery.Repeats
import SRPanel.Resellers.Packages
import SRPanel.Expiry.Extend
import SRPanel.Expiry.Renewal
import SRPanel.Status.Disabled
import SRPanel.Subscriptions.Inactive
import SRPanel.Subscriptions.Names
import SRPanel.Subscriptions.Shadowsocks
import SRPanel.Subscriptions.Imports
import SRPanel.Sync.Groups
import SRPanel.Usage.Counters
import SRPanel.Usage.Chart
import SRPanel.Licences.Gates
import SRPanel.Licences.Codes
import SRPanel.Licences.Record
import SRPanel.Logs.Levels
import SRPanel.Logs.Paging
import SRPanel.Logins.Lock
import SRPanel.Bots.Lock
import SRPanel.Settings.Edits
import SRPanel.Backups.Files
import SRPanel.Status.Current
import SRPanel.Status.Runs
import SRPanel.Mail.Dialogue
import SRPanel.Mail.Replies
import SRPanel.Model.Customers
import SRPanel.Customers.Identity
import SRPanel.Logins.Codes
import SRPanel.Upkeep.Batches
import SRPanel.Upkeep.Cycles
import SRPanel.Deposits.Amounts
import SRPanel.Gateway.Capture
import SRPanel.Delivery.Failures
import SRPanel.Clients.Caps
import SRPanel.Shop.Caps
import SRPanel.Shop.Targets
import SRPanel.Lib.Inet
import SRPanel.Lib.JsonText
import SRPanel.Model.Clash
import SRPanel.Model.Hosts
import SRPanel.Subscriptions.Addresses
import SRPanel.Subscriptions.NodeTexts
import SRPanel.Lib.BitStream
import SRPanel.Logins.Secrets
import SRPanel.Lib.Numeral
import SRPanel.Chain.Base58
import SRPanel.Model.PanelNames
import SRPanel.Clients.Collisions
import SRPanel.Clients.Volumes
import SRPanel.Gateway.Callbacks
import SRPanel.Lib.Alternation
import SRPanel.Model.Monitoring
import SRPanel.Status.Incidents
import SRPanel.Model.Shapes
import SRPanel.Clients.Partition
import SRPanel.Model.ResellerQuotes
import SRPanel.Resellers.Quotes
import SRPanel.Subscriptions.ClashLines
import SRPanel.Subscriptions.Readable
import SRPanel.Webhooks.Emission
import SRPanel.Webhooks.Progress
import SRPanel.Lib.Warrant
import SRPanel.Model.Admins
import SRPanel.Admins.Frame
import SRPanel.Admins.SignOut
import SRPanel.Admins.Authority
import SRPanel.Admins.Standing
import SRPanel.Admins.Credentials
import SRPanel.Model.Retargets
import SRPanel.Clients.Touches
import SRPanel.Clients.Tenants
