import C4Gateway.Ledger.Confluence
import C4Gateway.Billing.Exact
import C4Gateway.Billing.Cycle
import C4Gateway.Usage.Accounting
import C4Gateway.Proxy.Failover
import C4Gateway.Scheduler.Status
import C4Gateway.Scheduler.Generation
import C4Gateway.Usage.Quota
import C4Gateway.Gate.Cluster
import C4Gateway.Rule.Delivery
import C4Gateway.Protoconv.ChatBlocks
import C4Gateway.Protoconv.TextsMess
import C4Gateway.Wallet.Once
import C4Gateway.Pricing.SnapshotGuard
import C4Gateway.Auth.Reload
import C4Gateway.Usage.StatsAgg
import C4Gateway.Proxy.ProtocolFailure
import C4Gateway.Invalidate.Debouncer
import C4Gateway.Proxy.WsSession
import C4Gateway.Scheduler.Selection
import C4Gateway.Protoconv.Truncation
import C4Gateway.Proxy.RetryAfter
import C4Gateway.Proxy.PromptSize
import C4Gateway.Protoconv.Limit
import C4Gateway.Protoconv.ToolIndex
import C4Gateway.Protoconv.JsRaw
import C4Gateway.Pricing.Tiers
import C4Gateway.Scheduler.AllowedModels
import C4Gateway.Service.Redirect
import C4Gateway.Service.BaseUrl
import C4Gateway.Proxy.WsRace
