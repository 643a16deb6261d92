import VibesWaf.Acme.Queue
import VibesWaf.Acme.Requests
import VibesWaf.Apps.HealthCheck
import VibesWaf.Apps.Ports
import VibesWaf.Apps.Repository
import VibesWaf.Apps.Services
import VibesWaf.Apps.Snapshot
import VibesWaf.Apps.Types
import VibesWaf.Bot.Score
import VibesWaf.Bot.Verify
import VibesWaf.Bot.VerifyCache
import VibesWaf.Builder.AstConverter
import VibesWaf.Builder.Expression
import VibesWaf.Builder.ReadBack
import VibesWaf.Builder.RoundTrip
import VibesWaf.Cache.Redis
import VibesWaf.Certificate.Directories
import VibesWaf.Certificate.Records
import VibesWaf.Certificate.Repository
import VibesWaf.Certificate.Service
import VibesWaf.Challenge.Binding
import VibesWaf.Challenge.ClientIP
import VibesWaf.Challenge.Cookie
import VibesWaf.Challenge.Eviction
import VibesWaf.Challenge.Slider
import VibesWaf.Challenge.SolveBounds
import VibesWaf.Challenge.Store
import VibesWaf.Challenge.Trajectory
import VibesWaf.Challenge.Verify
import VibesWaf.Flood.BasicWindow
import VibesWaf.Flood.Cleanup
import VibesWaf.Flood.Handler
import VibesWaf.Flood.Memory
import VibesWaf.Flood.Protector
import VibesWaf.Flood.Window
import VibesWaf.Gateway.App
import VibesWaf.Gateway.Balancing
import VibesWaf.Gateway.Hosts
import VibesWaf.Gateway.Location
import VibesWaf.Gateway.Proxy
import VibesWaf.Gateway.ServeHTTP
import VibesWaf.Gateway.Target
import VibesWaf.Gateway.Transport
import VibesWaf.Gateway.TrustedProxies
import VibesWaf.Gateway.UnderAttack
import VibesWaf.Go.Bufio
import VibesWaf.Go.Decimal
import VibesWaf.Go.Fields
import VibesWaf.Go.Http
import VibesWaf.Go.Lines
import VibesWaf.Go.NetBits
import VibesWaf.Go.NetIP
import VibesWaf.Go.NetUrl
import VibesWaf.Go.Numbers
import VibesWaf.Go.Strings
import VibesWaf.Go.Url
import VibesWaf.Go.Utf8
import VibesWaf.IPAccess.Overlap
import VibesWaf.IPAccess.Reload
import VibesWaf.IPReputation.Lookup
import VibesWaf.IPReputation.Runs
import VibesWaf.IPReputation.Service
import VibesWaf.IPReputation.Trie
import VibesWaf.Lib.Chain
import VibesWaf.Lib.Connectives
import VibesWaf.Lib.EarlyExit
import VibesWaf.Lib.FiniteMap
import VibesWaf.Lib.FirstMatch
import VibesWaf.Lib.History
import VibesWaf.Lib.Interleave
import VibesWaf.Lib.LeastFirst
import VibesWaf.Lib.LengthPrefixed
import VibesWaf.Lib.Memo
import VibesWaf.Lib.NearestRank
import VibesWaf.Lib.PrefixTrie
import VibesWaf.Lib.Reader
import VibesWaf.Lib.ReplayCache
import VibesWaf.Lib.RoundRobin
import VibesWaf.Lib.Rounding
import VibesWaf.Lib.Run
import VibesWaf.Lib.Separated
import VibesWaf.Lib.SlidingWindow
import VibesWaf.Lib.Spacing
import VibesWaf.Lib.Table
import VibesWaf.Lib.TokenBucket
import VibesWaf.Lib.WindowLimit
import VibesWaf.Lib.WorkQueue
import VibesWaf.Logger.Clickhouse
import VibesWaf.Management.Access
import VibesWaf.Management.Accounts
import VibesWaf.Management.Api
import VibesWaf.Management.AppCalls
import VibesWaf.Management.AuthService
import VibesWaf.Management.LoginLimit
import VibesWaf.Management.Routes
import VibesWaf.Management.Sessions
import VibesWaf.Management.Settings
import VibesWaf.Management.Tables
import VibesWaf.Metrics.Performance
import VibesWaf.Nginx.Directives
import VibesWaf.Pipeline.CacheKey
import VibesWaf.Pipeline.Clearance
import VibesWaf.Pipeline.Context
import VibesWaf.Pipeline.Decision
import VibesWaf.Pipeline.DecisionCache
import VibesWaf.Pipeline.Execute
import VibesWaf.Pipeline.HardDecision
import VibesWaf.Pipeline.Normalize
import VibesWaf.Pipeline.Phase1
import VibesWaf.Pipeline.ProtocolAnomaly
import VibesWaf.Pipeline.Response
import VibesWaf.Pipeline.Scoring
import VibesWaf.Pipeline.SharedRules
import VibesWaf.Pipeline.SkipRules
import VibesWaf.Pipeline.StableSession
import VibesWaf.Pipeline.Total
import VibesWaf.Pipeline.TrustedHistory
import VibesWaf.Pipeline.Weights
import VibesWaf.RateLimit.Cleanup
import VibesWaf.RateLimit.Float64
import VibesWaf.RateLimit.Forgetting
import VibesWaf.RateLimit.Loss
import VibesWaf.RateLimit.Memory
import VibesWaf.RateLimit.Service
import VibesWaf.RateLimit.TokenBucket
import VibesWaf.Rule.Engine
import VibesWaf.Rule.Evaluator
import VibesWaf.Rule.Extractors
import VibesWaf.Rule.Fields
import VibesWaf.Rule.Grammar
import VibesWaf.Rule.Lexer
import VibesWaf.Rule.Lexes
import VibesWaf.Rule.Numeric
import VibesWaf.Rule.Parser
import VibesWaf.Rule.Printer
import VibesWaf.Rule.RegexCache
import VibesWaf.Rule.Semantics
import VibesWaf.Rule.Stored
import VibesWaf.Rule.Types
import VibesWaf.RuleService.AppEndpoints
import VibesWaf.RuleService.MergedCache
import VibesWaf.RuleService.Reorder
import VibesWaf.RuleService.Repository
import VibesWaf.Stream.Nginx
import VibesWaf.Stream.Proxy
import VibesWaf.Stream.ProxyHeader
import VibesWaf.Stream.Udp
import VibesWaf.Waf.BodyInspection
