import ProxyMax.Auth.Fields
import ProxyMax.Auth.OutputLimit
import ProxyMax.Auth.Users
import ProxyMax.Balancer.Accounting
import ProxyMax.Balancer.Affinity
import ProxyMax.Balancer.EmptyList
import ProxyMax.Balancer.Fairness
import ProxyMax.Balancer.Health
import ProxyMax.Balancer.LeastConnections
import ProxyMax.Balancer.LongRuns
import ProxyMax.Balancer.Nodes
import ProxyMax.Balancer.Rotation
import ProxyMax.Cache.Concurrent
import ProxyMax.Cache.Eviction
import ProxyMax.Cache.FailedPut
import ProxyMax.Cache.Freshness
import ProxyMax.Cache.Lru
import ProxyMax.Cache.Shutdown
import ProxyMax.Compression.AcceptEncoding
import ProxyMax.Compression.Compress
import ProxyMax.Compression.ContentEncoding
import ProxyMax.Compression.ContentLength
import ProxyMax.Compression.Decompress
import ProxyMax.Config.Arguments
import ProxyMax.Config.Blanks
import ProxyMax.Config.Comments
import ProxyMax.Config.RoundTrip
import ProxyMax.Core.Detached
import ProxyMax.Core.Lifecycle
import ProxyMax.Core.Process
import ProxyMax.Core.Server
import ProxyMax.Core.Wakeups
import ProxyMax.Filter.FailClosed
import ProxyMax.Filter.Lists
import ProxyMax.Filter.Pattern
import ProxyMax.Http.Accumulation
import ProxyMax.Http.Arrays
import ProxyMax.Http.Delivery
import ProxyMax.Http.Ports
import ProxyMax.Http.RequestPrint
import ProxyMax.Http.Responses
import ProxyMax.Lib.NodeLists
import ProxyMax.Lib.Ownership
import ProxyMax.Lib.Sections
import ProxyMax.Lib.Unwinding
import ProxyMax.Monitor.Bandwidth
import ProxyMax.Monitor.Cleanup
import ProxyMax.Monitor.Isolation
import ProxyMax.Monitor.Logger
import ProxyMax.Monitor.Nodes
import ProxyMax.Monitor.OneRecord
import ProxyMax.Monitor.Polling
import ProxyMax.Monitor.TokenBound
import ProxyMax.Monitor.WindowBound
import ProxyMax.Server.AuthGate
import ProxyMax.Server.Counters
import ProxyMax.Server.CrossOrigin
import ProxyMax.Server.Descriptors
import ProxyMax.Server.Kernel
import ProxyMax.Server.Network
import ProxyMax.Server.Relay
import ProxyMax.Server.RemoteSocket
import ProxyMax.Server.Statistics
import ProxyMax.Server.Transfer
import ProxyMax.Server.TunnelBoundary
import ProxyMax.Server.UrlFilter
import ProxyMax.Socks5.Bounds
import ProxyMax.Socks5.Decoding
import ProxyMax.Socks5.Negotiation
import ProxyMax.Socks5.Replies
import ProxyMax.Ssl.Objects
import ProxyMax.Ssl.Sessions
