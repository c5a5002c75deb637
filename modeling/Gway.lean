import Gway.CertLoader
import Gway.CertLoader.CertDir
import Gway.CertLoader.Containment
import Gway.CertLoader.Entries
import Gway.CertLoader.Expiry
import Gway.CertLoader.Failures
import Gway.CertLoader.Get
import Gway.CertLoader.Index
import Gway.CertLoader.Isolation
import Gway.CertLoader.ListedOnce
import Gway.CertLoader.Lookup
import Gway.CertLoader.Provenance
import Gway.CertLoader.Renewal
import Gway.CertLoader.Repeat
import Gway.CertLoader.Sequential
import Gway.CertLoader.System
import Gway.CertLoader.Transparency
import Gway.Decision
import Gway.Decision.FrontEnds
import Gway.Decision.LoopFree
import Gway.Decision.RedirectTarget
import Gway.Decision.SameHost
import Gway.Error
import Gway.HopByHop
import Gway.Http
import Gway.Library.Containers
import Gway.Library.Guards
import Gway.Library.LastWrite
import Gway.Library.Machine
import Gway.Library.Ownership
import Gway.Library.Progress
import Gway.Library.RoundRobin
import Gway.Library.RwLock
import Gway.Library.Simulation
import Gway.Library.Streams
import Gway.Library.UnixPath
import Gway.Library.Url
import Gway.Net
import Gway.PooledFetch.Atomic
import Gway.PooledFetch.Capacity
import Gway.PooledFetch.Cleanup
import Gway.PooledFetch.DeadConns
import Gway.PooledFetch.Deadlock
import Gway.PooledFetch.Error
import Gway.PooledFetch.Http
import Gway.PooledFetch.Lifo
import Gway.PooledFetch.Linearization
import Gway.PooledFetch.MapOps
import Gway.PooledFetch.Ownership
import Gway.PooledFetch.Pool
import Gway.PooledFetch.Refinement
import Gway.PooledFetch.RemovalGap
import Gway.PooledFetch.Replaced
import Gway.PooledFetch.System
import Gway.Proxy
import Gway.Proxy.AtMostOnce
import Gway.Proxy.Bounded
import Gway.Proxy.Calls
import Gway.Proxy.Failover
import Gway.Proxy.Fairness
import Gway.Proxy.Framing
import Gway.Proxy.HostField
import Gway.Proxy.RetryLoop
import Gway.ReqHost
import Gway.Route
import Gway.Route.Agreement
import Gway.Route.History
import Gway.Srv.CertHost
import Gway.Srv.ConnLock
import Gway.Srv.Download
import Gway.Srv.GracefulDrain
import Gway.Srv.H1
import Gway.Srv.H2
import Gway.Srv.H3
import Gway.Srv.Metadata
import Gway.Srv.Propagation
import Gway.Srv.RequestDrain
import Gway.Srv.S2nQuic
import Gway.Srv.SendProgress
import Gway.Srv.SendSessions
import Gway.Srv.SendStream
import Gway.Srv.ShutdownSignal
import Gway.Srv.Sockets
import Gway.Srv.SocketsKept
import Gway.Srv.System
import Gway.Srv.Termination
import Gway.Srv.Upload
import Gway.Srv.WorkerThreads
