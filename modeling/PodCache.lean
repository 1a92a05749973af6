import PodCache.Cluster.Delivery
import PodCache.Codec.Binary
import PodCache.Codec.Json
import PodCache.Pod.Transform
import PodCache.Proofs.Local.Contents
import PodCache.Proofs.Local.Freshness
import PodCache.Proofs.Local.RecencyList
import PodCache.Proofs.Local.Admission
import PodCache.Proofs.Local.Bookkeeping
import PodCache.Proofs.Json.Literal
import PodCache.Proofs.Base64
import PodCache.Proofs.Event.RoundTrip
import PodCache.Proofs.Bus.Delivery
import PodCache.Proofs.Bus.Law
import PodCache.Proofs.Cluster.Coherence
import PodCache.Proofs.Cluster.Convergence
import PodCache.Proofs.Cluster.Transparency
import PodCache.Proofs.Cluster.Calls
import PodCache.Proofs.Cluster.SharedState
import PodCache.Proofs.Local.Capacity
import PodCache.Proofs.Local.Pass
import PodCache.Proofs.Local.Scans
import PodCache.Proofs.Local.Displacement
import PodCache.Proofs.Bus.Apart
import PodCache.Proofs.Cluster.Closing
import PodCache.Proofs.Event.Contents
import PodCache.Proofs.Event.Layout
import PodCache.Proofs.Local.RecencyOrder
import PodCache.Proofs.Local.Tracking
import PodCache.Proofs.Local.Room
import PodCache.Proofs.Local.BufferedReads
import PodCache.Proofs.Local.AgedCounts
import PodCache.Proofs.Local.Inclusion
import PodCache.Proofs.Local.LastUse
import PodCache.Proofs.Local.Accounting
import PodCache.Proofs.Pod.Failures
import PodCache.Proofs.Pod.Counts
import PodCache.Proofs.Pod.PeerEvents
import PodCache.Proofs.Bus.Subscriptions
import PodCache.Proofs.Cluster.Receipt
import PodCache.Proofs.Cluster.Pods
import PodCache.Proofs.Bus.Registry
import PodCache.Proofs.Local.ReadPeriods
import PodCache.Proofs.Codec.RoundTrip
import PodCache.Proofs.Store.Address
import PodCache.Proofs.Local.Eviction
