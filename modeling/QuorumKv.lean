import QuorumKv.Ask
import QuorumKv.Assoc
import QuorumKv.Buffer
import QuorumKv.Bytes
import QuorumKv.Cluster
import QuorumKv.Cluster.Member
import QuorumKv.Cluster.Operation
import QuorumKv.Cluster.Settle
import QuorumKv.Config
import QuorumKv.Config.Source
import QuorumKv.Config.Typing
import QuorumKv.Dispatch
import QuorumKv.Dispatch.Count
import QuorumKv.Dispatch.Memory
import QuorumKv.Dispatch.Script
import QuorumKv.Document
import QuorumKv.Document.Json
import QuorumKv.Document.Path
import QuorumKv.Document.Toml
import QuorumKv.Document.Toml.Scalar
import QuorumKv.Failure
import QuorumKv.Hash.Blake3
import QuorumKv.Hash.Crc32
import QuorumKv.Health.Breaker
import QuorumKv.Health.Monitor
import QuorumKv.Health.Node
import QuorumKv.Health.Samples
import QuorumKv.Item
import QuorumKv.Key
import QuorumKv.Metrics.Histogram
import QuorumKv.Metrics.Registry
import QuorumKv.Migration.Stage
import QuorumKv.Migration.Table
import QuorumKv.Node.Call
import QuorumKv.Node.Session
import QuorumKv.Node.Web
import QuorumKv.Proxy
import QuorumKv.Proxy.Session
import QuorumKv.Proxy.Web
import QuorumKv.Quorum.Fetch
import QuorumKv.Quorum.Read
import QuorumKv.Quorum.Write
import QuorumKv.Release
import QuorumKv.Remote
import QuorumKv.Revision
import QuorumKv.Route
import QuorumKv.Store
import QuorumKv.Text.Blank
import QuorumKv.Text.Decimal
import QuorumKv.Text.Digits
import QuorumKv.Text.Hidden
import QuorumKv.Text.Order
import QuorumKv.Text.Percent
import QuorumKv.Text.Quoted
import QuorumKv.Text.Real
import QuorumKv.Text.Shortest
import QuorumKv.Text.Size
import QuorumKv.Text.Utf8
import QuorumKv.Total
import QuorumKv.Web.Authority
import QuorumKv.Web.Message
import QuorumKv.Web.Service
import QuorumKv.Web.Status
import QuorumKv.Web.Target
import QuorumKv.Web.Url
import QuorumKv.Wire.Line
import QuorumKv.Wire.Reply
import QuorumKv.Wire.Request
import QuorumKv.Wire.Stream
import QuorumKv.Proofs.Assoc
import QuorumKv.Proofs.Buffer
import QuorumKv.Proofs.Cluster.Absence
import QuorumKv.Proofs.Cluster.Account
import QuorumKv.Proofs.Cluster.Agreement
import QuorumKv.Proofs.Cluster.Attended
import QuorumKv.Proofs.Cluster.Calls
import QuorumKv.Proofs.Cluster.Course
import QuorumKv.Proofs.Cluster.Enrollment
import QuorumKv.Proofs.Cluster.Freshness
import QuorumKv.Proofs.Cluster.Gathering
import QuorumKv.Proofs.Cluster.History
import QuorumKv.Proofs.Cluster.Intersection
import QuorumKv.Proofs.Cluster.Outage
import QuorumKv.Proofs.Cluster.Outvoted
import QuorumKv.Proofs.Cluster.Reading
import QuorumKv.Proofs.Cluster.Searching
import QuorumKv.Proofs.Cluster.Sound
import QuorumKv.Proofs.Cluster.Succession
import QuorumKv.Proofs.Cluster.Traffic
import QuorumKv.Proofs.Cluster.Turns
import QuorumKv.Proofs.Cluster.Undisturbed
import QuorumKv.Proofs.Cluster.Verdict
import QuorumKv.Proofs.Cluster.Writing
import QuorumKv.Proofs.Config
import QuorumKv.Proofs.Dispatch.Clients
import QuorumKv.Proofs.Dispatch.Concurrent
import QuorumKv.Proofs.Dispatch.Freed
import QuorumKv.Proofs.Dispatch.Isolation
import QuorumKv.Proofs.Dispatch.Memory
import QuorumKv.Proofs.Dispatch.Migration
import QuorumKv.Proofs.Dispatch.Numbering
import QuorumKv.Proofs.Dispatch.Records
import QuorumKv.Proofs.Dispatch.Served
import QuorumKv.Proofs.Dispatch.Several
import QuorumKv.Proofs.Dispatch.Trace
import QuorumKv.Proofs.Failure
import QuorumKv.Proofs.Health.Calls
import QuorumKv.Proofs.Health.Rank
import QuorumKv.Proofs.Health.Samples
import QuorumKv.Proofs.Health.Streak
import QuorumKv.Proofs.Health.Trial
import QuorumKv.Proofs.Key
import QuorumKv.Proofs.Migration.Assignments
import QuorumKv.Proofs.Migration.Canonical
import QuorumKv.Proofs.Migration.Longest
import QuorumKv.Proofs.Migration.Table
import QuorumKv.Proofs.Migration.Warnings
import QuorumKv.Proofs.Node.Exchange
import QuorumKv.Proofs.Node.Keys
import QuorumKv.Proofs.Node.Metadata
import QuorumKv.Proofs.Node.Sync
import QuorumKv.Proofs.Proxy.Load
import QuorumKv.Proofs.Proxy.Overlap
import QuorumKv.Proofs.Proxy.Reinstall
import QuorumKv.Proofs.Proxy.Reload
import QuorumKv.Proofs.Quorum.Arrival
import QuorumKv.Proofs.Quorum.Backed
import QuorumKv.Proofs.Quorum.Course
import QuorumKv.Proofs.Quorum.Deleted
import QuorumKv.Proofs.Quorum.Discipline
import QuorumKv.Proofs.Quorum.Fetch
import QuorumKv.Proofs.Quorum.Forward
import QuorumKv.Proofs.Quorum.Found
import QuorumKv.Proofs.Quorum.Gathering
import QuorumKv.Proofs.Quorum.Groups
import QuorumKv.Proofs.Quorum.Order
import QuorumKv.Proofs.Quorum.Read
import QuorumKv.Proofs.Quorum.Search
import QuorumKv.Proofs.Quorum.Selection
import QuorumKv.Proofs.Quorum.Unanimous
import QuorumKv.Proofs.Quorum.Unanswered
import QuorumKv.Proofs.Quorum.Write
import QuorumKv.Proofs.Remote
import QuorumKv.Proofs.Revision
import QuorumKv.Proofs.Route
import QuorumKv.Proofs.Route.Plan
import QuorumKv.Proofs.Sessions
import QuorumKv.Proofs.Store
import QuorumKv.Proofs.Store.Accepted
import QuorumKv.Proofs.Store.Change
import QuorumKv.Proofs.Store.Convergence
import QuorumKv.Proofs.Store.Layout
import QuorumKv.Proofs.Store.Versions
import QuorumKv.Proofs.Text.Blank
import QuorumKv.Proofs.Text.Digits
import QuorumKv.Proofs.Text.Lossy
import QuorumKv.Proofs.Text.Number
import QuorumKv.Proofs.Text.Order
import QuorumKv.Proofs.Text.Percent
import QuorumKv.Proofs.Text.Tokens
import QuorumKv.Proofs.Text.Utf8
import QuorumKv.Proofs.Web.Url
import QuorumKv.Proofs.Wire.Commands
import QuorumKv.Proofs.Wire.Framing
import QuorumKv.Proofs.Wire.Keys
import QuorumKv.Proofs.Wire.Line
import QuorumKv.Proofs.Wire.Reply
import QuorumKv.Proofs.Wire.Request
import QuorumKv.Proofs.Wire.RoundTrip
