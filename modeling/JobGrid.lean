import JobGrid.Arithmetic
import JobGrid.Arrangement
import JobGrid.Balance.Adaptive
import JobGrid.Balance.Affinity
import JobGrid.Balance.Balancer
import JobGrid.Balance.Layout
import JobGrid.Balance.Probe
import JobGrid.Balance.Ring
import JobGrid.Balance.SessionCache
import JobGrid.Cli.Arguments
import JobGrid.Cli.Command
import JobGrid.Cli.RingReport
import JobGrid.Cli.Simulation
import JobGrid.Cluster
import JobGrid.Config.Basic
import JobGrid.Config.Json
import JobGrid.Dashboard
import JobGrid.Decimal.Shortest
import JobGrid.Error
import JobGrid.Failover
import JobGrid.Hash.Md5
import JobGrid.Hash.SipHash
import JobGrid.Job.Handle
import JobGrid.Job.Json
import JobGrid.Job.Message
import JobGrid.Job.Queue
import JobGrid.Job.Spec
import JobGrid.Json.Basic
import JobGrid.Json.Encode
import JobGrid.Json.Lookup
import JobGrid.Json.Number
import JobGrid.Json.Reader
import JobGrid.Json.Record
import JobGrid.Json.Writer
import JobGrid.Main
import JobGrid.Member.Attribute
import JobGrid.Member.Event
import JobGrid.Member.Json
import JobGrid.Member.Metrics
import JobGrid.Member.View
import JobGrid.Node.Attention
import JobGrid.Node.Basic
import JobGrid.Node.Handler
import JobGrid.Node.Placement
import JobGrid.Node.Task
import JobGrid.Proofs.Balance.Attempts
import JobGrid.Proofs.Balance.Candidates
import JobGrid.Proofs.Balance.Draws
import JobGrid.Proofs.Balance.History
import JobGrid.Proofs.Balance.KeyedPicks
import JobGrid.Proofs.Balance.Layouts
import JobGrid.Proofs.Balance.Mapped
import JobGrid.Proofs.Balance.Nearest
import JobGrid.Proofs.Balance.Ownership
import JobGrid.Proofs.Balance.Picks
import JobGrid.Proofs.Balance.Ring
import JobGrid.Proofs.Balance.RingHistory
import JobGrid.Proofs.Balance.Routes
import JobGrid.Proofs.Balance.Sent
import JobGrid.Proofs.Balance.SessionHistory
import JobGrid.Proofs.Balance.Shares
import JobGrid.Proofs.Balance.Slices
import JobGrid.Proofs.Grid.Books
import JobGrid.Proofs.Grid.Copies
import JobGrid.Proofs.Grid.Follower
import JobGrid.Proofs.Grid.Handlers
import JobGrid.Proofs.Grid.History
import JobGrid.Proofs.Grid.Kept
import JobGrid.Proofs.Grid.Ledger
import JobGrid.Proofs.Grid.Log
import JobGrid.Proofs.Grid.Mail
import JobGrid.Proofs.Grid.Membership
import JobGrid.Proofs.Grid.Peers
import JobGrid.Proofs.Grid.Place
import JobGrid.Proofs.Grid.Presence
import JobGrid.Proofs.Grid.Replay
import JobGrid.Proofs.Grid.Rings
import JobGrid.Proofs.Grid.Single
import JobGrid.Proofs.Grid.State
import JobGrid.Proofs.Grid.Steals
import JobGrid.Proofs.Grid.Stock
import JobGrid.Proofs.Grid.Tally
import JobGrid.Proofs.Grid.Turn
import JobGrid.Proofs.Grid.Whereabouts
import JobGrid.Proofs.Job.QueueHistory
import JobGrid.Proofs.Job.Settling
import JobGrid.Proofs.Job.Wire
import JobGrid.Proofs.Json.Fields
import JobGrid.Proofs.Json.RoundTrip
import JobGrid.Proofs.Json.Text
import JobGrid.Proofs.Node.Conduct
import JobGrid.Proofs.Node.Course
import JobGrid.Proofs.Node.Custody
import JobGrid.Proofs.Node.Delivery
import JobGrid.Proofs.Node.Ended
import JobGrid.Proofs.Node.Fate
import JobGrid.Proofs.Node.Homes
import JobGrid.Proofs.Node.Limit
import JobGrid.Proofs.Node.Outcome
import JobGrid.Proofs.Node.Pick
import JobGrid.Proofs.Node.Placing
import JobGrid.Proofs.Node.Reports
import JobGrid.Proofs.Node.Restricted
import JobGrid.Proofs.Node.TaskMoves
import JobGrid.Proofs.Node.Tasking
import JobGrid.Proofs.Node.Thieves
import JobGrid.Proofs.Node.Walk
import JobGrid.Proofs.Result
import JobGrid.Proofs.Steal.Busy
import JobGrid.Proofs.Steal.Counter
import JobGrid.Proofs.Steal.Fixpoint
import JobGrid.Proofs.Steal.Gift
import JobGrid.Proofs.Steal.History
import JobGrid.Proofs.Steal.Messages
import JobGrid.Proofs.Steal.Outstanding
import JobGrid.Proofs.Steal.Overlap
import JobGrid.Proofs.Steal.PassLog
import JobGrid.Proofs.Steal.Queue
import JobGrid.Proofs.Steal.Request
import JobGrid.Proofs.Steal.Rotation
import JobGrid.Proofs.Steal.Shared
import JobGrid.Proofs.Steal.Stamps
import JobGrid.Proofs.Steal.Thresholds
import JobGrid.Proofs.Steal.Unserved
import JobGrid.Proofs.Steal.Words
import JobGrid.Proofs.Table
import JobGrid.Proofs.Time.Calendar
import JobGrid.Proofs.Time.Timestamp
import JobGrid.Restriction
import JobGrid.Steal.Busy
import JobGrid.Steal.Idle
import JobGrid.Steal.Json
import JobGrid.Steal.Pass
import JobGrid.Steal.Request
import JobGrid.Steal.Resolver
import JobGrid.Table
import JobGrid.Text.Blank
import JobGrid.Text.Column
import JobGrid.Text.Digits
import JobGrid.Text.Shown
import JobGrid.Time.Calendar
import JobGrid.Time.Timestamp
import JobGrid.Uuid
import JobGrid.Work.Duration
import JobGrid.Work.Execution
import JobGrid.Work.Heartbeat
import JobGrid.Work.Tracker
import JobGrid.World
