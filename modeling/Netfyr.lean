import Netfyr.Interact.Program
import Netfyr.Interact.Rounds
import Netfyr.Interact.Service
import Netfyr.Interact.Callers
import Netfyr.Interact.Abandoned
import Netfyr.Interact.Action
import Netfyr.Interact.Confined
import Netfyr.Interact.Effect
import Netfyr.Interact.Layer
import Netfyr.Interact.Loop
import Netfyr.Interact.Owned
import Netfyr.Interact.Threads
import Netfyr.Data.Account
import Netfyr.Data.Assoc
import Netfyr.Data.Checked
import Netfyr.Data.Drain
import Netfyr.Data.Leading
import Netfyr.Data.Lists
import Netfyr.Data.Merge
import Netfyr.Data.Sorted
import Netfyr.State.IpAddr
import Netfyr.State.IpText
import Netfyr.State.Value
import Netfyr.State.State
import Netfyr.State.Plan
import Netfyr.Schema.Node
import Netfyr.Schema.Registry
import Netfyr.Schema.Validate
import Netfyr.Schema.Fields
import Netfyr.Schema.Prune
import Netfyr.Schema.Yaml
import Netfyr.Schema.Apply
import Netfyr.Schema.Prepared
import Netfyr.Schema.Reachable
import Netfyr.Schema.Addresses
import Netfyr.Schema.Warnings
import Netfyr.Schema.Accounted
import Netfyr.Schema.Flatten
import Netfyr.Schema.Extension
import Netfyr.Schema.Conservative
import Netfyr.Schema.Render
import Netfyr.Schema.RoundTrip
import Netfyr.Schema.FixedPoint
import Netfyr.Schema.Forgotten
import Netfyr.Schema.Lossless
import Netfyr.Schema.ReadOnly
import Netfyr.Schema.Rules
import Netfyr.Schema.Violation
import Netfyr.Schema.Modes
import Netfyr.Schema.Raw
import Netfyr.Schema.Refined
import Netfyr.Schema.Reserialized
import Netfyr.Policy.Produce
import Netfyr.Policy.Static
import Netfyr.Policy.Load
import Netfyr.Policy.Directory
import Netfyr.Policy.Ordered
import Netfyr.Policy.Panics
import Netfyr.Policy.Pipeline
import Netfyr.Policy.Set
import Netfyr.Policy.Split
import Netfyr.Backend.Report
import Netfyr.Backend.Registry
import Netfyr.Backend.Routing
import Netfyr.Backend.Inventory
import Netfyr.Executor.Decode
import Netfyr.Executor.Lifetimes
import Netfyr.Executor.Group
import Netfyr.Executor.Run
import Netfyr.Executor.Steps
import Netfyr.Executor.Bounds
import Netfyr.Executor.History
import Netfyr.Executor.Acted
import Netfyr.Executor.Project
import Netfyr.Executor.Alike
import Netfyr.Executor.Cascade
import Netfyr.Executor.Groups
import Netfyr.Executor.Ideal
import Netfyr.Executor.Reported
import Netfyr.Executor.View
import Netfyr.Executor.Verify
import Netfyr.Executor.Confirm
import Netfyr.Executor.Written
import Netfyr.Executor.Agree
import Netfyr.Executor.Discipline
import Netfyr.Executor.Attested
import Netfyr.Executor.Authority
import Netfyr.Executor.Decay
import Netfyr.Executor.Dependencies
import Netfyr.Executor.DryRun
import Netfyr.Executor.ExactlyOnce
import Netfyr.Executor.Lookahead
import Netfyr.Executor.Prefixes
import Netfyr.Executor.Rebased
import Netfyr.Executor.Transparent
import Netfyr.Executor.Unreachable
import Netfyr.Kernel.Write
import Netfyr.Kernel.Transport
import Netfyr.Kernel.Verification
import Netfyr.Kernel.Distinct
import Netfyr.Kernel.FalseAlarm
import Netfyr.Linux.Link
import Netfyr.Linux.Message
import Netfyr.Linux.Dump
import Netfyr.Linux.Records
import Netfyr.Kernel.Messages
import Netfyr.Kernel.Interface
import Netfyr.Kernel.Settled
import Netfyr.Kernel.Progress
import Netfyr.Kernel.Reapply
import Netfyr.Kernel.Survival
import Netfyr.Linux.Accepted
import Netfyr.Linux.Transport
import Netfyr.Linux.Faultless
import Netfyr.Linux.Procedures
import Netfyr.Linux.Losses
import Netfyr.Linux.Generations
import Netfyr.Linux.Sent
import Netfyr.Linux.Remembered
import Netfyr.Linux.Classified
import Netfyr.Linux.Completeness
import Netfyr.Linux.Framing
import Netfyr.Linux.Response
import Netfyr.Linux.Selection
import Netfyr.Linux.Wireless
import Netfyr.Worker.Serve
import Netfyr.Worker.Jobs
import Netfyr.Worker.Wire
import Netfyr.Worker.Attested
import Netfyr.Worker.Channel
import Netfyr.Worker.Records
import Netfyr.Worker.Devices
import Netfyr.Worker.Open
import Netfyr.Worker.Predicted
import Netfyr.Worker.Returned
