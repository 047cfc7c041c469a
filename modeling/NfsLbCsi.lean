import NfsLbCsi.Basic.Run
import NfsLbCsi.Basic.Tally
import NfsLbCsi.Basic.Replica
import NfsLbCsi.Basic.Balance
import NfsLbCsi.LBController.Functions
import NfsLbCsi.LBController.System
import NfsLbCsi.LBController.Invariants
import NfsLbCsi.LBController.Counting
import NfsLbCsi.LBController.Drift
import NfsLbCsi.LBController.Staleness
import NfsLbCsi.LBController.Agreement
import NfsLbCsi.LBController.Selection
import NfsLbCsi.LBController.Frame
import NfsLbCsi.LBController.Call
import NfsLbCsi.ControllerServer.Handlers
import NfsLbCsi.ControllerServer.Sequential
import NfsLbCsi.ControllerServer.Sharing
import NfsLbCsi.Basic.GoPath
import NfsLbCsi.Basic.StringMap
import NfsLbCsi.Volumes.Functions
import NfsLbCsi.Volumes.RoundTrip
import NfsLbCsi.Volumes.Separator
import NfsLbCsi.Volumes.Policy
import NfsLbCsi.Volumes.Containment
import NfsLbCsi.Basic.Locks
import NfsLbCsi.Basic.Pool
import NfsLbCsi.Driver.Effects
import NfsLbCsi.Driver.Setup
import NfsLbCsi.NodeServer.Functions
import NfsLbCsi.NodeServer.Retries
import NfsLbCsi.ControllerServer.Provisioning
import NfsLbCsi.ControllerServer.Service
import NfsLbCsi.ControllerServer.Untouched
import NfsLbCsi.Driver.OperationLocks
import NfsLbCsi.Driver.Addresses
import NfsLbCsi.Driver.Crash
import NfsLbCsi.NodeServer.ReadAhead
import NfsLbCsi.NodeServer.MountCall
import NfsLbCsi.Basic.Template
import NfsLbCsi.Volumes.Orders
import NfsLbCsi.NodeServer.Context
import NfsLbCsi.NodeServer.MountSource
import NfsLbCsi.NodeServer.SubDir
import NfsLbCsi.Driver.DefaultPolicy
import NfsLbCsi.NodeServer.Stats
import NfsLbCsi.Volumes.Grammar
import NfsLbCsi.Basic.Balancer
import NfsLbCsi.LBController.Refinement
import NfsLbCsi.LBController.Degradation
import NfsLbCsi.LBController.Progress
import NfsLbCsi.Basic.Places
import NfsLbCsi.NodeServer.Mounts
import NfsLbCsi.NodeServer.Cleanup
import NfsLbCsi.NodeServer.StatsCache
import NfsLbCsi.NodeServer.StatsAnswers
import NfsLbCsi.Driver.EndToEnd
import NfsLbCsi.Basic.Sections
import NfsLbCsi.Driver.Process
import NfsLbCsi.Driver.Endpoint
