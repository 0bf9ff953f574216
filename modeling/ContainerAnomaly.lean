import ContainerAnomaly.Lib.HashTable
import ContainerAnomaly.Lib.GoMap
import ContainerAnomaly.Lib.GoString
import ContainerAnomaly.Lib.Numeral
import ContainerAnomaly.Lib.Words
import ContainerAnomaly.Cgroup.Files
import ContainerAnomaly.Cgroup.PressureFile
import ContainerAnomaly.Cgroup.Directory
import ContainerAnomaly.Container.FastPath
import ContainerAnomaly.Container.StartTime
import ContainerAnomaly.Container.Resolver
import ContainerAnomaly.Cgroup.Reader
import ContainerAnomaly.Cgroup.Hierarchy
import ContainerAnomaly.Container.ScopePath
import ContainerAnomaly.Attribution.Isolation
import ContainerAnomaly.Attribution.Agreement
import ContainerAnomaly.Attribution.Conservation
import ContainerAnomaly.Attribution.Capacity
import ContainerAnomaly.Attribution.Telescoping
import ContainerAnomaly.Attribution.Strays
import ContainerAnomaly.Lib.Schedule
import ContainerAnomaly.Lib.Potential
import ContainerAnomaly.Lib.ProcessorTime
import ContainerAnomaly.Bpf.PidRuntime
import ContainerAnomaly.Collector.PidRuntime
import ContainerAnomaly.Accounting.Runtime
import ContainerAnomaly.Bpf.TcpStats
import ContainerAnomaly.Collector.TcpStats
import ContainerAnomaly.Accounting.World
import ContainerAnomaly.Accounting.Reuse
import ContainerAnomaly.Accounting.Ownership
import ContainerAnomaly.Feature.Aggregator
import ContainerAnomaly.Feature.Account
import ContainerAnomaly.Feature.Windowing
import ContainerAnomaly.Feature.Deltas
import ContainerAnomaly.Detect.Features
import ContainerAnomaly.Detect.Score
import ContainerAnomaly.Detect.Models
import ContainerAnomaly.Detect.Neighbours
import ContainerAnomaly.Collector.Updates
import ContainerAnomaly.Attribution.Atomicity
import ContainerAnomaly.Container.Refresh
import ContainerAnomaly.Attribution.Outages
import ContainerAnomaly.Accounting.Moves
import ContainerAnomaly.Collector.TcpPolling
import ContainerAnomaly.Lib.DeltaRuns
import ContainerAnomaly.Collector.PartialPolls
import ContainerAnomaly.Feature.FirstSample
import ContainerAnomaly.Lib.MissedReadings
import ContainerAnomaly.Feature.FailedReads
import ContainerAnomaly.Attribution.Partition
import ContainerAnomaly.Detect.ReadCsv
import ContainerAnomaly.Feature.Partition
import ContainerAnomaly.Detect.Ratios
import ContainerAnomaly.Detect.Names
import ContainerAnomaly.Feature.PointInTime
import ContainerAnomaly.Feature.Throttle
import ContainerAnomaly.Feature.Naming
import ContainerAnomaly.Agent.Naming
import ContainerAnomaly.Agent.Pipeline
import ContainerAnomaly.Agent.Feed
import ContainerAnomaly.Agent.Alarms
import ContainerAnomaly.Agent.Bounds
import ContainerAnomaly.Agent.CpuTime
import ContainerAnomaly.Agent.Shutdown
import ContainerAnomaly.Agent.Stopping
import ContainerAnomaly.Agent.CgroupPoll
import ContainerAnomaly.Accounting.SwitchIns
import ContainerAnomaly.Accounting.WallClock
import ContainerAnomaly.Lib.Register
import ContainerAnomaly.Accounting.Churn
import ContainerAnomaly.Lib.Interleaving
import ContainerAnomaly.Bpf.TcpRace
import ContainerAnomaly.Attribution.Races
import ContainerAnomaly.Detect.FeatureNames
import ContainerAnomaly.Detect.Volume
import ContainerAnomaly.Detect.Schema
import ContainerAnomaly.Lib.Regroup
import ContainerAnomaly.Detect.Layers
import ContainerAnomaly.Detect.Verdicts
import ContainerAnomaly.Detect.Printout
import ContainerAnomaly.Detect.Indexed
import ContainerAnomaly.Detect.Alignment
import ContainerAnomaly.Lib.Fallible
import ContainerAnomaly.Report.Clean
import ContainerAnomaly.Report.Credit
import ContainerAnomaly.Lib.Csv
import ContainerAnomaly.Lib.Calendar
import ContainerAnomaly.Lib.Fixed
import ContainerAnomaly.Feature.RoundTrip
import ContainerAnomaly.Lib.Lines
import ContainerAnomaly.Lib.Wire
import ContainerAnomaly.Lib.LossyRing
import ContainerAnomaly.Lib.Channel
import ContainerAnomaly.Bpf.ProcExit
import ContainerAnomaly.Collector.ProcExit
import ContainerAnomaly.Accounting.Exits
import ContainerAnomaly.Feature.File
import ContainerAnomaly.Feature.Header
import ContainerAnomaly.Feature.ReadBack
import ContainerAnomaly.Agent.TcpTraffic
import ContainerAnomaly.Lib.Histogram
import ContainerAnomaly.Container.Scan
import ContainerAnomaly.Attribution.Handles
import ContainerAnomaly.Lib.Incidence
import ContainerAnomaly.Report.Suite
