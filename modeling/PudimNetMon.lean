import PudimNetMon.Agent.Backoff
import PudimNetMon.Agent.Cadence
import PudimNetMon.Agent.Commands
import PudimNetMon.Agent.ConfigFile
import PudimNetMon.Agent.ConfigScan
import PudimNetMon.Agent.CycleWakeup
import PudimNetMon.Agent.DiskFifo
import PudimNetMon.Agent.DnsCache
import PudimNetMon.Agent.DnsRecord
import PudimNetMon.Agent.DnsResolver
import PudimNetMon.Agent.Failover
import PudimNetMon.Agent.HandshakeCapture
import PudimNetMon.Agent.HeadOfLine
import PudimNetMon.Agent.HostPort
import PudimNetMon.Agent.JsonValue
import PudimNetMon.Agent.Layering
import PudimNetMon.Agent.LoadErrors
import PudimNetMon.Agent.NtpProbe
import PudimNetMon.Agent.PingBurst
import PudimNetMon.Agent.ProbeConfig
import PudimNetMon.Agent.RunAgent
import PudimNetMon.Agent.RunCycle
import PudimNetMon.Agent.SinglePing
import PudimNetMon.Agent.ThreadPool
import PudimNetMon.Agent.TlsSessions
import PudimNetMon.Agent.TraceContext
import PudimNetMon.Agent.Trimming
import PudimNetMon.Agent.WindowsGetopt
import PudimNetMon.Alerting.Acknowledge
import PudimNetMon.Alerting.Evaluate
import PudimNetMon.Alerting.Filter
import PudimNetMon.Alerting.Isolation
import PudimNetMon.Alerting.Lifecycle
import PudimNetMon.Alerting.Listing
import PudimNetMon.Alerting.Payloads
import PudimNetMon.Alerting.Rejects
import PudimNetMon.Alerting.RoundTrip
import PudimNetMon.Alerting.RuleIds
import PudimNetMon.Alerting.RuleStore
import PudimNetMon.Alerting.Stranded
import PudimNetMon.Alerting.Throttle
import PudimNetMon.Collector.Accounting
import PudimNetMon.Collector.AgentEndpoint
import PudimNetMon.Collector.AgentRegistry
import PudimNetMon.Collector.BusyAgents
import PudimNetMon.Collector.HttpBodies
import PudimNetMon.Collector.HttpServer
import PudimNetMon.Collector.Pending
import PudimNetMon.Collector.Retry
import PudimNetMon.Collector.ScheduledRun
import PudimNetMon.Collector.Scheduler
import PudimNetMon.Collector.Slots
import PudimNetMon.Collector.Starvation
import PudimNetMon.Collector.StreamMetrics
import PudimNetMon.Collector.Threads
import PudimNetMon.Collector.Wakeups
import PudimNetMon.Dashboard.AgentConfig
import PudimNetMon.Dashboard.Average
import PudimNetMon.Dashboard.BucketWidth
import PudimNetMon.Dashboard.Buckets
import PudimNetMon.Dashboard.Charts
import PudimNetMon.Dashboard.Export
import PudimNetMon.Installers.AgentDist
import PudimNetMon.Installers.Decoders
import PudimNetMon.Installers.DownloadNames
import PudimNetMon.Installers.InstallConfig
import PudimNetMon.Installers.InstallerDist
import PudimNetMon.Installers.ReleaseMirror
import PudimNetMon.Installers.RunWrapper
import PudimNetMon.Installers.Serving
import PudimNetMon.Installers.SyncErrors
import PudimNetMon.Kafka.Consumer
import PudimNetMon.Kafka.Producer
import PudimNetMon.Kafka.StorageConsumer
import PudimNetMon.Lib.Base64
import PudimNetMon.Lib.CString
import PudimNetMon.Lib.DoubleArith
import PudimNetMon.Lib.FormUrl
import PudimNetMon.Lib.Getopt
import PudimNetMon.Lib.IpAddress
import PudimNetMon.Lib.JsText
import PudimNetMon.Lib.JsonMembers
import PudimNetMon.Lib.JsonText
import PudimNetMon.Lib.Log
import PudimNetMon.Lib.Lowest
import PudimNetMon.Lib.Pascal
import PudimNetMon.Lib.Rounding
import PudimNetMon.Lib.Search
import PudimNetMon.Lib.Strtod
import PudimNetMon.Lib.Tenancy
import PudimNetMon.Pipeline.Direct
import PudimNetMon.Pipeline.Stored
import PudimNetMon.Storage.Attributes
import PudimNetMon.Storage.QueryMetrics
