import NetPulse.Bridge.MeshClient
import NetPulse.Bridge.WebSocket
import NetPulse.Core.ConnectionPool
import NetPulse.Core.PingBuffer
import NetPulse.Files.Access
import NetPulse.Files.DownloadCancel
import NetPulse.Files.DownloadIntegrity
import NetPulse.Files.DownloadIsolation
import NetPulse.Infra.Ber
import NetPulse.Infra.Response
import NetPulse.Infra.Values
import NetPulse.Lib.Spread
import NetPulse.Mesh.CertsIndex
import NetPulse.Mesh.ClientAnswers
import NetPulse.Mesh.ConfigEditor
import NetPulse.Mesh.DeadConsumer
import NetPulse.Mesh.FanOut
import NetPulse.Mesh.Forwarding
import NetPulse.Mesh.GhostExpiry
import NetPulse.Mesh.GossipFrame
import NetPulse.Mesh.GossipValues
import NetPulse.Mesh.HelloAck
import NetPulse.Mesh.HotReload
import NetPulse.Mesh.Liveness
import NetPulse.Mesh.Locality
import NetPulse.Mesh.LoopFreedom
import NetPulse.Mesh.MeshAuth
import NetPulse.Mesh.NeighborInvariant
import NetPulse.Mesh.ReceiveLoops
import NetPulse.Mesh.RoundTrip
import NetPulse.Mesh.SessionConsistency
import NetPulse.Mesh.SessionHygiene
import NetPulse.Mesh.Spawning
import NetPulse.Mesh.StreamFailure
import NetPulse.Mesh.StreamIntegrity
import NetPulse.Mesh.StreamOpen
import NetPulse.Mesh.StreamProgress
import NetPulse.Mesh.StreamRouting
import NetPulse.Mesh.SweepClosure
import NetPulse.Mesh.Topology
import NetPulse.Mesh.TransportCache
import NetPulse.Mesh.WireFormat
import NetPulse.Monitor.Escalation
import NetPulse.Monitor.Notifications
import NetPulse.Monitor.Sla
import NetPulse.Monitor.TrafficRows
import NetPulse.Recovery.Restorable
import NetPulse.Recovery.Restore
import NetPulse.Server.BruteForce
import NetPulse.Server.ConfigWriters
import NetPulse.Server.Isolation
import NetPulse.Server.Jobs
import NetPulse.Server.RouterRuns
import NetPulse.Server.SecretsAtRest
import NetPulse.Server.Settings
import NetPulse.Server.Unauthenticated
import NetPulse.Updater.BootRuns
import NetPulse.Bridge.Framing
import NetPulse.RouterOs.Words
import NetPulse.RouterOs.Exchange
import NetPulse.Lib.PosixPath
import NetPulse.Server.Static
import NetPulse.Updater.ReplaceBinary
import NetPulse.Lib.KeyOrder
import NetPulse.Monitor.EventDedup
import NetPulse.Updater.Catalogue
import NetPulse.Infra.PortMap
import NetPulse.Infra.Oids
import NetPulse.Infra.Walk
import NetPulse.Lib.PrefixOrder
import NetPulse.Infra.Agent
import NetPulse.Infra.WalkRuns
import NetPulse.Lib.JsonPaths
import NetPulse.Server.Overrides
import NetPulse.Server.OverridePaths
import NetPulse.Server.OverrideRuns
import NetPulse.Lib.JsonMerge
import NetPulse.Server.SaveConfig
import NetPulse.Lib.Schema
import NetPulse.Mesh.ConfigFill
import NetPulse.Mesh.NodeConfig
import NetPulse.Mesh.ConfigManager
import NetPulse.Mesh.ConfigMigration
import NetPulse.Lib.JsonPlaces
import NetPulse.Mesh.ConfigMask
import NetPulse.Mesh.ConfigRoundTrip
import NetPulse.Mesh.ConfigBackups
import NetPulse.Monitor.PortScan
import NetPulse.Monitor.IdsWhitelist
import NetPulse.Lib.Template
import NetPulse.Ops.Runbooks
import NetPulse.Certs.Tool
import NetPulse.Certs.CommandLines
import NetPulse.Certs.Repair
import NetPulse.Lib.Spacing
import NetPulse.Ops.Healing
import NetPulse.Ops.Planner
import NetPulse.Lib.Timeline
import NetPulse.Monitor.Availability
import NetPulse.Inventory.CveCache
import NetPulse.Monitor.DiskForecast
import NetPulse.Lib.Transaction
import NetPulse.Inventory.SoftwareReport
import NetPulse.Lib.FirstMatch
import NetPulse.Ops.Wake
import NetPulse.Inventory.Health
import NetPulse.Updater.VersionOrder
import NetPulse.Core.Retention
import NetPulse.Core.Sniffer
import NetPulse.RouterOs.Uptime
import NetPulse.Lib.JsonStrings
import NetPulse.Server.SecretTrees
import NetPulse.Lib.Escaping
import NetPulse.Lib.GeneralFormat
import NetPulse.Server.Metrics
import NetPulse.Files.SafeJoin
import NetPulse.Files.Shares
import NetPulse.Monitor.LanScan
