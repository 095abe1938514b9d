import ModBus.Acceptance
import ModBus.Answers
import ModBus.AtMostOnce
import ModBus.Beacon
import ModBus.Broker
import ModBus.Bus
import ModBus.Calm
import ModBus.Catalog
import ModBus.Child
import ModBus.ConfigFidelity
import ModBus.ConfigFile
import ModBus.ConfigText
import ModBus.Correlation
import ModBus.Cursors
import ModBus.Czmq.ZHash
import ModBus.Czmq.ZList
import ModBus.Discovery
import ModBus.Dispatch
import ModBus.Drain
import ModBus.Dumps
import ModBus.ExactKey
import ModBus.Exclusion
import ModBus.Execute
import ModBus.FailedLookup
import ModBus.Failover
import ModBus.FastCgi
import ModBus.Fifo
import ModBus.Files
import ModBus.Gateway
import ModBus.Getters
import ModBus.Grammar
import ModBus.Grouping
import ModBus.Handlers
import ModBus.Handshake
import ModBus.Heartbeat
import ModBus.Http
import ModBus.IfaceList
import ModBus.IniLayout
import ModBus.IniText
import ModBus.Integrity
import ModBus.Interface
import ModBus.Introduce
import ModBus.Libc
import ModBus.Lines
import ModBus.LoggerFile
import ModBus.Lookup
import ModBus.LostRestart
import ModBus.MLookup
import ModBus.Message
import ModBus.MinIni
import ModBus.Misreads
import ModBus.Network
import ModBus.Object
import ModBus.Occupancy
import ModBus.Orderly
import ModBus.OwnType
import ModBus.PidFile
import ModBus.PlaceCall
import ModBus.Population
import ModBus.Procman
import ModBus.Promptness
import ModBus.Provide
import ModBus.Proxy
import ModBus.Readers
import ModBus.RegistrationOrder
import ModBus.Registry
import ModBus.Relay
import ModBus.RemovePid
import ModBus.Replies
import ModBus.Restarts
import ModBus.ReturnPath
import ModBus.Rolling
import ModBus.Selection
import ModBus.Sends
import ModBus.Shutdown
import ModBus.Signals
import ModBus.Simulation
import ModBus.Snapshot
import ModBus.Step
import ModBus.Sweep
import ModBus.Tenancy
import ModBus.Timeouts
import ModBus.Transition
import ModBus.Unlisting
import ModBus.Versions
import ModBus.Wakeup
import ModBus.Wire
