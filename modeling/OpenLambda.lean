import OpenLambda.Foundation.Runs
import OpenLambda.Foundation.Tally
import OpenLambda.Foundation.Shelves
import OpenLambda.Foundation.Logs
import OpenLambda.Foundation.Hands
import OpenLambda.Foundation.Maps
import OpenLambda.Foundation.Waits
import OpenLambda.Foundation.Slices
import OpenLambda.Foundation.Trees
import OpenLambda.Foundation.Paths
import OpenLambda.Foundation.Traces
import OpenLambda.Foundation.Frames
import OpenLambda.Foundation.Recency
import OpenLambda.Foundation.Lines
import OpenLambda.Foundation.Numerals
import OpenLambda.Foundation.FileTrees
import OpenLambda.Common.LambdaConfig
import OpenLambda.Common.ConfigExtraction
import OpenLambda.Common.Config
import OpenLambda.Sandbox.Meta
import OpenLambda.Sandbox.MemPool
import OpenLambda.Sandbox.SafeSandbox
import OpenLambda.Sandbox.SockContainer
import OpenLambda.Sandbox.SockStages
import OpenLambda.Sandbox.Evictor
import OpenLambda.Sandbox.EvictionPolicy
import OpenLambda.Sandbox.ConfiguredLimits
import OpenLambda.Sandbox.SockSystem
import OpenLambda.Sandbox.SockKin
import OpenLambda.Sandbox.SockRefs
import OpenLambda.Sandbox.SockRelease
import OpenLambda.Sandbox.SockMemory
import OpenLambda.Sandbox.SockEvents
import OpenLambda.Sandbox.SockEvictions
import OpenLambda.Sandbox.CgroupPool
import OpenLambda.Sandbox.CgroupOwners
import OpenLambda.Sandbox.CgroupLimits
import OpenLambda.Sandbox.CgroupFiles
import OpenLambda.Sandbox.PausedLimits
import OpenLambda.Sandbox.Debugger
import OpenLambda.Sandbox.DebuggerRoom
import OpenLambda.Lambda.Instance
import OpenLambda.Lambda.Function
import OpenLambda.Lambda.Turns
import OpenLambda.Lambda.Handoffs
import OpenLambda.Lambda.Invocations
import OpenLambda.Lambda.CodeSwitch
import OpenLambda.Lambda.Backlog
import OpenLambda.Lambda.SandboxUse
import OpenLambda.Lambda.HandlerPuller
import OpenLambda.Lambda.CodeDirs
import OpenLambda.Lambda.FunctionKill
import OpenLambda.Lambda.Answers
import OpenLambda.Lambda.Wakeups
import OpenLambda.Lambda.CachePeriod
import OpenLambda.Lambda.EnvFile
import OpenLambda.Lambda.RequestBody
import OpenLambda.Lambda.RollingAverage
import OpenLambda.Zygote.ImportCache
import OpenLambda.Zygote.ZygoteRefs
import OpenLambda.Zygote.ZygoteExact
import OpenLambda.Zygote.ZygoteShifts
import OpenLambda.Zygote.ZygoteProgress
import OpenLambda.Zygote.Retries
import OpenLambda.Zygote.ImportTree
import OpenLambda.Zygote.PackageInstalls
import OpenLambda.Zygote.InstallClosure
import OpenLambda.Packages.Normalization
import OpenLambda.Zygote.Spellings
import OpenLambda.Lambda.Requirements
import OpenLambda.Packages.GetPkg
import OpenLambda.Packages.InstallOnce
import OpenLambda.Packages.ScratchDirs
import OpenLambda.Packages.SandboxInstall
import OpenLambda.Packages.InterruptedInstalls
import OpenLambda.Packages.DepTracer
import OpenLambda.Admin.PackedLambda
import OpenLambda.Event.KafkaServer
import OpenLambda.Event.CachedKafkaClient
import OpenLambda.Event.KafkaSeeks
import OpenLambda.Event.KafkaReplay
import OpenLambda.Event.KafkaRegistration
import OpenLambda.Event.KafkaCache
import OpenLambda.Event.Server
import OpenLambda.Event.Shutdown
import OpenLambda.Boss.WorkerPool
import OpenLambda.Boss.WorkerHands
import OpenLambda.Boss.WorkerStates
import OpenLambda.Boss.WorkerQueue
import OpenLambda.Boss.WorkerTasks
import OpenLambda.Boss.PoolLock
import OpenLambda.Boss.ClusterSize
import OpenLambda.Boss.Convergence
import OpenLambda.Boss.Autoscaler
import OpenLambda.Boss.UpdateCounts
import OpenLambda.Boss.TargetReturns
import OpenLambda.Boss.Triggers
import OpenLambda.Boss.LambdaStore
import OpenLambda.Boss.UploadFailures
import OpenLambda.Boss.Listing
import OpenLambda.Boss.StoreRequests
import OpenLambda.Boss.StoreEntries
import OpenLambda.Boss.StoreLocks
import OpenLambda.Boss.Durability
import OpenLambda.Wasm.Bindings
import OpenLambda.Wasm.GuestMemory
import OpenLambda.Wasm.Functions
import OpenLambda.Wasm.Instances
import OpenLambda.Wasm.Results
import OpenLambda.Native.Runtime
import OpenLambda.Native.Pipes
import OpenLambda.Proxy.Connection
import OpenLambda.Proxy.Bincode
import OpenLambda.Proxy.Delivery
import OpenLambda.Sandbox.Docker
