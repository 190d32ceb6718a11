import Extism.Lib.ByteMemory
import Extism.Lib.Prog
import Extism.Lib.Transition
import Extism.Lib.Utf8
import Extism.Lib.FloatFormat
import Extism.Lib.FirstFit
import Extism.Lib.Journal
import Extism.Lib.Slots
import Extism.Lib.Shared
import Extism.Lib.ObjectStore
import Extism.Lib.Blocks
import Extism.Kernel.Instance
import Extism.Kernel.MemoryRoot
import Extism.Kernel.Exports
import Extism.Kernel.Heap
import Extism.Kernel.Alloc
import Extism.Kernel.Find
import Extism.Kernel.Accessors
import Extism.Kernel.Outcome
import Extism.Kernel.Run
import Extism.Kernel.Layout
import Extism.Kernel.Isolation
import Extism.Kernel.Handles
import Extism.Kernel.Objects
import Extism.Kernel.Refinement
import Extism.Kernel.Probe
import Extism.Kernel.Mirror
import Extism.Kernel.InputReads
import Extism.Kernel.Reset
import Extism.Kernel.Replay
import Extism.Kernel.Published
import Extism.Kernel.Oversize
import Extism.Convert.Bytes
import Extism.Otoroshi.PluginMemory
import Extism.Otoroshi.Run
import Extism.Otoroshi.NoOverlap
import Extism.Otoroshi.Conservation
import Extism.Otoroshi.Bounds
import Extism.Otoroshi.EmptyBlocks
import Extism.Runtime.Limiter
import Extism.Runtime.Budget
import Extism.Runtime.Timer
import Extism.Runtime.Value
import Extism.Runtime.ExtismVal
import Extism.Runtime.Parameters
import Extism.Runtime.Manifest
import Extism.Runtime.ModuleNames
import Extism.Runtime.ModuleText
import Extism.Runtime.CurrentPlugin
import Extism.Runtime.Plugin
import Extism.Runtime.Sdk
import Extism.Runtime.Initialized
import Extism.Runtime.Input
import Extism.Runtime.HostBlock
import Extism.Runtime.HostHandle
import Extism.Runtime.ErrorString
import Extism.Runtime.Fidelity
import Extism.Runtime.Reports
import Extism.Runtime.ReturnCode
import Extism.Runtime.GuestCode
import Extism.Runtime.BuildNew
import Extism.Runtime.PluginNew
import Extism.Runtime.UserData
import Extism.Runtime.Pdk
import Extism.Runtime.Vars
import Extism.Runtime.HostObjects
import Extism.Runtime.HostFn
import Extism.Runtime.HostVars
import Extism.Runtime.Outgoing
import Extism.Runtime.HostRuns
import Extism.Runtime.HostResults
import Extism.Runtime.JavaHost
import Extism.Runtime.Told
import Extism.Runtime.Calls
import Extism.Runtime.TypedCall
import Extism.Runtime.Service
import Extism.Runtime.ServiceRuns
