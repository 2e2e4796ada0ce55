import Cpip.Lib.Dict
import Cpip.Lib.Machine
import Cpip.Python.Value
import Cpip.Lib.Base64
import Cpip.Python.Json
import Cpip.Runtime.Serialization
import Cpip.Runtime.RoundTrip
import Cpip.Runtime.PickleTrust
import Cpip.Server.Rpc
import Cpip.Server.Sessions
import Cpip.Server.Hub
import Cpip.Server.Endpoint
import Cpip.Server.World
import Cpip.Server.HubSteps
import Cpip.Server.WorldSteps
import Cpip.Server.Answers
import Cpip.Server.Registry
import Cpip.Server.Removal
import Cpip.Server.Loop
import Cpip.Server.Devices
import Cpip.Client.Calls
import Cpip.Client.Daemon
import Cpip.Runtime.Session
import Cpip.Client.Correlation
import Cpip.Client.Pending
import Cpip.Runtime.Connection
import Cpip.Lib.Slots
import Cpip.Runtime.Fallback
import Cpip.Runtime.Streaming
import Cpip.Runtime.Reassembly
import Cpip.Runtime.StreamFrames
import Cpip.Lib.Patch
import Cpip.Virtualization.Fetcher
import Cpip.Python.Hashlib
import Cpip.Virtualization.Download
import Cpip.Server.Auth
import Cpip.Server.Tokens
import Cpip.Lib.FileTree
import Cpip.Python.Pathlib
import Cpip.Client.Cache
import Cpip.Client.CacheIndex
import Cpip.Client.CacheLedger
import Cpip.Client.CacheKeep
import Cpip.Client.Resolver
import Cpip.Client.Installer
import Cpip.Client.Offline
import Cpip.Client.WheelHash
import Cpip.Lib.Windows
import Cpip.Server.RateLimiter
import Cpip.Server.Quotas
import Cpip.Server.Forwarded
import Cpip.Runtime.Overlap
import Cpip.Lib.StableSort
import Cpip.Builder.Queue
import Cpip.Builder.Worker
import Cpip.Builder.Retries
import Cpip.Server.Builds
import Cpip.Executor.Containers
import Cpip.Server.SessionHistory
import Cpip.Runtime.Scheduler
import Cpip.Executor.Pool
import Cpip.Virtualization.Layers
import Cpip.Virtualization.Mount
import Cpip.Client.CacheSize
import Cpip.Python.JsonBytes
import Cpip.Client.CacheDisk
import Cpip.Client.CacheReopen
import Cpip.Client.CacheShared
import Cpip.Python.Import
import Cpip.Runtime.Hooks
import Cpip.Server.Execution
import Cpip.Client.Versions
import Cpip.Lib.FileSteps
import Cpip.Virtualization.Compose
import Cpip.Shared.RoundTrip
import Cpip.Client.Eviction
import Cpip.Client.Integrity
import Cpip.Client.CacheHit
import Cpip.Lib.Routes
import Cpip.Server.Packages
import Cpip.Client.Sync
import Cpip.Runtime.Finder
import Cpip.Server.Acknowledged
import Cpip.Python.NamedFiles
import Cpip.Virtualization.Registry
import Cpip.Client.Configs
import Cpip.Lib.Walks
import Cpip.Python.Confinement
import Cpip.Client.Confined
import Cpip.Python.Toml
import Cpip.Python.TomlText
import Cpip.Client.Config
import Cpip.Lib.Backoff
import Cpip.Runtime.Retry
import Cpip.Client.Dispatch
import Cpip.Client.Reconnect
import Cpip.Python.PosixPath
import Cpip.Builder.Scanner
import Cpip.Runtime.Arguments
import Cpip.Runtime.StreamWait
import Cpip.Python.Glob
import Cpip.Builder.Compiler
import Cpip.Lib.LinkTree
import Cpip.Python.Tarfile
import Cpip.Virtualization.Extraction
import Cpip.Python.TarInside
import Cpip.Python.TarReach
import Cpip.Virtualization.Escape
import Cpip.Server.Turns
import Cpip.Server.Delivery
import Cpip.Server.Heartbeats
import Cpip.Link.Heartbeat
import Cpip.Link.Serving
import Cpip.Link.Passes
import Cpip.Link.Exchange
import Cpip.Python.JsonChars
import Cpip.Security.Audit
import Cpip.Executor.Capacity
import Cpip.Python.Lines
import Cpip.Virtualization.Linker
import Cpip.Security.Signing
import Cpip.Virtualization.Lazy
import Cpip.Python.Regex
import Cpip.Server.DeviceIds
import Cpip.Lib.Rounds
import Cpip.Client.Polling
import Cpip.Server.Results
import Cpip.Lib.Forms
import Cpip.Client.Modify
import Cpip.Client.ConfigCommand
import Cpip.Python.Literals
import Cpip.Python.Tokens
import Cpip.Python.Pieces
import Cpip.Python.Script
import Cpip.Executor.Browser
import Cpip.Lib.Limits
import Cpip.Server.Listing
import Cpip.Server.Api
import Cpip.Link.Install
import Cpip.Lib.Tasks
import Cpip.Client.SyncLoop
import Cpip.Agent.Orchestrator
import Cpip.Lib.Expiry
import Cpip.Client.Metadata
import Cpip.Python.Repr
import Cpip.Python.Evaluate
import Cpip.Executor.Programs
import Cpip.Client.PidFile
import Cpip.Lib.Recency
import Cpip.Virtualization.LibraryPath
