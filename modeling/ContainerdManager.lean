import ContainerdManager.Error
import ContainerdManager.Lib.Decimal
import ContainerdManager.Lib.Framing
import ContainerdManager.Lib.GoString
import ContainerdManager.Lib.Runs
import ContainerdManager.Lib.Refine
import ContainerdManager.Lib.Slots
import ContainerdManager.Logs.Record
import ContainerdManager.Logs.Parse
import ContainerdManager.Logs.Recovery
import ContainerdManager.Logs.EventsDir
import ContainerdManager.Logs.Rotation
import ContainerdManager.Logs.RotationFaults
import ContainerdManager.Logs.Follower
import ContainerdManager.Logs.FollowRuns
import ContainerdManager.Lib.Slices
import ContainerdManager.Logs.Checked
import ContainerdManager.Logs.Leftover
import ContainerdManager.Logs.Filtered
import ContainerdManager.Lib.Lines
import ContainerdManager.Tailer.Drain
import ContainerdManager.Tailer.Loop
import ContainerdManager.Tailer.Runs
import ContainerdManager.Tailer.GiveUp
import ContainerdManager.Tailer.Faults
import ContainerdManager.Tailer.FileSize
import ContainerdManager.Logs.RotatedFollow
import ContainerdManager.Tailer.Pipeline
import ContainerdManager.Tailer.Retention
import ContainerdManager.Logs.ReadDuringRotation
import ContainerdManager.Types
import ContainerdManager.Client.UntilExit
import ContainerdManager.Client.Restart
import ContainerdManager.Lib.Effect
import ContainerdManager.Lib.Prog
import ContainerdManager.Lib.Pool
import ContainerdManager.Containerd.Snapshots
import ContainerdManager.Container.Identifier
import ContainerdManager.Lib.Regular
import ContainerdManager.Lib.Paths
import ContainerdManager.Container.Grammar
import ContainerdManager.Container.Spec
import ContainerdManager.Container.Labels
import ContainerdManager.Container.Env
import ContainerdManager.Container.Hooks
import ContainerdManager.Container.HookRuns
import ContainerdManager.Lib.Template
import ContainerdManager.Container.Injection
import ContainerdManager.Containerd.World
import ContainerdManager.Containerd.Filters
import ContainerdManager.Container.Image
import ContainerdManager.Lib.Shared
import ContainerdManager.Container.Cache
import ContainerdManager.Container.Platform
import ContainerdManager.Task.Inspect
import ContainerdManager.Task.List
import ContainerdManager.Task.Filters
import ContainerdManager.Container.Create
import ContainerdManager.Container.Setup
import ContainerdManager.Container.Rollback
import ContainerdManager.Container.Created
import ContainerdManager.Container.Ports
import ContainerdManager.Container.Managed
import ContainerdManager.Container.Bindings
import ContainerdManager.Task.Lifecycle
import ContainerdManager.Task.StartFailure
import ContainerdManager.Task.StopReplies
import ContainerdManager.Snapshot.Container
import ContainerdManager.Task.Delete
import ContainerdManager.Task.Exec
import ContainerdManager.Task.Readiness
import ContainerdManager.Client.Registries
import ContainerdManager.Snapshot.Restore
import ContainerdManager.Snapshot.Restored
import ContainerdManager.Clone.Container
import ContainerdManager.Clone.Base
import ContainerdManager.Clone.Created
import ContainerdManager.Clone.Ports
import ContainerdManager.Clone.Chain
import ContainerdManager.Clone.Variables
import ContainerdManager.Clone.SourceRestart
import ContainerdManager.Clone.LiveCommit
import ContainerdManager.Clone.Race
import ContainerdManager.Snapshot.Reset
import ContainerdManager.Snapshot.Race
import ContainerdManager.System.Jobs
import ContainerdManager.System.Bridge
import ContainerdManager.System.Names
import ContainerdManager.System.Isolation
import ContainerdManager.System.Deletion
import ContainerdManager.System.Faultless
import ContainerdManager.System.Leaks
import ContainerdManager.System.Reserved
import ContainerdManager.Rootfs.Vault
import ContainerdManager.Rootfs.Contents
import ContainerdManager.Rootfs.Refinement
import ContainerdManager.Rootfs.Saved
import ContainerdManager.System.Directory
import ContainerdManager.System.Backed
import ContainerdManager.Snapshot.List
import ContainerdManager.System.Named
import ContainerdManager.System.Reported
import ContainerdManager.Lib.Answers
import ContainerdManager.System.WaitForExit
