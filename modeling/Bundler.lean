import Bundler.ArtifactCache
import Bundler.Blake3
import Bundler.Build.Bundle
import Bundler.Build.Context
import Bundler.Build.ModuleId
import Bundler.Build.Scan
import Bundler.ChangeSet
import Bundler.CommandLine.Arguments
import Bundler.CommandLine.Desk
import Bundler.CommandLine.DryRun
import Bundler.CommandLine.Ending
import Bundler.CommandLine.Errand
import Bundler.CommandLine.Help
import Bundler.CommandLine.LogLevel
import Bundler.Compilation.Basic
import Bundler.Compilation.Diagnostic
import Bundler.Compiler.Emission
import Bundler.Compiler.Hooks
import Bundler.Compiler.Machine
import Bundler.Compiler.ParentMarker
import Bundler.Compiler.Program
import Bundler.Compiler.Run
import Bundler.Compiler.RunState
import Bundler.Compiler.Watch
import Bundler.Compiler.World
import Bundler.Fingerprint
import Bundler.Fingerprint.Graph
import Bundler.Glob
import Bundler.Glob.Expression
import Bundler.Glob.FileName
import Bundler.Glob.Matching
import Bundler.Hook
import Bundler.Ignore
import Bundler.Main
import Bundler.Notice.Filter
import Bundler.Notice.Lookout
import Bundler.Options.Basic
import Bundler.Options.Listing
import Bundler.Options.Reading
import Bundler.Options.Validity
import Bundler.Path
import Bundler.Rehearsal.HookBench
import Bundler.Rehearsal.Play
import Bundler.Rehearsal.Rehearse
import Bundler.Rehearsal.SampleProject
import Bundler.Rehearsal.Script
import Bundler.Rehearsal.Site
import Bundler.Rehearsal.Stage
import Bundler.Resolution
import Bundler.RunError
import Bundler.Source.Call
import Bundler.Source.Literal
import Bundler.Source.Template
import Bundler.Storage.Disk
import Bundler.Storage.Fault
import Bundler.Storage.Input
import Bundler.Storage.Memory
import Bundler.Storage.ReadCache
import Bundler.Storage.View
import Bundler.Table
import Bundler.Text.CharClass
import Bundler.Text.Decimal
import Bundler.Text.Hex
import Bundler.Text.Quoted
import Bundler.Text.Replace
import Bundler.Text.Shortest
import Bundler.Text.Utf8
import Bundler.Toml.Document
import Bundler.Toml.Scalar
import Bundler.Toml.Statement
import Bundler.Toml.Value
import Bundler.Proofs.PathOrder
import Bundler.Proofs.Build.ScanRecords
import Bundler.Proofs.Build.WatchedSet
import Bundler.Proofs.Fingerprint.Search
import Bundler.Proofs.Fingerprint.Units
import Bundler.Proofs.Fingerprint.Messages
import Bundler.Proofs.Build.ModuleNames
import Bundler.Proofs.Fingerprint.Encoding
import Bundler.Proofs.Build.ScanGraph
import Bundler.Proofs.Build.ArtifactIdentity
import Bundler.Proofs.Build.CacheTransparency
import Bundler.Proofs.Compiler.HookCalls
import Bundler.Proofs.Compiler.AssetWriting
import Bundler.Proofs.Compiler.Stages
import Bundler.Proofs.Compiler.Footprint
import Bundler.Proofs.Compiler.LifeCycle
import Bundler.Proofs.Compiler.SessionHistory
import Bundler.Proofs.Compiler.Clients
import Bundler.Proofs.Compiler.Execution
import Bundler.Proofs.Compiler.TaskHistory
import Bundler.Proofs.Compiler.GuardedOutput
import Bundler.Proofs.Compiler.Rebuilding
import Bundler.Proofs.Compiler.OutputGates
import Bundler.Proofs.Compiler.RunLifeCycle
import Bundler.Proofs.Compiler.JobRights
import Bundler.Proofs.Compiler.Ledger
import Bundler.Proofs.Compiler.Bookkeeping
import Bundler.Proofs.Compiler.SerialSteps
import Bundler.Proofs.Compiler.Serialization
import Bundler.Proofs.Compiler.Discipline
import Bundler.Proofs.Compiler.Visitors
import Bundler.Proofs.Compiler.SessionProtocol
import Bundler.Proofs.Compiler.SessionConduct
import Bundler.Proofs.Compiler.DriverConduct
import Bundler.Proofs.Compiler.SessionMoves
import Bundler.Proofs.Compiler.SessionOrder
import Bundler.Proofs.Compiler.SessionLife
import Bundler.Proofs.Compiler.SessionPhases
import Bundler.Proofs.Compiler.SessionQueues
import Bundler.Proofs.Compiler.ChangeDelivery
import Bundler.Proofs.Path.Joining
import Bundler.Proofs.Path.Readback
import Bundler.Proofs.Text.Substitution
import Bundler.Proofs.Options.EntryTargets
import Bundler.Proofs.Build.EntryAssets
import Bundler.Proofs.Options.EntryCollisions
import Bundler.Proofs.Compiler.Tenure
import Bundler.Proofs.Compiler.Holders
import Bundler.Proofs.Compiler.RunEndings
import Bundler.Proofs.Compiler.LockRelease
import Bundler.Proofs.Compiler.SessionClosing
import Bundler.Proofs.Build.FreshReads
import Bundler.Proofs.Compiler.Workers
import Bundler.Proofs.Compiler.WatchBuilds
import Bundler.Proofs.Build.Exploration
import Bundler.Proofs.Build.NeededFiles
import Bundler.Proofs.Build.BuiltModules
import Bundler.Proofs.Build.ModuleIdentity
import Bundler.Proofs.Build.ChunkClosure
import Bundler.Proofs.Build.Rebuilds
import Bundler.Proofs.Fingerprint.Contents
import Bundler.Proofs.Fingerprint.Presentation
import Bundler.Proofs.Compiler.CloseSequence
import Bundler.Proofs.Compiler.CloseProtocol
import Bundler.Proofs.Compiler.Refusals
import Bundler.Proofs.Compiler.CallOrder
import Bundler.Proofs.Compiler.OwnCalls
import Bundler.Proofs.Compiler.SessionCallbacks
import Bundler.Proofs.Rehearsal.FileEvents
import Bundler.Proofs.Path.Parents
import Bundler.Proofs.Path.NormalForm
import Bundler.Proofs.Options.LoadedPaths
import Bundler.Proofs.Storage.Directories
import Bundler.Proofs.Compiler.StoredOutput
import Bundler.Proofs.Compiler.FaithfulEmission
import Bundler.Proofs.Compiler.Bailing
import Bundler.Proofs.Compiler.ChildRuns
import Bundler.Proofs.Build.Diagnosis
import Bundler.Proofs.ArtifactCache
import Bundler.Proofs.ChangeSets
import Bundler.Proofs.Storage.Snapshot
import Bundler.Proofs.Storage.MadeDirectories
import Bundler.Proofs.Resolution
import Bundler.Proofs.CompilationTrees
import Bundler.Proofs.Compiler.HookSnapshots
import Bundler.Proofs.Source.LiteralCalls
import Bundler.Proofs.Source.Literals
import Bundler.Proofs.Source.OpenedCalls
import Bundler.Proofs.Build.NoticedCalls
import Bundler.Proofs.Path.Rooted
import Bundler.Proofs.Storage.Listings
import Bundler.Proofs.Storage.Trees
