import StackControl.Main
import StackControl.Rehearsal.Script
import StackControl.Rehearsal.Session
import StackControl.Proofs.Lifecycle.Site
import StackControl.Proofs.FileTree.Nodes
import StackControl.Proofs.FileTree.Passage
import StackControl.Proofs.FileTree.Ends
import StackControl.Proofs.Archive.Confinement
import StackControl.Proofs.Archive.SafeLinks
import StackControl.Proofs.Arguments.Requests
import StackControl.Proofs.FileTree.Listing
import StackControl.Proofs.Lifecycle.ContractFetch
import StackControl.Proofs.Lifecycle.Forwarding
import StackControl.Proofs.Arguments.Flags
import StackControl.Proofs.Lifecycle.RevisionTrace
import StackControl.Proofs.CommandLine
import StackControl.Proofs.Text.Spacing
import StackControl.Proofs.Text.Number
import StackControl.Proofs.Lifecycle.BringUp
import StackControl.Proofs.Lifecycle.ServicePatterns
import StackControl.Proofs.FileTree.Removal
import StackControl.Proofs.Lifecycle.Refusal
import StackControl.Proofs.Procedure.Alike
import StackControl.Proofs.Engine.Client
import StackControl.Proofs.Lifecycle.ServiceStart
import StackControl.Proofs.Lifecycle.ComposeSettings
import StackControl.Proofs.Lifecycle.RepeatedPreparation
import StackControl.Proofs.Lifecycle.ReadinessBudget
import StackControl.Proofs.Run.Conclusion
import StackControl.Proofs.Lifecycle.ConcurrentBuilds
import StackControl.Proofs.Lifecycle.StartWrapper
import StackControl.Proofs.Arguments.LongestRun
import StackControl.Proofs.Reaper.Signals
import StackControl.Proofs.Archive.Reproduction
import StackControl.Proofs.Reaper.Decoding
import StackControl.Proofs.Settings
import StackControl.Proofs.Engine.Capture
import StackControl.Proofs.Engine.Export
import StackControl.Proofs.FileTree.PathText
import StackControl.Proofs.FileTree.Filling
import StackControl.Proofs.Engine.Logs
import StackControl.Proofs.Lifecycle.LogDump
import StackControl.Proofs.Lifecycle.NamedTests
import StackControl.Proofs.Lifecycle.PreparationReport
import StackControl.Proofs.Reaper.Targets
import StackControl.Proofs.Run.PassedStatus
import StackControl.Proofs.Archive.Respelling
import StackControl.Proofs.FileTree.LinkFree
import StackControl.Proofs.Lifecycle.LogPlaces
import StackControl.Proofs.FileTree.Misses
import StackControl.Proofs.FileTree.InStep
import StackControl.Proofs.FileTree.Mirrored
import StackControl.Proofs.FileTree.Counterparts
import StackControl.Proofs.Archive.Mirroring
