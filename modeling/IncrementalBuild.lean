import IncrementalBuild.BuildFile.Parser
import IncrementalBuild.Build.Run
import IncrementalBuild.CommandLine.Reading
import IncrementalBuild.CommandLine.Run
import IncrementalBuild.Graph.Dot
import IncrementalBuild.Main
import IncrementalBuild.Proofs.Survey.Exactness
import IncrementalBuild.Proofs.Walk.Simulation
import IncrementalBuild.Proofs.Walk.Staleness
import IncrementalBuild.Machine
import IncrementalBuild.Time.Display
import IncrementalBuild.Proofs.Walk.Failure
import IncrementalBuild.Proofs.Walk.Interruption
import IncrementalBuild.Proofs.Walk.UpToDate
import IncrementalBuild.Proofs.Walk.Idempotence
import IncrementalBuild.Proofs.BuildFile.Grammar
import IncrementalBuild.Proofs.BuildFile.Scanning
import IncrementalBuild.Proofs.Graph.Operation
import IncrementalBuild.Proofs.BuildFile.Reading
import IncrementalBuild.Proofs.BuildFile.Acceptance
import IncrementalBuild.Proofs.Graph.Record
import IncrementalBuild.Proofs.BuildFile.Meaning
import IncrementalBuild.Proofs.BuildFile.Printing
import IncrementalBuild.Proofs.BuildFile.Placement
import IncrementalBuild.Proofs.BuildFile.Label
import IncrementalBuild.Proofs.Walk.LastLook
import IncrementalBuild.Proofs.Walk.Retry
import IncrementalBuild.Proofs.Walk.FirstCommand
import IncrementalBuild.Proofs.Graph.Likeness
import IncrementalBuild.Proofs.Survey.Likeness
import IncrementalBuild.Proofs.Walk.Likeness
import IncrementalBuild.Proofs.Walk.Locality
import IncrementalBuild.Proofs.Walk.Permanence
import IncrementalBuild.Proofs.CommandLine.EarlyError
import IncrementalBuild.Proofs.Graph.Evolution
import IncrementalBuild.Proofs.BuildFile.Order
import IncrementalBuild.Proofs.Walk.Stopping
import IncrementalBuild.Proofs.CommandLine.Output
import IncrementalBuild.Proofs.FileTree.Descent
import IncrementalBuild.Proofs.Walk.Agreement
import IncrementalBuild.Proofs.CommandLine.Directory
import IncrementalBuild.Proofs.Graph.Drawing
import IncrementalBuild.Proofs.BuildFile.WellFormed
import IncrementalBuild.Proofs.BuildFile.Continuation
import IncrementalBuild.Proofs.BuildFile.Layout
import IncrementalBuild.Proofs.Graph.Refusal
import IncrementalBuild.Proofs.Walk.Reporting
import IncrementalBuild.Proofs.Survey.Course
import IncrementalBuild.Proofs.Walk.Expense
import IncrementalBuild.Time.Moment
import IncrementalBuild.Proofs.Time.FileTime
import IncrementalBuild.Proofs.Time.Carry
import IncrementalBuild.Proofs.Time.DateTime
import IncrementalBuild.Proofs.CommandLine.Composition
import IncrementalBuild.Proofs.BuildFile.Partition
import IncrementalBuild.Proofs.BuildFile.Tokenization
