import ProbeLoader.Host.Script
import ProbeLoader.Link.Table
import ProbeLoader.Main
import ProbeLoader.Text.Utf8.RoundTrip
import ProbeLoader.Proofs.Link.Process
import ProbeLoader.Proofs.Link.Watch
import ProbeLoader.Proofs.Link.Lifecycle
import ProbeLoader.Proofs.Job.Ownership
import ProbeLoader.Proofs.Text.Words
import ProbeLoader.Proofs.Line.Grammar
import ProbeLoader.Proofs.Config.Lines
import ProbeLoader.Proofs.Attachment.Parts
import ProbeLoader.Proofs.Attachment.Isolation
import ProbeLoader.Proofs.Attachment.Collisions
import ProbeLoader.Proofs.Config.Cap
import ProbeLoader.Proofs.Config.Continuation
import ProbeLoader.Proofs.Config.Delivered
import ProbeLoader.Proofs.Attachment.Marks
import ProbeLoader.Proofs.Job.Configured
import ProbeLoader.Proofs.Job.Accounting
import ProbeLoader.Proofs.Job.Stages
import ProbeLoader.Proofs.Object.Reference
import ProbeLoader.Proofs.Job.Causes
import ProbeLoader.Proofs.Config.Written
import ProbeLoader.Proofs.Attachment.Channels
import ProbeLoader.Proofs.Job.Checks
import ProbeLoader.Proofs.Link.Held
import ProbeLoader.Proofs.Config.Endings
import ProbeLoader.Object.Library
import ProbeLoader.Proofs.Object.Simulation
import ProbeLoader.Proofs.Hook.Target
import ProbeLoader.Proofs.Text.Template
import ProbeLoader.Proofs.Program.Exit
import ProbeLoader.Proofs.Program.Sources
import ProbeLoader.Hook.Placement
import ProbeLoader.Proofs.Hook.Attaching
import ProbeLoader.Proofs.Link.Decision
import ProbeLoader.Proofs.Line.Diagnosis
import ProbeLoader.Proofs.CommandLine.Stepping
import ProbeLoader.Proofs.CommandLine.Level
import ProbeLoader.Proofs.CommandLine.Arrangement
import ProbeLoader.Proofs.Log.Filtering
import ProbeLoader.Proofs.Job.Speakers
import ProbeLoader.Proofs.Program.Levels
import ProbeLoader.Proofs.Config.Interruption
import ProbeLoader.Proofs.Report.Bookkeeping
import ProbeLoader.Log.Writer
import ProbeLoader.Proofs.Log.Pieces
import ProbeLoader.Proofs.Path.Order
import ProbeLoader.Proofs.Path.Parent
import ProbeLoader.Proofs.Preflight.Directories
import ProbeLoader.Proofs.Preflight.Warnings
import ProbeLoader.Proofs.Directive.Shown
import ProbeLoader.Proofs.Log.Colors
import ProbeLoader.Text.Painted
