import KernelTools.Text
import KernelTools.Log
import KernelTools.Size
import KernelTools.Wildcard.Matching
import KernelTools.FileSystem.Editing
import KernelTools.Wildcard.Walk
import KernelTools.Interrupt.Tables
import KernelTools.Report
import KernelTools.Search
import KernelTools.Interrupt.Artifact
import KernelTools.Main
import KernelTools.Proofs.CommandLine.CheckFlag
import KernelTools.Proofs.CommandLine.Omission
import KernelTools.Proofs.CommandLine.Taking
import KernelTools.Proofs.CommandLine.Writing
import KernelTools.Proofs.Config.Choosing
import KernelTools.Proofs.Config.Layout
import KernelTools.Proofs.Config.Loading
import KernelTools.Proofs.Config.Schema
import KernelTools.Proofs.FileSystem.Contents
import KernelTools.Proofs.FileSystem.Resolution
import KernelTools.Proofs.FileSystem.Rewriting
import KernelTools.Proofs.FileSystem.Straying
import KernelTools.Proofs.FileSystem.Tree
import KernelTools.Proofs.FileSystem.WorkingDirectory
import KernelTools.Proofs.FileSystem.Writing
import KernelTools.Proofs.Interrupt.Checking
import KernelTools.Proofs.Interrupt.Failure
import KernelTools.Proofs.Interrupt.Footprint
import KernelTools.Proofs.Interrupt.Generation
import KernelTools.Proofs.Interrupt.Rendering
import KernelTools.Proofs.Interrupt.Repetition
import KernelTools.Proofs.Path.FileName
import KernelTools.Proofs.Path.NameOrder
import KernelTools.Proofs.Run.Checking
import KernelTools.Proofs.Run.Configuration
import KernelTools.Proofs.Run.Counting
import KernelTools.Proofs.Run.Footprint
import KernelTools.Proofs.Run.Fronting
import KernelTools.Proofs.Run.Independence
import KernelTools.Proofs.Run.Rechecking
import KernelTools.Proofs.Search.Fronting
import KernelTools.Proofs.Search.Naming
import KernelTools.Proofs.Size.Carry
import KernelTools.Proofs.Size.Fraction
import KernelTools.Proofs.Size.Printing
import KernelTools.Proofs.Size.Reading
import KernelTools.Proofs.Toml.Assignments
import KernelTools.Proofs.Toml.Growing
import KernelTools.Proofs.Toml.Lines
import KernelTools.Proofs.Toml.Spelling
import KernelTools.Proofs.Toml.WellFormed
import KernelTools.Proofs.Wildcard.Composing
import KernelTools.Proofs.Wildcard.Equality
import KernelTools.Proofs.Wildcard.Grammar
import KernelTools.Proofs.Wildcard.Matching
import KernelTools.Proofs.Wildcard.Meaning
import KernelTools.Proofs.Wildcard.Positions
import KernelTools.Proofs.Wildcard.Search
import KernelTools.Proofs.Wildcard.Skipping
import KernelTools.Proofs.Wildcard.Spelling
import KernelTools.Proofs.Wildcard.Tree
import KernelTools.Proofs.Wildcard.Walk
