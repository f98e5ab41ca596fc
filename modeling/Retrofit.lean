import Retrofit.Main
import Retrofit.Proofs.Dictionary
import Retrofit.Proofs.Version.Selection
import Retrofit.Proofs.Catalog.Selection
import Retrofit.Proofs.Files.Frame
import Retrofit.Proofs.Text.Utf8
import Retrofit.Proofs.Patch.History
import Retrofit.Proofs.Path.Artifact
import Retrofit.Proofs.Path.Resolution
import Retrofit.Proofs.Path.Containment
import Retrofit.Proofs.Patch.Job
import Retrofit.Proofs.Patch.Containment
import Retrofit.Proofs.Patch.Separation
import Retrofit.Proofs.Script.Lexeme
import Retrofit.Proofs.Script.Lifting
import Retrofit.Proofs.Script.Reader
import Retrofit.Proofs.Script.Grammar.Basic
import Retrofit.Proofs.Script.Grammar.Member
import Retrofit.Proofs.Script.Grammar.Expression
import Retrofit.Proofs.Script.Grammar.Statement
import Retrofit.Proofs.Script.Source
import Retrofit.Proofs.Script.Editing
import Retrofit.Proofs.Script.Comments
import Retrofit.Proofs.Script.Frame
import Retrofit.Proofs.Script.Stepwise
import Retrofit.Proofs.Dependency.Visits
import Retrofit.Proofs.Package.Map
import Retrofit.Proofs.Package.Files
import Retrofit.Proofs.Resolver.Scan
import Retrofit.Proofs.Patch.Pass
import Retrofit.Proofs.Session.Stages
import Retrofit.Proofs.Session.Rerun
import Retrofit.Proofs.Session.Failure
import Retrofit.Proofs.Session.History
import Retrofit.Proofs.Resolver.Changes
import Retrofit.Proofs.Session.Update
import Retrofit.Proofs.Dependency.Order
import Retrofit.Proofs.Package.Flatten
import Retrofit.Proofs.Transform.Template
import Retrofit.Proofs.Transform.Rereading
import Retrofit.Proofs.Json.Shape
import Retrofit.Proofs.Catalog.Reading
import Retrofit.Proofs.Package.Selected
import Retrofit.Proofs.Patch.Accounting
import Retrofit.Proofs.Dependency.Reading
import Retrofit.Proofs.Catalog.Enumeration
import Retrofit.Proofs.Path.Relative
import Retrofit.Proofs.Package.Projection
import Retrofit.Proofs.Package.ModuleConfig
import Retrofit.Proofs.Path.SourceName
import Retrofit.Proofs.Files.Tree
import Retrofit.Proofs.Files.Listing
import Retrofit.Proofs.Patch.Growth
import Retrofit.Proofs.Console.Clean
import Retrofit.Proofs.Session.Memo
import Retrofit.Proofs.Json.Document
import Retrofit.Proofs.Json.Printing
import Retrofit.Proofs.Json.Record
import Retrofit.Proofs.Dependency.Writing
import Retrofit.Proofs.Transform.Acceptance
import Retrofit.Proofs.Catalog.Acceptance
import Retrofit.Proofs.Catalog.DocumentOrder
import Retrofit.Proofs.Resolver.Manifest
import Retrofit.Proofs.Session.Missing
import Retrofit.Proofs.Package.OwnDirectory
import Retrofit.Proofs.Session.Reporting
import Retrofit.Proofs.Files.Waypoints
import Retrofit.Proofs.Patch.Interleaving
import Retrofit.Proofs.Patch.Concurrency
import Retrofit.Proofs.Patch.SecondPass
import Retrofit.Proofs.Version.Maximum
import Retrofit.Proofs.Version.TagOrder
import Retrofit.Proofs.Version.TagGrammar
import Retrofit.Proofs.Script.Address
import Retrofit.Proofs.Script.Substitution
import Retrofit.Proofs.Script.Commutation
import Retrofit.Proofs.Script.InterpreterLine
import Retrofit.Proofs.Transform.Replacement
import Retrofit.Proofs.Patch.Failure
import Retrofit.Proofs.Resolver.Termination
import Retrofit.Proofs.Path.NormalForm
import Retrofit.Proofs.Json.Number
import Retrofit.Proofs.Transform.Wrapping
import Retrofit.Proofs.Project.ResolverConfig
import Retrofit.Proofs.Package.Insertion
import Retrofit.Proofs.CommandLine.Parts
import Retrofit.Proofs.CommandLine.Settling
import Retrofit.Proofs.CommandLine.InParts
import Retrofit.Proofs.CommandLine.Meaning
import Retrofit.Proofs.CommandLine.Moving
import Retrofit.Proofs.Settings.Layers
