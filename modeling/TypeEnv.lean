import TypeEnv.Main
import TypeEnv.Report
import TypeEnv.Options.Reader
import TypeEnv.Environment
import TypeEnv.Record.Reader
import TypeEnv.Record.Fields
import TypeEnv.Record.Basic
import TypeEnv.Layout.Basic
import TypeEnv.Text.Quoted
import TypeEnv.Json.Reader
import TypeEnv.LogFormat
import TypeEnv.Resolver
import TypeEnv.Graph.Search
import TypeEnv.Graph.Views
import TypeEnv.Ident
import TypeEnv.Proofs.Form.Related
import TypeEnv.Proofs.Form.Fields
import TypeEnv.Proofs.Record.Traversal
import TypeEnv.Proofs.Graph.MapTypes
import TypeEnv.Proofs.Resolver.Operations
import TypeEnv.Proofs.Resolver.Calls
import TypeEnv.Proofs.Resolver.Refusals
import TypeEnv.Proofs.Resolver.Collection
import TypeEnv.Proofs.Resolver.Intake
import TypeEnv.Proofs.Environment.Register
import TypeEnv.Proofs.Resolver.Resolution
import TypeEnv.Proofs.Resolver.Lookup
import TypeEnv.Proofs.Environment.Sections
import TypeEnv.Proofs.Graph.Search
import TypeEnv.Proofs.Environment.Loading
import TypeEnv.Proofs.Document.Records
import TypeEnv.Proofs.Document.Outline
import TypeEnv.Proofs.Environment.Identity
import TypeEnv.Proofs.Record.Check
import TypeEnv.Proofs.Document.Catalogs
import TypeEnv.Proofs.Environment.Outcome
import TypeEnv.Proofs.Environment.Acceptance
import TypeEnv.Proofs.Views.RequestOrder
import TypeEnv.Proofs.Environment.CanonicalForm
import TypeEnv.Proofs.Environment.Renumbering
import TypeEnv.Proofs.Environment.Intact
import TypeEnv.Proofs.Views.Answers
import TypeEnv.Proofs.CommandLine.Relaxation
import TypeEnv.Proofs.Resolver.Aliases
import TypeEnv.Proofs.Report.DottedNames
import TypeEnv.Proofs.Environment.Listings
import TypeEnv.Proofs.Report.NameLookup
import TypeEnv.Proofs.Record.Kinds
import TypeEnv.Proofs.Environment.GlobalNode
import TypeEnv.Proofs.Report.Descriptions
import TypeEnv.Proofs.Graph.Reachability
import TypeEnv.Proofs.Graph.Traversal
import TypeEnv.Proofs.Resolver.Settlement
import TypeEnv.Proofs.Environment.Placement
import TypeEnv.Proofs.Document.CatalogTrees
import TypeEnv.Proofs.Environment.SignatureForest
import TypeEnv.Proofs.Report.Counts
import TypeEnv.Proofs.Environment.ClassLayouts
import TypeEnv.Proofs.Environment.LocationFiles
import TypeEnv.Proofs.Environment.WrittenRecords
import TypeEnv.Proofs.Views.StoppedRequests
import TypeEnv.Proofs.Resolver.Bookkeeping
import TypeEnv.Proofs.Environment.HandleRoom
