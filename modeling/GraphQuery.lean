import GraphQuery.Text.Quoted
import GraphQuery.Text.Blank
import GraphQuery.Script.Printer
import GraphQuery.Script.Parser
import GraphQuery.Script.Excerpt
import GraphQuery.OrderedSet
import GraphQuery.Graph.Basic
import GraphQuery.Graph.Search
import GraphQuery.Graph.Walk
import GraphQuery.Graph.Printer
import GraphQuery.Decimal.Layout
import GraphQuery.Value.Equality
import GraphQuery.Value.Collection
import GraphQuery.Value.Selector
import GraphQuery.Value.Printer
import GraphQuery.Scope.Registry
import GraphQuery.Scope.Store
import GraphQuery.Pattern.Parser
import GraphQuery.Eval.Call
import GraphQuery.Graph.Filter
import GraphQuery.Session.Source
import GraphQuery.Session.Command
import GraphQuery.Proofs.Script.Origin
import GraphQuery.Proofs.Script.Parts
import GraphQuery.Proofs.Eval.Compatible
import GraphQuery.Proofs.Eval.Record
import GraphQuery.Proofs.Eval.Frames
import GraphQuery.Proofs.Script.Locations
import GraphQuery.Proofs.Eval.Interruption
import GraphQuery.Proofs.Script.Yields
import GraphQuery.Proofs.Script.Printable
import GraphQuery.Proofs.Script.RoundTrip
import GraphQuery.Proofs.Script.Interchange
import GraphQuery.Proofs.Eval.Concatenation
import GraphQuery.Proofs.Eval.Targets
import GraphQuery.Proofs.Graph.Representation
import GraphQuery.Proofs.Graph.Reachability
import GraphQuery.Proofs.Graph.DepthFirst
import GraphQuery.Proofs.Graph.Walks
import GraphQuery.Proofs.Eval.Discipline
import GraphQuery.Proofs.Eval.Unmentioned
import GraphQuery.Proofs.Scope.Registration
import GraphQuery.Proofs.Session.Settling
import GraphQuery.Proofs.Session.Requests
import GraphQuery.Proofs.Session.Ownership
import GraphQuery.Proofs.Eval.Renaming
import GraphQuery.Proofs.Eval.Parametric
import GraphQuery.Proofs.Eval.Documents
import GraphQuery.Proofs.Host.Standard
import GraphQuery.Proofs.Host.Uniform
import GraphQuery.Proofs.Graph.Instances
import GraphQuery.Proofs.Graph.PropertyHistory
import GraphQuery.Proofs.Scope.Visibility
import GraphQuery.Proofs.Eval.Checks
import GraphQuery.Proofs.Value.Equality
import GraphQuery.Proofs.Value.Union
import GraphQuery.Proofs.Value.Iteration
import GraphQuery.Proofs.Script.Numerals
import GraphQuery.Proofs.Decimal.Underflow
import GraphQuery.Proofs.Decimal.Denotation
import GraphQuery.Proofs.Value.Truth
import GraphQuery.Proofs.Value.Integers
import GraphQuery.Proofs.Script.Literals
import GraphQuery.Proofs.Script.Progress
import GraphQuery.Proofs.Script.LineBreaks
import GraphQuery.Proofs.Script.Excerpts
