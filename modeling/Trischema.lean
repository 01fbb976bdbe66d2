import Trischema.Document.Validator
import Trischema.Main
import Trischema.Model.Basic
import Trischema.Proofs.Registry.Identifiers
import Trischema.Service.Answering
import Trischema.Session.Commands
import Trischema.Session.Instances
import Trischema.Session.Repositories
import Trischema.TypeExpr.Building
import Trischema.Proofs.Outcome
import Trischema.Proofs.Registry.Merging
import Trischema.Proofs.Relational.Columns
import Trischema.Proofs.Relational.Keys
import Trischema.Proofs.Repository.Rows
import Trischema.Proofs.Repository.Uniqueness
import Trischema.Proofs.Calendar.RoundTrip
import Trischema.Proofs.Repository.Agreement
import Trischema.Proofs.Compiling.Document
import Trischema.Proofs.Compiling.Graph
import Trischema.Proofs.Compiling.Relational
import Trischema.Proofs.Registry.Fingerprint
import Trischema.Proofs.Registry.Freezing
import Trischema.Proofs.Repository.Refusals
import Trischema.Proofs.Value.Equality
import Trischema.Proofs.Repository.Keeping
import Trischema.Proofs.Json.Documents
import Trischema.Proofs.Repository.Returning
import Trischema.Proofs.Compiling.Layouts
import Trischema.Proofs.Compiling.Validation
import Trischema.Proofs.Registry.Tables
import Trischema.Proofs.Registry.Inheritance
import Trischema.Proofs.Registry.Overriding
import Trischema.Proofs.Registry.Commuting
import Trischema.Proofs.Repository.References
import Trischema.Proofs.Repository.Publishing
import Trischema.Proofs.Compiling.Naming
import Trischema.Proofs.Repository.Legibility
import Trischema.Proofs.Repository.Addressing
import Trischema.Registry.Writing
import Trischema.Proofs.Registry.Writing
import Trischema.Proofs.Registry.Names
import Trischema.Proofs.Json.Compatible
import Trischema.Proofs.Registry.Complete
import Trischema.Proofs.Compiling.Completeness
import Trischema.Proofs.Compiling.Exports
import Trischema.Proofs.CommandLine.Documents
import Trischema.Proofs.Registry.Choosing
import Trischema.Proofs.Compiling.Joining
import Trischema.Proofs.Repository.Searching
import Trischema.Proofs.Repository.Restricting
import Trischema.Proofs.Registry.Stability
import Trischema.Proofs.Compiling.Identity
import Trischema.Proofs.Compiling.Reaching
import Trischema.Proofs.Repository.Reporting
import Trischema.Proofs.Compiling.Edges
import Trischema.Proofs.Record.Filtering
import Trischema.Proofs.Record.Comparing
import Trischema.Proofs.Classifying.Supported
import Trischema.Proofs.Record.Defects
import Trischema.Proofs.Compiling.Constraints
import Trischema.Proofs.Table.Canonical
import Trischema.Proofs.Record.Serializing
import Trischema.Proofs.Registry.Ordering
import Trischema.Proofs.Registry.Linking
import Trischema.Proofs.Compiling.Linking
import Trischema.Proofs.Value.Equivalence
import Trischema.Proofs.Value.Filing
import Trischema.Proofs.Table.Scanning
