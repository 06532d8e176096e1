import IndexedRecords.Connection
import IndexedRecords.Proofs.Schema.Aliases
import IndexedRecords.Proofs.Schema.Composition
import IndexedRecords.Proofs.Schema.Cycles
import IndexedRecords.Proofs.Schema.Dates
import IndexedRecords.Proofs.Schema.Integral
import IndexedRecords.Proofs.Schema.Paths
import IndexedRecords.Proofs.Schema.Rewrapping
import IndexedRecords.Proofs.Search.Agreement
import IndexedRecords.Proofs.Search.Ranges
import IndexedRecords.Proofs.Search.References
import IndexedRecords.Proofs.Search.Selection
import IndexedRecords.Proofs.Search.Steps
import IndexedRecords.Proofs.Search.Tags
import IndexedRecords.Proofs.Service.First
import IndexedRecords.Proofs.Service.Instants
import IndexedRecords.Proofs.Service.Shelves
import IndexedRecords.Proofs.Service.Times
import IndexedRecords.Proofs.Service.Connections
import IndexedRecords.Proofs.Schema.Clauses
import IndexedRecords.Proofs.Store.Indexes
import IndexedRecords.Proofs.Service.Migration
import IndexedRecords.Proofs.Service.Inspection
import IndexedRecords.Proofs.Service.Refusals
import IndexedRecords.Proofs.Service.Malformed
import IndexedRecords.Proofs.Service.Scanning
import IndexedRecords.Proofs.Connection.Writing
import IndexedRecords.Proofs.Connection.Refusals
