import CatalogSearch.Main
import CatalogSearch.Query.Saved
import CatalogSearch.Session.Exchange
import CatalogSearch.Proofs.Session.Operation
import CatalogSearch.Proofs.Session.Traffic
import CatalogSearch.Proofs.Session.Effects
import CatalogSearch.Proofs.Session.Pulling
import CatalogSearch.Proofs.Session.Ledger
import CatalogSearch.Proofs.Session.Accounting
import CatalogSearch.Proofs.Session.Isolation
import CatalogSearch.Proofs.Session.Board
import CatalogSearch.Proofs.Session.Watch
import CatalogSearch.Proofs.Cql.Grammar
import CatalogSearch.Proofs.Cql.Completeness
import CatalogSearch.Proofs.Cql.Cutting
import CatalogSearch.Proofs.Number.Positional
import CatalogSearch.Proofs.Cql.Verbatim
import CatalogSearch.Proofs.Cql.NormalForm
import CatalogSearch.Proofs.Cql.RoundTrip
import CatalogSearch.Proofs.Number.Rounding
import CatalogSearch.Proofs.Session.Restarting
import CatalogSearch.Proofs.Cql.Restricting
import CatalogSearch.Proofs.Session.Limits
import CatalogSearch.Proofs.CommandLine.Limiting
import CatalogSearch.Proofs.Paging.Advance
import CatalogSearch.Proofs.Paging.Groups
import CatalogSearch.Proofs.Session.Archive
import CatalogSearch.Proofs.Session.Reading
import CatalogSearch.Proofs.Session.Page
import CatalogSearch.Proofs.Session.ForwardPaging
import CatalogSearch.Proofs.Session.Listed
import CatalogSearch.Proofs.Session.Turns
import CatalogSearch.Proofs.View.Merging
import CatalogSearch.Proofs.Session.AnyOrder
import CatalogSearch.Proofs.Session.Containment
import CatalogSearch.Proofs.Session.ViewOrder
import CatalogSearch.Proofs.View.Batches
import CatalogSearch.Proofs.Cql.Lossless
import CatalogSearch.Proofs.Query.Restoring
import CatalogSearch.Proofs.Cql.Language
import CatalogSearch.Proofs.Cql.Narrowing
import CatalogSearch.Proofs.Session.Asking
import CatalogSearch.Proofs.Session.GoingBack
import CatalogSearch.Proofs.Session.Refusal
import CatalogSearch.Proofs.Session.Selection
import CatalogSearch.Proofs.Paging.Separation
import CatalogSearch.Proofs.Paging.Exactness
import CatalogSearch.Proofs.Paging.Checked
import CatalogSearch.Proofs.Session.WordSize
import CatalogSearch.Proofs.View.Retaining
import CatalogSearch.Proofs.Session.Widening
import CatalogSearch.Proofs.Session.LastSearch
import CatalogSearch.Proofs.Cql.TreeLeaves
import CatalogSearch.Proofs.Cql.Reloading
import CatalogSearch.Proofs.Config.Declared
import CatalogSearch.Proofs.View.Survivors
import CatalogSearch.Proofs.Paging.Staging
import CatalogSearch.Proofs.Session.MergeChoice
import CatalogSearch.Proofs.Session.FallingBack
import CatalogSearch.Proofs.Cql.Spans
import CatalogSearch.Proofs.Cql.Quoting
import CatalogSearch.Proofs.Cql.FaultPlaces
import CatalogSearch.Proofs.Cql.Parsed
import CatalogSearch.Proofs.CommandLine.Pages
import CatalogSearch.Proofs.Session.PageView
import CatalogSearch.Proofs.Session.Labels
