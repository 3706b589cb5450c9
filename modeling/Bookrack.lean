import Bookrack.Queue.Invariant
import Bookrack.Registry.Default
import Bookrack.Runtime.Outcome
import Bookrack.Runtime.Unmount
import Bookrack.Runtime.Pause
import Bookrack.Runtime.Tick
import Bookrack.Runtime.Rollback
import Bookrack.Runtime.PullOrder
import Bookrack.Corpus.Missing
import Bookrack.Normalize.Noise
import Bookrack.Structure.Insertable
import Bookrack.Structure.ReadingOrder
import Bookrack.Structure.TocListing
import Bookrack.Chunk.Coordinates
import Bookrack.Ingest.Removal
import Bookrack.Ingest.Parents
import Bookrack.Ingest.AnnIndex
import Bookrack.Ingest.Scan
import Bookrack.Ingest.Hold
import Bookrack.Ingest.Ocr
import Bookrack.Ingest.Batched
import Bookrack.Glean.Build
import Bookrack.Catalog.Intakes
import Bookrack.Ops.Curation
import Bookrack.Ops.Passages
import Bookrack.Ops.Unified
import Bookrack.Catalog.Batch
import Bookrack.Catalog.Search
import Bookrack.Catalog.TypedId
import Bookrack.Refs.Lookup
import Bookrack.Distill.Accounts
import Bookrack.Distill.Unpacking
import Bookrack.Distill.Lint
import Bookrack.Extract.HtmlWalk
import Bookrack.Extract.OcrPages
import Bookrack.Ops.Window
import Bookrack.Runtime.Plans
import Bookrack.Base.Escape
import Bookrack.Refs.Indexes
import Bookrack.Glean.Preview
import Bookrack.Extract.PaperText
import Bookrack.Extract.Sections
import Bookrack.Audit.Publishers
import Bookrack.Audit.Book
import Bookrack.Audit.Eased
import Bookrack.Audit.Quiet
import Bookrack.Audit.Monotone
import Bookrack.Glean.Identify
import Bookrack.Glean.ArxivIds
import Bookrack.Glean.Dois
import Bookrack.Catalog.PipelineRuns
import Bookrack.Runtime.OpenRuns
import Bookrack.Runtime.AbandonedRuns
import Bookrack.Runtime.CloseRuns
import Bookrack.Cli.JobWait
import Bookrack.Cli.WaitTruth
import Bookrack.Runtime.Supervisor
import Bookrack.Runtime.ServerGuard
import Bookrack.Ingest.IndexRules
import Bookrack.Ingest.Vouched
import Bookrack.Ingest.IndexHistory
