import WriteMemo.Reporter
import WriteMemo.Telemetry
import WriteMemo.Proofs.Memo.CandidateOrder
import WriteMemo.Proofs.Memo.EqualDocuments
import WriteMemo.Proofs.Memo.Inclusion
import WriteMemo.Proofs.Memo.Pending
import WriteMemo.Proofs.Memo.Reuse
import WriteMemo.Proofs.Memo.SpecOnly
import WriteMemo.Proofs.Memo.Unbounded
import WriteMemo.Proofs.Workers
import WriteMemo.Proofs.Json.Members
import WriteMemo.Proofs.Memo.Revision
import WriteMemo.Proofs.Binary64.Nearest
import WriteMemo.Proofs.Binary64.Scaled
import WriteMemo.Proofs.Json.Depth
import WriteMemo.Proofs.Json.Reader
import WriteMemo.Proofs.Json.Reread
import WriteMemo.Proofs.Json.Tokens
import WriteMemo.Proofs.Memo.Rereading
import WriteMemo.Proofs.Reports
import WriteMemo.Proofs.Decoding
import WriteMemo.Proofs.Recency
import WriteMemo.Proofs.Settings
import WriteMemo.Proofs.Spelling
