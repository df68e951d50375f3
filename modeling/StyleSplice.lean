import StyleSplice.Fetch.Session
import StyleSplice.Main
import StyleSplice.Proofs.Asset.Guard
import StyleSplice.Proofs.Asset.Intended
import StyleSplice.Proofs.Asset.Reread
import StyleSplice.Proofs.Asset.Substitution
import StyleSplice.Proofs.Command.Listing
import StyleSplice.Proofs.Command.Override
import StyleSplice.Proofs.Fetch.History
import StyleSplice.Proofs.Import.Quoting
import StyleSplice.Proofs.Import.Tokens
import StyleSplice.Proofs.Options.Closed
import StyleSplice.Proofs.Resolve.Abort
import StyleSplice.Proofs.Resolve.Anchoring
import StyleSplice.Proofs.Resolve.Capped
import StyleSplice.Proofs.Resolve.Complete
import StyleSplice.Proofs.Resolve.Conservation
import StyleSplice.Proofs.Resolve.Identity
import StyleSplice.Proofs.Resolve.Limit
import StyleSplice.Proofs.Resolve.Lockstep
import StyleSplice.Proofs.Resolve.Reports
import StyleSplice.Proofs.Resolve.Seams
import StyleSplice.Proofs.Resolve.Termination
import StyleSplice.Proofs.Resolve.Verbatim
import StyleSplice.Proofs.Shared.Forest
import StyleSplice.Proofs.Sheet.Colon
import StyleSplice.Proofs.Sheet.Concatenation
import StyleSplice.Proofs.Url.NormalForm
import StyleSplice.Proofs.Url.Suffix
import StyleSplice.Proofs.Url.Traversal
import StyleSplice.Report.Bus
import StyleSplice.Resolve.Journal
import StyleSplice.Shared.Workbench
