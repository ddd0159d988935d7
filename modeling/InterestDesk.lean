import InterestDesk.Http.Server
import InterestDesk.Main
import InterestDesk.Proofs.Admission.Check
import InterestDesk.Proofs.Admission.Run
import InterestDesk.Proofs.Admission.Quota
import InterestDesk.Proofs.Admission.Record
import InterestDesk.Proofs.Admission.Retry
import InterestDesk.Proofs.Binary64.Nearest
import InterestDesk.Proofs.Decimal.Value
import InterestDesk.Proofs.Decimal.RoundTrip
import InterestDesk.Proofs.Admission.Raise
import InterestDesk.Proofs.Request.Disclosure
import InterestDesk.Desk.Mailbox
import InterestDesk.Proofs.Admission.Burst
import InterestDesk.Proofs.Desk.Mailbox
import InterestDesk.Proofs.Desk.Calls
import InterestDesk.Proofs.Desk.Delivery
import InterestDesk.Proofs.Http.Counting
import InterestDesk.Proofs.Desk.Footprints
import InterestDesk.Proofs.Admission.Memory
import InterestDesk.Proofs.Binary64.Rounds
import InterestDesk.Proofs.Text.Cut
import InterestDesk.Proofs.Text.Utf8
import InterestDesk.Proofs.Decimal.Literal
import InterestDesk.Proofs.Request.Numbers
import InterestDesk.Proofs.Http.Boundary
import InterestDesk.Proofs.Http.MultipartForm
import InterestDesk.Proofs.Http.UrlEncodedForm
import InterestDesk.Proofs.Http.Encodings
import InterestDesk.Proofs.Admission.Effect
import InterestDesk.Proofs.Decimal.Rendering
import InterestDesk.Proofs.Request.Precedence
import InterestDesk.Proofs.Request.UnknownUnit
import InterestDesk.Proofs.Tally.Histogram
import InterestDesk.Proofs.Http.RetryAfter
import InterestDesk.Proofs.Interest.Range
import InterestDesk.Proofs.Admission.Stored
import InterestDesk.Proofs.Tally.Balance
import InterestDesk.Proofs.Http.ClientId
import InterestDesk.Proofs.Http.WholeForm
