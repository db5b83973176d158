import Sift.Main
import Sift.Options.Json
import Sift.Options.Printer
import Sift.Condition.Printer
import Sift.Clause.Reader
import Sift.Meaning
import Sift.Proofs.Grammar
import Sift.Proofs.Result
import Sift.Proofs.Agreement
import Sift.Proofs.Meaning
import Sift.Proofs.Scan
import Sift.Proofs.Split
import Sift.Proofs.RoundTrip
import Sift.Proofs.Invariant
import Sift.Proofs.Refusal
import Sift.Proofs.Decode
import Sift.Proofs.Locality
import Sift.Proofs.Injection
import Sift.Proofs.Pieces
import Sift.Proofs.Separation
import Sift.Proofs.Double
import Sift.Proofs.JsonRoundTrip
import Sift.Proofs.Dependence
import Sift.Proofs.Appending
import Sift.Proofs.OptionsRoundTrip
import Sift.Proofs.Acceptance
import Sift.Proofs.Lossless
import Sift.Proofs.OptionGrammar
import Sift.Proofs.Quoting
import Sift.Proofs.Seams
import Sift.Proofs.Calendar
import Sift.Proofs.Clock
import Sift.Proofs.Numeral
import Sift.Proofs.RelativeDate
import Sift.Proofs.Midnight
import Sift.Proofs.Pinning
import Sift.Proofs.AbsoluteDate
import Sift.Proofs.ClockOrder
import Sift.Proofs.Overriding
import Sift.Proofs.JsonOrder
import Sift.Proofs.Flattening
import Sift.Proofs.Additions
import Sift.Proofs.Containers
import Sift.Proofs.Disabled
import Sift.Proofs.Layering
