import Targeting.Builder
import Targeting.Json.Encode
import Targeting.Json.Plain
import Targeting.Proofs.Grammar
import Targeting.Proofs.Spelling
import Targeting.Proofs.Meaning
import Targeting.Proofs.Calls
import Targeting.Proofs.Closure
import Targeting.Proofs.Ledger
import Targeting.Proofs.Lexing
import Targeting.Proofs.Alike
import Targeting.Proofs.Placement
import Targeting.Proofs.Marks
import Targeting.Proofs.Sessions
import Targeting.Proofs.Resolution
import Targeting.Proofs.Printing
import Targeting.Proofs.Verdicts
import Targeting.Proofs.Ownership
import Targeting.Proofs.Retry
import Targeting.Proofs.Traversal
import Targeting.Proofs.Gathering
import Targeting.Proofs.RuleOrder
import Targeting.Proofs.Doubles
import Targeting.Proofs.JsonTokens
import Targeting.Proofs.JsonTexts
import Targeting.Proofs.FiniteNumbers
import Targeting.Proofs.Readers
import Targeting.Proofs.RoundTrip
import Targeting.Proofs.Evaluation
import Targeting.Proofs.Variables
import Targeting.Proofs.Brackets
import Targeting.Proofs.Canonical
import Targeting.Proofs.Truncation
import Targeting.Proofs.Defects
import Targeting.Proofs.Substitution
import Targeting.Proofs.Height
import Targeting.Proofs.Unconfigured
import Targeting.Proofs.Unregistered
import Targeting.Proofs.Fields
import Targeting.Proofs.Separators
import Targeting.Proofs.Cursor
