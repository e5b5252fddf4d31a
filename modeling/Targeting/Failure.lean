import Targeting.Document.Basic
import Targeting.Fault
import Targeting.Json.Fault
import Targeting.RuleSet

namespace Targeting

inductive ReadError
  | os : (text : String) → (code : Nat) → ReadError
  | other : (text : String) → ReadError
  deriving DecidableEq, Repr

namespace ReadError

def notFound : ReadError := .os "No such file or directory" 2

def notDirectory : ReadError := .os "Not a directory" 20

def isDirectory : ReadError := .os "Is a directory" 21

def notText : ReadError := .other "stream did not contain valid UTF-8"

def message : ReadError → String
  | .os text code => s!"{text} (os error {code})"
  | .other text => text

end ReadError

/-- What the parsers say of a text that is no record of the shape asked for. Of JSON they only word
what is no JSON at all; the rest is `Json.Error.detail?`. -/
structure Wording where
  yaml : Shape → (text : String) → String
  malformed : Shape → (text : String) → String
  line : Shape → (text : String) → Nat
  column : Shape → (text : String) → Nat
  deriving Inhabited

inductive Failure
  | config : (text : String) → Failure
  | ruleSet : (text : String) → Failure
  | rule : RuleError → Failure
  | run : Fault → Failure
  | yaml : Shape → (text : String) → Failure
  | json : Shape → (text : String) → Json.Error → Failure
  | io : ReadError → Failure
  deriving DecidableEq, Repr

namespace Failure

def message (w : Wording) : Failure → String
  | .config text => s!"Configuration error: {text}"
  | .ruleSet text => s!"Invalid rule set: {text}"
  | .rule e => s!"Invalid rule: {e.message}"
  | .run f => s!"Runtime error: {f.message}"
  | .yaml shape text => s!"YAML error: {w.yaml shape text}"
  | .json shape text e =>
    s!"JSON error: {e.detail?.getD (w.malformed shape text)}" ++
      s!" at line {w.line shape text} column {w.column shape text}"
  | .io e => s!"I/O error: {e.message}"

def ofRuleSet : RuleSetError → Failure
  | .blankSegment => .ruleSet "segment with empty id"
  | .repeatedSegment id => .ruleSet s!"duplicate segment id '{id}'"
  | .badRule e => .rule e
  | .repeatedRule id => .ruleSet s!"duplicate rule id '{id}'"
  | .unknownSegment r s => .ruleSet s!"rule '{r}' references unknown segment '{s}'"

end Failure

end Targeting
