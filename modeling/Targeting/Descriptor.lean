import Targeting.Expr.Token
import Targeting.Value

namespace Targeting

inductive Operator
  | and : Operator
  | or : Operator
  | andNot : Operator
  /-- Any other literal; its tokens stand in the expression as they are written. -/
  | raw : String → Operator
  deriving DecidableEq, Repr

namespace Operator

def ofText : String → Operator
  | "" => .and
  | "and" => .and
  | "or" => .or
  | "and_not" => .andNot
  | s => .raw s

def text : Operator → String
  | .and => "and"
  | .or => "or"
  | .andNot => "and_not"
  | .raw s => s

def tokens : Operator → List Token
  | .and => [.and]
  | .or => [.or]
  | .andNot => [.and, .not]
  | .raw s => Token.lex s

end Operator

structure Descriptor where
  type : String
  /-- Counts from the second descriptor of a list on. -/
  operator : Option Operator
  opens : Bool
  closes : Bool
  config : Table Value
  deriving Repr

namespace Descriptor

def ofType (type : String) : Descriptor := ⟨type, none, false, false, ∅⟩

def withOperator (d : Descriptor) (o : Operator) : Descriptor := { d with operator := some o }

def opened (d : Descriptor) : Descriptor := { d with opens := true }

def closed (d : Descriptor) : Descriptor := { d with closes := true }

def withConfig (d : Descriptor) (k : String) (v : Value) : Descriptor :=
  { d with config := d.config.insert k v }

def joint (d : Descriptor) : Operator := d.operator.getD .and

end Descriptor

end Targeting
