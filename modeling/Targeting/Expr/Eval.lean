import Targeting.Expr.Parse
import Targeting.Table

/-!
The value of an expression. A chain stops at the operand that settles it, so a variable behind
that operand needs no binding.
-/

namespace Targeting.Expr

mutual

def eval (b : Table Bool) : Expr → Except Fault Bool
  | .var n =>
    match b.get? n with
    | some v => .ok v
    | none => .error (.unboundVariable n)
  | .not e => do return !(← e.eval b)
  | .and es => evalAnd b es
  | .or es => evalOr b es

def evalAnd (b : Table Bool) : List Expr → Except Fault Bool
  | [] => .ok true
  | e :: es => do if ← e.eval b then evalAnd b es else return false

def evalOr (b : Table Bool) : List Expr → Except Fault Bool
  | [] => .ok false
  | e :: es => do if ← e.eval b then return true else evalOr b es

end

def evalText (b : Table Bool) (s : String) : Except Fault Bool := do (← ofText s).eval b

end Targeting.Expr
