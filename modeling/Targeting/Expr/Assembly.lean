import Targeting.Descriptor
import Targeting.Expr.Eval

namespace Targeting

structure Assembly where
  tokens : List Token
  bindings : Table Bool
  names : List String
  counts : Table Nat
  deriving Repr

namespace Assembly

def empty : Assembly := ⟨[], ∅, [], ∅⟩

instance : EmptyCollection Assembly := ⟨empty⟩

def next (a : Assembly) (type : String) : Nat := (a.counts.get? type).getD 0 + 1

def variableName (type : String) (n : Nat) : String := s!"{type}_{n}"

def termTokens (first : Bool) (d : Descriptor) (name : String) : List Token :=
  (if first then [] else d.joint.tokens) ++ (if d.opens then [.lparen] else []) ++ [.var name] ++
    (if d.closes then [.rparen] else [])

def push (a : Assembly) (d : Descriptor) (outcome : Bool) : Assembly × String :=
  let n := a.next d.type
  let name := variableName d.type n
  ({ tokens := a.tokens ++ termTokens a.names.isEmpty d name
     bindings := a.bindings.insert name outcome
     names := a.names ++ [name]
     counts := a.counts.insert d.type n }, name)

def ofTerms (ts : List (Descriptor × Bool)) : Assembly :=
  ts.foldl (fun a t => (a.push t.1 t.2).1) ∅

def text (a : Assembly) : String := Token.join a.tokens

end Assembly

structure Assembled where
  source : String
  expr : Expr
  bindings : Table Bool
  names : List String
  deriving Repr

def Assembly.finish (a : Assembly) : Except Fault Assembled := do
  return ⟨a.text, ← Expr.parse a.tokens, a.bindings, a.names⟩

namespace Assembled

def ordered (a : Assembled) : List (String × Bool) :=
  a.names.filterMap fun n => (a.bindings.get? n).map (n, ·)

def eval (a : Assembled) : Except Fault Bool := a.expr.eval a.bindings

end Assembled

end Targeting
