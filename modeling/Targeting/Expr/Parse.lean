import Targeting.Expr.Basic
import Targeting.Expr.Token
import Targeting.Fault

/-!
Expressions from tokens, by the grammar

    or      := and ("||" and)*
    and     := unary ("&&" unary)*
    unary   := "not" unary | primary
    primary := variable | "(" or ")"

Each level is one function. It reads as far as it can and hands over the tokens it left.
-/

namespace Targeting

inductive ParseError
  | empty : ParseError
  | unexpected : Token → ParseError
  | unfinished : ParseError
  | unclosed : ParseError
  deriving DecidableEq, Repr

def ParseError.message : ParseError → String
  | .empty => "empty expression"
  | .unexpected t => s!"unexpected token '{t.text}'"
  | .unfinished => "unexpected end of expression"
  | .unclosed => "missing closing bracket"

namespace Expr

structure Parsed (ts : List Token) where
  expr : Expr
  rest : List Token
  shorter : rest.length < ts.length

structure ParsedTail (ts : List Token) where
  exprs : List Expr
  rest : List Token
  noLonger : rest.length ≤ ts.length

mutual

def parseOr (ts : List Token) : Except ParseError (Parsed ts) := do
  let e ← parseAnd ts
  have := e.shorter
  let es ← parseOrTail e.rest
  return ⟨disj (e.expr :: es.exprs), es.rest, Nat.lt_of_le_of_lt es.noLonger e.shorter⟩
termination_by 4 * ts.length + 3

def parseOrTail (ts : List Token) : Except ParseError (ParsedTail ts) :=
  match ts with
  | .or :: ts => do
    let e ← parseAnd ts
    have := e.shorter
    let es ← parseOrTail e.rest
    return ⟨e.expr :: es.exprs, es.rest, by have := es.noLonger; simp only [List.length_cons]; omega⟩
  | ts => return ⟨[], ts, Nat.le_refl _⟩
termination_by 4 * ts.length

def parseAnd (ts : List Token) : Except ParseError (Parsed ts) := do
  let e ← parseUnary ts
  have := e.shorter
  let es ← parseAndTail e.rest
  return ⟨conj (e.expr :: es.exprs), es.rest, Nat.lt_of_le_of_lt es.noLonger e.shorter⟩
termination_by 4 * ts.length + 2

def parseAndTail (ts : List Token) : Except ParseError (ParsedTail ts) :=
  match ts with
  | .and :: ts => do
    let e ← parseUnary ts
    have := e.shorter
    let es ← parseAndTail e.rest
    return ⟨e.expr :: es.exprs, es.rest, by have := es.noLonger; simp only [List.length_cons]; omega⟩
  | ts => return ⟨[], ts, Nat.le_refl _⟩
termination_by 4 * ts.length

def parseUnary (ts : List Token) : Except ParseError (Parsed ts) :=
  match ts with
  | .not :: ts => do
    let e ← parseUnary ts
    return ⟨.not e.expr, e.rest, Nat.lt_succ_of_lt e.shorter⟩
  | ts => parsePrimary ts
termination_by 4 * ts.length + 1

def parsePrimary (ts : List Token) : Except ParseError (Parsed ts) :=
  match ts with
  | .var n :: ts => return ⟨.var n, ts, Nat.lt_succ_self _⟩
  | .lparen :: ts => do
    let e ← parseOr ts
    match h : e.rest with
    | .rparen :: rest =>
      return ⟨e.expr, rest, by have := e.shorter; simp only [h, List.length_cons] at *; omega⟩
    | _ => throw .unclosed
  | t :: _ => throw (.unexpected t)
  | [] => throw .unfinished
termination_by 4 * ts.length

end

def parseAll (ts : List Token) : Except ParseError Expr :=
  match ts with
  | [] => throw .empty
  | ts => do
    let e ← parseOr ts
    match e.rest with
    | [] => return e.expr
    | t :: _ => throw (.unexpected t)

def parse (ts : List Token) : Except Fault Expr :=
  (parseAll ts).mapError fun e => .badExpression e.message (Token.join ts)

def ofText (s : String) : Except Fault Expr := parse (Token.lex s)

end Expr

end Targeting
