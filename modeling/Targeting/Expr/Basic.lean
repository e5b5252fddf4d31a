namespace Targeting

inductive Expr
  | var : String → Expr
  | not : Expr → Expr
  | and : List Expr → Expr
  | or : List Expr → Expr
  deriving Inhabited, Repr

namespace Expr

mutual

def decEq : (a b : Expr) → Decidable (a = b)
  | .var m, .var n => decidable_of_iff (m = n) (by simp)
  | .not a, .not b => have := decEq a b; decidable_of_iff (a = b) (by simp)
  | .and as, .and bs => have := decEqAll as bs; decidable_of_iff (as = bs) (by simp)
  | .or as, .or bs => have := decEqAll as bs; decidable_of_iff (as = bs) (by simp)
  | .var _, .not _ | .var _, .and _ | .var _, .or _ => isFalse nofun
  | .not _, .var _ | .not _, .and _ | .not _, .or _ => isFalse nofun
  | .and _, .var _ | .and _, .not _ | .and _, .or _ => isFalse nofun
  | .or _, .var _ | .or _, .not _ | .or _, .and _ => isFalse nofun

def decEqAll : (as bs : List Expr) → Decidable (as = bs)
  | [], [] => isTrue rfl
  | a :: as, b :: bs =>
    have := decEq a b
    have := decEqAll as bs
    decidable_of_iff (a = b ∧ as = bs) (by simp)
  | [], _ :: _ | _ :: _, [] => isFalse nofun

end

instance : DecidableEq Expr := decEq

def chain (node : List Expr → Expr) : List Expr → Expr
  | [e] => e
  | es => node es

def conj (es : List Expr) : Expr := chain .and es

def disj (es : List Expr) : Expr := chain .or es

mutual

def vars : Expr → List String
  | .var n => [n]
  | .not e => e.vars
  | .and es => varsAll es
  | .or es => varsAll es

def varsAll : List Expr → List String
  | [] => []
  | e :: es => e.vars ++ varsAll es

end

mutual

def text : Expr → String
  | .var n => n
  | .not e => "not " ++ e.text
  | .and es => "(" ++ textAll " && " es ++ ")"
  | .or es => "(" ++ textAll " || " es ++ ")"

def textAll (separator : String) : List Expr → String
  | [] => ""
  | [e] => e.text
  | e :: e' :: es => e.text ++ separator ++ textAll separator (e' :: es)

end

end Expr

end Targeting
