import Targeting.Decimal
import Targeting.Yaml.Text

namespace Targeting.Yaml

inductive Meaning
  | null : Meaning
  | bool : Bool → Meaning
  | number : Float → Meaning
  | text : Meaning
  | tooLarge : Meaning
  deriving Repr

namespace Meaning

def isNull (s : String) : Bool := ["~", "null", "Null", "NULL"].contains s

def bool? (s : String) : Option Bool :=
  if ["true", "True", "TRUE"].contains s then some true
  else if ["false", "False", "FALSE"].contains s then some false
  else none

def natural? (base : Nat) : List Char → Option Nat
  | [] => none
  | cs => cs.foldlM (fun n c => do
      let d ← hexDigit? c
      if d < base then return n * base + d else none) 0

def isPadded (cs : List Char) : Bool :=
  let digits := match cs with
    | '-' :: cs => cs
    | '+' :: cs => cs
    | cs => cs
  match digits with
  | '0' :: c :: cs => (c :: cs).all Char.isDigit
  | _ => false

def unsigned? : List Char → Option Nat
  | '0' :: 'x' :: cs => natural? 16 cs
  | '0' :: 'o' :: cs => natural? 8 cs
  | '0' :: 'b' :: cs => natural? 2 cs
  | cs => natural? 10 cs

def integer? (cs : List Char) : Option (Bool × Nat) :=
  if isPadded cs then none
  else match cs with
    | '+' :: cs => (unsigned? cs).map (false, ·)
    | '-' :: cs => (unsigned? cs).map (true, ·)
    | cs => (unsigned? cs).map (false, ·)

/-- An integer by its size; beyond 128 bits it is left to the decimals. -/
def ofInteger (negative : Bool) (n : Nat) : Option Meaning :=
  if negative then
    if n ≤ UInt64.size / 2 then some (.number (Float.ofInt (-n)))
    else if n ≤ Nat.pow 2 127 then some .tooLarge
    else none
  else
    if n < UInt64.size then some (.number (Float.ofNat n))
    else if n < Nat.pow 2 128 then some .tooLarge
    else none

def exponent? : List Char → Option Int
  | '+' :: cs => (natural? 10 cs).map fun n => (n : Int)
  | '-' :: cs => (natural? 10 cs).map fun n => -(n : Int)
  | cs => (natural? 10 cs).map fun n => (n : Int)

def decimal? (cs : List Char) : Option Float := do
  let whole := cs.takeWhile Char.isDigit
  let (fraction, rest) := match cs.drop whole.length with
    | '.' :: cs => (cs.takeWhile Char.isDigit, cs.dropWhile Char.isDigit)
    | cs => ([], cs)
  let n ← natural? 10 (whole ++ fraction)
  let e ← match rest with
    | [] => some 0
    | c :: cs => if c == 'e' || c == 'E' then exponent? cs else none
  let x := Decimal.nearest n (e - fraction.length)
  if x.isInf then none else return x

def infinity : Float := 1 / 0

def float? (s : String) : Option Float :=
  if [".inf", ".Inf", ".INF", "+.inf", "+.Inf", "+.INF"].contains s then some infinity
  else if ["-.inf", "-.Inf", "-.INF"].contains s then some (-infinity)
  else if [".nan", ".NaN", ".NAN"].contains s then some (0 / 0)
  else match s.toList with
    | '+' :: cs => decimal? cs
    | '-' :: cs => (decimal? cs).map (- ·)
    | cs => decimal? cs

def number? (s : String) : Option Meaning :=
  (integer? s.toList).bind fun (negative, n) => ofInteger negative n

def ofText (s : String) : Meaning :=
  if s.isEmpty || isNull s then .null
  else match bool? s with
    | some b => .bool b
    | none =>
      match number? s with
      | some m => m
      | none =>
        if isPadded s.toList then .text
        else match float? s with
          | some x => .number x
          | none => .text

end Meaning

end Targeting.Yaml
