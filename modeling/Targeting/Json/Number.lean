import Targeting.Json.Basic

/-!
Numerals of JSON and the numbers they stand for. A numeral that is no integer of 64 bits is read
in two steps: its digits go into 64 bits as far as they fit, and the result is multiplied or
divided by a power of ten. Both steps round, so the double is not always the nearest one.
-/

namespace Targeting.Json

structure Numeral where
  negative : Bool
  whole : List Nat
  fraction : List Nat
  exponent : Option (Bool × List Nat)
  deriving DecidableEq, Repr

namespace Numeral

def valueOf (digits : List Nat) : Nat := digits.foldl (fun n d => n * 10 + d) 0

def absorb (n : Nat) : List Nat → Nat × Nat
  | [] => (n, 0)
  | d :: ds => if n * 10 + d < UInt64.size then absorb (n * 10 + d) ds else (n, ds.length + 1)

def power (e : Nat) : Float := Float.ofScientific 1 false e

/-- The largest power of ten among the doubles is the 308th. Larger quotients are taken in steps;
a product out of range has no value. -/
def scale (x : Float) : Int → Option Float
  | .ofNat e =>
    if e ≤ 308 then
      let y := x * power e
      if y.isInf then none else some y
    else if x == 0 then some x
    else none
  | .negSucc e =>
    if e + 1 ≤ 308 then some (x / power (e + 1))
    else if x == 0 then some x
    else scale (x / power 308) (.negSucc (e - 308))
  termination_by e => e.natAbs

def float? (m : Numeral) : Option Float :=
  let (n, left) := absorb 0 m.whole
  let (n, cut) := absorb n m.fraction
  let base : Int := left - (m.fraction.length - cut : Nat)
  let unsigned : Option Float :=
    match m.exponent with
    | none => scale (Float.ofNat n) base
    | some (negative, digits) =>
      let e := valueOf digits
      if e < UInt32.size / 2 then scale (Float.ofNat n) (if negative then base - e else base + e)
      else if n = 0 || negative then some 0
      else none
  if m.negative then unsigned.map (- ·) else unsigned

def integer? (m : Numeral) : Option Int :=
  if m.fraction = [] && m.exponent = none then
    let n := valueOf m.whole
    if m.negative then if 0 < n && n ≤ UInt64.size / 2 then some (-n) else none
    else if n < UInt64.size then some n else none
  else none

def number? (m : Numeral) : Option Number :=
  match m.integer? with
  | some i => some (.integer i)
  | none => m.float?.map .float

end Numeral

end Targeting.Json
