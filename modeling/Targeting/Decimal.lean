/-!
Doubles and decimals: the double nearest to a decimal, and the fewest digits that read back to a
double. For these, the reals that round to a double form an
interval around it; on each decimal grid, from one digit on, only the two neighbours of the double
have to be looked at, and the first grid with a neighbour in the interval gives the digits.
-/

namespace Targeting.Decimal

def nearest (n : Nat) (e : Int) : Float :=
  let top : Int := (Nat.toDigits 10 n).length + e
  if n = 0 || top < -330 then 0
  else if 310 < top then 1 / 0
  else Float.ofScientific n (e < 0) e.natAbs

structure Shortest where
  digits : Nat
  exponent : Int
  deriving DecidableEq, Repr

/-- A positive double is `mantissa * 2 ^ exponent`; below the smallest mantissa of a binade the
next double is only half as far away. -/
structure Binary where
  mantissa : Nat
  exponent : Int
  narrow : Bool
  deriving DecidableEq, Repr

def Binary.ofFloat (x : Float) : Binary :=
  let bits := x.toBits.toNat
  let fraction : Nat := bits % Nat.pow 2 52
  let biased : Nat := bits / Nat.pow 2 52 % Nat.pow 2 11
  if biased = 0 then ⟨fraction, -1074, false⟩
  else ⟨fraction + Nat.pow 2 52, (biased : Int) - 1075, fraction = 0 && 1 < biased⟩

def Binary.quarter (b : Binary) : Nat × Nat :=
  match b.exponent - 2 with
  | .ofNat e => (Nat.pow 2 e, 1)
  | .negSucc e => (1, Nat.pow 2 (e + 1))

def width (n : Nat) : Nat := (Nat.toDigits 10 n).length

def magnitude (n d : Nat) : Int :=
  if d ≤ n then (width (n / d) : Int) - 1
  else
    let c := (d + n - 1) / n
    if c ≤ 1 then 0 else -(width (c - 1) : Int)

def strip : Nat → Shortest → Shortest
  | 0, s => s
  | fuel + 1, s =>
    if s.digits % 10 = 0 && s.digits ≠ 0 then strip fuel ⟨s.digits / 10, s.exponent + 1⟩ else s

/-- The neighbours of a positive double on the grid of `10 ^ e`, the nearer one first, as far as
they read back; of two equally near the even one. -/
def onGrid? (b : Binary) (e : Int) : Option Shortest :=
  let (qn, qd) := b.quarter
  let (tn, td) := match e with
    | .ofNat k => (Nat.pow 10 k, 1)
    | .negSucc k => (1, Nat.pow 10 (k + 1))
  -- all numbers below are multiples of `1 / (qd * td)`
  let unit := tn * qd
  let quarter := qn * td
  let value := 4 * b.mantissa * quarter
  let low := value - (if b.narrow then 1 else 2) * quarter
  let high := value + 2 * quarter
  let inside (k : Nat) : Bool :=
    if b.mantissa % 2 = 0 then low ≤ k * unit && k * unit ≤ high
    else low < k * unit && k * unit < high
  let k := value / unit
  let below := value - k * unit
  let above := (k + 1) * unit - value
  let (first, second) :=
    if below < above || (below = above && k % 2 = 0) then (k, k + 1) else (k + 1, k)
  if inside first then some ⟨first, e⟩ else if inside second then some ⟨second, e⟩ else none

def search (b : Binary) (top : Int) (k : Nat) : Nat → Shortest
  | 0 => ⟨b.mantissa, b.exponent⟩
  | more + 1 => (onGrid? b (top - k + 1)).getD (search b top (k + 1) more)

def shortest (x : Float) : Shortest :=
  let b := Binary.ofFloat x
  if b.mantissa = 0 then ⟨0, 0⟩
  else
    let (qn, qd) := b.quarter
    strip 20 (search b (magnitude (4 * b.mantissa * qn) qd) 1 17)

end Targeting.Decimal
