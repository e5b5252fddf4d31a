import Targeting.Decimal
import Targeting.Json.Basic
import Targeting.Text.Printable

namespace Targeting.Json

inductive Wanted
  | text : Wanted
  | path : Wanted
  | flag : Wanted
  | table : Wanted
  | list : Wanted
  | unit : Wanted
  | record : (shape : String) → Wanted
  deriving DecidableEq, Repr

inductive Error
  | malformed : Error
  | wrongType : (found : String) → Wanted → Error
  | missing : (field : String) → Error
  | repeated : (field : String) → Error
  | unknownChoice : (name : String) → (known : List String) → Error
  | tooShort : (length : Nat) → (name : String) → (fields : Nat) → Error
  deriving DecidableEq, Repr

def Wanted.name : Wanted → String
  | .text => "a string"
  | .path => "path string"
  | .flag => "a boolean"
  | .table => "a map"
  | .list => "a sequence"
  | .unit => "unit"
  | .record shape => s!"struct {shape}"

/-- The shortest digits; a point is always written, and exponents only outside of `1e-5` to
`1e16`. -/
def floatText (x : Float) : String :=
  let s := Decimal.shortest x
  let digits := toString s.digits
  let point : Int := digits.length + s.exponent
  let sign := if x.toBits.toNat < UInt64.size / 2 then "" else "-"
  let zeros (n : Nat) : String := String.ofList (List.replicate n '0')
  let shown :=
    if 0 ≤ s.exponent && point ≤ 16 then digits ++ zeros s.exponent.toNat ++ ".0"
    else if 0 < point && point ≤ 16 then
      (digits.take point.toNat).copy ++ "." ++ (digits.drop point.toNat).copy
    else if -5 < point && point ≤ 0 then "0." ++ zeros (-point).toNat ++ digits
    else
      let mantissa :=
        if digits.length = 1 then digits
        else (digits.take 1).copy ++ "." ++ (digits.drop 1).copy
      s!"{mantissa}e{point - 1}"
  sign ++ shown

def Number.text : Number → String
  | .integer i => s!"integer `{i}`"
  | .float x => s!"floating point `{floatText x}`"

def found? : Json → Option String
  | .null => some "null"
  | .bool b => some s!"boolean `{b}`"
  | .number n => some n.text
  | .string s => some s!"string {Text.Quoted.encode s}"
  | .array _ => some "sequence"
  | .object _ => some "map"
  | .unfit | .broken => none

def mismatch (j : Json) (w : Wanted) : Error :=
  match j.found? with
  | some found => .wrongType found w
  | none => .malformed

def alternatives : List String → String
  | [a, b] => s!"`{a}` or `{b}`"
  | names => "one of " ++ ", ".intercalate (names.map fun a => s!"`{a}`")

def Error.detail? : Error → Option String
  | .malformed => none
  | .wrongType found w => some s!"invalid type: {found}, expected {w.name}"
  | .missing field => some s!"missing field `{field}`"
  | .repeated field => some s!"duplicate field `{field}`"
  | .unknownChoice name known => some s!"unknown variant `{name}`, expected {alternatives known}"
  | .tooShort length name fields =>
    some s!"invalid length {length}, expected struct {name} with {fields} elements"

end Targeting.Json
