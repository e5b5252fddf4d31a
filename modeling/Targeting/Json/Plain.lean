import Targeting.Json.Decode

namespace Targeting.Json

mutual

def plain : Json → Json
  | .array js => .array (plainAll js)
  | .object ms => .object ((plainTable ∅ ms).entries.map fun (k, j) => (some k, j))
  | j => j

def plainAll : List Json → List Json
  | [] => []
  | j :: js => j.plain :: plainAll js

def plainTable (t : Table Json) : List (Option String × Json) → Table Json
  | [] => t
  | (k, j) :: ms => plainTable (t.insert (k.getD "") j.plain) ms

end

mutual

def toValue : Json → Value
  | .bool b => .bool b
  | .number n => .number n.toFloat
  | .string s => .string s
  | .array js => .array (toValues js)
  | .object ms => .ofTable (toTable ∅ ms)
  | .null | .unfit | .broken => .null

def toValues : List Json → List Value
  | [] => []
  | j :: js => j.toValue :: toValues js

def toTable (t : Table Value) : List (Option String × Json) → Table Value
  | [] => t
  | (k, j) :: ms => toTable (t.insert (k.getD "") j.toValue) ms

end

def valueOfPlain (j : Json) : Value := j.plain.toValue

end Targeting.Json
