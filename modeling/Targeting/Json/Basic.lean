namespace Targeting

namespace Json

inductive Number
  | integer : Int → Number
  | float : Float → Number
  deriving Repr

def Number.toFloat : Number → Float
  | .integer i => Float.ofInt i
  | .float x => x

end Json

/-- A key is `none` if it holds half of a surrogate pair. -/
inductive Json
  | null : Json
  | bool : Bool → Json
  | number : Json.Number → Json
  | string : String → Json
  | array : List Json → Json
  | object : List (Option String × Json) → Json
  /-- Well-formed text without a value: a number out of range, half of a surrogate pair, too many
  levels. -/
  | unfit : Json
  /-- The text is no JSON from here on. -/
  | broken : Json
  deriving Inhabited, Repr

namespace Json

mutual

def whole : Json → Bool
  | .array js => wholeAll js
  | .object ms => wholeMembers ms
  | .broken => false
  | _ => true

def wholeAll : List Json → Bool
  | [] => true
  | j :: js => j.whole && wholeAll js

def wholeMembers : List (Option String × Json) → Bool
  | [] => true
  | (_, j) :: ms => j.whole && wholeMembers ms

end

mutual

def prune (levels : Nat) : Json → Json
  | .array js =>
    match levels with
    | 0 => if wholeAll js then .unfit else .broken
    | n + 1 => .array (pruneAll n js)
  | .object ms =>
    match levels with
    | 0 => if wholeMembers ms then .unfit else .broken
    | n + 1 => .object (pruneMembers n ms)
  | j => j

def pruneAll (levels : Nat) : List Json → List Json
  | [] => []
  | j :: js => j.prune levels :: pruneAll levels js

def pruneMembers (levels : Nat) : List (Option String × Json) → List (Option String × Json)
  | [] => []
  | (k, j) :: ms => (k, j.prune levels) :: pruneMembers levels ms

end

end Json

end Targeting
