import Targeting.Descriptor

namespace Targeting

structure Segment where
  id : String
  name : String
  deriving DecidableEq, Repr

structure Rule where
  id : String
  name : String
  description : Option String
  enabled : Bool
  conditions : List Descriptor
  segments : List String
  deriving Repr

inductive RuleError
  | invalidValue : (text : String) → RuleError
  | missingField : (field : String) → RuleError
  deriving DecidableEq, Repr

def RuleError.message : RuleError → String
  | .invalidValue text => s!"Invalid value: {text}"
  | .missingField field => s!"Missing required field: {field}"

namespace Rule

def ofName (id name : String) : Rule := ⟨id, name, none, true, [], []⟩

def withDescription (r : Rule) (text : String) : Rule := { r with description := some text }

def addCondition (r : Rule) (d : Descriptor) : Rule := { r with conditions := r.conditions ++ [d] }

def addSegment (r : Rule) (id : String) : Rule := { r with segments := r.segments ++ [id] }

def setEnabled (r : Rule) (enabled : Bool) : Rule := { r with enabled }

def repeated? (seen : List String) : List String → Option String
  | [] => none
  | s :: ss => if s ∈ seen then some s else repeated? (s :: seen) ss

def validate (r : Rule) : Except RuleError Unit :=
  if Text.isBlankText r.id then throw (.missingField "rule.id")
  else match repeated? [] r.segments with
    | some s => throw (.invalidValue s!"rule '{r.id}' references segment '{s}' more than once")
    | none => return

end Rule

end Targeting
