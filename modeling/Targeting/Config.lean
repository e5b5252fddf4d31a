namespace Targeting

inductive LoadPolicy
  | everyCondition : LoadPolicy
  | oncePerVisitor : LoadPolicy
  deriving DecidableEq, Repr, Inhabited

structure Config where
  policy : LoadPolicy
  ruleFiles : List String
  stopOnFirstMatch : Bool
  deriving DecidableEq, Repr, Inhabited

namespace LoadPolicy

def text : LoadPolicy → String
  | .everyCondition => "every_condition"
  | .oncePerVisitor => "once_per_context"

def named : List (String × LoadPolicy) :=
  [.everyCondition, .oncePerVisitor].map fun p => (p.text, p)

end LoadPolicy

namespace Config

def empty : Config := ⟨.everyCondition, [], false⟩

instance : EmptyCollection Config := ⟨empty⟩

end Config

end Targeting
