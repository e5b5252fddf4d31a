namespace Targeting

inductive Fault
  | unknownCondition : (type : String) → Fault
  | invalidConfig : (type message : String) → Fault
  | unknownProvider : (key : String) → Fault
  | providerFailed : (key message : String) → Fault
  | badExpression : (message expression : String) → Fault
  | unboundVariable : (name : String) → Fault
  deriving DecidableEq, Repr

inductive Fault.Kind
  | configuration
  | provider
  | expression
  | internal
  deriving DecidableEq, Repr

namespace Fault

def kind : Fault → Kind
  | .unknownCondition _ | .invalidConfig _ _ | .unknownProvider _ => .configuration
  | .providerFailed _ _ => .provider
  | .badExpression _ _ => .expression
  | .unboundVariable _ => .internal

def retryable (f : Fault) : Bool := f.kind = .provider

def message : Fault → String
  | .unknownCondition type => s!"Unknown condition type: {type}"
  | .invalidConfig type message => s!"Invalid configuration for condition '{type}': {message}"
  | .unknownProvider key => s!"Unknown data provider: {key}"
  | .providerFailed key message => s!"Data provider '{key}' failed: {message}"
  | .badExpression message expression =>
    s!"Expression syntax error: {message} (in '{expression}')"
  | .unboundVariable name => s!"Unbound expression variable: {name}"

end Fault

end Targeting
