import Targeting.Fault
import Targeting.Text.Printable
import Targeting.Visitor

namespace Targeting

structure Condition where
  configured : Bool
  holds : Visitor → Bool
  /-- Keys of the providers to load before, in that order; `none` for a condition that has no
  use for providers. -/
  requires : Option (List String)

abbrev Factory := Descriptor → Except Fault Condition

/-- A load that fails may have written before. -/
abbrev Provider := Visitor → Visitor × Except Fault Unit

abbrev Locator := String → Except Fault Provider

structure ConditionRegistry where
  factories : Table Factory

namespace ConditionRegistry

def empty : ConditionRegistry := ⟨∅⟩

instance : EmptyCollection ConditionRegistry := ⟨empty⟩

def register (r : ConditionRegistry) (type : String) (f : Factory) : ConditionRegistry :=
  ⟨r.factories.insert type f⟩

def contains (r : ConditionRegistry) (type : String) : Bool := r.factories.contains type

def types (r : ConditionRegistry) : List String := r.factories.keys

def build (r : ConditionRegistry) : Factory := fun d =>
  match r.factories.get? d.type with
  | some f => f d
  | none => .error (.unknownCondition d.type)

def text (r : ConditionRegistry) : String :=
  "ConditionRegistry \x7b condition_types: " ++ Text.Quoted.encodeList r.types ++ " \x7d"

end ConditionRegistry

structure ProviderRegistry where
  providers : Table Provider

namespace ProviderRegistry

def empty : ProviderRegistry := ⟨∅⟩

instance : EmptyCollection ProviderRegistry := ⟨empty⟩

def register (r : ProviderRegistry) (key : String) (p : Provider) : ProviderRegistry :=
  ⟨r.providers.insert key p⟩

def contains (r : ProviderRegistry) (key : String) : Bool := r.providers.contains key

def keys (r : ProviderRegistry) : List String := r.providers.keys

def locate (r : ProviderRegistry) : Locator := fun key =>
  match r.providers.get? key with
  | some p => .ok p
  | none => .error (.unknownProvider key)

def text (r : ProviderRegistry) : String :=
  "DataProviderRegistry \x7b keys: " ++ Text.Quoted.encodeList r.keys ++ " \x7d"

end ProviderRegistry

end Targeting
