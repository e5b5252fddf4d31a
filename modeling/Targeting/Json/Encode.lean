import Targeting.Config
import Targeting.Json.Basic
import Targeting.RuleSet

namespace Targeting

namespace Json

def ofFields (fs : List (String × Json)) : Json := .object (fs.map fun (k, j) => (some k, j))

def ofOption {α : Type} (f : α → Json) (a : Option α) : Json := (a.map f).getD .null

end Json

open Json

mutual

def Value.toJson : Value → Json
  | .null => .null
  | .bool b => .bool b
  | .number x => if x.isFinite then .number (.float x) else .null
  | .string s => .string s
  | .array vs => .array (Value.toJsonAll vs)
  | .object es => .object (Value.toJsonEntries es)

def Value.toJsonAll : List Value → List Json
  | [] => []
  | v :: vs => v.toJson :: Value.toJsonAll vs

def Value.toJsonEntries {bound : Option String} :
    Value.Entries bound → List (Option String × Json)
  | .nil => []
  | .cons k _ v es => (some k, v.toJson) :: Value.toJsonEntries es

end

def Operator.toJson (o : Operator) : Json := .string o.text

def Descriptor.toJson (d : Descriptor) : Json :=
  ofFields [
    ("type", .string d.type),
    ("operator", ofOption Operator.toJson d.operator),
    ("bracket_left", .bool d.opens),
    ("bracket_right", .bool d.closes),
    ("config", (Value.ofTable d.config).toJson)]

def Segment.toJson (s : Segment) : Json := ofFields [("id", .string s.id), ("name", .string s.name)]

def Rule.toJson (r : Rule) : Json :=
  ofFields [
    ("id", .string r.id),
    ("name", .string r.name),
    ("description", ofOption .string r.description),
    ("enabled", .bool r.enabled),
    ("conditions", .array (r.conditions.map Descriptor.toJson)),
    ("segments", .array (r.segments.map .string))]

def RuleSet.toJson (s : RuleSet) : Json :=
  ofFields [
    ("segments", .array (s.segments.map Segment.toJson)),
    ("rules", .array (s.rules.map Rule.toJson))]

def Config.toJson (c : Config) : Json :=
  ofFields [
    ("provider_load_policy", .string c.policy.text),
    ("rule_files", .array (c.ruleFiles.map .string)),
    ("stop_on_first_match", .bool c.stopOnFirstMatch)]

end Targeting
