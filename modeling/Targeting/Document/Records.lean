import Targeting.Config
import Targeting.Document.Basic
import Targeting.RuleSet

namespace Targeting

open Document

variable {σ ε : Type} [Document σ ε]

namespace Descriptor

def shape : Shape :=
  ⟨"ConditionDescriptor", ["type", "operator", "bracket_left", "bracket_right", "config"]⟩

structure Draft where
  type : Option String := none
  operator : Option (Option Operator) := none
  opens : Option Bool := none
  closes : Option Bool := none
  config : Option (Table Value) := none

def Draft.take (d : Draft) (field : String) (s : σ) : Except ε Draft :=
  match field with
  | "type" => return { d with type := ← once field d.type text s }
  | "operator" =>
    return { d with operator := ← once field d.operator (optional fun s => .ofText <$> text s) s }
  | "bracket_left" | "bracketLeft" =>
    return { d with opens := ← once "bracket_left" d.opens flag s }
  | "bracket_right" | "bracketRight" =>
    return { d with closes := ← once "bracket_right" d.closes flag s }
  | "config" => return { d with config := ← once field d.config table s }
  | _ => do
    skip s
    return d

def Draft.finish (σ : Type) {ε : Type} [Document σ ε] (d : Draft) : Except ε Descriptor :=
  return {
    type := ← require σ "type" d.type
    operator := d.operator.getD none
    opens := d.opens.getD false
    closes := d.closes.getD false
    config := d.config.getD ∅ }

def read : σ → Except ε Descriptor := record shape Draft.take (Draft.finish σ) {}

end Descriptor

namespace Segment

def shape : Shape := ⟨"Segment", ["id", "name"]⟩

structure Draft where
  id : Option String := none
  name : Option String := none

def Draft.take (d : Draft) (field : String) (s : σ) : Except ε Draft :=
  match field with
  | "id" => return { d with id := ← once field d.id text s }
  | "name" => return { d with name := ← once field d.name text s }
  | _ => do
    skip s
    return d

def Draft.finish (σ : Type) {ε : Type} [Document σ ε] (d : Draft) : Except ε Segment :=
  return { id := ← require σ "id" d.id, name := d.name.getD "" }

def read : σ → Except ε Segment := record shape Draft.take (Draft.finish σ) {}

end Segment

namespace Rule

def shape : Shape :=
  ⟨"TargetingRule", ["id", "name", "description", "enabled", "conditions", "segments"]⟩

structure Draft where
  id : Option String := none
  name : Option String := none
  description : Option (Option String) := none
  enabled : Option Bool := none
  conditions : Option (List Descriptor) := none
  segments : Option (List String) := none

def Draft.take (d : Draft) (field : String) (s : σ) : Except ε Draft :=
  match field with
  | "id" => return { d with id := ← once field d.id text s }
  | "name" => return { d with name := ← once field d.name text s }
  | "description" => return { d with description := ← once field d.description (optional text) s }
  | "enabled" => return { d with enabled := ← once field d.enabled flag s }
  | "conditions" =>
    return { d with conditions := ← once field d.conditions (list Descriptor.read) s }
  | "segments" => return { d with segments := ← once field d.segments (list text) s }
  | _ => do
    skip s
    return d

def Draft.finish (σ : Type) {ε : Type} [Document σ ε] (d : Draft) : Except ε Rule :=
  return {
    id := ← require σ "id" d.id
    name := d.name.getD ""
    description := d.description.getD none
    enabled := d.enabled.getD true
    conditions := d.conditions.getD []
    segments := d.segments.getD [] }

def read : σ → Except ε Rule := record shape Draft.take (Draft.finish σ) {}

end Rule

namespace RuleSet

def shape : Shape := ⟨"RuleSet", ["segments", "rules"]⟩

structure Draft where
  segments : Option (List Segment) := none
  rules : Option (List Rule) := none

def Draft.take (d : Draft) (field : String) (s : σ) : Except ε Draft :=
  match field with
  | "segments" => return { d with segments := ← once field d.segments (list Segment.read) s }
  | "rules" => return { d with rules := ← once field d.rules (list Rule.read) s }
  | _ => do
    skip s
    return d

def Draft.finish {ε : Type} (d : Draft) : Except ε RuleSet :=
  return { segments := d.segments.getD [], rules := d.rules.getD [] }

def read : σ → Except ε RuleSet := record shape Draft.take Draft.finish {}

end RuleSet

def LoadPolicy.read : σ → Except ε LoadPolicy := choice LoadPolicy.named

namespace Config

def shape : Shape := ⟨"EngineConfig", ["provider_load_policy", "rule_files", "stop_on_first_match"]⟩

structure Draft where
  policy : Option LoadPolicy := none
  ruleFiles : Option (List String) := none
  stopOnFirstMatch : Option Bool := none

def Draft.take (d : Draft) (field : String) (s : σ) : Except ε Draft :=
  match field with
  | "provider_load_policy" => return { d with policy := ← once field d.policy LoadPolicy.read s }
  | "rule_files" => return { d with ruleFiles := ← once field d.ruleFiles (list path) s }
  | "stop_on_first_match" =>
    return { d with stopOnFirstMatch := ← once field d.stopOnFirstMatch flag s }
  | _ => do
    skip s
    return d

def Draft.finish {ε : Type} (d : Draft) : Except ε Config :=
  return {
    policy := d.policy.getD .everyCondition
    ruleFiles := d.ruleFiles.getD []
    stopOnFirstMatch := d.stopOnFirstMatch.getD false }

def read : σ → Except ε Config := record shape Draft.take Draft.finish {}

end Config

end Targeting
