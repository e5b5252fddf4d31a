import Targeting.Rule

namespace Targeting

structure RuleSet where
  segments : List Segment
  rules : List Rule
  deriving Repr

inductive RuleSetError
  | blankSegment : RuleSetError
  | repeatedSegment : (id : String) → RuleSetError
  | badRule : RuleError → RuleSetError
  | repeatedRule : (id : String) → RuleSetError
  | unknownSegment : (rule segment : String) → RuleSetError
  deriving DecidableEq, Repr

namespace RuleSet

def empty : RuleSet := ⟨[], []⟩

instance : EmptyCollection RuleSet := ⟨empty⟩

instance : Append RuleSet := ⟨fun a b => ⟨a.segments ++ b.segments, a.rules ++ b.rules⟩⟩

def segment? (s : RuleSet) (id : String) : Option Segment := s.segments.find? (·.id == id)

def validateSegments (seen : List String) : List Segment → Except RuleSetError Unit
  | [] => return
  | s :: ss =>
    if Text.isBlankText s.id then throw .blankSegment
    else if s.id ∈ seen then throw (.repeatedSegment s.id)
    else validateSegments (s.id :: seen) ss

def validateRules (known seen : List String) : List Rule → Except RuleSetError Unit
  | [] => return
  | r :: rs => do
    r.validate.mapError .badRule
    if r.id ∈ seen then throw (.repeatedRule r.id)
    match r.segments.find? (· ∉ known) with
    | some s => throw (.unknownSegment r.id s)
    | none => validateRules known (r.id :: seen) rs

/-- Segments come before rules, so a rule is only looked at once all segments are in order. -/
def validate (s : RuleSet) : Except RuleSetError Unit := do
  validateSegments [] s.segments
  validateRules (s.segments.map (·.id)) [] s.rules

end RuleSet

end Targeting
