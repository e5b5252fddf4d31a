import Targeting.Matcher
import Targeting.RuleSet

namespace Targeting

structure Engine where
  matcher : Matcher
  rules : List Rule
  segments : Table Segment
  config : Config

namespace Engine

def ofRuleSet (m : Matcher) (s : RuleSet) (config : Config) : Engine :=
  ⟨m, s.rules, .ofList (s.segments.map fun g => (g.id, g)), config⟩

def rule? (e : Engine) (id : String) : Option Rule := e.rules.find? (·.id == id)

def segment? (e : Engine) (id : String) : Option Segment := e.segments.get? id

def considers (r : Rule) : Bool := r.enabled && !r.conditions.isEmpty

def matching (e : Engine) : List Rule → Run (List Rule)
  | [] => return []
  | r :: rs => do
    if considers r then
      if ← e.matcher.holds r.conditions then
        Run.notice (.matched r.id (← Run.visitor).id)
        if e.config.stopOnFirstMatch then return [r]
        else return r :: (← e.matching rs)
      else e.matching rs
    else e.matching rs

def record (e : Engine) (v : Visitor) (r : Rule) : Visitor :=
  (r.segments.filterMap e.segment?).foldl .addSegment (v.addRule r)

/-- Matches are written once all rules are done, so a fault leaves none. -/
def evaluate (e : Engine) : Run (List String) := do
  let rs ← e.matching e.rules
  Run.modify fun v => rs.foldl e.record v
  return rs.map (·.id)

def holds (e : Engine) (ds : List Descriptor) : Run Bool := e.matcher.holds ds

end Engine

end Targeting
