import Targeting.Engine
import Targeting.Sources

namespace Targeting

structure Builder where
  config : Config
  conditions : ConditionRegistry
  factory : Option Factory
  providers : ProviderRegistry
  locator : Option Locator
  contents : List String
  added : RuleSet

namespace Builder

def empty : Builder := ⟨∅, ∅, none, ∅, none, [], ∅⟩

instance : EmptyCollection Builder := ⟨empty⟩

def withConfig (b : Builder) (config : Config) : Builder := { b with config }

def withPolicy (b : Builder) (policy : LoadPolicy) : Builder :=
  { b with config := { b.config with policy } }

def registerCondition (b : Builder) (type : String) (f : Factory) : Builder :=
  { b with conditions := b.conditions.register type f }

def withFactory (b : Builder) (f : Factory) : Builder := { b with factory := some f }

def registerProvider (b : Builder) (key : String) (p : Provider) : Builder :=
  { b with providers := b.providers.register key p }

def withLocator (b : Builder) (l : Locator) : Builder := { b with locator := some l }

def addFile (b : Builder) (path : String) : Builder :=
  { b with config := { b.config with ruleFiles := b.config.ruleFiles ++ [path] } }

def addContent (b : Builder) (s : String) : Builder := { b with contents := b.contents ++ [s] }

def addRule (b : Builder) (r : Rule) : Builder :=
  { b with added := b.added ++ (⟨[], [r]⟩ : RuleSet) }

def addSegment (b : Builder) (s : Segment) : Builder :=
  { b with added := b.added ++ (⟨[s], []⟩ : RuleSet) }

def loadFile (files : Files) (w : Wording) (path : String) : Except Failure RuleSet :=
  (RuleSet.ofFile files path).mapError fun e =>
    .config s!"failed to load {path}: {e.message w}"

def gather (b : Builder) (files : Files) (w : Wording) : Except Failure RuleSet := do
  let ofFiles ← b.config.ruleFiles.mapM (loadFile files w)
  let ofContents ← b.contents.mapM RuleSet.ofYaml
  return (ofFiles ++ ofContents ++ [b.added]).foldl (· ++ ·) ∅

/-- A type nobody registered is only a fault once a rule that uses it is run. -/
def warnings (b : Builder) (s : RuleSet) : List Notice :=
  match b.factory with
  | some _ => []
  | none =>
    s.rules.flatMap fun r =>
      (r.conditions.filter fun d => !b.conditions.contains d.type).map fun d =>
        .unregistered r.id d.type

def matcher (b : Builder) : Matcher :=
  ⟨b.factory.getD b.conditions.build, b.locator.getD b.providers.locate, b.config.policy⟩

def build (b : Builder) (files : Files) (w : Wording) : Except Failure (Engine × List Notice) := do
  let s ← b.gather files w
  s.validate.mapError .ofRuleSet
  return (.ofRuleSet b.matcher s b.config,
    b.warnings s ++ [.built s.rules.length s.segments.length])

end Builder

end Targeting
