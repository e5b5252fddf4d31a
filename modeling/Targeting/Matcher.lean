import Targeting.Config
import Targeting.Expr.Assembly
import Targeting.Run

/-!
Matchers decide whether a visitor meets a list of conditions. First every condition is decided, in
order, with the providers it requires loaded before; only then the expression over the outcomes is
put together and evaluated. No condition is left out because the others settle the result.
-/

namespace Targeting

structure Matcher where
  build : Factory
  locate : Locator
  policy : LoadPolicy

structure Trace where
  expression : String
  bindings : List (String × Bool)
  result : Bool
  deriving DecidableEq, Repr

namespace Matcher

def withPolicy (m : Matcher) (policy : LoadPolicy) : Matcher := { m with policy }

def require (m : Matcher) (key : String) : Run Unit := do
  let v ← Run.visitor
  if m.policy = .oncePerVisitor && v.isLoaded key then return ()
  else
    Run.call (.lookup key)
    let p ← Run.lift (m.locate key)
    Run.call (.load key)
    Run.provide p
    Run.modify (·.markLoaded key)

def requireAll (m : Matcher) : List String → Run Unit
  | [] => return ()
  | key :: keys => do
    m.require key
    m.requireAll keys

def decide (m : Matcher) (d : Descriptor) : Run Bool := do
  Run.call (.build d)
  let c ← Run.lift (m.build d)
  if c.configured then
    m.requireAll (c.requires.getD [])
    Run.call (.judge c)
    return c.holds (← Run.visitor)
  else return true

def assemble (m : Matcher) (a : Assembly) : List Descriptor → Run Assembly
  | [] => return a
  | d :: ds => do
    let outcome ← m.decide d
    m.assemble (a.push d outcome).1 ds

def trace (m : Matcher) (ds : List Descriptor) : Run Trace := do
  let a ← m.assemble ∅ ds
  let e ← Run.lift a.finish
  let result ← Run.lift e.eval
  return ⟨e.source, e.ordered, result⟩

def holds (m : Matcher) (ds : List Descriptor) : Run Bool := do
  return (← m.trace ds).result

def text (m : Matcher) : String :=
  let policy := match m.policy with
    | .everyCondition => "EveryCondition"
    | .oncePerVisitor => "OncePerContext"
  "ConditionMatcher \x7b load_policy: " ++ policy ++ ", .. \x7d"

end Matcher

end Targeting
