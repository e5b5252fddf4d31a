import Targeting.Condition

/-!
Runs: what happens to a visitor. A run ends with a result or a fault, and in either case with the
visitor as it left it, with the calls it made to conditions and providers, and with notices.
-/

namespace Targeting

inductive Action
  | build : Descriptor → Action
  | lookup : (key : String) → Action
  | load : (key : String) → Action
  | judge : Condition → Action

structure Call where
  action : Action
  visitor : Visitor

inductive Notice
  | built : (rules segments : Nat) → Notice
  | unregistered : (rule type : String) → Notice
  | matched : (rule : String) → (visitor : Option String) → Notice
  deriving DecidableEq, Repr

def Notice.text : Notice → String
  | .built rules segments =>
    s!"INFO Built targeting engine with {rules} rules and {segments} segments"
  | .unregistered rule type => s!"WARN Rule '{rule}' uses unregistered condition type '{type}'"
  | .matched rule visitor =>
    let name := visitor.getD "<anonymous>"
    s!"INFO Rule '{rule}' matched visitor {name}"

structure Outcome (α : Type) where
  result : Except Fault α
  visitor : Visitor
  calls : List Call
  notices : List Notice

def Run (α : Type) := Visitor → Outcome α

namespace Run

variable {α β : Type}

def pure (a : α) : Run α := fun v => ⟨.ok a, v, [], []⟩

def bind (x : Run α) (f : α → Run β) : Run β := fun v =>
  let o := x v
  match o.result with
  | .error e => ⟨.error e, o.visitor, o.calls, o.notices⟩
  | .ok a =>
    let p := f a o.visitor
    ⟨p.result, p.visitor, o.calls ++ p.calls, o.notices ++ p.notices⟩

instance : Monad Run where
  pure := pure
  bind := bind

def visitor : Run Visitor := fun v => ⟨.ok v, v, [], []⟩

def modify (f : Visitor → Visitor) : Run Unit := fun v => ⟨.ok (), f v, [], []⟩

def call (a : Action) : Run Unit := fun v => ⟨.ok (), v, [⟨a, v⟩], []⟩

def notice (n : Notice) : Run Unit := fun v => ⟨.ok (), v, [], [n]⟩

def lift (e : Except Fault α) : Run α := fun v => ⟨e, v, [], []⟩

def provide (p : Provider) : Run Unit := fun v =>
  let (v, e) := p v
  ⟨e, v, [], []⟩

end Run

end Targeting
