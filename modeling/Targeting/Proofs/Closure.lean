import Targeting.Engine
import Targeting.Proofs.Calls

namespace Targeting

attribute [local instance] Run.lawful

namespace Run

def judge (c : Condition) : Run Bool := do
  call (.judge c)
  return c.holds (← visitor)

def announce (rule : String) : Run Unit := do notice (.matched rule (← visitor).id)

theorem judge_apply (c : Condition) (v : Visitor) :
    judge c v = ⟨.ok (c.holds v), v, [⟨.judge c, v⟩], []⟩ := rfl

/-- A relation that holds of two runs if it holds of their parts. A property of one run is one that
has no use for the other. -/
structure Closed (Q : ∀ {α : Type}, Run α → Run α → Prop) : Prop where
  pure : ∀ {α : Type} (a : α), Q (Pure.pure a : Run α) (Pure.pure a)
  bind : ∀ {α β : Type} {x y : Run α} {f g : α → Run β}, Q x y → (∀ a, Q (f a) (g a)) →
    Q (x >>= f) (y >>= g)
  lift : ∀ {α : Type} (r : Except Fault α), Q (lift r) (lift r)
  announce : ∀ rule, Q (announce rule) (announce rule)

theorem closed_eq : Closed Eq where
  pure _ := rfl
  bind hx hf := by rw [hx, funext hf]
  lift _ := rfl
  announce _ := rfl

end Run

theorem Matcher.ask_eq (m : Matcher) (c : Condition) :
    m.ask c = if c.configured then m.requireAll (c.requires.getD []) >>= fun _ => Run.judge c
      else return true := rfl

theorem Matcher.decide_eq (m : Matcher) (d : Descriptor) :
    m.decide d = Run.call (.build d) >>= fun _ => Run.lift (m.build d) >>= m.ask := rfl

theorem Engine.matching_cons (e : Engine) (r : Rule) (rs : List Rule) :
    e.matching (r :: rs) =
      if considers r then do
        if ← e.matcher.holds r.conditions then
          Run.announce r.id
          if e.config.stopOnFirstMatch then return [r] else return r :: (← e.matching rs)
        else e.matching rs
      else e.matching rs := by
  simp [matching, Run.announce]

namespace Run.Closed

variable {Q : ∀ {α : Type}, Run α → Run α → Prop} {m n : Matcher} {e f : Engine}

theorem requireAll (hQ : Closed Q) (h : ∀ key, Q (m.require key) (n.require key))
    (keys : List String) : Q (m.requireAll keys) (n.requireAll keys) := by
  induction keys with
  | nil => exact hQ.pure ()
  | cons key keys ih => exact hQ.bind (h key) fun _ => ih

theorem ask (hQ : Closed Q) (h : ∀ key, Q (m.require key) (n.require key)) (c : Condition)
    (hjudge : Q (judge c) (judge c)) : Q (m.ask c) (n.ask c) := by
  rw [Matcher.ask_eq, Matcher.ask_eq]
  split
  · exact hQ.bind (hQ.requireAll h _) fun _ => hjudge
  · exact hQ.pure true

theorem decide (hQ : Closed Q) (hbuild : m.build = n.build) (d : Descriptor)
    (hcall : Q (call (.build d)) (call (.build d)))
    (h : ∀ c, m.build d = .ok c → Q (m.ask c) (n.ask c)) : Q (m.decide d) (n.decide d) := by
  rw [Matcher.decide_eq, Matcher.decide_eq, ← hbuild]
  refine hQ.bind hcall fun _ => ?_
  cases hc : m.build d with
  | error fault => exact hQ.lift (.error fault)
  | ok c =>
    change Q (Pure.pure c >>= m.ask) (Pure.pure c >>= n.ask)
    rw [pure_bind, pure_bind]
    exact h c hc

theorem assemble (hQ : Closed Q) (h : ∀ d, Q (m.decide d) (n.decide d)) (a : Assembly)
    (ds : List Descriptor) : Q (m.assemble a ds) (n.assemble a ds) := by
  induction ds generalizing a with
  | nil => exact hQ.pure a
  | cons d ds ih => exact hQ.bind (h d) fun _ => ih _

theorem trace (hQ : Closed Q) (h : ∀ d, Q (m.decide d) (n.decide d)) (ds : List Descriptor) :
    Q (m.trace ds) (n.trace ds) := by
  rw [Matcher.trace_eq, Matcher.trace_eq]
  exact hQ.bind (hQ.assemble h ∅ ds) fun a => hQ.lift (Matcher.conclude a)

theorem holds (hQ : Closed Q) (h : ∀ d, Q (m.decide d) (n.decide d)) (ds : List Descriptor) :
    Q (m.holds ds) (n.holds ds) := hQ.bind (hQ.trace h ds) fun t => hQ.pure t.result

theorem matching (hQ : Closed Q) (h : ∀ d, Q (e.matcher.decide d) (f.matcher.decide d))
    (hstop : e.config.stopOnFirstMatch = f.config.stopOnFirstMatch) (rs : List Rule) :
    Q (e.matching rs) (f.matching rs) := by
  induction rs with
  | nil => exact hQ.pure []
  | cons r rs ih =>
    rw [Engine.matching_cons, Engine.matching_cons, hstop]
    split
    · refine hQ.bind (hQ.holds h r.conditions) fun holds => ?_
      split
      · refine hQ.bind (hQ.announce r.id) fun _ => ?_
        split
        · exact hQ.pure [r]
        · exact hQ.bind ih fun rs => hQ.pure (r :: rs)
      · exact ih
    · exact ih

end Run.Closed

end Targeting
