import Targeting.Proofs.Closure

namespace Targeting

attribute [local instance] Run.lawful

def Run.Always (P : Call → Prop) (x : Run α) : Prop := ∀ v, ∀ c ∈ (x v).calls, P c

theorem Run.Always.bind {P : Call → Prop} {x : Run α} {f : α → Run β} (hx : x.Always P)
    (hf : ∀ a, (f a).Always P) : (x >>= f).Always P := by
  intro v c hc
  cases h : (x v).result with
  | error e =>
    rw [Run.bind_of_error h] at hc
    exact hx v c hc
  | ok a =>
    rw [Run.bind_of_ok h] at hc
    rcases List.mem_append.1 hc with hc | hc
    · exact hx v c hc
    · exact hf a (x v).visitor c hc

theorem Run.Always.closed (P : Call → Prop) : Run.Closed fun x _ => x.Always P where
  pure _ _ := nofun
  bind := .bind
  lift _ _ := nofun
  announce _ _ := nofun

theorem Run.map_apply (f : α → β) (x : Run α) (v : Visitor) :
    (f <$> x) v = ⟨(x v).result.map f, (x v).visitor, (x v).calls, (x v).notices⟩ := by
  rw [← bind_pure_comp]
  cases h : (x v).result with
  | error e => rw [bind_of_error h, Except.map]
  | ok a => simp [bind_of_ok h, pure_apply, Except.map]

section

variable {x : Run α} {f : α → Run β} {v : Visitor} {c : Call}

theorem Run.mem_calls_bind_left (h : c ∈ (x v).calls) : c ∈ ((x >>= f) v).calls := by
  cases hx : (x v).result with
  | error e => rwa [Run.bind_of_error hx]
  | ok a =>
    rw [Run.bind_of_ok hx]
    exact List.mem_append_left _ h

theorem Run.mem_calls_bind_right {a : α} (hx : (x v).result = .ok a)
    (h : c ∈ (f a (x v).visitor).calls) : c ∈ ((x >>= f) v).calls := by
  rw [Run.bind_of_ok hx]
  exact List.mem_append_right _ h

end

namespace Matcher

variable {m : Matcher}

/-- The calls follow one another, and one that fails is the last and its fault is the result. The
run may also fail without a call that does. -/
def Tracks (m : Matcher) (x : Run α) : Prop :=
  ∀ v, ∃ f, m.Logs v (x v).calls (x v).visitor f ∧ ∀ e, f = some e → (x v).result = .error e

theorem Logged.tracks {x : Run α} (h : m.Logged x) : m.Tracks x := fun v =>
  ⟨_, h v, fun _ => Outcome.fault?_eq_some.1⟩

theorem Tracks.bind {x : Run α} {f : α → Run β} (hx : m.Tracks x) (hf : ∀ a, m.Tracks (f a)) :
    m.Tracks (x >>= f) := by
  intro v
  obtain ⟨g, hlogs, hg⟩ := hx v
  cases h : (x v).result with
  | error e =>
    rw [Run.bind_of_error h]
    exact ⟨g, hlogs, fun e' he => by simpa [h] using hg e' he⟩
  | ok a =>
    rw [Run.bind_of_ok h]
    obtain rfl : g = none := by
      refine Option.eq_none_iff_forall_ne_some.2 fun e he => ?_
      cases h.symm.trans (hg e he)
    obtain ⟨g', hlogs', hg'⟩ := hf a (x v).visitor
    exact ⟨g', hlogs.append hlogs', hg'⟩

theorem Tracks.closed (m : Matcher) : Run.Closed fun x _ => m.Tracks x where
  pure a := (Logged.pure a).tracks
  bind := .bind
  lift _ _ := ⟨none, .nil, nofun⟩
  announce _ _ := ⟨none, .nil, nofun⟩

theorem fetch_apply (m : Matcher) (key : String) (v : Visitor) :
    m.fetch key v = ⟨m.answer ⟨.load key, v⟩, m.after v (.load key),
      match m.locate key with
      | .ok _ => [⟨.lookup key, v⟩, ⟨.load key, v⟩]
      | .error _ => [⟨.lookup key, v⟩], []⟩ := by
  cases hlocate : m.locate key with
  | error e =>
    simp [fetch, answer, after, Run.bind_apply, Run.call, Run.lift, hlocate, Except.bind]
  | ok p =>
    rcases hload : p v with ⟨w, _ | _⟩ <;>
      simp [fetch, answer, after, Run.bind_apply, Run.call, Run.lift, Run.provide, Run.modify,
        hlocate, hload, Except.bind]

def Needed (c : Call) : Prop := ∀ key, c.action ∈ fetches key → c.visitor.isLoaded key = false

theorem always_needed_require (hm : m.policy = .oncePerVisitor) (key : String) :
    (m.require key).Always Needed := by
  intro v c hc k hk
  rw [require_apply] at hc
  split at hc
  case isTrue => cases hc
  case isFalse h =>
    have hfetch : c.visitor = v ∧ c.action ∈ fetches key := by
      rw [fetch_apply] at hc
      cases hlocate : m.locate key with
      | error e =>
        simp only [hlocate, List.mem_singleton] at hc
        simp [hc, fetches]
      | ok p =>
        simp only [hlocate, List.mem_cons, List.not_mem_nil, or_false] at hc
        rcases hc with rfl | rfl <;> simp [fetches]
    obtain rfl : k = key := by
      obtain ⟨-, haction⟩ := hfetch
      simp only [fetches, List.mem_cons, List.not_mem_nil, or_false] at hk haction
      rcases hk with hk | hk <;> simpa [hk] using haction
    simpa [hfetch.1, hm] using h

theorem always_needed_decide (hm : m.policy = .oncePerVisitor) (d : Descriptor) :
    (m.decide d).Always Needed := by
  have hQ := Run.Always.closed Needed
  refine hQ.decide (n := m) rfl d ?_ fun c _ => ?_
  · simp [Run.Always, Run.call, Needed, fetches]
  · refine hQ.ask (n := m) (always_needed_require hm) c ?_
    simp [Run.Always, Run.judge_apply, Needed, fetches]

/-- Providers leave the marks to the matcher. -/
def LeavesMarks (m : Matcher) : Prop :=
  ∀ key p v k, m.locate key = .ok p → (p v).1.isLoaded k = v.isLoaded k

def leaves (m : Matcher) (v : Visitor) : Action → Visitor
  | .load key =>
    match m.locate key with
    | .ok p => (p v).1
    | .error _ => v
  | _ => v

theorem isLoaded_after (m : Matcher) (v : Visitor) (a : Action) (key : String) :
    (m.after v a).isLoaded key = true ↔
      (m.leaves v a).isLoaded key = true ∨ a = .load key ∧ m.answer ⟨a, v⟩ = .ok () := by
  cases a with
  | build d => simp [leaves]
  | lookup k => simp [leaves]
  | judge c => simp [leaves]
  | load k =>
    simp only [after, leaves, answer]
    cases hlocate : m.locate k with
    | error e => simp [Except.bind]
    | ok p =>
      rcases hload : p v with ⟨w, _ | _⟩
      · simp [Except.bind, hload]
      · simp [Except.bind, hload, isLoaded_markLoaded, or_comm, eq_comm (a := key)]

theorem KeepsMarks.isLoaded_leaves (hm : m.KeepsMarks) {v : Visitor} {key : String}
    (h : v.isLoaded key = true) (a : Action) : (m.leaves v a).isLoaded key = true := by
  cases a with
  | build d => exact h
  | lookup k => exact h
  | judge c => exact h
  | load k =>
    rw [leaves]
    cases hlocate : m.locate k with
    | error e => exact h
    | ok p => exact hm k p v key hlocate h

theorem LeavesMarks.isLoaded_leaves (hm : m.LeavesMarks) (v : Visitor) (a : Action)
    (key : String) : (m.leaves v a).isLoaded key = v.isLoaded key := by
  cases a with
  | build d => rfl
  | lookup k => rfl
  | judge c => rfl
  | load k =>
    rw [leaves]
    cases hlocate : m.locate k with
    | error e => rfl
    | ok p => exact hm k p v key hlocate

theorem Logs.isLoaded {v w : Visitor} {cs : List Call} {f : Option Fault} (hm : m.LeavesMarks)
    (h : m.Logs v cs w f) (key : String) :
    w.isLoaded key = true ↔
      v.isLoaded key = true ∨ ∃ c ∈ cs, c.action = .load key ∧ m.answer c = .ok () := by
  induction h with
  | nil => simp
  | failed => simp [isLoaded_after, hm.isLoaded_leaves]
  | cons _ _ ih => simp [ih, isLoaded_after, hm.isLoaded_leaves, or_assoc]

inductive Wants (m : Matcher) (key : String) (u : Visitor) : Visitor → List Descriptor → Prop
  | here {v : Visitor} {d : Descriptor} {ds : List Descriptor} {c : Condition}
      {before behind : List String} : m.build d = .ok c → c.configured = true →
      c.requires.getD [] = before ++ key :: behind → (m.requireAll before v).result = .ok () →
      (m.requireAll before v).visitor = u → Wants m key u v (d :: ds)
  | later {v : Visitor} {d : Descriptor} {ds : List Descriptor} {outcome : Bool} :
      (m.decide d v).result = .ok outcome → Wants m key u (m.decide d v).visitor ds →
      Wants m key u v (d :: ds)

variable {key : String} {u v : Visitor}

theorem requireAll_append (m : Matcher) (before keys : List String) :
    m.requireAll (before ++ keys) = m.requireAll before >>= fun _ => m.requireAll keys := by
  induction before with
  | nil => simp [requireAll]
  | cons k before ih => simp [requireAll, ih]

theorem require_of_unmarked (m : Matcher) (h : u.isLoaded key = false) :
    m.require key u = m.fetch key u := by
  simp [require_apply, h]

theorem Wants.mem_calls {ds : List Descriptor} (h : m.Wants key u v ds)
    (hu : u.isLoaded key = false) {c : Call} (hc : c ∈ (m.fetch key u).calls) (a : Assembly) :
    c ∈ (m.assemble a ds v).calls := by
  induction h generalizing a with
  | @here v d ds cond before behind hbuild hconf hkeys hbefore hvisitor =>
    apply Run.mem_calls_bind_left
    rw [decide_of_ok hbuild]
    apply List.mem_cons_of_mem
    rw [ask, if_pos hconf, hkeys]
    apply Run.mem_calls_bind_left
    rw [requireAll_append]
    apply Run.mem_calls_bind_right hbefore
    apply Run.mem_calls_bind_left
    rwa [hvisitor, m.require_of_unmarked hu]
  | later hd _ ih => exact Run.mem_calls_bind_right hd (ih _)

end Matcher

namespace Engine

variable {e : Engine} {key : String} {u v : Visitor}

inductive Wants (e : Engine) (key : String) (u : Visitor) : Visitor → List Rule → Prop
  | skip {v : Visitor} {r : Rule} {rs : List Rule} : considers r = false → Wants e key u v rs →
      Wants e key u v (r :: rs)
  | here {v : Visitor} {r : Rule} {rs : List Rule} : considers r = true →
      e.matcher.Wants key u v r.conditions → Wants e key u v (r :: rs)
  | later {v : Visitor} {r : Rule} {rs : List Rule} {holds : Bool} : considers r = true →
      (e.matcher.holds r.conditions v).result = .ok holds →
      (holds && e.config.stopOnFirstMatch) = false →
      Wants e key u (e.matcher.holds r.conditions v).visitor rs → Wants e key u v (r :: rs)

theorem Wants.mem_calls {rs : List Rule} (h : e.Wants key u v rs) (hu : u.isLoaded key = false)
    {c : Call} (hc : c ∈ (e.matcher.fetch key u).calls) : c ∈ (e.matching rs v).calls := by
  induction h with
  | skip hconsiders _ ih =>
    rw [matching, hconsiders]
    exact ih
  | here hconsiders h =>
    rw [matching, if_pos hconsiders]
    apply Run.mem_calls_bind_left
    apply Run.mem_calls_bind_left
    rw [(Matcher.trace_apply ..).1]
    exact h.mem_calls hu hc ∅
  | @later v r rs holds hconsiders hholds hstop _ ih =>
    rw [matching, if_pos hconsiders]
    apply Run.mem_calls_bind_right hholds
    cases holds with
    | false => exact ih
    | true =>
      refine Run.mem_calls_bind_right (x := Run.visitor) rfl ?_
      refine Run.mem_calls_bind_right (x := Run.notice _) rfl ?_
      rw [if_neg (by simpa using hstop)]
      exact Run.mem_calls_bind_left ih

end Engine

end Targeting
