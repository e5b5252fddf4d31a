import Targeting.Matcher
import Mathlib.Data.List.Basic

namespace Targeting

namespace Run

variable {x : Run α} {f : α → Run β} {v : Visitor} {a : α} {e : Fault}

theorem pure_apply : (Pure.pure a : Run α) v = ⟨.ok a, v, [], []⟩ := rfl

theorem bind_apply : (x >>= f) v = match (x v).result with
    | .error e => ⟨.error e, (x v).visitor, (x v).calls, (x v).notices⟩
    | .ok a => ⟨(f a (x v).visitor).result, (f a (x v).visitor).visitor,
        (x v).calls ++ (f a (x v).visitor).calls, (x v).notices ++ (f a (x v).visitor).notices⟩ :=
  rfl

theorem bind_of_ok (h : (x v).result = .ok a) :
    (x >>= f) v = ⟨(f a (x v).visitor).result, (f a (x v).visitor).visitor,
      (x v).calls ++ (f a (x v).visitor).calls, (x v).notices ++ (f a (x v).visitor).notices⟩ := by
  rw [bind_apply, h]

theorem bind_of_error (h : (x v).result = .error e) :
    (x >>= f) v = ⟨.error e, (x v).visitor, (x v).calls, (x v).notices⟩ := by
  rw [bind_apply, h]

theorem exists_of_bind_ok {b : β} (h : ((x >>= f) v).result = .ok b) :
    ∃ a, (x v).result = .ok a ∧ (f a (x v).visitor).result = .ok b := by
  cases hx : (x v).result with
  | error e =>
    rw [bind_of_error hx] at h
    cases h
  | ok a =>
    rw [bind_of_ok hx] at h
    exact ⟨a, rfl, h⟩

theorem lift_bind (x : Except Fault α) (f : α → Except Fault β) :
    (lift x >>= fun a => lift (f a)) = lift (x >>= f) := by
  cases x <;> rfl

theorem lift_pure (a : α) : lift (Pure.pure a) = Pure.pure a := rfl

theorem id_map (x : Run α) : id <$> x = x := by
  funext v
  rcases h : x v with ⟨_ | _, w, cs, ns⟩ <;> simp [Functor.map, bind, pure, h]

theorem pure_bind (a : α) (f : α → Run β) : (Pure.pure a >>= f) = f a := by
  funext v
  simp [bind_apply, pure_apply]

theorem bind_assoc (x : Run α) (f : α → Run β) (g : β → Run γ) :
    x >>= f >>= g = x >>= fun a => f a >>= g := by
  funext v
  simp only [bind_apply]
  cases hx : (x v).result with
  | error e => rfl
  | ok a =>
    cases hf : (f a (x v).visitor).result with
    | error e => simp [hf]
    | ok b => simp [hf]

theorem lawful : LawfulMonad Run := .mk' Run id_map pure_bind bind_assoc

end Run

def Outcome.fault? (o : Outcome α) : Option Fault :=
  match o.result with
  | .ok _ => none
  | .error e => some e

theorem Outcome.fault?_eq_some {o : Outcome α} {e : Fault} :
    o.fault? = some e ↔ o.result = .error e := by
  rw [fault?]
  cases o.result <;> simp

namespace Matcher

def answer (m : Matcher) (c : Call) : Except Fault Unit :=
  match c.action with
  | .build d => (m.build d).map fun _ => ()
  | .lookup key => (m.locate key).map fun _ => ()
  | .load key => (m.locate key).bind fun p => (p c.visitor).2
  | .judge _ => .ok ()

/-- The visitor after a call. Only a load writes, and what it wrote stays when it fails; the mark is
set when it does not. -/
def after (m : Matcher) (v : Visitor) : Action → Visitor
  | .load key =>
    match m.locate key with
    | .ok p =>
      match p v with
      | (w, .ok ()) => w.markLoaded key
      | (w, .error _) => w
    | .error _ => v
  | _ => v

@[simp] theorem after_build (m : Matcher) (v : Visitor) (d : Descriptor) :
    m.after v (.build d) = v := rfl

@[simp] theorem after_lookup (m : Matcher) (v : Visitor) (key : String) :
    m.after v (.lookup key) = v := rfl

@[simp] theorem after_judge (m : Matcher) (v : Visitor) (c : Condition) :
    m.after v (.judge c) = v := rfl

def afterAll (m : Matcher) (v : Visitor) (cs : List Call) : Visitor :=
  cs.foldl (fun w c => m.after w c.action) v

/-- Each call is given the visitor as the one before left it, and is answered; one that is not is
the last and its fault is the result. -/
inductive Logs (m : Matcher) : Visitor → List Call → Visitor → Option Fault → Prop
  | nil {v : Visitor} : Logs m v [] v none
  | failed {v : Visitor} {a : Action} {e : Fault} : m.answer ⟨a, v⟩ = .error e →
      Logs m v [⟨a, v⟩] (m.after v a) (some e)
  | cons {v w : Visitor} {a : Action} {cs : List Call} {f : Option Fault} :
      m.answer ⟨a, v⟩ = .ok () → Logs m (m.after v a) cs w f → Logs m v (⟨a, v⟩ :: cs) w f

namespace Logs

variable {m : Matcher} {v w x : Visitor} {cs ds : List Call} {f : Option Fault}

theorem append (h : Logs m v cs w none) (h' : Logs m w ds x f) : Logs m v (cs ++ ds) x f := by
  generalize hnone : (none : Option Fault) = g at h
  induction h with
  | nil => exact h'
  | failed => cases hnone
  | cons ha _ ih => exact .cons ha (ih h' hnone)

theorem eq_afterAll (h : Logs m v cs w f) : w = m.afterAll v cs := by
  induction h with
  | nil => rfl
  | failed => rfl
  | cons _ _ ih => exact ih

theorem tail {b : Call} (h : Logs m v (b :: cs) w f) (hcs : cs ≠ []) :
    Logs m (m.after v b.action) cs w f := by
  cases h with
  | failed => exact absurd rfl hcs
  | cons _ h => exact h

theorem visitor_eq {c : Call} (h : Logs m v (cs ++ c :: ds) w f) :
    c.visitor = m.afterAll v cs := by
  induction cs generalizing v with
  | nil => cases h <;> rfl
  | cons b cs ih => exact ih (h.tail (by simp))

theorem of_answer_error {c : Call} {e : Fault} (h : Logs m v (cs ++ c :: ds) w f)
    (he : m.answer c = .error e) : ds = [] ∧ f = some e := by
  induction cs generalizing v with
  | nil =>
    cases h with
    | failed h =>
      cases he.symm.trans h
      exact ⟨rfl, rfl⟩
    | cons h _ => cases he.symm.trans h
  | cons b cs ih => exact ih (h.tail (by simp))

theorem answer_ok {c : Call} (h : Logs m v cs w none) (hc : c ∈ cs) : m.answer c = .ok () := by
  obtain ⟨pre, post, rfl⟩ := List.append_of_mem hc
  cases hans : m.answer c with
  | ok => rfl
  | error e => cases (h.of_answer_error hans).2

theorem exists_answer_error {e : Fault} (h : Logs m v cs w (some e)) :
    ∃ c ∈ cs, m.answer c = .error e := by
  generalize hsome : some e = g at h
  induction h with
  | nil => cases hsome
  | failed ha =>
    cases hsome
    exact ⟨_, by simp, ha⟩
  | cons _ _ ih =>
    obtain ⟨c, hc, he⟩ := ih hsome
    exact ⟨c, List.mem_cons_of_mem _ hc, he⟩

end Logs

def Logged (m : Matcher) (x : Run α) : Prop :=
  ∀ v, Logs m v (x v).calls (x v).visitor (x v).fault?

namespace Logged

variable {m : Matcher}

theorem pure (a : α) : m.Logged (Pure.pure a : Run α) := fun _ => .nil

theorem visitor : m.Logged Run.visitor := fun _ => .nil

theorem judge (c : Condition) : m.Logged (Run.call (.judge c)) := fun _ => .cons rfl .nil

theorem bind {x : Run α} {f : α → Run β} (hx : m.Logged x) (hf : ∀ a, m.Logged (f a)) :
    m.Logged (x >>= f) := by
  intro v
  have hx := hx v
  cases h : (x v).result with
  | error e =>
    rw [Run.bind_of_error h]
    simpa [Outcome.fault?, h] using hx
  | ok a =>
    rw [Run.bind_of_ok h]
    rw [Outcome.fault?, h] at hx
    exact hx.append (hf a (x v).visitor)

end Logged

section

variable {m : Matcher}

theorem require_cases (m : Matcher) (key : String) (v : Visitor) :
    (m.policy = .oncePerVisitor ∧ v.isLoaded key = true ∧
      m.require key v = ⟨.ok (), v, [], []⟩) ∨
    (∃ e, m.locate key = .error e ∧
      m.require key v = ⟨.error e, v, [⟨.lookup key, v⟩], []⟩) ∨
    (∃ p w e, m.locate key = .ok p ∧ p v = (w, .error e) ∧
      m.require key v = ⟨.error e, w, [⟨.lookup key, v⟩, ⟨.load key, v⟩], []⟩) ∨
    (∃ p w, m.locate key = .ok p ∧ p v = (w, .ok ()) ∧
      m.require key v =
        ⟨.ok (), w.markLoaded key, [⟨.lookup key, v⟩, ⟨.load key, v⟩], []⟩) := by
  by_cases hskip : m.policy = .oncePerVisitor ∧ v.isLoaded key = true
  · refine .inl ⟨hskip.1, hskip.2, ?_⟩
    simp [require, Run.bind_apply, Run.pure_apply, Run.visitor, hskip]
  · refine .inr ?_
    cases hlocate : m.locate key with
    | error e =>
      refine .inl ⟨e, rfl, ?_⟩
      simp [require, Run.bind_apply, Run.visitor, Run.call, Run.lift, hskip, hlocate]
    | ok p =>
      refine .inr ?_
      rcases hload : p v with ⟨w, _ | _⟩
      · refine .inl ⟨p, w, _, rfl, hload, ?_⟩
        simp [require, Run.bind_apply, Run.visitor, Run.call, Run.lift, Run.provide, hskip,
          hlocate, hload]
      · refine .inr ⟨p, w, rfl, hload, ?_⟩
        simp [require, Run.bind_apply, Run.visitor, Run.call, Run.lift, Run.provide, Run.modify,
          hskip, hlocate, hload]

def fetch (m : Matcher) (key : String) : Run Unit := do
  Run.call (.lookup key)
  let p ← Run.lift (m.locate key)
  Run.call (.load key)
  Run.provide p
  Run.modify (·.markLoaded key)

theorem require_apply (m : Matcher) (key : String) (v : Visitor) :
    m.require key v =
      if m.policy = .oncePerVisitor ∧ v.isLoaded key = true then ⟨.ok (), v, [], []⟩
      else m.fetch key v := by
  by_cases h : m.policy = .oncePerVisitor ∧ v.isLoaded key = true
  · simp [require, Run.bind_apply, Run.pure_apply, Run.visitor, h]
  · simp [require, fetch, Run.bind_apply, Run.visitor, h]

theorem Logged.require (key : String) : m.Logged (m.require key) := by
  intro v
  rcases m.require_cases key v with ⟨-, -, h⟩ | ⟨e, hlocate, h⟩ | ⟨p, w, e, hlocate, hload, h⟩ |
    ⟨p, w, hlocate, hload, h⟩
  · rw [h]
    exact .nil
  · rw [h]
    exact .failed (by simp [answer, hlocate, Except.map])
  · obtain rfl : m.after v (.load key) = w := by simp [after, hlocate, hload]
    rw [h]
    apply Logs.cons
    · simp [answer, hlocate, Except.map]
    · exact .failed (by simp [answer, hlocate, hload, Except.bind])
  · have hafter : m.after v (.load key) = w.markLoaded key := by simp [after, hlocate, hload]
    rw [h, ← hafter]
    apply Logs.cons
    · simp [answer, hlocate, Except.map]
    · exact .cons (by simp [answer, hlocate, hload, Except.bind]) .nil

theorem Logged.requireAll (keys : List String) : m.Logged (m.requireAll keys) := by
  induction keys with
  | nil => exact .pure ()
  | cons key keys ih => exact .bind (.require key) fun _ => ih

def KeepsMarks (m : Matcher) : Prop :=
  ∀ key p v k, m.locate key = .ok p → v.isLoaded k = true → (p v).1.isLoaded k = true

theorem isLoaded_markLoaded (v : Visitor) (key k : String) :
    (v.markLoaded key).isLoaded k = (k == key || v.isLoaded k) := by
  simp only [Visitor.isLoaded, Visitor.markLoaded, Table.contains, Table.get?_insert]
  by_cases h : k = key <;> simp [h]

theorem isLoaded_require (hm : m.KeepsMarks) {key : String} {v : Visitor}
    (hok : (m.require key v).result = .ok ()) {k : String} (hk : k = key ∨ v.isLoaded k = true) :
    (m.require key v).visitor.isLoaded k = true := by
  rcases m.require_cases key v with ⟨-, hloaded, h⟩ | ⟨e, _, h⟩ | ⟨p, w, e, _, _, h⟩ |
    ⟨p, w, hlocate, hload, h⟩
  · rw [h]
    rcases hk with rfl | hk
    · exact hloaded
    · exact hk
  · simp [h] at hok
  · simp [h] at hok
  · rw [h, isLoaded_markLoaded]
    rcases hk with rfl | hk
    · simp
    · have := hm key p v k hlocate hk
      rw [hload] at this
      simp [this]

theorem isLoaded_requireAll (hm : m.KeepsMarks) {keys : List String} {v : Visitor}
    (hok : (m.requireAll keys v).result = .ok ()) {k : String}
    (hk : k ∈ keys ∨ v.isLoaded k = true) :
    (m.requireAll keys v).visitor.isLoaded k = true := by
  induction keys generalizing v with
  | nil => simpa [requireAll, Run.pure_apply] using hk
  | cons key keys ih =>
    rw [requireAll] at hok ⊢
    obtain ⟨_, hkey, hkeys⟩ := Run.exists_of_bind_ok hok
    rw [Run.bind_of_ok hkey]
    apply ih hkeys
    rcases hk with hk | hk
    · rcases List.mem_cons.1 hk with rfl | hk
      · exact .inr (isLoaded_require hm hkey (.inl rfl))
      · exact .inl hk
    · exact .inr (isLoaded_require hm hkey (.inr hk))

def fetches (key : String) : List Action := [.lookup key, .load key]

theorem actions_require (hm : m.policy = .everyCondition) {key : String} {v : Visitor}
    (hok : (m.require key v).result = .ok ()) :
    (m.require key v).calls.map Call.action = fetches key := by
  rcases m.require_cases key v with ⟨honce, -, h⟩ | ⟨e, _, h⟩ | ⟨p, w, e, _, _, h⟩ |
    ⟨p, w, hlocate, hload, h⟩
  · cases hm.symm.trans honce
  · simp [h] at hok
  · simp [h] at hok
  · rw [h]
    rfl

theorem actions_requireAll (hm : m.policy = .everyCondition) {keys : List String} {v : Visitor}
    (hok : (m.requireAll keys v).result = .ok ()) :
    (m.requireAll keys v).calls.map Call.action = keys.flatMap fetches := by
  induction keys generalizing v with
  | nil => rfl
  | cons key keys ih =>
    rw [requireAll] at hok ⊢
    obtain ⟨_, hkey, hkeys⟩ := Run.exists_of_bind_ok hok
    rw [Run.bind_of_ok hkey]
    rw [List.map_append, actions_require hm hkey, ih hkeys, List.flatMap_cons]

theorem mem_fetches_requireAll {keys : List String} {v : Visitor} {c : Call}
    (hc : c ∈ (m.requireAll keys v).calls) : ∃ key ∈ keys, c.action ∈ fetches key := by
  induction keys generalizing v with
  | nil => cases hc
  | cons key keys ih =>
    have head : ∀ c ∈ (m.require key v).calls, c.action ∈ fetches key := by
      rcases m.require_cases key v with ⟨-, -, h⟩ | ⟨e, -, h⟩ | ⟨p, w, e, -, -, h⟩ | ⟨p, w, -, -, h⟩
        <;> simp [h, fetches]
    rw [requireAll] at hc
    cases hkey : (m.require key v).result with
    | error e =>
      rw [Run.bind_of_error hkey] at hc
      exact ⟨key, by simp, head c hc⟩
    | ok =>
      rw [Run.bind_of_ok hkey] at hc
      rcases List.mem_append.1 hc with hc | hc
      · exact ⟨key, by simp, head c hc⟩
      · obtain ⟨k, hk, hc⟩ := ih hc
        exact ⟨k, List.mem_cons_of_mem _ hk, hc⟩

def ask (m : Matcher) (c : Condition) : Run Bool := do
  if c.configured then
    m.requireAll (c.requires.getD [])
    Run.call (.judge c)
    return c.holds (← Run.visitor)
  else return true

section

variable {d : Descriptor} {c : Condition} {v : Visitor} {e : Fault}

theorem decide_of_error (h : m.build d = .error e) :
    m.decide d v = ⟨.error e, v, [⟨.build d, v⟩], []⟩ := by
  simp [decide, Run.bind_apply, Run.call, Run.lift, h]

theorem decide_of_ok (h : m.build d = .ok c) :
    m.decide d v = ⟨(m.ask c v).result, (m.ask c v).visitor, ⟨.build d, v⟩ :: (m.ask c v).calls,
      (m.ask c v).notices⟩ := by
  simp [decide, ask, Run.bind_apply, Run.call, Run.lift, h]

theorem ask_of_unconfigured (h : c.configured = false) : m.ask c v = ⟨.ok true, v, [], []⟩ := by
  simp [ask, h, Run.pure_apply]

theorem ask_of_error (h : c.configured = true)
    (he : (m.requireAll (c.requires.getD []) v).result = .error e) :
    (m.ask c v).calls = (m.requireAll (c.requires.getD []) v).calls := by
  rw [ask, if_pos h, Run.bind_of_error he]

theorem ask_of_ok (h : c.configured = true)
    (hok : (m.requireAll (c.requires.getD []) v).result = .ok ()) :
    (m.ask c v).calls = (m.requireAll (c.requires.getD []) v).calls ++
      [⟨.judge c, (m.requireAll (c.requires.getD []) v).visitor⟩] := by
  rw [ask, if_pos h, Run.bind_of_ok hok]
  rfl

theorem Logged.ask (c : Condition) : m.Logged (m.ask c) := by
  rw [Matcher.ask]
  split
  · apply Logged.bind (.requireAll _)
    intro _
    apply Logged.bind (.judge c)
    intro _
    exact .bind .visitor fun v => .pure (c.holds v)
  · exact .pure true

theorem Logged.decide (d : Descriptor) : m.Logged (m.decide d) := by
  intro v
  cases hbuild : m.build d with
  | error e =>
    rw [decide_of_error hbuild]
    exact .failed (by simp [answer, hbuild, Except.map])
  | ok c =>
    rw [decide_of_ok hbuild]
    apply Logs.cons
    · simp [answer, hbuild, Except.map]
    · exact Logged.ask c v

theorem Logged.assemble (a : Assembly) (ds : List Descriptor) : m.Logged (m.assemble a ds) := by
  induction ds generalizing a with
  | nil => exact .pure a
  | cons d ds ih => exact .bind (.decide d) fun _ => ih _

end

def built (cs : List Call) : List Descriptor := cs.filterMap fun c =>
  match c.action with
  | .build d => some d
  | _ => none

theorem built_append (cs ds : List Call) : built (cs ++ ds) = built cs ++ built ds :=
  List.filterMap_append

theorem built_requireAll (keys : List String) (v : Visitor) :
    built (m.requireAll keys v).calls = [] := by
  rw [built, List.filterMap_eq_nil_iff]
  intro c hc
  obtain ⟨key, -, hc⟩ := mem_fetches_requireAll hc
  simp only [fetches, List.mem_cons, List.not_mem_nil, or_false] at hc
  rcases hc with hc | hc <;> rw [hc]

theorem built_ask (c : Condition) (v : Visitor) : built (m.ask c v).calls = [] := by
  cases hconf : c.configured with
  | false =>
    rw [ask_of_unconfigured hconf]
    rfl
  | true =>
    cases hreq : (m.requireAll (c.requires.getD []) v).result with
    | error e => rw [ask_of_error hconf hreq, built_requireAll]
    | ok =>
      rw [ask_of_ok hconf hreq, built_append, built_requireAll]
      rfl

theorem built_decide (d : Descriptor) (v : Visitor) : built (m.decide d v).calls = [d] := by
  cases hbuild : m.build d with
  | error e =>
    rw [decide_of_error hbuild]
    rfl
  | ok c =>
    rw [decide_of_ok hbuild]
    exact congrArg (d :: ·) (built_ask c v)

theorem built_assemble (a : Assembly) (ds : List Descriptor) (v : Visitor) :
    built (m.assemble a ds v).calls <+: ds := by
  induction ds generalizing a v with
  | nil => exact List.prefix_rfl
  | cons d ds ih =>
    rw [assemble]
    cases hd : (m.decide d v).result with
    | error e =>
      rw [Run.bind_of_error hd, built_decide]
      exact ⟨ds, rfl⟩
    | ok outcome =>
      rw [Run.bind_of_ok hd, built_append, built_decide]
      exact (List.prefix_cons_inj d).2 (ih ..)

theorem assemble_of_ok {a b : Assembly} {ds : List Descriptor} {v : Visitor}
    (h : (m.assemble a ds v).result = .ok b) :
    built (m.assemble a ds v).calls = ds ∧ ∃ outcomes : List Bool,
      outcomes.length = ds.length ∧
        b = (ds.zip outcomes).foldl (fun a t => (a.push t.1 t.2).1) a := by
  induction ds generalizing a v with
  | nil =>
    cases h
    exact ⟨rfl, [], rfl, rfl⟩
  | cons d ds ih =>
    rw [assemble] at h ⊢
    obtain ⟨outcome, hd, hds⟩ := Run.exists_of_bind_ok h
    obtain ⟨hbuilt, outcomes, hlen, rfl⟩ := ih hds
    rw [Run.bind_of_ok hd]
    refine ⟨?_, outcome :: outcomes, by simp [hlen], rfl⟩
    rw [built_append, built_decide, hbuilt]
    rfl

/-- The condition was built, and since then what it requires was seen to. -/
def Ready (m : Matcher) (pre : List Call) (c : Condition) (w : Visitor) : Prop :=
  ∃ pre' d u mid, pre = pre' ++ ⟨.build d, u⟩ :: mid ∧ m.build d = .ok c ∧
    (m.KeepsMarks → ∀ k ∈ c.requires.getD [], w.isLoaded k = true) ∧
    (m.policy = .everyCondition →
      mid.map Call.action = (c.requires.getD []).flatMap fetches ∧
        ∀ b ∈ mid, m.answer b = .ok ())

theorem Ready.append_left {pre : List Call} {c : Condition} {w : Visitor} (h : m.Ready pre c w)
    (cs : List Call) : m.Ready (cs ++ pre) c w := by
  obtain ⟨pre', d, u, mid, rfl, h⟩ := h
  exact ⟨cs ++ pre', d, u, mid, by simp, h⟩

theorem append_eq_append_cons {xs ys pre post : List α} {a : α} (h : xs ++ ys = pre ++ a :: post) :
    (∃ post', xs = pre ++ a :: post') ∨ ∃ pre', pre = xs ++ pre' ∧ ys = pre' ++ a :: post := by
  rcases List.append_eq_append_iff.1 h with ⟨zs, rfl, rfl⟩ | ⟨zs, rfl, hzs⟩
  · exact .inr ⟨zs, rfl, rfl⟩
  · cases zs with
    | nil => exact .inr ⟨[], by simp, hzs.symm⟩
    | cons z zs =>
      obtain ⟨rfl, -⟩ := List.cons.inj hzs
      exact .inl ⟨zs, rfl⟩

theorem requireAll_ne_judge {keys : List String} {v w : Visitor} {c : Condition}
    {pre post : List Call} : (m.requireAll keys v).calls ≠ pre ++ ⟨.judge c, w⟩ :: post := by
  intro h
  have hmem : ⟨.judge c, w⟩ ∈ (m.requireAll keys v).calls := by simp [h]
  obtain ⟨key, -, hkey⟩ := mem_fetches_requireAll hmem
  simp [fetches] at hkey

theorem of_judge_ask {c c' : Condition} {v w : Visitor} {pre post : List Call}
    (h : (m.ask c v).calls = pre ++ ⟨.judge c', w⟩ :: post) :
    c' = c ∧ (m.requireAll (c.requires.getD []) v).result = .ok () ∧
      pre = (m.requireAll (c.requires.getD []) v).calls ∧
      w = (m.requireAll (c.requires.getD []) v).visitor := by
  cases hconf : c.configured with
  | false => simp [ask_of_unconfigured hconf] at h
  | true =>
    cases hreq : (m.requireAll (c.requires.getD []) v).result with
    | error e =>
      rw [ask_of_error hconf hreq] at h
      exact absurd h requireAll_ne_judge
    | ok =>
      rw [ask_of_ok hconf hreq] at h
      -- no provider is fetched by asking, so this is the call behind all of them
      rcases append_eq_append_cons h with ⟨post', hcalls⟩ | ⟨pre', rfl, hcalls⟩
      · exact absurd hcalls requireAll_ne_judge
      · cases pre' with
        | nil =>
          cases hcalls
          exact ⟨rfl, rfl, by simp, rfl⟩
        | cons b pre' => simp at hcalls

theorem ready_decide {d : Descriptor} {c : Condition} {v w : Visitor} {pre post : List Call}
    (h : (m.decide d v).calls = pre ++ ⟨.judge c, w⟩ :: post) : m.Ready pre c w := by
  cases hbuild : m.build d with
  | error e =>
    rw [decide_of_error hbuild] at h
    cases pre <;> simp at h
  | ok c' =>
    rw [decide_of_ok hbuild] at h
    cases pre with
    | nil => cases h
    | cons b pre =>
      obtain ⟨rfl, hask⟩ := List.cons.inj h
      obtain ⟨rfl, hok, rfl, rfl⟩ := of_judge_ask hask
      refine ⟨[], d, v, _, rfl, hbuild, ?_, ?_⟩
      · exact fun hm k hk => isLoaded_requireAll hm hok (.inl hk)
      · intro hm
        have hlogs := Logged.requireAll (m := m) (c.requires.getD []) v
        rw [Outcome.fault?, hok] at hlogs
        exact ⟨actions_requireAll hm hok, fun b hb => hlogs.answer_ok hb⟩

theorem ready_assemble {a : Assembly} {ds : List Descriptor} {c : Condition} {v w : Visitor}
    {pre post : List Call} (h : (m.assemble a ds v).calls = pre ++ ⟨.judge c, w⟩ :: post) :
    m.Ready pre c w := by
  induction ds generalizing a v pre with
  | nil => simp [assemble, Run.pure_apply] at h
  | cons d ds ih =>
    rw [assemble] at h
    cases hd : (m.decide d v).result with
    | error e =>
      rw [Run.bind_of_error hd] at h
      exact ready_decide h
    | ok outcome =>
      rw [Run.bind_of_ok hd] at h
      rcases append_eq_append_cons h with ⟨post', hhead⟩ | ⟨pre', rfl, htail⟩
      · exact ready_decide hhead
      · exact (ih htail).append_left _

def conclude (a : Assembly) : Except Fault Trace := do
  let e ← a.finish
  let result ← e.eval
  return ⟨e.source, e.ordered, result⟩

theorem trace_eq (m : Matcher) (ds : List Descriptor) :
    m.trace ds = m.assemble ∅ ds >>= fun a => Run.lift (conclude a) := by
  simp only [trace, conclude, ← Run.lift_bind, ← Run.lift_pure]

theorem trace_apply (m : Matcher) (ds : List Descriptor) (v : Visitor) :
    (m.trace ds v).calls = (m.assemble ∅ ds v).calls ∧
      (m.trace ds v).visitor = (m.assemble ∅ ds v).visitor ∧
      (m.trace ds v).result = (m.assemble ∅ ds v).result >>= conclude := by
  rw [trace_eq]
  cases h : (m.assemble ∅ ds v).result with
  | error e =>
    rw [Run.bind_of_error h]
    exact ⟨rfl, rfl, rfl⟩
  | ok a =>
    rw [Run.bind_of_ok h]
    exact ⟨List.append_nil _, rfl, rfl⟩

end

structure Sequential (m : Matcher) (ds : List Descriptor) (v : Visitor) (o : Outcome Trace) :
    Prop where
  builds : built o.calls <+: ds
  complete : (∀ c ∈ o.calls, ∀ e, m.answer c = .error e → o.result ≠ .error e) →
    built o.calls = ds ∧ ∃ outcomes : List Bool, outcomes.length = ds.length ∧
      o.result = conclude (.ofTerms (ds.zip outcomes))
  ready : ∀ pre c w post, o.calls = pre ++ ⟨.judge c, w⟩ :: post → m.Ready pre c w
  stops : ∀ pre c post e, o.calls = pre ++ c :: post → m.answer c = .error e →
    post = [] ∧ o.result = .error e
  visitor : ∀ pre c post, o.calls = pre ++ c :: post → c.visitor = m.afterAll v pre
  leaves : o.visitor = m.afterAll v o.calls

/-- Neither operators nor outcomes leave a condition out, and nothing follows a fault. -/
theorem trace_sequential (m : Matcher) (ds : List Descriptor) (v : Visitor) :
    m.Sequential ds v (m.trace ds v) := by
  obtain ⟨hcalls, hvisitor, hresult⟩ := m.trace_apply ds v
  have hlogs := Logged.assemble (m := m) ∅ ds v
  constructor
  case builds =>
    rw [hcalls]
    exact built_assemble ∅ ds v
  case complete =>
    intro hnone
    cases h : (m.assemble ∅ ds v).result with
    | error e =>
      -- only a call can fail before the expression
      rw [h] at hresult
      obtain ⟨c, hc, he⟩ := Logs.exists_answer_error (Outcome.fault?_eq_some.2 h ▸ hlogs)
      exact absurd hresult (hnone c (hcalls ▸ hc) e he)
    | ok a =>
      rw [h] at hresult
      obtain ⟨hbuilt, outcomes, hlen, rfl⟩ := assemble_of_ok h
      exact ⟨hcalls ▸ hbuilt, outcomes, hlen, hresult⟩
  case ready =>
    intro pre c w post h
    exact ready_assemble (hcalls ▸ h)
  case stops =>
    intro pre c post e h he
    rw [hcalls] at h
    rw [h] at hlogs
    obtain ⟨hpost, hfault⟩ := hlogs.of_answer_error he
    refine ⟨hpost, ?_⟩
    rw [hresult, Outcome.fault?_eq_some.1 hfault]
    rfl
  case visitor =>
    intro pre c post h
    rw [hcalls] at h
    rw [h] at hlogs
    exact hlogs.visitor_eq
  case leaves =>
    rw [hcalls, hvisitor]
    exact hlogs.eq_afterAll

theorem trace_sequential_aborted :
    let m : Matcher := ⟨fun d => .ok ⟨true, (·.has d.type), some [d.type]⟩,
      fun key => .ok fun v =>
        if key = "geo" then (v.set "tried" (.bool true), .error (.providerFailed key "down"))
        else (v.set key (.string "de"), .ok ()), .oncePerVisitor⟩
    let v := Visitor.ofId (some "7")
    let w := (v.set "language" (.string "de")).markLoaded "language"
    let o := m.trace [.ofType "language", .ofType "geo", .ofType "browser"] v
    m.KeepsMarks ∧ built o.calls = [.ofType "language", .ofType "geo"] ∧
    (∃ pre c post, o.calls = pre ++ ⟨.judge c, w⟩ :: post ∧ w.isLoaded "language" = true) ∧
    o.result = .error (.providerFailed "geo" "down") ∧ o.visitor = w.set "tried" (.bool true) := by
  intro m v w o
  have keeps : m.KeepsMarks := by
    intro key p u k hp hk
    cases hp
    by_cases h : key = "geo" <;> simpa [h, Visitor.set, Visitor.isLoaded] using hk
  let before : List Call := [⟨.build (.ofType "language"), v⟩, ⟨.lookup "language", v⟩,
    ⟨.load "language", v⟩]
  let behind : List Call := [⟨.build (.ofType "geo"), w⟩, ⟨.lookup "geo", w⟩]
  let judge : Call := ⟨.judge ⟨true, (·.has "language"), some ["language"]⟩, w⟩
  have calls : o.calls = before ++ judge :: (behind ++ [⟨.load "geo", w⟩]) := by
    rw [(m.trace_apply _ _).1]
    rfl
  have sequential : m.Sequential _ v o := m.trace_sequential _ v
  obtain ⟨_, _, _, _, _, _, loaded, _⟩ := sequential.ready _ _ _ _ calls
  have stopped := sequential.stops (before ++ judge :: behind) ⟨.load "geo", w⟩ [] _ calls rfl
  have marked : w.isLoaded "language" = true := loaded keeps "language" (by simp)
  refine ⟨keeps, ?_, ⟨_, _, _, calls, marked⟩, stopped.2, ?_⟩
  · rw [calls]
    rfl
  · rw [sequential.leaves, calls]
    rfl

end Matcher

end Targeting
