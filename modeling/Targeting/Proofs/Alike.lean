import Mathlib
import Targeting.Proofs.Closure

namespace Targeting

attribute [local instance] Run.lawful

namespace Run

def seen (view : Call → Option Call) (x : Run α) : Run α := fun v =>
  { x v with calls := (x v).calls.filterMap view }

variable {view : Call → Option Call}

@[simp] theorem seen_pure (a : α) : (Pure.pure a : Run α).seen view = Pure.pure a := rfl

@[simp] theorem seen_bind (x : Run α) (f : α → Run β) :
    (x >>= f).seen view = x.seen view >>= fun a => (f a).seen view := by
  funext v
  cases h : (x v).result with
  | error e => simp [seen, bind_apply, h]
  | ok a => simp [seen, bind_apply, h]

@[simp] theorem seen_map (f : α → β) (x : Run α) : (f <$> x).seen view = f <$> x.seen view := by
  simp only [← bind_pure_comp, seen_bind, seen_pure]

theorem closed_seen (view : Call → Option Call) :
    Closed fun x y => x.seen view = y.seen view where
  pure _ := rfl
  bind hx hf := by simp [hx, hf]
  lift _ := rfl
  announce _ := rfl

theorem result_of_seen {x y : Run α} (h : x.seen view = y.seen view) (v : Visitor) :
    (x v).result = (y v).result := by
  change (x.seen view v).result = _
  rw [h]
  rfl

theorem visitor_of_seen {x y : Run α} (h : x.seen view = y.seen view) (v : Visitor) :
    (x v).visitor = (y v).visitor := by
  change (x.seen view v).visitor = _
  rw [h]
  rfl

theorem calls_of_seen {x y : Run α} (h : x.seen view = y.seen view) (v : Visitor) :
    (x v).calls.filterMap view = (y v).calls.filterMap view := congrArg Outcome.calls (congrFun h v)

end Run

namespace Matcher

def outcomes (m : Matcher) : List Descriptor → Run (List Bool)
  | [] => return []
  | d :: ds => do
    let outcome ← m.decide d
    return outcome :: (← m.outcomes ds)

theorem assemble_eq (m : Matcher) (a : Assembly) (ds : List Descriptor) :
    m.assemble a ds = m.outcomes ds >>= fun os =>
      return (ds.zip os).foldl (fun a t => (a.push t.1 t.2).1) a := by
  induction ds generalizing a with
  | nil => simp [assemble, outcomes]
  | cons d ds ih => simp [assemble, outcomes, ih]

theorem trace_eq_outcomes (m : Matcher) (ds : List Descriptor) :
    m.trace ds = m.outcomes ds >>= fun os => Run.lift (conclude (.ofTerms (ds.zip os))) := by
  simp [trace_eq, assemble_eq, Assembly.ofTerms]

section

variable {view : Call → Option Call} {m n : Matcher} {R : Descriptor → Descriptor → Prop}

theorem seen_outcomes {ds ds' : List Descriptor}
    (h : ∀ d d', R d d' → (m.decide d).seen view = (n.decide d').seen view)
    (hds : List.Forall₂ R ds ds') : (m.outcomes ds).seen view = (n.outcomes ds').seen view := by
  induction hds with
  | nil => rfl
  | cons hd _ ih => simp [outcomes, h _ _ hd, ih]

theorem seen_trace (h : ∀ d, (m.decide d).seen view = (n.decide d).seen view)
    (ds : List Descriptor) : (m.trace ds).seen view = (n.trace ds).seen view :=
  (Run.closed_seen view).trace h ds

end

end Matcher

namespace Engine

variable {view : Call → Option Call} {e f : Engine}

theorem seen_evaluate (h : ∀ d, (e.matcher.decide d).seen view = (f.matcher.decide d).seen view)
    (hstop : e.config.stopOnFirstMatch = f.config.stopOnFirstMatch) (hrules : e.rules = f.rules)
    (hsegments : e.segments = f.segments) : e.evaluate.seen view = f.evaluate.seen view := by
  have hsegment : e.segment? = f.segment? := by
    funext id
    simp [segment?, hsegments]
  have hrecord : e.record = f.record := by
    funext v r
    simp [record, hsegment]
  simp [evaluate, (Run.closed_seen view).matching h hstop, hrules, hrecord]

end Engine

theorem Visitor.markLoaded_of_isLoaded {v : Visitor} {key : String} (h : v.isLoaded key) :
    v.markLoaded key = v := by
  have hloaded : v.loaded.insert key () = v.loaded := by
    apply Table.ext_get?
    intro k
    rw [Table.get?_insert]
    split
    case isTrue hk =>
      obtain ⟨u, hu⟩ := Option.isSome_iff_exists.1 h
      exact hk ▸ hu.symm
    case isFalse => rfl
  rw [markLoaded, hloaded]

namespace Matcher

/-- A provider that is loaded is found, and has nothing left to do. -/
def Idempotent (m : Matcher) : Prop :=
  ∀ key v, v.isLoaded key → ∃ p, m.locate key = .ok p ∧ p v = (v, .ok ())

def unseen : Call → Option Call := fun _ => none

theorem fetch_of_isLoaded {m : Matcher} (hm : m.Idempotent) {key : String} {v : Visitor}
    (h : v.isLoaded key) :
    m.fetch key v = ⟨.ok (), v, [⟨.lookup key, v⟩, ⟨.load key, v⟩], []⟩ := by
  obtain ⟨p, hlocate, hload⟩ := hm key v h
  simp [fetch, Run.bind_apply, Run.call, Run.lift, Run.provide, Run.modify, hlocate, hload,
    Visitor.markLoaded_of_isLoaded h]

@[simp] theorem policy_withPolicy (m : Matcher) (p : LoadPolicy) : (m.withPolicy p).policy = p :=
  rfl

@[simp] theorem fetch_withPolicy (m : Matcher) (p : LoadPolicy) (key : String) :
    (m.withPolicy p).fetch key = m.fetch key := rfl

theorem seen_require_once {m : Matcher} (hm : m.Idempotent) (key : String) :
    ((m.withPolicy .oncePerVisitor).require key).seen unseen =
      ((m.withPolicy .everyCondition).require key).seen unseen := by
  funext v
  by_cases h : v.isLoaded key
  · -- one run skips what the other fetches, and only the calls tell
    simp [Run.seen, require_apply, h, fetch_of_isLoaded hm h, unseen]
  · simp [Run.seen, require_apply, h]

theorem seen_decide_once {m : Matcher} (hm : m.Idempotent) (d : Descriptor) :
    ((m.withPolicy .oncePerVisitor).decide d).seen unseen =
      ((m.withPolicy .everyCondition).decide d).seen unseen := by
  have hQ := Run.closed_seen unseen
  have hask (c : Condition) := hQ.ask (seen_require_once hm) c rfl
  have hbuild : (m.withPolicy .oncePerVisitor).build = (m.withPolicy .everyCondition).build := rfl
  exact hQ.decide hbuild d rfl fun c _ => hask c

end Matcher

def Engine.withPolicy (e : Engine) (policy : LoadPolicy) : Engine :=
  { e with matcher := e.matcher.withPolicy policy, config := { e.config with policy } }

/-- Loading again what is loaded changes neither results nor visitors. -/
theorem Matcher.Idempotent.once_eq_every {m : Matcher} (hm : m.Idempotent) (v : Visitor) :
    (∀ ds, let once := (m.withPolicy .oncePerVisitor).trace ds v
      let every := (m.withPolicy .everyCondition).trace ds v
      once.result = every.result ∧ once.visitor = every.visitor) ∧
    ∀ e : Engine, e.matcher = m →
      let once := (e.withPolicy .oncePerVisitor).evaluate v
      let every := (e.withPolicy .everyCondition).evaluate v
      once.result = every.result ∧ once.visitor = every.visitor := by
  constructor
  · intro ds
    have h := seen_trace (seen_decide_once hm) ds
    exact ⟨Run.result_of_seen h v, Run.visitor_of_seen h v⟩
  · rintro e rfl
    have h := Engine.seen_evaluate (e := e.withPolicy .oncePerVisitor)
      (f := e.withPolicy .everyCondition) (seen_decide_once hm) rfl rfl rfl
    exact ⟨Run.result_of_seen h v, Run.visitor_of_seen h v⟩

theorem Matcher.Idempotent.once_eq_every_country :
    let m : Matcher := ⟨fun _ => .ok ⟨true, (·.has "country"), some ["geo"]⟩,
      fun key => .ok fun v =>
        (if v.isLoaded key then v else v.set "country" (.string "AT"), .ok ()), .everyCondition⟩
    let ds : List Descriptor := [.ofType "country", .ofType "country"]
    let once := (m.withPolicy .oncePerVisitor).trace ds .anonymous
    let every := (m.withPolicy .everyCondition).trace ds .anonymous
    m.Idempotent ∧ once.result = every.result ∧ once.visitor = every.visitor ∧
      once.calls.length = 6 ∧ every.calls.length = 8 := by
  intro m ds once every
  have idempotent : m.Idempotent := by
    intro key v h
    exact ⟨_, rfl, by simp [h]⟩
  have ⟨hresult, hvisitor⟩ := (idempotent.once_eq_every .anonymous).1 ds
  exact ⟨idempotent, hresult, hvisitor, by cbv, by cbv⟩

end Targeting
