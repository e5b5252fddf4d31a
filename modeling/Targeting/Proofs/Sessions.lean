import Targeting.Proofs.Ledger
import Targeting.Proofs.Marks

namespace Targeting

inductive Edit
  | withData : Table Value → Edit
  | set : (key : String) → Value → Edit
  | erase : (key : String) → Edit
  | addRule : Rule → Edit
  | withRules : List Rule → Edit
  | addSegment : Segment → Edit
  | withSegments : List Segment → Edit
  | markLoaded : (key : String) → Edit

def Edit.apply (v : Visitor) : Edit → Visitor
  | .withData data => v.withData data
  | .set k x => v.set k x
  | .erase k => v.erase k
  | .addRule r => v.addRule r
  | .withRules rs => v.withRules rs
  | .addSegment s => v.addSegment s
  | .withSegments ss => v.withSegments ss
  | .markLoaded key => v.markLoaded key

theorem Edit.isLoaded_apply (e : Edit) {v : Visitor} {key : String} (h : v.isLoaded key = true) :
    (e.apply v).isLoaded key = true := by
  cases e with
  | markLoaded k => simp [apply, Matcher.isLoaded_markLoaded, h]
  | _ => exact h

structure Asked where
  matcher : Matcher
  call : Call

namespace Asked

def loads (key : String) (a : Asked) : Bool :=
  match a.call.action with
  | .load k => k == key && (a.matcher.answer a.call).isOk
  | _ => false

def Fetches (key : String) (a : Asked) : Prop := a.call.action ∈ Matcher.fetches key

theorem loads_iff {key : String} {a : Asked} :
    a.loads key = true ↔ a.call.action = .load key ∧ a.matcher.answer a.call = .ok () := by
  unfold loads
  split
  case h_1 k hk =>
    cases a.matcher.answer a.call <;> simp [hk, Except.isOk, Except.toBool]
  case h_2 hk =>
    have : a.call.action ≠ .load key := hk key
    simp [this]

end Asked

inductive Step
  | trace : Matcher → List Descriptor → Step
  | holds : Matcher → List Descriptor → Step
  | request : Request → Step
  | edit : Edit → Step

namespace Step

def matcher? : Step → Option Matcher
  | trace m _ => some m
  | holds m _ => some m
  | request q => some q.engine.matcher
  | edit _ => none

def run : Step → Run Unit
  | trace m ds => (fun _ => ()) <$> m.trace ds
  | holds m ds => (fun _ => ()) <$> m.holds ds
  | request (.evaluate e) => (fun _ => ()) <$> e.evaluate
  | request (.holds e ds) => (fun _ => ()) <$> e.holds ds
  | edit e => Run.modify e.apply

def Wants (key : String) (u v : Visitor) : Step → Prop
  | trace m ds => m.Wants key u v ds
  | holds m ds => m.Wants key u v ds
  | request (.evaluate e) => e.Wants key u v e.rules
  | request (.holds e ds) => e.matcher.Wants key u v ds
  | edit _ => False

/-- Makes the calls of `x` and fails where it does, and sets no mark of its own. -/
structure Completes (x : Run α) (y : Run Unit) : Prop where
  calls : ∀ v, (y v).calls = (x v).calls
  loaded : ∀ v, (y v).visitor.loaded = (x v).visitor.loaded
  failed : ∀ v e, (x v).result = .error e →
    (y v).result = .error e ∧ (y v).visitor = (x v).visitor

theorem completes_map (x : Run α) : Completes x ((fun _ => ()) <$> x) where
  calls v := by rw [Run.map_apply]
  loaded v := by rw [Run.map_apply]
  failed v e h := by
    rw [Run.map_apply, h]
    exact ⟨rfl, rfl⟩

theorem completes_evaluate (e : Engine) :
    Completes (e.matching e.rules) (request (.evaluate e)).run where
  calls v := by rw [run, Run.map_apply, Engine.calls_evaluate]
  loaded v := by
    rw [run, Run.map_apply]
    cases h : (e.matching e.rules v).result with
    | error fault => rw [Engine.evaluate_of_error h]
    | ok rs => rw [Engine.evaluate_of_ok h, Engine.foldl_record]
  failed v fault h := by
    rw [run, Run.map_apply, Engine.evaluate_of_error h]
    exact ⟨rfl, rfl⟩

theorem exists_completes {Q : ∀ {α : Type}, Run α → Prop} (hQ : Run.Closed fun x _ => Q x)
    {s : Step} {m : Matcher} (hs : s.matcher? = some m) (hdecide : ∀ d, Q (m.decide d)) :
    ∃ (α : Type) (x : Run α), Q x ∧ Completes x s.run := by
  cases s with
  | trace m ds =>
    cases hs
    exact ⟨_, _, hQ.trace (n := m) hdecide ds, completes_map _⟩
  | holds m ds =>
    cases hs
    exact ⟨_, _, hQ.holds (n := m) hdecide ds, completes_map _⟩
  | request q =>
    cases hs
    cases q with
    | holds e ds => exact ⟨_, _, hQ.holds (n := e.matcher) hdecide ds, completes_map _⟩
    | evaluate e => exact ⟨_, _, hQ.matching (f := e) hdecide rfl e.rules, completes_evaluate e⟩
  | edit e => cases hs

theorem needed {s : Step} {m : Matcher} (hs : s.matcher? = some m)
    (hm : m.policy = .oncePerVisitor) : s.run.Always Matcher.Needed := by
  obtain ⟨_, x, hx, hrun⟩ :=
    exists_completes (Run.Always.closed Matcher.Needed) hs (Matcher.always_needed_decide hm)
  intro v c hc
  rw [hrun.calls] at hc
  exact hx v c hc

theorem exists_logs {s : Step} {m : Matcher} (hs : s.matcher? = some m) (v : Visitor) :
    ∃ w f, m.Logs v (s.run v).calls w f ∧ (s.run v).visitor.loaded = w.loaded ∧
      ∀ e, f = some e → (s.run v).result = .error e ∧ (s.run v).visitor = w := by
  obtain ⟨_, x, hx, hrun⟩ :=
    exists_completes (Matcher.Tracks.closed m) hs fun d => (Matcher.Logged.decide d).tracks
  obtain ⟨f, hlogs, hf⟩ := hx v
  rw [hrun.calls]
  exact ⟨_, f, hlogs, hrun.loaded v, fun e he => hrun.failed v e (hf e he)⟩

theorem of_failed {s : Step} {m : Matcher} (hs : s.matcher? = some m) {key : String}
    {u v w : Visitor} (hc : ⟨.load key, u⟩ ∈ (s.run v).calls) {p : Provider}
    (hlocate : m.locate key = .ok p) {e : Fault} (hload : p u = (w, .error e)) :
    (s.run v).result = .error e ∧ (s.run v).visitor = w := by
  obtain ⟨x, f, hlogs, -, hf⟩ := exists_logs hs v
  obtain ⟨before, behind, hcalls⟩ := List.append_of_mem hc
  have hanswer : m.answer ⟨.load key, u⟩ = .error e := by
    simp [Matcher.answer, hlocate, hload, Except.bind]
  rw [hcalls] at hlogs
  obtain ⟨rfl, rfl⟩ := hlogs.of_answer_error hanswer
  obtain ⟨hresult, hvisitor⟩ := hf e rfl
  refine ⟨hresult, ?_⟩
  have hu : u = m.afterAll v before := hlogs.visitor_eq
  calc (s.run v).visitor = x := hvisitor
    _ = m.afterAll v (before ++ [⟨.load key, u⟩]) := hlogs.eq_afterAll
    _ = m.after u (.load key) := by simp [Matcher.afterAll, hu]
    _ = w := by simp [Matcher.after, hlocate, hload]

def asked (s : Step) (v : Visitor) : List Asked :=
  match s.matcher? with
  | some m => (s.run v).calls.map (⟨m, ·⟩)
  | none => []

theorem asked_eq {s : Step} {m : Matcher} (hs : s.matcher? = some m) (v : Visitor) :
    s.asked v = (s.run v).calls.map (⟨m, ·⟩) := by
  rw [asked, hs]

theorem mem_calls {s : Step} {m : Matcher} (hs : s.matcher? = some m) {key : String}
    {u v : Visitor} (h : s.Wants key u v) (hu : u.isLoaded key = false) {c : Call}
    (hc : c ∈ (m.fetch key u).calls) : c ∈ (s.run v).calls := by
  have of_wants {ds : List Descriptor} (h : m.Wants key u v ds) : c ∈ (m.trace ds v).calls := by
    rw [(m.trace_apply ds v).1]
    exact h.mem_calls hu hc ∅
  cases s with
  | trace m ds =>
    cases hs
    rw [run, Run.map_apply]
    exact of_wants h
  | holds m ds =>
    cases hs
    rw [run, Run.map_apply]
    exact Run.mem_calls_bind_left (of_wants h)
  | request q =>
    cases hs
    cases q with
    | holds e ds =>
      rw [run, Run.map_apply]
      exact Run.mem_calls_bind_left (of_wants h)
    | evaluate e =>
      rw [run, Run.map_apply, Engine.calls_evaluate]
      exact h.mem_calls hu hc
  | edit e => cases hs

end Step

structure Guarded (v : Visitor) (h : List Asked) (w : Visitor) : Prop where
  fresh : ∀ key, v.isLoaded key = true → ∀ a ∈ h, ¬ a.Fetches key
  apart : h.Pairwise fun a b => ∀ key, a.loads key = true → ¬ b.Fetches key
  marks : ∀ key, (v.isLoaded key = true ∨ ∃ a ∈ h, a.loads key = true) → w.isLoaded key = true

namespace Guarded

variable {u v w : Visitor} {g h : List Asked} {m : Matcher}

theorem nil (hvw : ∀ key, v.isLoaded key = true → w.isLoaded key = true) : Guarded v [] w where
  fresh := by simp
  apart := .nil
  marks := by simpa using hvw

theorem append (hg : Guarded u g v) (hh : Guarded v h w) : Guarded u (g ++ h) w where
  fresh key hu a ha := by
    rcases List.mem_append.1 ha with ha | ha
    · exact hg.fresh key hu a ha
    · exact hh.fresh key (hg.marks key (.inl hu)) a ha
  apart := by
    refine List.pairwise_append.2 ⟨hg.apart, hh.apart, fun a ha b hb key hload => ?_⟩
    exact hh.fresh key (hg.marks key (.inr ⟨a, ha, hload⟩)) b hb
  marks key := by
    rintro (hu | ⟨a, ha, hload⟩)
    · exact hh.marks key (.inl (hg.marks key (.inl hu)))
    · rcases List.mem_append.1 ha with ha | ha
      · exact hh.marks key (.inl (hg.marks key (.inr ⟨a, ha, hload⟩)))
      · exact hh.marks key (.inr ⟨a, ha, hload⟩)

theorem single (hm : m.KeepsMarks) {c : Call} (hc : Matcher.Needed c) :
    Guarded c.visitor [⟨m, c⟩] (m.after c.visitor c.action) where
  fresh key hv a ha hfetch := by
    obtain rfl := List.mem_singleton.1 ha
    cases hv.symm.trans (hc key hfetch)
  apart := List.pairwise_singleton _ _
  marks key hload := by
    rw [m.isLoaded_after]
    rcases hload with hv | ⟨a, ha, hload⟩
    · exact .inl (hm.isLoaded_leaves hv c.action)
    · obtain rfl := List.mem_singleton.1 ha
      exact .inr (Asked.loads_iff.1 hload)

theorem of_logs (hm : m.KeepsMarks) {cs : List Call} {f : Option Fault} (hlogs : m.Logs v cs w f)
    (hcs : ∀ c ∈ cs, Matcher.Needed c) : Guarded v (cs.map (⟨m, ·⟩)) w := by
  induction hlogs with
  | nil => exact .nil fun _ => id
  | @failed v a e _ => exact .single (c := ⟨a, v⟩) hm (hcs _ (List.mem_singleton_self _))
  | cons _ _ ih =>
    -- the marks that a call leaves are the marks that the calls behind it start from
    simp only [List.forall_mem_cons] at hcs
    exact .append (.single hm hcs.1) (ih hcs.2)

theorem count_le (hg : Guarded v g w) (key : String) : g.countP (·.loads key) ≤ 1 := by
  have apart := hg.apart
  clear hg
  induction g with
  | nil => simp
  | cons a g ih =>
    obtain ⟨ha, hg⟩ := List.pairwise_cons.1 apart
    by_cases hload : a.loads key = true
    · have : g.countP (·.loads key) = 0 := by
        refine List.countP_eq_zero.2 fun b hb hload' => ha b hb key hload ?_
        simp [Asked.Fetches, (Asked.loads_iff.1 hload').1, Matcher.fetches]
      simp [hload, this]
    · simpa [hload] using ih hg

end Guarded

def Step.LoadsOnce (s : Step) : Prop :=
  ∀ m, s.matcher? = some m → m.policy = .oncePerVisitor ∧ m.KeepsMarks

theorem Step.guarded {s : Step} (hs : s.LoadsOnce) (v : Visitor) :
    Guarded v (s.asked v) (s.run v).visitor := by
  cases hmatcher : s.matcher? with
  | none =>
    cases s with
    | edit e =>
      exact .nil fun _ => e.isLoaded_apply
    | _ => cases hmatcher
  | some m =>
    obtain ⟨hpolicy, hkeeps⟩ := hs m hmatcher
    obtain ⟨w, f, hlogs, hloaded, -⟩ := exists_logs hmatcher v
    have hguarded := Guarded.of_logs hkeeps hlogs (needed hmatcher hpolicy v)
    rw [asked_eq hmatcher]
    exact ⟨hguarded.fresh, hguarded.apart, fun key h => by
      rw [Visitor.isLoaded, hloaded]
      exact hguarded.marks key h⟩

abbrev Session := List Step

namespace Session

def after (v : Visitor) (ss : Session) : Visitor := ss.foldl (fun v s => (s.run v).visitor) v

def history (v : Visitor) : Session → List Asked
  | [] => []
  | s :: ss => s.asked v ++ history (s.run v).visitor ss

theorem guarded {ss : Session} (hss : ∀ s ∈ ss, s.LoadsOnce) (v : Visitor) :
    Guarded v (ss.history v) (ss.after v) := by
  induction ss generalizing v with
  | nil => exact .nil fun _ => id
  | cons s ss ih =>
    simp only [List.forall_mem_cons] at hss
    exact (Step.guarded hss.1 v).append (ih hss.2 _)

structure OneLoad (v : Visitor) (ss : Session) : Prop where
  once : ∀ key, (ss.history v).countP (·.loads key) ≤ 1
  marked : ∀ key, v.isLoaded key = true → ∀ a ∈ ss.history v, ¬ a.Fetches key
  loaded : ∀ key (before behind : List Asked) (a : Asked), ss.history v = before ++ a :: behind →
    a.loads key = true → ∀ b ∈ behind, ¬ b.Fetches key
  /-- A load that fails ends its step and leaves the visitor as the provider did: without a mark,
  unless the provider set it. -/
  failed : ∀ s ∈ ss, ∀ m, s.matcher? = some m → ∀ (u : Visitor) (key : String) (p : Provider)
    (x w : Visitor) (e : Fault), ⟨.load key, x⟩ ∈ (s.run u).calls → m.locate key = .ok p →
    p x = (w, .error e) → x.isLoaded key = false ∧ (s.run u).result = .error e ∧
      (s.run u).visitor = w ∧
      (w.isLoaded key = x.isLoaded key → (s.run u).visitor.isLoaded key = false)
  retried : ∀ s ∈ ss, ∀ m, s.matcher? = some m → ∀ (u : Visitor) (key : String) (x : Visitor),
    s.Wants key x u → x.isLoaded key = false →
    ⟨.lookup key, x⟩ ∈ (s.run u).calls ∧
      ∀ p, m.locate key = .ok p → ⟨.load key, x⟩ ∈ (s.run u).calls

/-- Where one load is enough, no key is loaded twice. Under any policy, a step adds the marks of
what it loaded. -/
theorem loads_at_most_once (v : Visitor) (ss : Session) :
    ((∀ s ∈ ss, s.LoadsOnce) → ss.OneLoad v) ∧
    ∀ (s : Step) (m : Matcher), s.matcher? = some m → m.LeavesMarks →
      ∀ (u : Visitor) (key : String), (s.run u).visitor.isLoaded key = true ↔
        u.isLoaded key = true ∨ ∃ a ∈ s.asked u, a.loads key = true := by
  constructor
  · intro hss
    have hguarded := guarded hss v
    constructor
    case once => exact hguarded.count_le
    case marked => exact hguarded.fresh
    case loaded =>
      intro key before behind a h hload b hb
      have apart := hguarded.apart
      rw [h] at apart
      exact List.rel_of_pairwise_cons (List.pairwise_append.1 apart).2.1 hb key hload
    case failed =>
      intro s hs m hm u key p x w e hc hlocate hload
      have hx : x.isLoaded key = false :=
        Step.needed hm (hss s hs m hm).1 u _ hc key (by simp [Matcher.fetches])
      obtain ⟨hresult, hvisitor⟩ := Step.of_failed hm hc hlocate hload
      exact ⟨hx, hresult, hvisitor, fun hw => by rw [hvisitor, hw, hx]⟩
    case retried =>
      intro s _ m hm u key x hwants hx
      have hcalls := congrArg Outcome.calls (m.fetch_apply key x)
      refine ⟨Step.mem_calls hm hwants hx ?_, fun p hp => Step.mem_calls hm hwants hx ?_⟩
      · rw [hcalls]
        split <;> simp
      · simp [hcalls, hp]
  · intro s m hs hm u key
    obtain ⟨w, f, hlogs, hloaded, -⟩ := Step.exists_logs hs u
    rw [Visitor.isLoaded, hloaded, ← Visitor.isLoaded, hlogs.isLoaded hm, Step.asked_eq hs]
    simp [Asked.loads_iff]

theorem loads_at_most_once_recovered :
    let m : Matcher := ⟨fun _ => .ok ⟨true, fun _ => true, some ["geo"]⟩,
      fun key => .ok fun v =>
        if v.has "down" then (v, .error (.providerFailed key "down"))
        else (v.set "country" (.string "AT"), .ok ()), .oncePerVisitor⟩
    let v := Visitor.anonymous.set "down" (.bool true)
    let visit : Step := .trace m [.ofType "a", .ofType "b"]
    let ss : Session := [visit, .edit (.erase "down"), visit]
    m.LeavesMarks ∧ ss.OneLoad v ∧ (visit.run v).result = .error (.providerFailed "geo" "down") ∧
      (ss.history v).countP (·.loads "geo") = 1 ∧ (ss.after v).isLoaded "geo" = true := by
  intro m v visit ss
  have leaves : m.LeavesMarks := by
    intro key p u k hp
    cases hp
    by_cases h : u.has "down" <;> simp [h, Visitor.set, Visitor.isLoaded]
  have once : ∀ s ∈ ss, s.LoadsOnce := by
    have hvisit : visit.LoadsOnce := by
      rintro _ ⟨⟩
      exact ⟨rfl, fun key p u k hp hu => (leaves key p u k hp).trans hu⟩
    have hedit : (Step.edit (.erase "down")).LoadsOnce := by
      rintro _ ⟨⟩
    simp [ss, hvisit, hedit]
  obtain ⟨one, marks⟩ := loads_at_most_once v ss
  have loads : (visit.asked (Session.after v [visit, .edit (.erase "down")])).any
      (·.loads "geo") = true := by
    simp only [visit]
    cbv
  refine ⟨leaves, one once, by cbv, ?_, ?_⟩
  · simp only [ss, visit]
    cbv
  · exact (marks visit m rfl leaves _ "geo").2 (.inr (List.any_eq_true.1 loads))

/-- After a load that failed, a mark of the provider itself or of the caller keeps the key from being
fetched where it is wanted. -/
theorem not_fetched_after_failure :
    let visit (marks : Bool) : Step := .trace ⟨fun _ => .ok ⟨true, fun _ => true, some ["geo"]⟩,
      fun key => .ok fun v =>
        (if marks then v.markLoaded key else v, .error (.providerFailed key "down")),
      .oncePerVisitor⟩ [.ofType "a"]
    let own := Session.after .anonymous [visit true]
    let callers := Session.after .anonymous [visit false, .edit (.markLoaded "geo")]
    (∀ marks, (visit marks).LoadsOnce ∧
      ((visit marks).run .anonymous).result = .error (.providerFailed "geo" "down")) ∧
    (own.isLoaded "geo" = true ∧ (visit true).Wants "geo" own own ∧
      ∀ a ∈ (visit true).asked own, ¬ a.Fetches "geo") ∧
    (visit false).Wants "geo" callers callers ∧
      ∀ a ∈ (visit false).asked callers, ¬ a.Fetches "geo" := by
  intro visit own callers
  have once : ∀ marks, (visit marks).LoadsOnce := by
    rintro marks _ ⟨⟩
    refine ⟨rfl, fun key p v k hp hv => ?_⟩
    cases hp
    cases marks with
    | false => exact hv
    | true => simp [Matcher.isLoaded_markLoaded, hv]
  have wants : ∀ marks v, (visit marks).Wants "geo" v v := by
    intro marks v
    have hkeys : (some ["geo"]).getD [] = [] ++ "geo" :: [] := rfl
    exact .here rfl rfl hkeys rfl rfl
  have hown : own.isLoaded "geo" = true := by
    simp only [own, visit]
    cbv
  have hcallers : callers.isLoaded "geo" = true := by
    simp only [callers, visit]
    cbv
  refine ⟨fun marks => ⟨once marks, ?_⟩, ⟨hown, wants true own, ?_⟩, wants false callers, ?_⟩
  · simp only [visit]
    cases marks <;> cbv
  · exact (Step.guarded (once true) own).fresh "geo" hown
  · exact (Step.guarded (once false) callers).fresh "geo" hcallers

end Session

end Targeting
