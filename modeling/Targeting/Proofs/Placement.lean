import Targeting.Proofs.Alike
import Targeting.Proofs.Grammar
import Targeting.Proofs.Spelling

namespace Targeting

attribute [local instance] Run.lawful

namespace Descriptor

def SameCondition (d d' : Descriptor) : Prop := d.type = d'.type ∧ d.config = d'.config

def alone (d : Descriptor) : Descriptor :=
  { d with operator := none, opens := false, closes := false }

theorem SameCondition.alone_eq {d d' : Descriptor} (h : d.SameCondition d') :
    d.alone = d'.alone := by
  simp [alone, h.1, h.2]

end Descriptor

def Call.alone (c : Call) : Call :=
  match c.action with
  | .build d => { c with action := .build d.alone }
  | _ => c

theorem Run.seen_call (view : Call → Call) (a : Action) :
    (Run.call a).seen (fun c => some (view c)) = fun v => ⟨.ok (), v, [view ⟨a, v⟩], []⟩ := rfl

namespace Assembly

def SameTerms (a b : Assembly) : Prop :=
  a.bindings = b.bindings ∧ a.names = b.names ∧ a.counts = b.counts

theorem SameTerms.push {a b : Assembly} {d d' : Descriptor} (h : a.SameTerms b)
    (hd : d.SameCondition d') (outcome : Bool) :
    (a.push d outcome).1.SameTerms (b.push d' outcome).1 := by
  obtain ⟨hbindings, hnames, hcounts⟩ := h
  simp [SameTerms, Assembly.push, next, hd.1, hbindings, hnames, hcounts]

theorem sameTerms_ofTerms {ds ds' : List Descriptor}
    (hds : List.Forall₂ Descriptor.SameCondition ds ds') (os : List Bool) :
    (ofTerms (ds.zip os)).SameTerms (ofTerms (ds'.zip os)) := by
  have foldl {a b : Assembly} (h : a.SameTerms b) :
      ((ds.zip os).foldl (fun a t => (a.push t.1 t.2).1) a).SameTerms
        ((ds'.zip os).foldl (fun a t => (a.push t.1 t.2).1) b) := by
    induction hds generalizing a b os with
    | nil => exact h
    | cons hd _ ih =>
      cases os with
      | nil => exact h
      | cons o os => exact ih os (h.push hd o)
  exact foldl ⟨rfl, rfl, rfl⟩

end Assembly

namespace Matcher

theorem bindings_of_conclude {a : Assembly} {t : Trace} (h : conclude a = .ok t) :
    t.bindings = a.names.filterMap fun n => (a.bindings.get? n).map (n, ·) := by
  obtain ⟨b, hb, h⟩ := Expr.bind_eq_ok.1 h
  obtain ⟨value, -, h⟩ := Expr.bind_eq_ok.1 h
  obtain ⟨e, -, rfl⟩ := Assembly.eq_of_finish hb
  cases h
  rfl

section

variable {m : Matcher} {ds ds' : List Descriptor} {v : Visitor}

theorem Logged.outcomes (ds : List Descriptor) : m.Logged (m.outcomes ds) := by
  induction ds with
  | nil => exact .pure []
  | cons d ds ih => exact .bind (.decide d) fun outcome => .bind ih fun os => .pure (outcome :: os)

theorem length_outcomes {os : List Bool} (h : (m.outcomes ds v).result = .ok os) :
    os.length = ds.length := by
  induction ds generalizing v os with
  | nil =>
    cases h
    rfl
  | cons d ds ih =>
    obtain ⟨outcome, -, h⟩ := Run.exists_of_bind_ok h
    obtain ⟨os, hos, h⟩ := Run.exists_of_bind_ok h
    cases h
    simp [ih hos]

theorem trace_outcomes (m : Matcher) (ds : List Descriptor) (v : Visitor) :
    (m.trace ds v).calls = (m.outcomes ds v).calls ∧
      (m.trace ds v).visitor = (m.outcomes ds v).visitor ∧
      (m.trace ds v).result =
        (m.outcomes ds v).result >>= fun os => conclude (.ofTerms (ds.zip os)) := by
  rw [trace_eq_outcomes]
  cases h : (m.outcomes ds v).result with
  | error e =>
    rw [Run.bind_of_error h]
    exact ⟨rfl, rfl, rfl⟩
  | ok os =>
    rw [Run.bind_of_ok h]
    exact ⟨List.append_nil _, rfl, rfl⟩

def Aborts (m : Matcher) (o : Outcome Trace) (e : Fault) : Prop :=
  o.result = .error e ∧ ∃ c ∈ o.calls, m.answer c = .error e

def Concludes (m : Matcher) (o : Outcome Trace) (ds : List Descriptor) (os : List Bool) : Prop :=
  o.result = conclude (.ofTerms (ds.zip os)) ∧ ∀ c ∈ o.calls, m.answer c = .ok ()

theorem aborts_of_outcomes {e : Fault} (h : (m.outcomes ds v).result = .error e) :
    m.Aborts (m.trace ds v) e := by
  obtain ⟨hcalls, -, hresult⟩ := m.trace_outcomes ds v
  have hlogs := Logged.outcomes (m := m) ds v
  rw [Outcome.fault?_eq_some.2 h] at hlogs
  rw [Aborts, hcalls, hresult, h]
  exact ⟨rfl, hlogs.exists_answer_error⟩

theorem concludes_of_outcomes {os : List Bool} (h : (m.outcomes ds v).result = .ok os) :
    m.Concludes (m.trace ds v) ds os := by
  obtain ⟨hcalls, -, hresult⟩ := m.trace_outcomes ds v
  have hlogs := Logged.outcomes (m := m) ds v
  rw [Outcome.fault?, h] at hlogs
  rw [Concludes, hcalls, hresult, h]
  exact ⟨rfl, fun c hc => hlogs.answer_ok hc⟩

def BuildsAlone (m : Matcher) : Prop := ∀ d d', d.SameCondition d' → m.build d = m.build d'

theorem seen_decide_alone (hm : m.BuildsAlone) {d d' : Descriptor} (h : d.SameCondition d') :
    (m.decide d).seen (fun c => some c.alone) = (m.decide d').seen (fun c => some c.alone) := by
  simp [decide_eq, hm d d' h, Run.seen_call, Call.alone, h.alone_eq]

end

/-- Wherever the conditions of a list stand, the calls and what they find are the same. -/
theorem BuildsAlone.trace_alike {m : Matcher} (hm : m.BuildsAlone) {ds ds' : List Descriptor}
    (h : List.Forall₂ Descriptor.SameCondition ds ds') (v : Visitor) :
    let o := m.trace ds v
    let o' := m.trace ds' v
    o.calls.map Call.alone = o'.calls.map Call.alone ∧ o.visitor = o'.visitor ∧
      ((∃ e, m.Aborts o e ∧ m.Aborts o' e) ∨
        ∃ os, os.length = ds.length ∧ m.Concludes o ds os ∧ m.Concludes o' ds' os) ∧
      ∀ t t', o.result = .ok t → o'.result = .ok t' → t.bindings = t'.bindings := by
  intro o o'
  obtain ⟨hcalls, hvisitor, -⟩ := m.trace_outcomes ds v
  obtain ⟨hcalls', hvisitor', -⟩ := m.trace_outcomes ds' v
  -- up to the expression the two runs are one
  have hseen := seen_outcomes (fun _ _ => seen_decide_alone hm) h
  have calls : o.calls.map Call.alone = o'.calls.map Call.alone := by
    rw [hcalls, hcalls']
    simpa [List.filterMap_eq_map'] using Run.calls_of_seen hseen v
  have visitor : o.visitor = o'.visitor := by
    rw [hvisitor, hvisitor', Run.visitor_of_seen hseen v]
  have hresult := Run.result_of_seen hseen v
  refine ⟨calls, visitor, ?_⟩
  cases hos : (m.outcomes ds v).result with
  | error e =>
    have aborts := aborts_of_outcomes hos
    refine ⟨.inl ⟨e, aborts, aborts_of_outcomes (hresult.symm.trans hos)⟩, ?_⟩
    intro t t' ht
    cases aborts.1.symm.trans ht
  | ok os =>
    have concludes := concludes_of_outcomes hos
    have concludes' := concludes_of_outcomes (hresult.symm.trans hos)
    refine ⟨.inr ⟨os, length_outcomes hos, concludes, concludes'⟩, ?_⟩
    intro t t' ht ht'
    obtain ⟨hbindings, hnames, -⟩ := Assembly.sameTerms_ofTerms h os
    rw [bindings_of_conclude (concludes.1.symm.trans ht),
      bindings_of_conclude (concludes'.1.symm.trans ht'), hbindings, hnames]

theorem BuildsAlone.trace_alike_negated :
    let m : Matcher := ⟨fun d => .ok ⟨true, (·.has d.type), some [d.type]⟩,
      fun key => .ok fun v => (v.set key (.bool true), .ok ()), .everyCondition⟩
    let ds : List Descriptor := [.ofType "a", (Descriptor.ofType "b").withOperator .or]
    let ds' : List Descriptor :=
      [(Descriptor.ofType "a").opened, ((Descriptor.ofType "b").withOperator .andNot).closed]
    let o := m.trace ds .anonymous
    let o' := m.trace ds' .anonymous
    m.BuildsAlone ∧ List.Forall₂ Descriptor.SameCondition ds ds' ∧
      o.calls.map Call.alone = o'.calls.map Call.alone ∧ o.visitor = o'.visitor ∧
      ∃ t t', o.result = .ok t ∧ o'.result = .ok t' ∧ t.bindings = t'.bindings ∧
        t.result ≠ t'.result := by
  intro m ds ds' o o'
  have alone : m.BuildsAlone := by
    intro d d' h
    simp [m, h.1]
  have same : List.Forall₂ Descriptor.SameCondition ds ds' :=
    .cons ⟨rfl, rfl⟩ (.cons ⟨rfl, rfl⟩ .nil)
  obtain ⟨calls, visitor, -, bindings⟩ := alone.trace_alike same .anonymous
  have ht : o.result = .ok ⟨"a_1 || b_1", [("a_1", true), ("b_1", true)], true⟩ := by cbv
  have ht' : o'.result = .ok ⟨"( a_1 && not b_1 )", [("a_1", true), ("b_1", true)], false⟩ := by cbv
  exact ⟨alone, same, calls, visitor, _, _, ht, ht', bindings _ _ ht ht', by simp⟩

end Matcher

end Targeting
