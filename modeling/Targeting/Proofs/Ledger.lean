import Mathlib
import Targeting.Proofs.Closure

namespace Targeting

def Visitor.SameLedger (v w : Visitor) : Prop := w.rules = v.rules ∧ w.segments = v.segments

theorem Visitor.SameLedger.refl (v : Visitor) : v.SameLedger v := ⟨rfl, rfl⟩

theorem Visitor.SameLedger.trans {u v w : Visitor} (h : u.SameLedger v) (h' : v.SameLedger w) :
    u.SameLedger w := ⟨h'.1.trans h.1, h'.2.trans h.2⟩

def Run.KeepsLedger (x : Run α) : Prop :=
  ∀ v, (∀ c ∈ (x v).calls, v.SameLedger c.visitor) ∧ v.SameLedger (x v).visitor

theorem Run.KeepsLedger.bind {x : Run α} {f : α → Run β} (hx : x.KeepsLedger)
    (hf : ∀ a, (f a).KeepsLedger) : (x >>= f).KeepsLedger := by
  intro v
  obtain ⟨hcalls, hv⟩ := hx v
  cases h : (x v).result with
  | error e =>
    rw [Run.bind_of_error h]
    exact ⟨hcalls, hv⟩
  | ok a =>
    rw [Run.bind_of_ok h]
    obtain ⟨hcalls', hv'⟩ := hf a (x v).visitor
    refine ⟨fun c hc => ?_, hv.trans hv'⟩
    rcases List.mem_append.1 hc with hc | hc
    · exact hcalls c hc
    · exact hv.trans (hcalls' c hc)

theorem Run.KeepsLedger.closed : Run.Closed fun x _ => x.KeepsLedger where
  pure _ v := ⟨nofun, .refl v⟩
  bind := .bind
  lift _ v := ⟨nofun, .refl v⟩
  announce _ v := ⟨nofun, .refl v⟩

namespace Matcher

def KeepsLedger (m : Matcher) : Prop :=
  ∀ key p, m.locate key = .ok p → ∀ v : Visitor, v.SameLedger (p v).1

variable {m : Matcher}

theorem KeepsLedger.after (hm : m.KeepsLedger) (v : Visitor) (a : Action) :
    v.SameLedger (m.after v a) := by
  cases a with
  | build d => exact .refl v
  | lookup key => exact .refl v
  | judge c => exact .refl v
  | load key =>
    rw [Matcher.after]
    cases hlocate : m.locate key with
    | error e => exact .refl v
    | ok p =>
      have h := hm key p hlocate v
      rcases hload : p v with ⟨w, result⟩
      rw [hload] at h
      cases result with
      | ok =>
        simp only [hload]
        exact h
      | error e =>
        simp only [hload]
        exact h

theorem Logs.sameLedger (hm : m.KeepsLedger) {v w : Visitor} {cs : List Call} {f : Option Fault}
    (h : Logs m v cs w f) : (∀ c ∈ cs, v.SameLedger c.visitor) ∧ v.SameLedger w := by
  induction h with
  | @nil v => exact ⟨nofun, .refl v⟩
  | @failed v a e _ => exact ⟨by simpa using .refl v, hm.after v a⟩
  | @cons v w a cs f _ _ ih =>
    have hv := hm.after v a
    refine ⟨fun c hc => ?_, hv.trans ih.2⟩
    rcases List.mem_cons.1 hc with rfl | hc
    · exact .refl v
    · exact hv.trans (ih.1 c hc)

theorem KeepsLedger.decide (hm : m.KeepsLedger) (d : Descriptor) : (m.decide d).KeepsLedger :=
  fun v => Logs.sameLedger hm (Logged.decide d v)

theorem KeepsLedger.holds (hm : m.KeepsLedger) (ds : List Descriptor) :
    (m.holds ds).KeepsLedger := Run.KeepsLedger.closed.holds (n := m) hm.decide ds

end Matcher

namespace Engine

variable {e : Engine}

theorem keepsLedger_matching (he : e.matcher.KeepsLedger) (rs : List Rule) :
    (e.matching rs).KeepsLedger := Run.KeepsLedger.closed.matching (f := e) he.decide rfl rs

/-- The rules that match, one after the other: each is tried on the visitor as the ones before left
it, and the first that matches may be the last that is tried. -/
inductive Finds (e : Engine) : Visitor → List Rule → List Rule → Prop
  | nil {v : Visitor} : Finds e v [] []
  | skip {v : Visitor} {r : Rule} {rs found : List Rule} : considers r = false →
      Finds e v rs found → Finds e v (r :: rs) found
  | miss {v : Visitor} {r : Rule} {rs found : List Rule} : considers r = true →
      (e.matcher.holds r.conditions v).result = .ok false →
      Finds e (e.matcher.holds r.conditions v).visitor rs found → Finds e v (r :: rs) found
  | last {v : Visitor} {r : Rule} {rs : List Rule} : considers r = true →
      (e.matcher.holds r.conditions v).result = .ok true → e.config.stopOnFirstMatch = true →
      Finds e v (r :: rs) [r]
  | hit {v : Visitor} {r : Rule} {rs found : List Rule} : considers r = true →
      (e.matcher.holds r.conditions v).result = .ok true → e.config.stopOnFirstMatch = false →
      Finds e (e.matcher.holds r.conditions v).visitor rs found → Finds e v (r :: rs) (r :: found)

theorem result_matching_cons (e : Engine) (r : Rule) (rs : List Rule) (v : Visitor) :
    (e.matching (r :: rs) v).result =
      if considers r then
        match (e.matcher.holds r.conditions v).result with
        | .error f => .error f
        | .ok false => (e.matching rs (e.matcher.holds r.conditions v).visitor).result
        | .ok true =>
          if e.config.stopOnFirstMatch then .ok [r]
          else (e.matching rs (e.matcher.holds r.conditions v).visitor).result.map (r :: ·)
      else (e.matching rs v).result := by
  rw [matching]
  split
  · cases hholds : (e.matcher.holds r.conditions v).result with
    | error f => rw [Run.bind_of_error hholds]
    | ok holds =>
      rw [Run.bind_of_ok hholds]
      cases holds with
      | false => rfl
      | true =>
        cases e.config.stopOnFirstMatch with
        | true => rfl
        | false =>
          cases hrs : (e.matching rs (e.matcher.holds r.conditions v).visitor).result <;>
            simp [Run.bind_apply, Run.pure_apply, Run.visitor, Run.notice, hrs, Except.map]
  · rfl

theorem matching_eq_ok {rs found : List Rule} {v : Visitor} :
    (e.matching rs v).result = .ok found ↔ e.Finds v rs found := by
  constructor
  · intro h
    induction rs generalizing v found with
    | nil =>
      cases h
      exact .nil
    | cons r rs ih =>
      rw [result_matching_cons] at h
      split at h
      case isTrue hconsiders =>
        split at h
        case h_1 => cases h
        case h_2 hholds => exact .miss hconsiders hholds (ih h)
        case h_3 hholds =>
          split at h
          case isTrue hstop =>
            cases h
            exact .last hconsiders hholds hstop
          case isFalse hstop =>
            cases hrs : (e.matching rs (e.matcher.holds r.conditions v).visitor).result with
            | error f =>
              rw [hrs] at h
              cases h
            | ok found =>
              rw [hrs] at h
              cases h
              exact .hit hconsiders hholds (by simpa using hstop) (ih hrs)
      case isFalse hconsiders => exact .skip (by simpa using hconsiders) (ih h)
  · intro h
    induction h with
    | nil => rfl
    | skip hconsiders _ ih => rw [result_matching_cons, hconsiders, if_neg (by simp), ih]
    | miss hconsiders hholds _ ih => rw [result_matching_cons, if_pos hconsiders, hholds, ih]
    | last hconsiders hholds hstop =>
      rw [result_matching_cons, if_pos hconsiders, hholds]
      exact if_pos hstop
    | hit hconsiders hholds hstop _ ih =>
      rw [result_matching_cons, if_pos hconsiders, hholds]
      simp [hstop, ih, Except.map]

theorem Finds.sublist {v : Visitor} {rs found : List Rule} (h : e.Finds v rs found) :
    found.Sublist rs := by
  induction h with
  | nil => exact .slnil
  | skip _ _ ih => exact ih.cons _
  | miss _ _ _ ih => exact ih.cons _
  | last => simp
  | hit _ _ _ _ ih => exact ih.cons_cons _

def resolved (e : Engine) (r : Rule) : List Segment := r.segments.filterMap e.segment?

theorem foldl_addSegment (v : Visitor) (gs : List Segment) :
    gs.foldl .addSegment v = { v with segments := v.segments ++ gs } := by
  induction gs generalizing v with
  | nil => simp
  | cons g gs ih =>
    rw [List.foldl_cons, ih]
    simp [Visitor.addSegment]

theorem foldl_record (v : Visitor) (rs : List Rule) :
    rs.foldl e.record v =
      { v with rules := v.rules ++ rs, segments := v.segments ++ rs.flatMap e.resolved } := by
  induction rs generalizing v with
  | nil => simp
  | cons r rs ih =>
    rw [List.foldl_cons, ih, record, foldl_addSegment]
    simp [Visitor.addRule, resolved]

theorem evaluate_of_error {v : Visitor} {f : Fault} (h : (e.matching e.rules v).result = .error f) :
    e.evaluate v = ⟨.error f, (e.matching e.rules v).visitor, (e.matching e.rules v).calls,
      (e.matching e.rules v).notices⟩ := Run.bind_of_error h

theorem evaluate_of_ok {v : Visitor} {rs : List Rule} (h : (e.matching e.rules v).result = .ok rs) :
    e.evaluate v = ⟨.ok (rs.map (·.id)), rs.foldl e.record (e.matching e.rules v).visitor,
      (e.matching e.rules v).calls, (e.matching e.rules v).notices⟩ := by
  rw [evaluate, Run.bind_of_ok h]
  simp [Run.bind_apply, Run.pure_apply, Run.modify]

theorem exists_of_evaluate_ok {v : Visitor} {ids : List String}
    (h : (e.evaluate v).result = .ok ids) :
    ∃ rs, (e.matching e.rules v).result = .ok rs ∧ ids = rs.map (·.id) := by
  cases hrs : (e.matching e.rules v).result with
  | error f =>
    rw [evaluate_of_error hrs] at h
    cases h
  | ok rs =>
    rw [evaluate_of_ok hrs] at h
    cases h
    exact ⟨rs, rfl, rfl⟩

theorem calls_evaluate (e : Engine) (v : Visitor) :
    (e.evaluate v).calls = (e.matching e.rules v).calls := by
  cases h : (e.matching e.rules v).result with
  | error f => rw [evaluate_of_error h]
  | ok rs => rw [evaluate_of_ok h]

end Engine

inductive Request
  | evaluate : Engine → Request
  | holds : Engine → List Descriptor → Request

structure Entry where
  rule : Rule
  segments : List Segment

namespace Request

def engine : Request → Engine
  | evaluate e => e
  | holds e _ => e

def after : Request → Visitor → Visitor
  | evaluate e, v => (e.evaluate v).visitor
  | holds e ds, v => (e.holds ds v).visitor

def calls : Request → Visitor → List Call
  | evaluate e, v => (e.evaluate v).calls
  | holds e ds, v => (e.holds ds v).calls

inductive Enters : Request → Visitor → List Entry → Prop
  | found {e : Engine} {v : Visitor} {rs : List Rule} :
      (e.evaluate v).result = .ok (rs.map (·.id)) → e.Finds v e.rules rs →
      Enters (.evaluate e) v (rs.map fun r => ⟨r, e.resolved r⟩)
  | failed {e : Engine} {v : Visitor} {f : Fault} : (e.evaluate v).result = .error f →
      Enters (.evaluate e) v []
  | held {e : Engine} {ds : List Descriptor} {v : Visitor} : Enters (.holds e ds) v []

theorem exists_enters (q : Request) (v : Visitor) : ∃ es, q.Enters v es := by
  cases q with
  | holds e ds => exact ⟨[], .held⟩
  | evaluate e =>
    cases h : (e.matching e.rules v).result with
    | error f => exact ⟨[], .failed (congrArg Outcome.result (Engine.evaluate_of_error h))⟩
    | ok rs =>
      have hresult := congrArg Outcome.result (Engine.evaluate_of_ok h)
      exact ⟨_, .found hresult (Engine.matching_eq_ok.1 h)⟩

theorem Enters.unique {q : Request} {v : Visitor} {es fs : List Entry} (h : q.Enters v es)
    (h' : q.Enters v fs) : es = fs := by
  cases h with
  | held =>
    cases h'
    rfl
  | failed hresult =>
    cases h' with
    | found hresult' _ => cases hresult.symm.trans hresult'
    | failed _ => rfl
  | found hresult hfinds =>
    cases h' with
    | found _ hfinds' =>
      have := (Engine.matching_eq_ok.2 hfinds).symm.trans (Engine.matching_eq_ok.2 hfinds')
      cases this
      rfl
    | failed hresult' => cases hresult.symm.trans hresult'

theorem sameLedger_calls {q : Request} (hq : q.engine.matcher.KeepsLedger) {v : Visitor}
    {c : Call} (hc : c ∈ q.calls v) : v.SameLedger c.visitor := by
  cases q with
  | holds e ds => exact (hq.holds ds v).1 c hc
  | evaluate e =>
    rw [calls, Engine.calls_evaluate] at hc
    exact (Engine.keepsLedger_matching hq e.rules v).1 c hc

theorem Enters.after {q : Request} (hq : q.engine.matcher.KeepsLedger) {v : Visitor}
    {es : List Entry} (h : q.Enters v es) :
    (q.after v).rules = v.rules ++ es.map Entry.rule ∧
      (q.after v).segments = v.segments ++ es.flatMap Entry.segments := by
  cases h with
  | @held e ds =>
    obtain ⟨hrules, hsegments⟩ := (Matcher.KeepsLedger.holds hq ds v).2
    simpa using ⟨hrules, hsegments⟩
  | @failed e _ f hresult =>
    obtain ⟨hrules, hsegments⟩ := (Engine.keepsLedger_matching (e := e) hq e.rules v).2
    cases h : (e.matching e.rules v).result with
    | error f => simp [Request.after, Engine.evaluate_of_error h, hrules, hsegments]
    | ok rs => simp [Engine.evaluate_of_ok h] at hresult
  | @found e _ rs _ hfinds =>
    obtain ⟨hrules, hsegments⟩ := (Engine.keepsLedger_matching (e := e) hq e.rules v).2
    have h := Engine.matching_eq_ok.2 hfinds
    -- all is written at once, on a ledger that is still the one of `v`
    simp [Request.after, Engine.evaluate_of_ok h, Engine.foldl_record, hrules, hsegments,
      Function.comp_def, List.flatMap_map]

end Request

def serve (v : Visitor) (qs : List Request) : Visitor := qs.foldl (fun v q => q.after v) v

inductive Ledger : Visitor → List Request → List Entry → Prop
  | nil {v : Visitor} : Ledger v [] []
  | cons {v : Visitor} {q : Request} {qs : List Request} {es fs : List Entry} :
      q.Enters v es → Ledger (q.after v) qs fs → Ledger v (q :: qs) (es ++ fs)

theorem exists_ledger (v : Visitor) (qs : List Request) : ∃ es, Ledger v qs es := by
  induction qs generalizing v with
  | nil => exact ⟨[], .nil⟩
  | cons q qs ih =>
    obtain ⟨es, hes⟩ := q.exists_enters v
    obtain ⟨fs, hfs⟩ := ih (q.after v)
    exact ⟨es ++ fs, .cons hes hfs⟩

theorem Ledger.unique {v : Visitor} {qs : List Request} {es fs : List Entry} (h : Ledger v qs es)
    (h' : Ledger v qs fs) : es = fs := by
  induction h generalizing fs with
  | nil =>
    cases h'
    rfl
  | cons hes _ ih =>
    cases h' with
    | cons hes' hfs' => rw [hes.unique hes', ih hfs']

theorem Ledger.serve {v : Visitor} {qs : List Request} {es : List Entry} (h : Ledger v qs es)
    (hqs : ∀ q ∈ qs, q.engine.matcher.KeepsLedger) :
    (serve v qs).rules = v.rules ++ es.map Entry.rule ∧
      (serve v qs).segments = v.segments ++ es.flatMap Entry.segments := by
  induction h with
  | nil => simp [Targeting.serve]
  | @cons v q qs es fs hes _ ih =>
    obtain ⟨hrules, hsegments⟩ := hes.after (hqs q (by simp))
    obtain ⟨hrules', hsegments'⟩ := ih fun q hq => hqs q (by simp [hq])
    simp [Targeting.serve] at hrules' hsegments' ⊢
    simp [hrules, hsegments, hrules', hsegments']

/-- Over requests one after the other the ledger grows by what the evaluations that come to an end
find, in that order, and it does not change while one of them is served. -/
theorem serve_ledger (v : Visitor) (qs : List Request)
    (hqs : ∀ q ∈ qs, q.engine.matcher.KeepsLedger) :
    (∃ es, Ledger v qs es ∧ (∀ fs, Ledger v qs fs → fs = es) ∧
      (serve v qs).rules = v.rules ++ es.map Entry.rule ∧
      (serve v qs).segments = v.segments ++ es.flatMap Entry.segments) ∧
    ∀ pre q post, qs = pre ++ q :: post → ∀ c ∈ q.calls (serve v pre),
      (serve v pre).SameLedger c.visitor := by
  constructor
  · obtain ⟨es, hes⟩ := exists_ledger v qs
    exact ⟨es, hes, fun fs hfs => hfs.unique hes, hes.serve hqs⟩
  · rintro pre q post rfl c hc
    exact Request.sameLedger_calls (hqs q (by simp)) hc

theorem serve_ledger_failed :
    let m : Matcher := ⟨fun d =>
      if d.opens then .error (.unknownCondition d.type) else .ok ⟨false, fun _ => false, none⟩,
      fun _ => .ok fun v => (v, .ok ()), .everyCondition⟩
    let r : Rule := ⟨"r", "r", none, true, [.ofType "a"], ["s", "t"]⟩
    let bad : Rule := ⟨"bad", "bad", none, true, [(Descriptor.ofType "a").opened], []⟩
    let e : Engine := ⟨m, [r], .ofList [("s", ⟨"s", "s"⟩)], default⟩
    let qs : List Request :=
      [.evaluate e, .evaluate { e with rules := [r, bad] }, .holds e r.conditions]
    (serve .anonymous qs).rules = [r] ∧ (serve .anonymous qs).segments = [⟨"s", "s"⟩] := by
  intro m r bad e qs
  have keeps : ∀ q ∈ qs, q.engine.matcher.KeepsLedger := by
    intro q hq key p hp v
    have hm : q.engine.matcher = m := by
      simp only [qs, List.mem_cons, List.not_mem_nil, or_false] at hq
      rcases hq with rfl | rfl | rfl <;> rfl
    rw [hm] at hp
    cases hp
    exact .refl v
  obtain ⟨⟨es, -, unique, hrules, hsegments⟩, -⟩ := serve_ledger .anonymous qs keeps
  have finds : e.Finds .anonymous [r] [r] := Engine.matching_eq_ok.1 (by cbv)
  have entered : Ledger .anonymous qs _ :=
    .cons (.found (by cbv) finds)
      (.cons (.failed (f := .unknownCondition "a") (by cbv)) (.cons .held .nil))
  rw [hrules, hsegments, ← unique _ entered]
  exact ⟨rfl, rfl⟩

end Targeting
