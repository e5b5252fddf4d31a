import Targeting.Proofs.Marks
import Targeting.Proofs.Verdicts

namespace Targeting.Engine

variable {e : Engine} {v : Visitor} {q r : Rule} {rs pre found : List Rule} {f : Fault}

def Unmet (e : Engine) (v : Visitor) (rs : List Rule) : Prop :=
  ∀ pre r post, rs = pre ++ r :: post → ¬ e.Meets v pre r

def FirstMet (e : Engine) (v : Visitor) (rs : List Rule) (q : Rule) : Prop :=
  ∃ pre post, rs = pre ++ q :: post ∧ e.Unmet v pre ∧ e.Meets v pre q

@[simp] theorem unmet_nil : e.Unmet v [] := by
  simp [Unmet]

theorem Unmet.cons (hr : ¬ e.Meets v [] r) (h : e.Unmet (e.behind v [r]) rs) :
    e.Unmet v (r :: rs) :=
  forall_split_cons.2 ⟨hr, fun pre s post hrs hs => h pre s post hrs (meets_cons.1 hs)⟩

theorem firstMet_head (h : e.Meets v [] r) : e.FirstMet v (r :: rs) r :=
  ⟨[], rs, rfl, unmet_nil, h⟩

theorem FirstMet.cons (hr : ¬ e.Meets v [] r) (h : e.FirstMet (e.behind v [r]) rs q) :
    e.FirstMet v (r :: rs) q := by
  obtain ⟨pre, post, rfl, hpre, hq⟩ := h
  exact ⟨r :: pre, post, rfl, hpre.cons hr, meets_cons.2 hq⟩

theorem not_meets_of_idle (h : considers r = false) : ¬ e.Meets v pre r := fun hmeets => by
  simp [hmeets.considers] at h

theorem not_meets_of_miss (h : (e.matcher.holds r.conditions v).result = .ok false) :
    ¬ e.Meets v [] r := fun hmeets => by
  cases h.symm.trans hmeets.holds

structure Fails (e : Engine) (v : Visitor) (pre : List Rule) (r : Rule) (f : Fault) : Prop where
  considers : considers r = true
  fault : (e.matcher.holds r.conditions (e.behind v pre)).result = .error f
  decided : ∀ pre' q mid, pre = pre' ++ q :: mid → Engine.considers q = true →
    ∃ b, (e.matcher.holds q.conditions (e.behind v pre')).result = .ok b

theorem Fails.cons (hq : Engine.considers q = true →
    ∃ b, (e.matcher.holds q.conditions v).result = .ok b) (h : e.Fails (e.behind v [q]) pre r f) :
    e.Fails v (q :: pre) r f := by
  refine ⟨h.considers, e.behind_cons v q pre ▸ h.fault, ?_⟩
  refine forall_split_cons.2 ⟨hq, fun pre' s mid hpre hs => ?_⟩
  rw [behind_cons]
  exact h.decided pre' s mid hpre hs

def stopping (e : Engine) : Engine := { e with config := { e.config with stopOnFirstMatch := true } }

@[simp] theorem matcher_stopping (e : Engine) : e.stopping.matcher = e.matcher := rfl

@[simp] theorem stopOnFirstMatch_stopping (e : Engine) :
    e.stopping.config.stopOnFirstMatch = true := rfl

theorem Finds.stopping (hstop : e.config.stopOnFirstMatch = false) (h : e.Finds v rs found) :
    e.stopping.Finds v rs (found.take 1) := by
  induction h with
  | nil => exact .nil
  | skip hidle _ ih => exact .skip hidle ih
  | miss hconsiders hholds _ ih => exact .miss hconsiders hholds ih
  | last _ _ hlast => simp [hstop] at hlast
  | hit hconsiders hholds _ _ _ => exact .last hconsiders hholds rfl

theorem Finds.firstMet (h : e.stopping.Finds v rs found) :
    found = [] ∨ ∃ q, found = [q] ∧ e.FirstMet v rs q := by
  induction h with
  | nil => exact .inl rfl
  | skip hidle _ ih =>
    refine ih.imp_right fun ⟨q, hfound, hq⟩ => ⟨q, hfound, .cons (not_meets_of_idle hidle) ?_⟩
    rwa [behind_of_idle hidle]
  | miss hconsiders hholds _ ih =>
    refine ih.imp_right fun ⟨q, hfound, hq⟩ => ⟨q, hfound, .cons (not_meets_of_miss hholds) ?_⟩
    rwa [behind_of_considers hconsiders]
  | last hconsiders hholds _ =>
    exact .inr ⟨_, rfl, firstMet_head (meets_of_considers hconsiders hholds)⟩
  | hit _ _ hgoes _ _ => cases hgoes

/-- What comes of rules of which one fails, if one match is enough: the same fault, unless there is a
match before it. -/
def CutShort (e : Engine) (v : Visitor) (rs : List Rule) (f : Fault)
    (result : Except Fault (List Rule)) : Prop :=
  ∃ pre r post, rs = pre ++ r :: post ∧ e.Fails v pre r f ∧
    (e.Unmet v pre ∧ result = .error f ∨ ∃ q, e.FirstMet v pre q ∧ result = .ok [q])

theorem cutShort_head (hconsiders : Engine.considers r = true)
    (hfault : (e.matcher.holds r.conditions v).result = .error f) :
    e.CutShort v (r :: rs) f (.error f) :=
  ⟨[], r, rs, rfl, ⟨hconsiders, hfault, by simp⟩, .inl ⟨unmet_nil, rfl⟩⟩

theorem CutShort.cons {result : Except Fault (List Rule)} (hr : ¬ e.Meets v [] r)
    (hdecided : Engine.considers r = true → ∃ b, (e.matcher.holds r.conditions v).result = .ok b)
    (h : e.CutShort (e.behind v [r]) rs f result) : e.CutShort v (r :: rs) f result := by
  obtain ⟨pre, s, post, rfl, hfails, hresult⟩ := h
  refine ⟨r :: pre, s, post, rfl, hfails.cons hdecided, ?_⟩
  exact hresult.imp (fun ⟨hpre, h⟩ => ⟨hpre.cons hr, h⟩) fun ⟨q, hq, h⟩ => ⟨q, hq.cons hr, h⟩

theorem CutShort.met {result : Except Fault (List Rule)} (hr : e.Meets v [] r)
    (h : e.CutShort (e.behind v [r]) rs f result) : e.CutShort v (r :: rs) f (.ok [r]) := by
  obtain ⟨pre, s, post, rfl, hfails, -⟩ := h
  exact ⟨r :: pre, s, post, rfl, hfails.cons fun _ => ⟨true, hr.holds⟩, .inr ⟨r, firstMet_head hr, rfl⟩⟩

theorem cutShort_stopping (hstop : e.config.stopOnFirstMatch = false)
    (h : (e.matching rs v).result = .error f) :
    e.CutShort v rs f (e.stopping.matching rs v).result := by
  -- Both runs reach each rule with the same visitor until one matches, and it is there they part.
  induction rs generalizing v with
  | nil => cases h
  | cons r rs ih =>
    cases hconsiders : considers r with
    | false =>
      rw [result_matching_cons, hconsiders, if_neg (by simp)] at h ⊢
      refine .cons (not_meets_of_idle hconsiders) (by simp [hconsiders]) ?_
      rw [behind_of_idle hconsiders]
      exact ih h
    | true =>
      have hbehind := e.behind_of_considers (v := v) hconsiders
      rw [result_matching_cons, if_pos hconsiders] at h ⊢
      rw [matcher_stopping]
      cases hholds : (e.matcher.holds r.conditions v).result with
      | error f' =>
        rw [hholds] at h
        cases h
        exact cutShort_head hconsiders hholds
      | ok holds =>
        rw [hholds, ← hbehind, hstop] at h
        rw [← hbehind]
        cases holds with
        | false => exact .cons (not_meets_of_miss hholds) (fun _ => ⟨false, hholds⟩) (ih h)
        | true =>
          cases hrs : (e.matching rs (e.behind v [r])).result with
          | ok found => simp [hrs, Except.map] at h
          | error f' =>
            simp only [hrs, Except.map] at h
            cases h
            exact .met (meets_of_considers hconsiders hholds) (ih hrs)

theorem calls_matching_cons (e : Engine) (r : Rule) (rs : List Rule) (v : Visitor) :
    (e.matching (r :: rs) v).calls =
      if considers r then
        match (e.matcher.holds r.conditions v).result with
        | .error _ => (e.matcher.holds r.conditions v).calls
        | .ok holds =>
          if holds && e.config.stopOnFirstMatch then (e.matcher.holds r.conditions v).calls
          else (e.matcher.holds r.conditions v).calls ++
            (e.matching rs (e.matcher.holds r.conditions v).visitor).calls
      else (e.matching rs v).calls := by
  rw [matching]
  split
  · cases hholds : (e.matcher.holds r.conditions v).result with
    | error f => rw [Run.bind_of_error hholds]
    | ok holds =>
      rw [Run.bind_of_ok hholds]
      cases holds with
      | false => rfl
      | true =>
        cases e.config.stopOnFirstMatch with
        | true => simp [Run.bind_apply, Run.pure_apply, Run.visitor, Run.notice]
        | false =>
          cases hrs : (e.matching rs (e.matcher.holds r.conditions v).visitor).result <;>
            simp [Run.bind_apply, Run.pure_apply, Run.visitor, Run.notice, hrs]
  · rfl

theorem calls_matching_stopping (hstop : e.config.stopOnFirstMatch = false) (rs : List Rule)
    (v : Visitor) : (e.stopping.matching rs v).calls <+: (e.matching rs v).calls := by
  induction rs generalizing v with
  | nil => exact List.prefix_rfl
  | cons r rs ih =>
    rw [calls_matching_cons, calls_matching_cons, matcher_stopping]
    split
    · cases (e.matcher.holds r.conditions v).result with
      | error f => exact List.prefix_rfl
      | ok holds =>
        cases holds with
        | false => simpa using ih _
        | true => simp [hstop]
    · exact ih v

theorem visitor_matching (e : Engine) (rs : List Rule) (v : Visitor) :
    (e.matching rs v).visitor = e.matcher.afterAll v (e.matching rs v).calls := by
  obtain ⟨_, hlogs, -⟩ := (Matcher.Tracks.closed e.matcher).matching (f := e)
    (fun d => (Matcher.Logged.decide d).tracks) rfl rs v
  exact hlogs.eq_afterAll

structure Truncates (e : Engine) (v : Visitor) (cut full : Outcome (List String)) : Prop where
  ok : ∀ ids, full.result = .ok ids → cut.result = .ok (ids.take 1)
  error : ∀ f, full.result = .error f →
    ∃ pre r post, e.rules = pre ++ r :: post ∧ e.Fails v pre r f ∧
      (e.Unmet v pre ∧ cut.result = .error f ∨
        ∃ q, e.FirstMet v pre q ∧ cut.result = .ok [q.id])
  calls : cut.calls <+: full.calls
  enters : ∃ found : List Rule, (found = [] ∨ ∃ q, found = [q] ∧ e.FirstMet v e.rules q) ∧
    (∀ ids, cut.result = .ok ids → ids = found.map (·.id)) ∧
    (∀ f, cut.result = .error f → found = []) ∧
    let w := e.matcher.afterAll v cut.calls
    cut.visitor = { w with
      rules := w.rules ++ found
      segments := w.segments ++ found.flatMap e.resolved }

/-- Rules behind the first match are not tried, and up to there nothing is different. -/
theorem evaluate_stopping (hstop : e.config.stopOnFirstMatch = false) (v : Visitor) :
    e.Truncates v (e.stopping.evaluate v) (e.evaluate v) := by
  constructor
  case ok =>
    intro ids hids
    obtain ⟨found, hfound, rfl⟩ := exists_of_evaluate_ok hids
    have hcut := matching_eq_ok.2 ((matching_eq_ok.1 hfound).stopping hstop)
    rw [evaluate_of_ok hcut, List.map_take]
  case error =>
    intro f hf
    have hfull : (e.matching e.rules v).result = .error f := by
      cases h : (e.matching e.rules v).result with
      | error f' => simpa [evaluate_of_error h] using hf
      | ok found => simp [evaluate_of_ok h] at hf
    obtain ⟨pre, r, post, hrules, hfails, h⟩ := cutShort_stopping hstop hfull
    refine ⟨pre, r, post, hrules, hfails, h.imp ?_ ?_⟩
    · rintro ⟨hpre, hcut⟩
      exact ⟨hpre, congrArg Outcome.result (evaluate_of_error hcut)⟩
    · rintro ⟨q, hq, hcut⟩
      exact ⟨q, hq, congrArg Outcome.result (evaluate_of_ok hcut)⟩
  case calls =>
    rw [calls_evaluate, calls_evaluate]
    exact calls_matching_stopping hstop e.rules v
  case enters =>
    rw [calls_evaluate, ← matcher_stopping, ← visitor_matching]
    cases hcut : (e.stopping.matching e.stopping.rules v).result with
    | error f =>
      rw [evaluate_of_error hcut]
      exact ⟨[], .inl rfl, nofun, fun _ _ => rfl, by simp⟩
    | ok found =>
      rw [evaluate_of_ok hcut, foldl_record]
      refine ⟨found, (matching_eq_ok.1 hcut).firstMet, fun ids hids => ?_, nofun, rfl⟩
      exact (Except.ok.inj hids).symm

theorem evaluate_stopping_second :
    let conditions : Factory := fun d =>
      if d.opens then .error (.unknownCondition d.type)
      else .ok ⟨true, fun _ => d.type == "yes", some [d.type]⟩
    let m : Matcher := ⟨conditions, fun _ => .ok fun v => (v, .ok ()), .everyCondition⟩
    let rule (id type : String) : Rule := ⟨id, "", none, true, [.ofType type], ["s"]⟩
    let bad : Rule := ⟨"d", "", none, true, [(Descriptor.ofType "other").opened], []⟩
    let short : Engine := ⟨m, [rule "a" "no", rule "b" "yes", rule "c" "yes"], ∅, ∅⟩
    let long : Engine := { short with rules := short.rules ++ [bad] }
    short.config.stopOnFirstMatch = false ∧ long.config.stopOnFirstMatch = false ∧
      (short.evaluate .anonymous).result = .ok ["b", "c"] ∧
      (short.stopping.evaluate .anonymous).result = .ok ["b"] ∧
      (long.evaluate .anonymous).result = .error (.unknownCondition "other") ∧
      (long.stopping.evaluate .anonymous).result = .ok ["b"] ∧
      long.Truncates .anonymous (long.stopping.evaluate .anonymous) (long.evaluate .anonymous) := by
  intro conditions m rule bad short long
  have hshort : (short.evaluate .anonymous).result = .ok ["b", "c"] := by cbv
  exact ⟨rfl, rfl, hshort, (evaluate_stopping rfl .anonymous).ok _ hshort, by cbv, by cbv,
    evaluate_stopping rfl .anonymous⟩

end Targeting.Engine
