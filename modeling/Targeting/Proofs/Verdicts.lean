import Targeting.Proofs.Closure
import Targeting.Proofs.Resolution

namespace Targeting

namespace Engine

variable {e : Engine} {v : Visitor} {r : Rule} {rs pre found : List Rule}

def behind (e : Engine) (v : Visitor) (rs : List Rule) : Visitor :=
  (rs.filter considers).foldl (fun v r => (e.matcher.holds r.conditions v).visitor) v

@[simp] theorem behind_nil (e : Engine) (v : Visitor) : e.behind v [] = v := rfl

theorem behind_cons (e : Engine) (v : Visitor) (r : Rule) (rs : List Rule) :
    e.behind v (r :: rs) = e.behind (e.behind v [r]) rs := by
  cases h : considers r <;> simp [behind, h]

theorem behind_of_idle (h : considers r = false) : e.behind v [r] = v := by
  simp [behind, h]

theorem behind_of_considers (h : considers r = true) :
    e.behind v [r] = (e.matcher.holds r.conditions v).visitor := by
  simp [behind, h]

structure Meets (e : Engine) (v : Visitor) (pre : List Rule) (r : Rule) : Prop where
  enabled : r.enabled = true
  conditions : r.conditions ≠ []
  holds : (e.matcher.holds r.conditions (e.behind v pre)).result = .ok true

theorem Meets.considers (h : e.Meets v pre r) : considers r = true := by
  simp [Engine.considers, h.enabled, h.conditions]

theorem meets_of_considers (h : Engine.considers r = true)
    (hholds : (e.matcher.holds r.conditions v).result = .ok true) : e.Meets v [] r := by
  simp only [Engine.considers, Bool.and_eq_true, Bool.not_eq_true', List.isEmpty_eq_false_iff] at h
  exact ⟨h.1, h.2, hholds⟩

theorem meets_cons {q : Rule} : e.Meets v (q :: pre) r ↔ e.Meets (e.behind v [q]) pre r := by
  constructor
  · rintro ⟨henabled, hconditions, hholds⟩
    exact ⟨henabled, hconditions, e.behind_cons v q pre ▸ hholds⟩
  · rintro ⟨henabled, hconditions, hholds⟩
    exact ⟨henabled, hconditions, e.behind_cons v q pre ▸ hholds⟩

/-- The rule that stands behind `pre` is reported: nothing before it is, where one is enough. -/
def Reports (e : Engine) (v : Visitor) (pre : List Rule) (r : Rule) : Prop :=
  e.Meets v pre r ∧ (e.config.stopOnFirstMatch = true →
    ∀ pre' q mid, pre = pre' ++ q :: mid → ¬ e.Meets v pre' q)

theorem reports_nil : e.Reports v [] r ↔ e.Meets v [] r := by
  simp [Reports]

theorem reports_cons {q : Rule} : e.Reports v (q :: pre) r ↔
    (e.config.stopOnFirstMatch = true → ¬ e.Meets v [] q) ∧ e.Reports (e.behind v [q]) pre r := by
  rw [Reports, Reports, meets_cons]
  constructor
  · rintro ⟨hmeets, hfirst⟩
    refine ⟨fun hstop => hfirst hstop [] q pre rfl, hmeets, ?_⟩
    rintro hstop pre' s mid rfl hs
    exact hfirst hstop (q :: pre') s mid rfl (meets_cons.2 hs)
  · rintro ⟨hq, hmeets, hfirst⟩
    refine ⟨hmeets, fun hstop pre' s mid hpre hs => ?_⟩
    cases pre' with
    | nil =>
      cases hpre
      exact hq hstop hs
    | cons p pre' =>
      cases hpre
      exact hfirst hstop pre' s mid rfl (meets_cons.1 hs)

theorem Finds.cases_cons (h : e.Finds v (r :: rs) found) :
    (¬ e.Meets v [] r ∧ e.Finds (e.behind v [r]) rs found) ∨
    (e.Meets v [] r ∧ e.config.stopOnFirstMatch = true ∧ found = [r]) ∨
    (e.Meets v [] r ∧ e.config.stopOnFirstMatch = false ∧
      ∃ found', found = r :: found' ∧ e.Finds (e.behind v [r]) rs found') := by
  cases h with
  | skip hidle h =>
    refine .inl ⟨fun hmeets => ?_, (behind_of_idle hidle).symm ▸ h⟩
    simp [hmeets.considers] at hidle
  | miss hconsiders hholds h =>
    refine .inl ⟨fun hmeets => ?_, (behind_of_considers hconsiders).symm ▸ h⟩
    simpa [hholds] using hmeets.holds
  | last hconsiders hholds hstop =>
    exact .inr (.inl ⟨meets_of_considers hconsiders hholds, hstop, rfl⟩)
  | hit hconsiders hholds hstop h =>
    exact .inr (.inr ⟨meets_of_considers hconsiders hholds, hstop, _, rfl,
      (behind_of_considers hconsiders).symm ▸ h⟩)

theorem Finds.mem_iff (h : e.Finds v rs found) (hids : (rs.map (·.id)).Nodup) {post : List Rule}
    (hrs : rs = pre ++ r :: post) : r.id ∈ found.map (·.id) ↔ e.Reports v pre r := by
  induction rs generalizing v found pre with
  | nil => simp at hrs
  | cons q rs ih =>
    obtain ⟨hq, hids⟩ := List.nodup_cons.1 hids
    have hfound {found : List Rule} (h : e.Finds (e.behind v [q]) rs found) :
        q.id ∉ found.map (·.id) := fun hmem => hq ((h.sublist.map _).subset hmem)
    cases pre with
    | nil =>
      cases hrs
      rw [reports_nil]
      rcases h.cases_cons with ⟨hmeets, h⟩ | ⟨hmeets, -, rfl⟩ | ⟨hmeets, -, found', rfl, -⟩
      · simp only [hmeets, hfound h]
      · simp [hmeets]
      · simp [hmeets]
    | cons p pre =>
      cases hrs
      have hne : r.id ≠ q.id := fun heq => hq (by simp [← heq])
      rw [reports_cons]
      rcases h.cases_cons with ⟨hmeets, hrest⟩ | ⟨hmeets, hstop, rfl⟩ | ⟨-, hstop, _, rfl, hrest⟩
      · simp [hmeets, ih hrest hids rfl]
      · simp [hmeets, hstop, hne]
      · simp [hstop, hne, ← ih hrest hids rfl]

end Engine

def Rule.Idle (r : Rule) : Prop := r.enabled = false ∨ r.conditions = []

inductive UpToIdle : List Rule → List Rule → Prop
  | nil : UpToIdle [] []
  | keep {r : Rule} {rs rs' : List Rule} : UpToIdle rs rs' → UpToIdle (r :: rs) (r :: rs')
  | insert {r : Rule} {rs rs' : List Rule} : r.Idle → UpToIdle rs rs' → UpToIdle rs (r :: rs')
  | delete {r : Rule} {rs rs' : List Rule} : r.Idle → UpToIdle rs rs' → UpToIdle (r :: rs) rs'

namespace Engine

variable {e f : Engine} {r : Rule} {rs rs' : List Rule}

theorem considers_of_idle (h : r.Idle) : considers r = false := by
  rcases h with h | h <;> simp [considers, h]

theorem matching_of_idle (h : r.Idle) : e.matching (r :: rs) = e.matching rs := by
  rw [matching, considers_of_idle h]
  rfl

theorem matching_upToIdle (h : UpToIdle rs rs') : e.matching rs = e.matching rs' := by
  induction h with
  | nil => rfl
  | keep _ ih => rw [matching, matching, ih]
  | insert hidle _ ih => rw [matching_of_idle hidle, ih]
  | delete hidle _ ih => rw [matching_of_idle hidle, ih]

theorem evaluate_upToIdle (hmatcher : f.matcher = e.matcher) (hsegment : f.segment? = e.segment?)
    (hstop : f.config.stopOnFirstMatch = e.config.stopOnFirstMatch)
    (hrules : UpToIdle e.rules f.rules) : f.evaluate = e.evaluate := by
  have hmatching : f.matching f.rules = e.matching e.rules := by
    rw [← matching_upToIdle hrules]
    exact Run.closed_eq.matching (fun d => by rw [hmatcher]) hstop e.rules
  have hrecord : f.record = e.record := by
    funext v r
    rw [record, record, hsegment]
  rw [evaluate, evaluate, hmatching, hrecord]

end Engine

namespace Builder

variable {b : Builder} {files : Files} {w : Wording} {e : Engine} {ns : List Notice}

theorem matcher_of_build (h : b.build files w = .ok (e, ns)) : e.matcher = b.matcher := by
  obtain ⟨s, -, h⟩ := Expr.bind_eq_ok.1 h
  obtain ⟨-, h⟩ := check_bind_eq_ok.1 h
  cases h
  rfl

/-- An evaluation that comes to an end returns the ids of the rules that hold where their turn
comes, and enters these rules. Rules that are never considered leave no trace of any kind. -/
theorem build_reports (h : b.build files w = .ok (e, ns)) (hledger : b.matcher.KeepsLedger) :
    (∀ v ids, (e.evaluate v).result = .ok ids →
      ids.Sublist (e.rules.map (·.id)) ∧ ids.Nodup ∧
      (∀ pre r post, e.rules = pre ++ r :: post → (r.id ∈ ids ↔ e.Reports v pre r)) ∧
      ∃ found : List Rule, found.Sublist e.rules ∧ ids = found.map (·.id) ∧
        (e.evaluate v).visitor.rules = v.rules ++ found ∧
        (e.evaluate v).visitor.segments = v.segments ++ found.flatMap e.resolved) ∧
    ∀ f : Engine, f.matcher = e.matcher → f.segment? = e.segment? →
      f.config.stopOnFirstMatch = e.config.stopOnFirstMatch → UpToIdle e.rules f.rules →
      f.evaluate = e.evaluate := by
  refine ⟨fun v ids hids => ?_, fun f => Engine.evaluate_upToIdle⟩
  obtain ⟨s, -, hs, hrules, -⟩ := exists_of_build h
  have hdistinct : (e.rules.map (·.id)).Nodup := hrules ▸ hs.rules
  obtain ⟨found, hfound, rfl⟩ := Engine.exists_of_evaluate_ok hids
  have hfinds := Engine.matching_eq_ok.1 hfound
  have hsublist := hfinds.sublist.map (·.id)
  obtain ⟨hledgerRules, hledgerSegments⟩ :=
    (Engine.keepsLedger_matching (matcher_of_build h ▸ hledger) e.rules v).2
  refine ⟨hsublist, hsublist.nodup hdistinct, fun pre r post => hfinds.mem_iff hdistinct,
    found, hfinds.sublist, rfl, ?_, ?_⟩
  · rw [Engine.evaluate_of_ok hfound, Engine.foldl_record, hledgerRules]
  · rw [Engine.evaluate_of_ok hfound, Engine.foldl_record, hledgerSegments]

theorem build_reports_idle :
    let conditions : Factory := fun d => .ok ⟨true, (·.has "country"),
      if d.type == "located" then some ["geo"] else none⟩
    let geo : Locator := fun _ => .ok fun v => (v.set "country" (.string "AT"), .ok ())
    let located : Rule := ⟨"located", "", none, true, [.ofType "located"], []⟩
    let off : Rule := ⟨"off", "", none, false, [.ofType "located"], []⟩
    let bare : Rule := ⟨"bare", "", none, true, [], []⟩
    let known : Rule := ⟨"known", "", none, true, [.ofType "known"], []⟩
    let b := ((((((∅ : Builder).withFactory conditions).withLocator geo).addRule located).addRule
      off).addRule bare).addRule known
    ∃ e ns, b.build (fun _ => .error .notFound) default = .ok (e, ns) ∧ b.matcher.KeepsLedger ∧
      (e.evaluate .anonymous).result = .ok ["located", "known"] ∧
      e.Reports .anonymous [located, off, bare] known ∧
      (e.evaluate .anonymous).visitor.rules = [located, known] ∧
      ({ e with rules := [located, known] } : Engine).evaluate = e.evaluate := by
  intro conditions geo located off bare known b
  have keeps : b.matcher.KeepsLedger := by
    intro key p hp v
    cases hp
    exact ⟨rfl, rfl⟩
  let e : Engine := ⟨⟨conditions, geo, .everyCondition⟩, [located, off, bare, known], ∅, ∅⟩
  have hbuild : b.build (fun _ => .error .notFound) default = .ok (e, [.built 4 0]) := by cbv
  have hresult : (e.evaluate .anonymous).result = .ok ["located", "known"] := by cbv
  obtain ⟨hok, hidle⟩ := build_reports hbuild keeps
  have hreports := (hok _ _ hresult).2.2.1
  refine ⟨e, _, hbuild, keeps, hresult, (hreports _ _ [] rfl).1 (by simp [known]), by cbv, ?_⟩
  exact hidle _ rfl rfl rfl (.keep (.delete (.inl rfl) (.delete (.inr rfl) (.keep .nil))))

end Builder

end Targeting
