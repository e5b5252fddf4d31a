import Targeting.Proofs.Brackets
import Targeting.Proofs.Evaluation
import Targeting.Proofs.Ledger
import Targeting.Proofs.Placement
import Targeting.Proofs.Resolution

namespace Targeting

theorem exceptMap_eq_error {x : Except ε α} {f : α → β} {e : ε} :
    x.map f = .error e ↔ x = .error e := by
  cases x <;> simp [Except.map]

theorem Assembly.exists_of_finish_error {a : Assembly} {f : Fault} (h : a.finish = .error f) :
    ∃ message, f = .badExpression message a.text := by
  cases hall : Expr.parseAll a.tokens with
  | error m =>
    rw [finish_of_parseAll_error hall] at h
    cases h
    exact ⟨m.message, rfl⟩
  | ok e =>
    rw [finish_of_parseAll_ok hall] at h
    cases h

namespace Matcher

variable {m : Matcher} {ds : List Descriptor} {d : Descriptor} {v : Visitor} {f : Fault}

theorem exists_of_conclude_error {a : Assembly} (h : conclude a = .error f) :
    (∃ message text, f = .badExpression message text) ∨ ∃ n, f = .unboundVariable n := by
  rcases bind_eq_error.1 h with h | ⟨e, -, h⟩
  · obtain ⟨message, rfl⟩ := Assembly.exists_of_finish_error h
    exact .inl ⟨message, _, rfl⟩
  · rcases bind_eq_error.1 h with h | ⟨_, -, h⟩
    · obtain ⟨n, -, -, rfl⟩ := Expr.exists_of_eval_error h
      exact .inr ⟨n, rfl⟩
    · cases h

theorem mem_built {cs : List Call} (h : ⟨.build d, v⟩ ∈ cs) : d ∈ built cs :=
  List.mem_filterMap.2 ⟨_, h, rfl⟩

inductive Blames (m : Matcher) (ds : List Descriptor) (f : Fault) : Prop
  | condition {d : Descriptor} : d ∈ ds → m.build d = .error f → Blames m ds f
  | missing {key : String} : m.locate key = .error f → Blames m ds f
  | provider {key : String} {p : Provider} {v : Visitor} : m.locate key = .ok p →
      (p v).2 = .error f → Blames m ds f
  | expression {a : Assembly} : conclude a = .error f → Blames m ds f

theorem blames_of_answer_error {c : Call} (hbuilt : ∀ d, c.action = .build d → d ∈ ds)
    (h : m.answer c = .error f) : m.Blames ds f := by
  obtain ⟨action, v⟩ := c
  cases action with
  | build d => exact .condition (hbuilt d rfl) (exceptMap_eq_error.1 h)
  | lookup key => exact .missing (exceptMap_eq_error.1 h)
  | load key =>
    rcases bind_eq_error.1 h with h | ⟨p, hp, h⟩
    · exact .missing h
    · exact .provider hp h
  | judge c => cases h

theorem trace_of_holds_error (h : (m.holds ds v).result = .error f) :
    (m.trace ds v).result = .error f := by
  cases ht : (m.trace ds v).result with
  | error e =>
    rw [holds, Run.bind_of_error ht] at h
    cases h
    rfl
  | ok t =>
    rw [holds, Run.bind_of_ok ht] at h
    cases h

theorem blames_of_holds (h : (m.holds ds v).result = .error f) : m.Blames ds f := by
  have htrace := trace_of_holds_error h
  obtain ⟨hcalls, -, hresult⟩ := m.trace_apply ds v
  rcases bind_eq_error.1 (hresult ▸ htrace) with hassemble | ⟨a, -, hconclude⟩
  · have hlogs := Logged.assemble (m := m) ∅ ds v
    rw [Outcome.fault?_eq_some.2 hassemble] at hlogs
    obtain ⟨c, hc, hanswer⟩ := hlogs.exists_answer_error
    refine blames_of_answer_error (fun d hd => ?_) hanswer
    obtain ⟨_, w⟩ := c
    cases hd
    exact (built_assemble ∅ ds v).subset (mem_built hc)
  · exact .expression hconclude

end Matcher

namespace Engine

variable {e : Engine} {v : Visitor} {f : Fault}

theorem exists_of_matching_error {rs : List Rule} (h : (e.matching rs v).result = .error f) :
    ∃ r ∈ rs, considers r = true ∧ e.matcher.Blames r.conditions f := by
  induction rs generalizing v with
  | nil => cases h
  | cons r rs ih =>
    have later {w : Visitor} (hrs : (e.matching rs w).result = .error f) :
        ∃ q ∈ r :: rs, considers q = true ∧ e.matcher.Blames q.conditions f := by
      obtain ⟨q, hq, hblames⟩ := ih hrs
      exact ⟨q, List.mem_cons_of_mem r hq, hblames⟩
    rw [result_matching_cons] at h
    split at h
    case isFalse => exact later h
    case isTrue hconsiders =>
      split at h
      case h_1 hholds =>
        cases h
        exact ⟨r, List.mem_cons_self, hconsiders, Matcher.blames_of_holds hholds⟩
      case h_2 => exact later h
      case h_3 =>
        split at h
        case isTrue => cases h
        case isFalse => exact later (exceptMap_eq_error.1 h)

theorem exists_of_evaluate_error (h : (e.evaluate v).result = .error f) :
    ∃ r ∈ e.rules, considers r = true ∧ e.matcher.Blames r.conditions f := by
  cases hmatching : (e.matching e.rules v).result with
  | ok found =>
    rw [evaluate_of_ok hmatching] at h
    cases h
  | error f' =>
    rw [evaluate_of_error hmatching] at h
    cases h
    exact exists_of_matching_error hmatching

end Engine

def Notice.unregistered? : Notice → Option (String × String)
  | .unregistered rule type => some (rule, type)
  | _ => none

theorem Notice.unregistered?_eq_some {n : Notice} {rule type : String} :
    n.unregistered? = some (rule, type) ↔ n = .unregistered rule type := by
  cases n <;> simp [unregistered?]

def ConditionRegistry.lacking (c : ConditionRegistry) (r : Rule) : List (String × String) :=
  (r.conditions.filter fun d => (c.factories.get? d.type).isNone).map fun d => (r.id, d.type)

theorem ConditionRegistry.mem_lacking {c : ConditionRegistry} {r : Rule} {d : Descriptor}
    (hd : d ∈ r.conditions) (h : c.factories.get? d.type = none) : (r.id, d.type) ∈ c.lacking r :=
  List.mem_map.2 ⟨d, List.mem_filter.2 ⟨hd, by rw [h]; rfl⟩, rfl⟩

namespace Builder

variable {b : Builder} {files : Files} {w : Wording} {e : Engine} {ns : List Notice}

theorem filterMap_warnings (hb : b.factory = none) (s : RuleSet) :
    (b.warnings s).filterMap Notice.unregistered? = s.rules.flatMap b.conditions.lacking := by
  have hlacks (type : String) :
      (!b.conditions.contains type) = (b.conditions.factories.get? type).isNone := by
    simp [ConditionRegistry.contains, Table.contains]
  rw [warnings, hb, List.filterMap_flatMap]
  refine congrArg (List.flatMap · s.rules) (funext fun r => ?_)
  simp only [List.filterMap_map, ConditionRegistry.lacking, hlacks]
  exact congrFun List.filterMap_eq_map _

theorem notices_of_build (hb : b.factory = none) (h : b.build files w = .ok (e, ns)) :
    e.matcher = b.matcher ∧
      ns.filterMap Notice.unregistered? = e.rules.flatMap b.conditions.lacking := by
  rw [build] at h
  obtain ⟨s, -, h⟩ := Expr.bind_eq_ok.1 h
  obtain ⟨-, h⟩ := check_bind_eq_ok.1 h
  cases h
  refine ⟨rfl, ?_⟩
  rw [List.filterMap_append, filterMap_warnings hb]
  exact List.append_nil _

/-- That a type is unknown is left for the registry of conditions to say. -/
structure Reserved (b : Builder) : Prop where
  conditions : ∀ type f d t, b.conditions.factories.get? type = some f →
    f d ≠ .error (.unknownCondition t)
  locator : ∀ l key t, b.locator = some l → l key ≠ .error (.unknownCondition t)
  providers : ∀ key p v t, b.matcher.locate key = .ok p → (p v).2 ≠ .error (.unknownCondition t)

theorem Reserved.locate_ne (h : b.Reserved) (key t : String) :
    b.matcher.locate key ≠ .error (.unknownCondition t) := by
  cases hlocator : b.locator with
  | some l =>
    have : b.matcher.locate = l := by simp [matcher, hlocator]
    exact this ▸ h.locator l key t hlocator
  | none =>
    have : b.matcher.locate = b.providers.locate := by simp [matcher, hlocator]
    rw [this, ProviderRegistry.locate]
    split <;> simp

theorem reserved_of_empty (hconditions : b.conditions = ∅) (hproviders : b.providers = ∅)
    (hlocator : b.locator = none) : b.Reserved where
  conditions type f _ _ h := by
    rw [hconditions] at h
    cases h
  locator l _ _ h := by
    rw [hlocator] at h
    cases h
  providers key p _ _ h := by
    simp only [matcher, hproviders, hlocator] at h
    cases h

theorem Reserved.registerCondition (h : b.Reserved) (type : String) {f : Factory}
    (hf : ∀ d t, f d ≠ .error (.unknownCondition t)) : (b.registerCondition type f).Reserved := by
  refine ⟨fun type' g d t hg => ?_, h.locator, h.providers⟩
  rw [Builder.registerCondition, ConditionRegistry.register, Table.get?_insert] at hg
  split at hg
  · cases hg
    exact hf d t
  · exact h.conditions type' g d t hg

theorem Reserved.exists_of_blames (h : b.Reserved) (hb : b.factory = none) {ds : List Descriptor}
    {t : String} (hblames : b.matcher.Blames ds (.unknownCondition t)) :
    ∃ d ∈ ds, d.type = t ∧ b.conditions.factories.get? d.type = none := by
  cases hblames with
  | @condition d hd hbuild =>
    have : b.matcher.build = b.conditions.build := by simp [matcher, hb]
    rw [this, ConditionRegistry.build] at hbuild
    split at hbuild
    next f hf => exact absurd hbuild (h.conditions _ f d t hf)
    next hnone =>
      cases hbuild
      exact ⟨d, hd, rfl, hnone⟩
  | missing hlocate => exact absurd hlocate (h.locate_ne _ t)
  | provider hlocate hload => exact absurd hload (h.providers _ _ _ t hlocate)
  | expression hconclude =>
    rcases Matcher.exists_of_conclude_error hconclude with ⟨_, _, h⟩ | ⟨_, h⟩ <;> cases h

/-- The notices about types name exactly the conditions that nobody registered a factory for, and
where the registry alone says that a type is unknown, it says so of none but those. -/
theorem unregistered_of_build (hb : b.factory = none) (h : b.build files w = .ok (e, ns)) :
    ns.filterMap Notice.unregistered? = e.rules.flatMap b.conditions.lacking ∧
    (b.Reserved →
      (∀ v t, (e.evaluate v).result = .error (.unknownCondition t) →
        ∃ r ∈ e.rules, r.enabled = true ∧ .unregistered r.id t ∈ ns) ∧
      (ns.filterMap Notice.unregistered? = [] →
        ∀ v t, (e.evaluate v).result ≠ .error (.unknownCondition t))) := by
  obtain ⟨hmatcher, hnotices⟩ := notices_of_build hb h
  have named : b.Reserved → ∀ v t, (e.evaluate v).result = .error (.unknownCondition t) →
      ∃ r ∈ e.rules, r.enabled = true ∧ .unregistered r.id t ∈ ns := by
    intro reserved v t hfault
    obtain ⟨r, hr, hconsiders, hblames⟩ := Engine.exists_of_evaluate_error hfault
    obtain ⟨d, hd, rfl, hnone⟩ := reserved.exists_of_blames hb (hmatcher ▸ hblames)
    have hmem : (r.id, d.type) ∈ ns.filterMap Notice.unregistered? :=
      hnotices ▸ List.mem_flatMap.2 ⟨r, hr, ConditionRegistry.mem_lacking hd hnone⟩
    obtain ⟨n, hn, hname⟩ := List.mem_filterMap.1 hmem
    rw [Notice.unregistered?_eq_some] at hname
    exact ⟨r, hr, (Bool.and_eq_true_iff.1 hconsiders).1, hname ▸ hn⟩
  refine ⟨hnotices, fun reserved => ⟨named reserved, fun hnone v t hfault => ?_⟩⟩
  obtain ⟨r, -, -, hmem⟩ := named reserved v t hfault
  have : (r.id, t) ∈ ns.filterMap Notice.unregistered? := List.mem_filterMap.2 ⟨_, hmem, rfl⟩
  simp [hnone] at this

theorem unregistered_of_build_twice :
    let everyone : Factory := fun _ => .ok ⟨false, fun _ => false, none⟩
    let b := (((empty.addSegment ⟨"alps", "Alps"⟩).addRule
      ⟨"off", "Off", none, false, [.ofType "region"], ["alps"]⟩).addRule
      ⟨"on", "On", none, true, [.ofType "any", .ofType "browser", .ofType "browser"],
        ["alps"]⟩).registerCondition "any" everyone
    let b' := (b.registerCondition "browser" everyone).registerCondition "region" everyone
    (∃ e ns, b.build (fun _ => .error .notFound) default = .ok (e, ns) ∧
      ns.filterMap Notice.unregistered? =
        [("off", "region"), ("on", "browser"), ("on", "browser")] ∧
      (e.evaluate .anonymous).result = .error (.unknownCondition "browser") ∧
      ∃ r ∈ e.rules, r.enabled = true ∧ .unregistered r.id "browser" ∈ ns) ∧
    ∃ e ns, b'.build (fun _ => .error .notFound) default = .ok (e, ns) ∧
      ns.filterMap Notice.unregistered? = [] ∧
      ∀ v t, (e.evaluate v).result ≠ .error (.unknownCondition t) := by
  intro everyone b b'
  have builds : ∀ d t, everyone d ≠ .error (.unknownCondition t) := by simp [everyone]
  have reserved : b.Reserved :=
    (reserved_of_empty rfl rfl rfl).registerCondition "any" builds
  have reserved' : b'.Reserved :=
    (reserved.registerCondition "browser" builds).registerCondition "region" builds
  constructor
  · have hrun : (b.build (fun _ => .error .notFound) default).toOption.map (fun p =>
        (p.2.filterMap Notice.unregistered?, (p.1.evaluate .anonymous).fault?)) =
        some ([("off", "region"), ("on", "browser"), ("on", "browser")],
          some (.unknownCondition "browser")) := by
      simp only [everyone, b]
      decide +kernel
    obtain ⟨⟨e, ns⟩, hbuild, hrun⟩ := Option.map_eq_some_iff.1 hrun
    have hbuild := toOption_eq_some.1 hbuild
    obtain ⟨hnotices, hfault⟩ := Prod.mk.inj hrun
    have hfault := Outcome.fault?_eq_some.1 hfault
    exact ⟨e, ns, hbuild, hnotices, hfault,
      ((unregistered_of_build rfl hbuild).2 reserved).1 _ _ hfault⟩
  · have hrun : (b'.build (fun _ => .error .notFound) default).toOption.map (fun p =>
        p.2.filterMap Notice.unregistered?) = some [] := by
      simp only [everyone, b, b']
      decide +kernel
    obtain ⟨⟨e, ns⟩, hbuild, hnotices⟩ := Option.map_eq_some_iff.1 hrun
    have hbuild := toOption_eq_some.1 hbuild
    exact ⟨e, ns, hbuild, hnotices, ((unregistered_of_build rfl hbuild).2 reserved').2 hnotices⟩

end Builder

end Targeting
