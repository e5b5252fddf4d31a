import Targeting.Proofs.Alike
import Targeting.Proofs.Brackets
import Targeting.Proofs.Placement
import Targeting.Proofs.Printing

namespace Targeting

attribute [local instance] Run.lawful

def Token.Upholds (b : Table Bool) : Token → Prop
  | .var n => b.get? n = some true
  | .not => False
  | _ => True

theorem Expr.Derives.eval_of_upholds {b : Table Bool} {l : Level} {ts : List Token} {e : Expr}
    (h : Derives l ts e) (hts : ∀ t ∈ ts, t.Upholds b) : e.eval b = .ok true := by
  induction h with
  | @or ps hlen _ ih =>
    have hps : ∀ p ∈ ps, p.2.eval b = .ok true := fun p hp =>
      ih p hp fun t ht => hts t (mem_intercalate hp ht)
    have hne : ps ≠ [] := List.ne_nil_of_length_pos (by omega)
    rw [eval, evalOr_map hps]
    simpa [List.any_eq_true] using List.exists_mem_of_ne_nil ps hne
  | ofAnd _ ih => exact ih hts
  | @and ps _ _ ih =>
    have hps : ∀ p ∈ ps, p.2.eval b = .ok true := fun p hp =>
      ih p hp fun t ht => hts t (mem_intercalate hp ht)
    rw [eval, evalAnd_map hps]
    simp
  | ofUnary _ ih => exact ih hts
  | not _ _ => exact (hts .not (by simp)).elim
  | ofPrimary _ ih => exact ih hts
  | @var n =>
    have hn : b.get? n = some true := hts (.var n) (by simp)
    rw [eval, hn]
  | group _ ih => exact ih fun t ht => hts t (by simp [ht])

def Descriptor.Affirms (d : Descriptor) : Prop := d.joint = .and ∨ d.joint = .or

instance (d : Descriptor) : Decidable d.Affirms := inferInstanceAs (Decidable (_ ∨ _))

theorem Descriptor.Affirms.joins {d : Descriptor} (h : d.Affirms) : d.joint.Joins := by
  rcases h with h | h <;> rw [h]
  · exact ⟨.and, 0, .inl rfl, rfl⟩
  · exact ⟨.or, 0, .inr rfl, rfl⟩

namespace Assembly

variable {b : Table Bool}

theorem upholds_termTokens {first : Bool} {d : Descriptor} {n : String}
    (hd : first = false → d.Affirms) (hn : b.get? n = some true) :
    ∀ u ∈ termTokens first d n, u.Upholds b := by
  have hjoint : first = false → ∀ u ∈ d.joint.tokens, u.Upholds b := by
    intro hfirst
    rcases hd hfirst with h | h <;> simp [h, Operator.tokens, Token.Upholds]
  simp only [termTokens, List.forall_mem_append]
  refine ⟨⟨⟨?_, ?_⟩, ?_⟩, ?_⟩
  · cases first with
    | true => simp
    | false => exact hjoint rfl
  · split <;> simp [Token.Upholds]
  · simpa [Token.Upholds] using hn
  · split <;> simp [Token.Upholds]

theorem Spells.upholds {first : Bool} {ts : List Term} {us : List Token} (h : Spells b first ts us)
    (hts : ∀ t ∈ ts, t.2 = true) (haffirms : ∀ t ∈ if first then ts.tail else ts, t.1.Affirms) :
    ∀ u ∈ us, u.Upholds b := by
  induction h with
  | nil => simp
  | @cons n t ts us first hn _ ih =>
    obtain ⟨ht, hts⟩ := List.forall_mem_cons.1 hts
    rw [List.forall_mem_append]
    constructor
    · refine upholds_termTokens (fun hfirst => haffirms t ?_) (hn.trans (congrArg some ht))
      simp [hfirst]
    · refine ih hts fun u hu => haffirms u ?_
      cases first with
      | true => exact hu
      | false => exact List.mem_cons_of_mem t hu

theorem conclude_of_affirms {ts : List Term} (hne : ts ≠ []) (hts : ∀ t ∈ ts, t.2 = true)
    (haffirms : ∀ t ∈ ts.tail, t.1.Affirms) (balanced : Term.Balanced 0 ts) :
    ∃ t, Matcher.conclude (ofTerms ts) = .ok t ∧ t.result = true := by
  have spells := spells_ofTerms ts
  have joined : Joined ts := fun t ht => (haffirms t ht).joins
  obtain ⟨e, he, -⟩ := Spells.denotes.1 ts hne balanced joined _ spells
  have heval : e.eval (ofTerms ts).bindings = .ok true :=
    he.eval_of_upholds (spells.upholds hts haffirms)
  have hparse := Expr.parse_eq_ok_iff.1 (Expr.parse_eq_ok.2 he)
  let a : Assembled := ⟨(ofTerms ts).text, e, (ofTerms ts).bindings, (ofTerms ts).names⟩
  refine ⟨⟨a.source, a.ordered, true⟩, ?_, rfl⟩
  rw [Matcher.conclude, finish_of_parseAll_ok hparse]
  change a.eval >>= _ = _
  rw [Assembled.eval, heval]
  rfl

end Assembly

namespace Condition

def always : Condition := ⟨true, fun _ => true, none⟩

/-- The condition, or one that always holds in place of one that is not configured. -/
def orAlways (c : Condition) : Condition := if c.configured then c else always

end Condition

def Call.request? (c : Call) : Option Call :=
  match c.action with
  | .judge _ => none
  | _ => some c

theorem Run.lift_map (f : α → β) (r : Except Fault α) : lift (r.map f) = f <$> lift r := by
  cases r <;> rfl

namespace Matcher

def orAlways (m : Matcher) : Matcher := { m with build := fun d => (m.build d).map .orAlways }

theorem seen_ask_orAlways (m : Matcher) (c : Condition) :
    (m.orAlways.ask c.orAlways).seen Call.request? = (m.ask c).seen Call.request? := by
  cases hconf : c.configured with
  | true =>
    have hc : c.orAlways = c := by simp [Condition.orAlways, hconf]
    rw [hc]
    exact (Run.closed_seen Call.request?).ask (m := m.orAlways) (n := m) (fun _ => rfl) c rfl
  | false =>
    have hc : c.orAlways = .always := by simp [Condition.orAlways, hconf]
    rw [hc]
    funext v
    -- asking what always holds is one call more, and it is not shown
    simp only [Run.seen, ask_of_unconfigured hconf]
    rfl

theorem seen_decide_orAlways (m : Matcher) (d : Descriptor) :
    (m.orAlways.decide d).seen Call.request? = (m.decide d).seen Call.request? := by
  have hbuild : Run.lift (m.orAlways.build d) = Condition.orAlways <$> Run.lift (m.build d) :=
    Run.lift_map Condition.orAlways (m.build d)
  simp only [decide_eq, hbuild, bind_map_left, Run.seen_bind, seen_ask_orAlways]

def Unconfigured (m : Matcher) (d : Descriptor) : Prop := ∃ c, m.build d = .ok c ∧ c.configured = false

theorem Unconfigured.decide {m : Matcher} {d : Descriptor} (h : m.Unconfigured d) (v : Visitor) :
    m.decide d v = ⟨.ok true, v, [⟨.build d, v⟩], []⟩ := by
  obtain ⟨c, hbuild, hconf⟩ := h
  rw [decide_of_ok hbuild, ask_of_unconfigured hconf]

theorem outcomes_of_unconfigured {m : Matcher} {ds : List Descriptor} (h : ∀ d ∈ ds, m.Unconfigured d)
    (v : Visitor) :
    m.outcomes ds v = ⟨.ok (ds.map fun _ => true), v, ds.map fun d => ⟨.build d, v⟩, []⟩ := by
  induction ds with
  | nil => rfl
  | cons d ds ih =>
    obtain ⟨hd, hds⟩ := List.forall_mem_cons.1 h
    rw [outcomes, Run.bind_apply, hd.decide v]
    simp [Run.bind_apply, Run.pure_apply, ih hds]

/-- It makes no difference to requests, visitor and result what conditions that are not configured
require or answer, and such conditions alone are true together without a request but to build
them. -/
theorem trace_orAlways (m : Matcher) :
    (∀ ds v,
      (m.orAlways.trace ds v).result = (m.trace ds v).result ∧
      (m.orAlways.trace ds v).visitor = (m.trace ds v).visitor ∧
      (m.orAlways.trace ds v).calls.filterMap Call.request? =
        (m.trace ds v).calls.filterMap Call.request?) ∧
    ∀ ds v, (∀ d ∈ ds, m.Unconfigured d) →
      (m.trace ds v).calls = (ds.map fun d => ⟨.build d, v⟩) ∧
      (m.trace ds v).visitor = v ∧
      (ds ≠ [] → (∀ d ∈ ds.tail, d.Affirms) → Term.Balanced 0 (ds.map fun d => (d, true)) →
        (m.holds ds v).result = .ok true) := by
  constructor
  · intro ds v
    have h := seen_trace m.seen_decide_orAlways ds
    exact ⟨Run.result_of_seen h v, Run.visitor_of_seen h v, Run.calls_of_seen h v⟩
  · intro ds v hds
    obtain ⟨hcalls, hvisitor, hresult⟩ := m.trace_outcomes ds v
    rw [outcomes_of_unconfigured hds v] at hcalls hvisitor hresult
    refine ⟨hcalls, hvisitor, fun hne haffirms balanced => ?_⟩
    have hzip : ds.zip (ds.map fun _ => true) = ds.map fun d => (d, true) :=
      List.map_prod_left_eq_zip.symm
    have hne : (ds.map fun d => (d, true)) ≠ [] := by simpa using hne
    have haffirms : ∀ t ∈ (ds.map fun d => (d, true)).tail, t.1.Affirms := by
      simpa [← List.map_tail] using haffirms
    obtain ⟨t, ht, htrue⟩ := Assembly.conclude_of_affirms hne (by simp) haffirms balanced
    have hok : (m.trace ds v).result = .ok t := by
      rw [hresult]
      change Matcher.conclude (.ofTerms (ds.zip _)) = _
      rw [hzip, ht]
    rw [holds, Run.bind_of_ok hok]
    exact congrArg Except.ok htrue

theorem trace_orAlways_missing :
    let m : Matcher := ⟨fun _ => .ok ⟨false, fun _ => false, some ["geo"]⟩,
      fun key => .error (.unknownProvider key), .everyCondition⟩
    let ds : List Descriptor := [(Descriptor.ofType "a").opened,
      ((Descriptor.ofType "b").withOperator .or).closed, .ofType "c"]
    (m.trace ds .anonymous).calls = (ds.map fun d => ⟨.build d, .anonymous⟩) ∧
      (m.trace ds .anonymous).visitor = .anonymous ∧
      (m.holds ds .anonymous).result = .ok true := by
  intro m ds
  have unconfigured : ∀ d ∈ ds, m.Unconfigured d := fun _ _ => ⟨_, rfl, rfl⟩
  obtain ⟨calls, visitor, holds⟩ := m.trace_orAlways.2 ds .anonymous unconfigured
  exact ⟨calls, visitor, holds (by simp [ds]) (by decide) (by decide)⟩

end Matcher

end Targeting
