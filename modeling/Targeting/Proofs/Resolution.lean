import Targeting.Builder
import Targeting.Proofs.Ledger
import Targeting.Proofs.Traversal

namespace Targeting

def Fresh (seen ids : List String) : Prop := ids.Nodup ∧ ∀ id ∈ ids, id ∉ seen

@[simp] theorem fresh_nil (seen : List String) : Fresh seen [] := ⟨.nil, nofun⟩

theorem fresh_cons {seen ids : List String} {id : String} :
    Fresh seen (id :: ids) ↔ id ∉ seen ∧ Fresh (id :: seen) ids := by
  rw [Fresh, Fresh, List.nodup_cons, List.forall_mem_cons]
  simp only [List.mem_cons, not_or]
  constructor
  · rintro ⟨⟨hid, hids⟩, hseen, hrest⟩
    exact ⟨hseen, hids, fun j hj => ⟨fun heq => hid (heq ▸ hj), hrest j hj⟩⟩
  · rintro ⟨hseen, hids, hrest⟩
    exact ⟨⟨fun hid => (hrest id hid).1 rfl, hids⟩, hseen, fun j hj => (hrest j hj).2⟩

theorem fresh_nil_iff {ids : List String} : Fresh [] ids ↔ ids.Nodup := by
  simp [Fresh]

namespace Rule

theorem repeated?_eq_none {seen ids : List String} :
    repeated? seen ids = none ↔ Fresh seen ids := by
  induction ids generalizing seen with
  | nil => simp [repeated?]
  | cons id ids ih =>
    rw [fresh_cons, ← ih, repeated?]
    split
    case isTrue h => simp [h]
    case isFalse h => simp [h]

def WellFormed (r : Rule) : Prop := Text.isBlankText r.id = false ∧ r.segments.Nodup

theorem validate_eq_ok {r : Rule} : r.validate = .ok () ↔ r.WellFormed := by
  rw [validate, ite_throw_eq_ok, WellFormed, ← fresh_nil_iff, ← repeated?_eq_none]
  cases repeated? [] r.segments <;> simp [throw, throwThe, MonadExceptOf.throw, pure, Except.pure]

end Rule

namespace RuleSet

structure WellFormed (s : RuleSet) : Prop where
  named : ∀ g ∈ s.segments, Text.isBlankText g.id = false
  segments : (s.segments.map (·.id)).Nodup
  each : ∀ r ∈ s.rules, r.WellFormed
  rules : (s.rules.map (·.id)).Nodup
  declared : ∀ r ∈ s.rules, ∀ id ∈ r.segments, id ∈ s.segments.map (·.id)

theorem validateSegments_eq_ok {seen : List String} {gs : List Segment} :
    validateSegments seen gs = .ok () ↔
      (∀ g ∈ gs, Text.isBlankText g.id = false) ∧ Fresh seen (gs.map (·.id)) := by
  induction gs generalizing seen with
  | nil => simp [validateSegments, pure, Except.pure]
  | cons g gs ih =>
    rw [validateSegments, ite_throw_eq_ok, ite_throw_eq_ok, ih, List.map_cons, fresh_cons,
      List.forall_mem_cons]
    grind

theorem validateRules_cons (known seen : List String) (r : Rule) (rs : List Rule) :
    validateRules known seen (r :: rs) = r.validate.mapError .badRule >>= fun _ =>
      if r.id ∈ seen then throw (.repeatedRule r.id)
      else match r.segments.find? (· ∉ known) with
        | some id => throw (.unknownSegment r.id id)
        | none => validateRules known (r.id :: seen) rs := by
  rw [validateRules]
  congr 1

theorem validateRules_eq_ok {known seen : List String} {rs : List Rule} :
    validateRules known seen rs = .ok () ↔ (∀ r ∈ rs, r.WellFormed) ∧
      Fresh seen (rs.map (·.id)) ∧ ∀ r ∈ rs, ∀ id ∈ r.segments, id ∈ known := by
  induction rs generalizing seen with
  | nil => simp [validateRules, pure, Except.pure]
  | cons r rs ih =>
    have hfind : r.segments.find? (· ∉ known) = none ↔ ∀ id ∈ r.segments, id ∈ known := by
      simp
    rw [validateRules_cons, check_bind_eq_ok, mapError_eq_ok, Rule.validate_eq_ok, ite_throw_eq_ok,
      List.map_cons, fresh_cons, List.forall_mem_cons, List.forall_mem_cons, ← hfind]
    split
    case h_1 id hid =>
      simp only [hid, throw, throwThe, MonadExceptOf.throw, reduceCtorEq, false_and, and_false]
    case h_2 hnone =>
      rw [ih]
      grind

theorem validate_eq_ok {s : RuleSet} : s.validate = .ok () ↔ s.WellFormed := by
  rw [validate, check_bind_eq_ok, validateSegments_eq_ok, validateRules_eq_ok, fresh_nil_iff,
    fresh_nil_iff]
  constructor
  · rintro ⟨⟨hnamed, hsegments⟩, heach, hrules, hdeclared⟩
    exact ⟨hnamed, hsegments, heach, hrules, hdeclared⟩
  · rintro ⟨hnamed, hsegments, heach, hrules, hdeclared⟩
    exact ⟨⟨hnamed, hsegments⟩, heach, hrules, hdeclared⟩

theorem mem_of_segment? {s : RuleSet} {id : String} {g : Segment} (h : s.segment? id = some g) :
    g ∈ s.segments ∧ g.id = id :=
  ⟨List.mem_of_find?_eq_some h, by simpa using List.find?_some h⟩

theorem exists_segment? {s : RuleSet} {id : String} (h : id ∈ s.segments.map (·.id)) :
    ∃ g, s.segment? id = some g := by
  obtain ⟨g, hg, rfl⟩ := List.mem_map.1 h
  exact Option.isSome_iff_exists.1 (List.find?_isSome.2 ⟨g, hg, by simp⟩)

end RuleSet

theorem Table.get?_insertAll {es : List (String × α)} (h : (es.map Prod.fst).Nodup)
    (t : Table α) (k : String) :
    (t.insertAll es).get? k = (es.lookup k).or (t.get? k) := by
  induction es generalizing t with
  | nil => rfl
  | cons e es ih =>
    obtain ⟨he, hes⟩ := List.nodup_cons.1 h
    change ((t.insert e.1 e.2).insertAll es).get? k = _
    rw [ih hes, get?_insert, lookup_cons_ite]
    split
    case isTrue hk =>
      have : es.lookup k = none := by
        refine List.lookup_eq_none_iff.2 fun d hd => ?_
        have : k ≠ d.1 := fun hkd => he (hk ▸ hkd ▸ List.mem_map_of_mem hd)
        simpa using this
      rw [this, Option.none_or, Option.some_or]
    case isFalse => rfl

theorem lookup_map_segment (gs : List Segment) (id : String) :
    (gs.map fun g => (g.id, g)).lookup id = gs.find? (·.id == id) := by
  induction gs with
  | nil => rfl
  | cons g gs ih =>
    rw [List.map_cons, Table.lookup_cons_ite, List.find?_cons, ih]
    by_cases h : g.id = id
    · simp [h]
    · rw [if_neg (Ne.symm h), beq_false_of_ne h]

theorem Engine.segment?_ofRuleSet {s : RuleSet} (hs : s.WellFormed) (m : Matcher) (c : Config)
    (id : String) : (ofRuleSet m s c).segment? id = s.segment? id := by
  have hkeys : ((s.segments.map fun g => (g.id, g)).map Prod.fst).Nodup := by
    simpa [Function.comp_def] using hs.segments
  rw [segment?, ofRuleSet, Table.ofList, Table.get?_insertAll hkeys, lookup_map_segment,
    Table.get?_empty, Option.or_none, RuleSet.segment?]

namespace RuleSet

/-- The segments of a rule: one for each reference, in that order, and as it is declared. -/
structure Resolves (s : RuleSet) (r : Rule) (gs : List Segment) : Prop where
  references : gs.map (·.id) = r.segments
  declared : ∀ g ∈ gs, s.segment? g.id = some g
  distinct : (gs.map (·.id)).Nodup

theorem resolves_filterMap {s : RuleSet} (hs : s.WellFormed) {r : Rule} (hr : r ∈ s.rules) :
    s.Resolves r (r.segments.filterMap s.segment?) := by
  have hids {ids : List String} (h : ∀ id ∈ ids, id ∈ s.segments.map (·.id)) :
      (ids.filterMap s.segment?).map (·.id) = ids := by
    induction ids with
    | nil => rfl
    | cons id ids ih =>
      simp only [List.forall_mem_cons] at h
      obtain ⟨g, hg⟩ := exists_segment? h.1
      rw [List.filterMap_cons_some hg, List.map_cons, ih h.2, (mem_of_segment? hg).2]
  have hreferences := hids (hs.declared r hr)
  constructor
  case references => exact hreferences
  case declared =>
    intro g hg
    obtain ⟨id, -, hid⟩ := List.mem_filterMap.1 hg
    rwa [(mem_of_segment? hid).2]
  case distinct =>
    rw [hreferences]
    exact (hs.each r hr).2

end RuleSet

namespace Builder

theorem exists_of_build {b : Builder} {files : Files} {w : Wording} {e : Engine} {ns : List Notice}
    (h : b.build files w = .ok (e, ns)) :
    ∃ s, b.gather files w = .ok s ∧ s.WellFormed ∧ e.rules = s.rules ∧ e.segment? = s.segment? := by
  obtain ⟨s, hs, h⟩ := Expr.bind_eq_ok.1 h
  obtain ⟨hvalid, h⟩ := check_bind_eq_ok.1 h
  have hwell := RuleSet.validate_eq_ok.1 (mapError_eq_ok.1 hvalid)
  cases h
  exact ⟨s, hs, hwell, rfl, funext (Engine.segment?_ofRuleSet hwell b.matcher b.config)⟩

/-- What is looked up in the engine is what the rule set declares, and nothing that a rule refers to
is missing, so a match drops no segment. -/
theorem build_resolves {b : Builder} {files : Files} {w : Wording} {e : Engine} {ns : List Notice}
    (h : b.build files w = .ok (e, ns)) :
    ∃ s, b.gather files w = .ok s ∧ e.rules = s.rules ∧ (∀ id, e.segment? id = s.segment? id) ∧
      (∀ r ∈ e.rules, ∀ id ∈ r.segments, ∃ g ∈ s.segments, g.id = id ∧ e.segment? id = some g) ∧
      ∀ v ids, (e.evaluate v).result = .ok ids →
        ∃ (found : List Rule) (entered : List (List Segment)),
          e.Finds v e.rules found ∧ ids = found.map (·.id) ∧ List.Forall₂ s.Resolves found entered ∧
          (e.evaluate v).visitor.rules = (e.matching e.rules v).visitor.rules ++ found ∧
          (e.evaluate v).visitor.segments =
            (e.matching e.rules v).visitor.segments ++ entered.flatten := by
  obtain ⟨s, hgather, hs, hrules, hsegment⟩ := exists_of_build h
  refine ⟨s, hgather, hrules, congrFun hsegment, ?_, ?_⟩
  · intro r hr id hid
    obtain ⟨g, hg⟩ := RuleSet.exists_segment? (hs.declared r (hrules ▸ hr) id hid)
    have ⟨hmem, hgid⟩ := RuleSet.mem_of_segment? hg
    exact ⟨g, hmem, hgid, hsegment ▸ hg⟩
  · intro v ids hids
    obtain ⟨found, hfound, rfl⟩ := Engine.exists_of_evaluate_ok hids
    have hfinds := Engine.matching_eq_ok.1 hfound
    have hresolves : List.Forall₂ s.Resolves found (found.map e.resolved) := by
      rw [List.forall₂_map_right_iff, List.forall₂_same]
      intro r hr
      rw [Engine.resolved, hsegment]
      exact RuleSet.resolves_filterMap hs (hrules ▸ hfinds.sublist.subset hr)
    rw [Engine.evaluate_of_ok hfound, Engine.foldl_record]
    exact ⟨found, found.map e.resolved, hfinds, rfl, hresolves, rfl, by rw [List.flatMap_def]⟩

theorem build_resolves_mixed :
    let everyone : Factory := fun _ => .ok ⟨false, fun _ => false, none⟩
    let b := (((empty.withFactory everyone).addContent
      "rules: [\x7bid: skier, conditions: [\x7btype: any\x7d], segments: [alps, dach]\x7d]").addContent
      "segments: [\x7bid: dach, name: DACH\x7d]").addSegment ⟨"alps", "Alps"⟩
    ∃ e ns s, ∃ (found : List Rule) (entered : List (List Segment)),
      b.build (fun _ => .error .notFound) default = .ok (e, ns) ∧
      b.gather (fun _ => .error .notFound) default = .ok s ∧ (∀ id, e.segment? id = s.segment? id) ∧
      (e.evaluate .anonymous).result = .ok ["skier"] ∧ found.map (·.id) = ["skier"] ∧
      List.Forall₂ s.Resolves found entered ∧
      (e.evaluate .anonymous).visitor.segments = entered.flatten ∧
      entered.flatten = [⟨"alps", "Alps"⟩, ⟨"dach", "DACH"⟩] := by
  intro everyone b
  have hrun : (b.build (fun _ => .error .notFound) default).toOption.map (fun p =>
      let o := p.1.evaluate .anonymous
      (o.result.toOption, o.visitor.segments, (p.1.matching p.1.rules .anonymous).visitor.segments)) =
      some (some ["skier"], [⟨"alps", "Alps"⟩, ⟨"dach", "DACH"⟩], []) := by
    simp only [everyone, b]
    decide +kernel
  cases hbuild : b.build (fun _ => .error .notFound) default with
  | error f => simp [hbuild, Except.toOption] at hrun
  | ok p =>
    obtain ⟨e, ns⟩ := p
    simp only [hbuild, Except.toOption, Option.map_some, Option.some.injEq, Prod.mk.injEq] at hrun
    obtain ⟨hresult, hsegments, hmatching⟩ := hrun
    have hids : (e.evaluate .anonymous).result = .ok ["skier"] := by
      cases h : (e.evaluate .anonymous).result <;> simp_all
    obtain ⟨s, hgather, -, hsegment, -, hevaluate⟩ := build_resolves hbuild
    obtain ⟨found, entered, -, hfound, hresolves, -, hentered⟩ := hevaluate _ _ hids
    rw [hmatching, List.nil_append] at hentered
    exact ⟨e, ns, s, found, entered, rfl, hgather, hsegment, hids, hfound.symm, hresolves, hentered,
      hentered ▸ hsegments⟩

end Builder

end Targeting
