import Targeting.Json.Encode
import Targeting.Sources
import Targeting.Proofs.FiniteNumbers
import Targeting.Proofs.Traversal

namespace Targeting

mutual

def Value.Storable : Value → Prop
  | .number x => x.isFinite = true
  | .array vs => Value.StorableAll vs
  | .object es => Value.StorableEntries es
  | _ => True

def Value.StorableAll : List Value → Prop
  | [] => True
  | v :: vs => v.Storable ∧ Value.StorableAll vs

def Value.StorableEntries {bound : Option String} : Value.Entries bound → Prop
  | .nil => True
  | .cons _ _ v es => v.Storable ∧ Value.StorableEntries es

end

def Operator.Storable : Operator → Prop
  | .raw s => s ∉ ["", "and", "or", "and_not"]
  | _ => True

structure Descriptor.Storable (d : Descriptor) : Prop where
  operator : ∀ o, d.operator = some o → o.Storable
  config : (Value.ofTable d.config).Storable

def Rule.Storable (r : Rule) : Prop := ∀ d ∈ r.conditions, d.Storable

def RuleSet.Storable (s : RuleSet) : Prop := ∀ r ∈ s.rules, r.Storable

theorem Operator.storable_ofText (s : String) : (ofText s).Storable := by
  unfold ofText
  split
  case h_5 => simp_all [Storable]
  all_goals trivial

theorem Operator.ofText_text {o : Operator} (h : o.Storable) : ofText o.text = o := by
  cases o with
  | raw s =>
    simp only [Storable, List.mem_cons, List.not_mem_nil, or_false, not_or] at h
    unfold ofText text
    split <;> simp_all
  | _ => rfl

namespace Json

theorem list_toJson {read : Json → Except Error α} {write : α → Json} {as : List α}
    (h : ∀ a ∈ as, read (write a) = .ok a) : list read (.array (as.map write)) = .ok as := by
  rw [list, mapM_eq_ok, List.forall₂_map_left_iff, List.forall₂_same]
  exact h

mutual

theorem value_toJson : ∀ v : Value, v.Storable → v.toJson.value = .ok v
  | .null, _ | .bool _, _ | .string _, _ => rfl
  | .number x, h => by
    rw [Value.toJson, if_pos (show x.isFinite = true from h)]
    rfl
  | .array vs, h => by
    rw [Value.toJson, value, values_toJson vs h]
    rfl
  | .object es, h => by
    have hes : Table.insertAll ∅ es.toList = es.toTable := Table.ofList_entries es.toTable
    rw [Value.toJson, value, entries_toJson es ∅ h, hes]
    exact congrArg (fun es => Except.ok (Value.object es)) es.ofTable_toTable

theorem values_toJson : ∀ vs : List Value, Value.StorableAll vs →
    values (Value.toJsonAll vs) = .ok vs
  | [], _ => rfl
  | v :: vs, h => by
    rw [Value.toJsonAll, values, value_toJson v h.1, values_toJson vs h.2]
    rfl

theorem entries_toJson : ∀ {bound : Option String} (es : Value.Entries bound) (t : Table Value),
    Value.StorableEntries es → entries t (Value.toJsonEntries es) = .ok (t.insertAll es.toList)
  | _, .nil, _, _ => rfl
  | _, .cons k _ v es, t, h => by
    rw [Value.toJsonEntries, entries, value_toJson v h.1]
    exact entries_toJson es (t.insert k v) h.2

end

theorem table_toJson {t : Table Value} (h : (Value.ofTable t).Storable) :
    table (Value.ofTable t).toJson = .ok t := by
  rw [Value.ofTable, Value.toJson, table, entries_toJson _ ∅ h, Value.Entries.toList_ofTable]
  exact congrArg Except.ok (Table.ofList_entries t)

theorem optional_toJson {read : Json → Except Error α} {write : α → Json} {a : Option α}
    (h : ∀ x, a = some x → read (write x) = .ok x ∧ write x ≠ .null) :
    optional read (ofOption write a) = .ok a := by
  cases a with
  | none => rfl
  | some x =>
    obtain ⟨hread, hnull⟩ := h x rfl
    change optional read (write x) = _
    rw [optional, hread]
    · rfl
    · exact hnull

def takeAll (take : δ → String → Json → Except Error δ) (d : δ) (fs : List (String × Json)) :
    Except Error δ :=
  fs.foldlM (fun d (k, j) => take d k j) d

theorem takeAll_cons {take : δ → String → Json → Except Error δ} {d e : δ} {k : String} {j : Json}
    {fs : List (String × Json)} (h : take d k j = .ok e) :
    takeAll take d ((k, j) :: fs) = takeAll take e fs := by
  change (take d k j >>= fun d => takeAll take d fs) = _
  rw [h]
  rfl

theorem record_ofFields {take : δ → String → Json → Except Error δ} {finish : δ → Except Error α}
    {d : δ} (shape : Shape) (fs : List (String × Json)) :
    record shape take finish d (ofFields fs) = takeAll take d fs >>= finish := by
  rw [ofFields, record, List.foldlM_map]
  rfl

theorem once_of_ok {read : Json → Except Error α} {j : Json} {a : α} (h : read j = .ok a)
    (name : String) : Document.once name none read j = .ok (some a) := by
  rw [Document.once, h]
  rfl

end Json

open Json (takeAll takeAll_cons record_ofFields once_of_ok)

theorem Segment.read_toJson (s : Segment) : read s.toJson = .ok s := rfl

theorem Descriptor.read_toJson {d : Descriptor} (h : d.Storable) : read d.toJson = .ok d := by
  have hoperator : Document.optional (fun s => Operator.ofText <$> Document.text s)
      (Json.ofOption Operator.toJson d.operator) = .ok d.operator := by
    refine Json.optional_toJson fun o ho => ⟨?_, nofun⟩
    exact congrArg Except.ok (Operator.ofText_text (h.operator o ho))
  have hconfig : Document.table (Value.ofTable d.config).toJson = .ok d.config :=
    Json.table_toJson h.config
  calc read d.toJson = takeAll Draft.take {} _ >>= Draft.finish Json := record_ofFields shape _
    _ = Draft.finish Json ⟨some d.type, some d.operator, some d.opens, some d.closes, some d.config⟩ := by
      rw [takeAll_cons (e := ⟨some d.type, none, none, none, none⟩) rfl,
        takeAll_cons (e := ⟨some d.type, some d.operator, none, none, none⟩),
        takeAll_cons (e := ⟨some d.type, some d.operator, some d.opens, none, none⟩) rfl,
        takeAll_cons (e := ⟨some d.type, some d.operator, some d.opens, some d.closes, none⟩) rfl,
        takeAll_cons (e := ⟨some d.type, some d.operator, some d.opens, some d.closes, some d.config⟩)]
      · rfl
      · simp only [Draft.take, once_of_ok hconfig]
        rfl
      · simp only [Draft.take, once_of_ok hoperator]
        rfl
    _ = .ok d := rfl

theorem Rule.read_toJson {r : Rule} (h : r.Storable) : read r.toJson = .ok r := by
  have hdescription : Document.optional Document.text (Json.ofOption .string r.description) =
      .ok r.description := Json.optional_toJson fun s _ => ⟨rfl, nofun⟩
  have hconditions : Document.list Descriptor.read (Json.array (r.conditions.map Descriptor.toJson)) =
      .ok r.conditions := Json.list_toJson fun d hd => Descriptor.read_toJson (h d hd)
  have hsegments : Document.list Document.text (Json.array (r.segments.map .string)) = .ok r.segments :=
    Json.list_toJson fun s _ => rfl
  calc read r.toJson = takeAll Draft.take {} _ >>= Draft.finish Json := record_ofFields shape _
    _ = Draft.finish Json ⟨some r.id, some r.name, some r.description, some r.enabled,
        some r.conditions, some r.segments⟩ := by
      rw [takeAll_cons (e := ⟨some r.id, none, none, none, none, none⟩) rfl,
        takeAll_cons (e := ⟨some r.id, some r.name, none, none, none, none⟩) rfl,
        takeAll_cons (e := ⟨some r.id, some r.name, some r.description, none, none, none⟩),
        takeAll_cons (e := ⟨some r.id, some r.name, some r.description, some r.enabled, none, none⟩) rfl,
        takeAll_cons (e := ⟨some r.id, some r.name, some r.description, some r.enabled,
          some r.conditions, none⟩),
        takeAll_cons (e := ⟨some r.id, some r.name, some r.description, some r.enabled,
          some r.conditions, some r.segments⟩)]
      · rfl
      · simp only [Draft.take, once_of_ok hsegments]
        rfl
      · simp only [Draft.take, once_of_ok hconditions]
        rfl
      · simp only [Draft.take, once_of_ok hdescription]
        rfl
    _ = .ok r := rfl

theorem RuleSet.read_toJson {s : RuleSet} (h : s.Storable) : read s.toJson = .ok s := by
  have hsegments : Document.list Segment.read (Json.array (s.segments.map Segment.toJson)) =
      .ok s.segments := Json.list_toJson fun g _ => Segment.read_toJson g
  have hrules : Document.list Rule.read (Json.array (s.rules.map Rule.toJson)) = .ok s.rules :=
    Json.list_toJson fun r hr => Rule.read_toJson (h r hr)
  calc read s.toJson = takeAll Draft.take {} _ >>= Draft.finish := record_ofFields shape _
    _ = Draft.finish ⟨some s.segments, some s.rules⟩ := by
      rw [takeAll_cons (e := ⟨some s.segments, none⟩), takeAll_cons (e := ⟨some s.segments, some s.rules⟩)]
      · rfl
      · simp only [Draft.take, once_of_ok hrules]
        rfl
      · simp only [Draft.take, once_of_ok hsegments]
        rfl
    _ = .ok s := rfl

theorem Value.storableEntries_iff : ∀ {bound : Option String} {es : Entries bound},
    StorableEntries es ↔ ∀ e ∈ es.toList, e.2.Storable
  | _, .nil => by simp [StorableEntries, Entries.toList]
  | _, .cons _ _ _ es => by
    rw [StorableEntries, storableEntries_iff, Entries.toList, List.forall_mem_cons]

theorem Value.storable_ofTable {t : Table Value} :
    (ofTable t).Storable ↔ ∀ e ∈ t.entries, e.2.Storable := by
  rw [ofTable, Storable, storableEntries_iff, Entries.toList_ofTable]

theorem Value.Storable.insert {k : String} {v : Value} {t : Table Value} (h : (ofTable t).Storable)
    (hv : v.Storable) : (ofTable (t.insert k v)).Storable := by
  rw [storable_ofTable] at h ⊢
  intro e he
  rcases Table.fst_mem_put he with rfl | he
  · exact hv
  · exact h e he

namespace Json

mutual

theorem Finite.storable : ∀ {j : Json}, j.Finite → ∀ {v : Value}, j.value = .ok v → v.Storable
  | .null, _, v, hv | .bool _, _, v, hv | .string _, _, v, hv => by
    cases hv
    trivial
  | .unfit, _, v, hv | .broken, _, v, hv => by cases hv
  | .number n, h, v, hv => by
    cases hv
    exact h
  | .array js, h, v, hv => by
    obtain ⟨vs, hvs, rfl⟩ := map_eq_ok.1 hv
    exact FiniteAll.storable h hvs
  | .object ms, h, v, hv => by
    obtain ⟨t, ht, rfl⟩ := map_eq_ok.1 hv
    exact FiniteMembers.storable (t := ∅) h trivial ht

theorem FiniteAll.storable : ∀ {js : List Json}, FiniteAll js → ∀ {vs : List Value},
    values js = .ok vs → Value.StorableAll vs
  | [], _, vs, hvs => by
    cases hvs
    trivial
  | j :: js, h, vs, hvs => by
    obtain ⟨v, hv, hrest⟩ := Expr.bind_eq_ok.1 hvs
    obtain ⟨ws, hws, hcons⟩ := Expr.bind_eq_ok.1 hrest
    cases hcons
    exact ⟨Finite.storable h.1 hv, FiniteAll.storable h.2 hws⟩

theorem FiniteMembers.storable : ∀ {ms : List (Option String × Json)}, FiniteMembers ms →
    ∀ {t : Table Value}, (Value.ofTable t).Storable → ∀ {u : Table Value},
    entries t ms = .ok u → (Value.ofTable u).Storable
  | [], _, t, ht, u, hu => by
    cases hu
    exact ht
  | (k, j) :: ms, h, t, ht, u, hu => by
    obtain ⟨k, -, hu⟩ := Expr.bind_eq_ok.1 hu
    obtain ⟨v, hv, hu⟩ := Expr.bind_eq_ok.1 hu
    exact FiniteMembers.storable h.2 (ht.insert (Finite.storable h.1 hv)) hu

end

theorem record_keeps {take : δ → String → Json → Except Error δ} {finish : δ → Except Error α}
    {shape : Shape} {d : δ} {j : Json} {a : α} {p : δ → Prop}
    (htake : ∀ d k j e, j.Finite → p d → take d k j = .ok e → p e) (hd : p d) (hj : j.Finite)
    (h : record shape take finish d j = .ok a) : ∃ e, p e ∧ finish e = .ok a := by
  cases j with
  | object ms =>
    obtain ⟨e, he, hfinish⟩ := Expr.bind_eq_ok.1 h
    refine ⟨e, foldlM_keeps (fun m hm d e hd he => ?_) hd he, hfinish⟩
    obtain ⟨k, -, he⟩ := Expr.bind_eq_ok.1 he
    exact htake d k m.2 e (finiteMembers_iff.1 hj m hm) hd he
  | array js =>
    obtain ⟨e, he, hfinish⟩ := Expr.bind_eq_ok.1 h
    refine ⟨e, foldlM_keeps (fun m hm d e hd he => ?_) hd he, ?_⟩
    · exact htake d m.1 m.2 e (finiteAll_iff.1 hj m.2 (List.of_mem_zip hm).2) hd he
    · exact mapError_eq_ok.1 ((ite_throw_eq_ok (e := Error.malformed)).1 hfinish).2
  | _ => cases h

theorem list_keeps {read : Json → Except Error α} {j : Json} {as : List α} {p : α → Prop}
    (hread : ∀ j a, j.Finite → read j = .ok a → p a) (hj : j.Finite) (h : list read j = .ok as) :
    ∀ a ∈ as, p a := by
  cases j with
  | array js =>
    intro a ha
    obtain ⟨i, hi, ha⟩ := exists_of_mem_mapM h ha
    exact hread i a (finiteAll_iff.1 hj i hi) ha
  | _ => cases h

theorem once_eq_ok {name : String} {old b : Option α} {read : Json → Except Error α} {j : Json} :
    Document.once name old read j = .ok b ↔ old = none ∧ ∃ a, read j = .ok a ∧ b = some a := by
  cases old with
  | some _ => simp [Document.once, throw, throwThe, MonadExceptOf.throw]
  | none =>
    rw [Document.once, map_eq_ok]
    simp [eq_comm]

theorem of_optional {read : Json → Except Error α} {j : Json} {a : α}
    (h : optional read j = .ok (some a)) : read j = .ok a := by
  cases j with
  | null => cases h
  | _ =>
    obtain ⟨b, hb, heq⟩ := map_eq_ok.1 h
    cases heq
    exact hb

theorem Finite.storable_table {j : Json} {t : Table Value} (hj : j.Finite) (h : table j = .ok t) :
    (Value.ofTable t).Storable := by
  cases j with
  | object ms => exact FiniteMembers.storable (t := ∅) hj trivial h
  | _ => cases h

end Json

open Json (record_keeps list_keeps once_eq_ok of_optional)

namespace Descriptor

structure Draft.Storable (d : Draft) : Prop where
  operator : ∀ o, d.operator = some (some o) → o.Storable
  config : ∀ t, d.config = some t → (Value.ofTable t).Storable

theorem Draft.Storable.take {d e : Draft} {k : String} {j : Json} (hj : j.Finite) (hd : d.Storable)
    (h : d.take k j = .ok e) : e.Storable := by
  unfold Draft.take at h
  split at h
  -- the operator and the configuration; no other field is bound to anything
  case h_2 =>
    obtain ⟨_, honce, h⟩ := Expr.bind_eq_ok.1 h
    obtain ⟨-, a, ha, rfl⟩ := once_eq_ok.1 honce
    cases h
    refine ⟨fun o ho => ?_, hd.config⟩
    cases ho
    obtain ⟨s, -, rfl⟩ := map_eq_ok.1 (of_optional ha)
    exact Operator.storable_ofText s
  case h_7 =>
    obtain ⟨_, honce, h⟩ := Expr.bind_eq_ok.1 h
    obtain ⟨-, t, ht, rfl⟩ := once_eq_ok.1 honce
    cases h
    refine ⟨hd.operator, fun u hu => ?_⟩
    cases hu
    exact hj.storable_table ht
  all_goals
    obtain ⟨_, -, h⟩ := Expr.bind_eq_ok.1 h
    cases h
    exact ⟨hd.operator, hd.config⟩

theorem storable_of_read {j : Json} {d : Descriptor} (hj : j.Finite) (h : read j = .ok d) :
    d.Storable := by
  have hempty : Draft.Storable {} := ⟨nofun, nofun⟩
  obtain ⟨e, he, hfinish⟩ := record_keeps (fun _ _ _ _ hj hd h => hd.take hj h) hempty hj h
  obtain ⟨_, -, heq⟩ := Expr.bind_eq_ok.1 hfinish
  cases heq
  constructor
  · intro o ho
    exact he.operator o (by cases h : e.operator <;> simp_all)
  · cases hconfig : e.config with
    | none => trivial
    | some t => exact he.config t hconfig

end Descriptor

namespace Rule

def Draft.Storable (d : Draft) : Prop := ∀ cs, d.conditions = some cs → ∀ c ∈ cs, c.Storable

theorem Draft.Storable.take {d e : Draft} {k : String} {j : Json} (hj : j.Finite) (hd : d.Storable)
    (h : d.take k j = .ok e) : e.Storable := by
  unfold Draft.take at h
  split at h
  case h_5 =>
    obtain ⟨_, honce, h⟩ := Expr.bind_eq_ok.1 h
    obtain ⟨-, cs, hcs, rfl⟩ := once_eq_ok.1 honce
    cases h
    intro ds hds
    cases hds
    exact list_keeps (fun _ _ => Descriptor.storable_of_read) hj hcs
  all_goals
    obtain ⟨_, -, h⟩ := Expr.bind_eq_ok.1 h
    cases h
    exact hd

theorem storable_of_read {j : Json} {r : Rule} (hj : j.Finite) (h : read j = .ok r) :
    r.Storable := by
  have hempty : Draft.Storable {} := nofun
  obtain ⟨e, he, hfinish⟩ := record_keeps (fun _ _ _ _ hj hd h => hd.take hj h) hempty hj h
  obtain ⟨_, -, heq⟩ := Expr.bind_eq_ok.1 hfinish
  cases heq
  cases hconditions : e.conditions with
  | none => simp [Storable]
  | some cs => simpa [Storable, hconditions] using he cs hconditions

end Rule

namespace RuleSet

def Draft.Storable (d : Draft) : Prop := ∀ rs, d.rules = some rs → ∀ r ∈ rs, r.Storable

theorem Draft.Storable.take {d e : Draft} {k : String} {j : Json} (hj : j.Finite) (hd : d.Storable)
    (h : d.take k j = .ok e) : e.Storable := by
  unfold Draft.take at h
  split at h
  case h_2 =>
    obtain ⟨_, honce, h⟩ := Expr.bind_eq_ok.1 h
    obtain ⟨-, rs, hrs, rfl⟩ := once_eq_ok.1 honce
    cases h
    intro qs hqs
    cases hqs
    exact list_keeps (fun _ _ => Rule.storable_of_read) hj hrs
  all_goals
    obtain ⟨_, -, h⟩ := Expr.bind_eq_ok.1 h
    cases h
    exact hd

theorem storable_of_read {j : Json} {s : RuleSet} (hj : j.Finite) (h : read j = .ok s) :
    s.Storable := by
  have hempty : Draft.Storable {} := nofun
  obtain ⟨e, he, hfinish⟩ := record_keeps (fun _ _ _ _ hj hd h => hd.take hj h) hempty hj h
  cases hfinish
  cases hrules : e.rules with
  | none => simp [Storable]
  | some rs => simpa [Storable, hrules] using he rs hrules

theorem storable_ofJson {text : String} {s : RuleSet} (h : ofJson text = .ok s) : s.Storable := by
  have hdecode := mapError_eq_ok.1 h
  obtain ⟨t, hread, hclean⟩ := Expr.bind_eq_ok.1 hdecode
  have hstorable : t.Storable := storable_of_read ((Json.finite_ofText text).prune Json.levels) hread
  split at hclean
  · cases hclean
    exact hstorable
  · cases hclean

end RuleSet

mutual

theorem Value.finite_toJson : ∀ v : Value, v.toJson.Finite
  | .null | .bool _ | .string _ => trivial
  | .number x => by
    rw [toJson]
    split
    case isTrue h => exact h
    case isFalse => trivial
  | .array vs => finiteAll_toJson vs
  | .object es => finiteMembers_toJson es

theorem Value.finiteAll_toJson : ∀ vs : List Value, Json.FiniteAll (toJsonAll vs)
  | [] => trivial
  | v :: vs => ⟨finite_toJson v, finiteAll_toJson vs⟩

theorem Value.finiteMembers_toJson : ∀ {bound : Option String} (es : Entries bound),
    Json.FiniteMembers (toJsonEntries es)
  | _, .nil => trivial
  | _, .cons _ _ v es => ⟨finite_toJson v, finiteMembers_toJson es⟩

end

namespace Json

theorem finite_ofOption (write : α → Json) (h : ∀ a, (write a).Finite) (a : Option α) :
    (ofOption write a).Finite := by
  cases a with
  | none => trivial
  | some a => exact h a

theorem finiteAll_map (write : α → Json) (h : ∀ a, (write a).Finite) (as : List α) :
    FiniteAll (as.map write) :=
  finiteAll_iff.2 <| List.forall_mem_map.2 fun a _ => h a

end Json

theorem Descriptor.finite_toJson (d : Descriptor) : d.toJson.Finite :=
  ⟨trivial, Json.finite_ofOption Operator.toJson (fun _ => trivial) _, trivial, trivial,
    Value.finite_toJson _, trivial⟩

theorem Rule.finite_toJson (r : Rule) : r.toJson.Finite :=
  ⟨trivial, trivial, Json.finite_ofOption .string (fun _ => trivial) _, trivial,
    Json.finiteAll_map _ Descriptor.finite_toJson _, Json.finiteAll_map .string (fun _ => trivial) _,
    trivial⟩

theorem RuleSet.finite_toJson (s : RuleSet) : s.toJson.Finite :=
  ⟨Json.finiteAll_map Segment.toJson (fun _ => ⟨trivial, trivial, trivial⟩) _,
    Json.finiteAll_map _ Rule.finite_toJson _, trivial⟩

namespace RuleSet

/-- A rule set is read back from what is written for it if and only if it can be stored, and whatever was
read from a tree of finite numbers or from a text can. -/
theorem read_back_iff_storable :
    (∀ s : RuleSet, read s.toJson = .ok s ↔ s.Storable) ∧
    (∀ (j : Json) (s : RuleSet), j.Finite → read j = .ok s → s.Storable ∧ read s.toJson = .ok s) ∧
    ∀ (text : String) (s : RuleSet), ofJson text = .ok s → s.Storable ∧ read s.toJson = .ok s := by
  refine ⟨fun s => ⟨storable_of_read s.finite_toJson, read_toJson⟩, fun j s hj h => ?_,
    fun text s h => ?_⟩
  · have hs : s.Storable := storable_of_read hj h
    exact ⟨hs, read_toJson hs⟩
  · have hs : s.Storable := storable_ofJson h
    exact ⟨hs, read_toJson hs⟩

theorem read_back_iff_storable_nested :
    let inner : Table Value := ⟨[("c", .null), ("d", .string "e")], by decide⟩
    let config : Table Value :=
      ⟨[("a", .number (-0)), ("b", .array [.number 0.5, .ofTable inner])], by decide⟩
    let s : RuleSet := ⟨[⟨"vip", "Vip"⟩],
      [⟨"r", "", none, true, [⟨"x", some (.raw "xor"), true, true, config⟩], ["vip", "gone"]⟩]⟩
    let j : Json := .object [(some "rules", .array [.object [(some "id", .string "r"),
      (some "conditions", .array [.array [.string "x", .string "", .bool true]])]])]
    let text := "\x7b\"rules\":[\x7b\"id\":\"r\",\"conditions\":[[\"x\",\"\"]]\x7d]\x7d"
    read s.toJson = .ok s ∧ (∃ t, read j = .ok t ∧ read t.toJson = .ok t) ∧
    (∃ t, ofJson text = .ok t ∧ read t.toJson = .ok t) := by
  intro inner config s j text
  obtain ⟨hiff, htree, htext⟩ := read_back_iff_storable
  refine ⟨(hiff s).2 ?_, ?_, ?_⟩
  · intro r hr
    obtain rfl := List.mem_singleton.1 hr
    intro d hd
    obtain rfl := List.mem_singleton.1 hd
    refine ⟨fun o ho => ?_, ?_⟩
    · cases ho
      exact (by decide : "xor" ∉ ["", "and", "or", "and_not"])
    · have hzero : (-0 : Float).isFinite = true := by decide +kernel
      have hhalf : (0.5 : Float).isFinite = true := by decide +kernel
      exact ⟨hzero, ⟨hhalf, ⟨trivial, trivial, trivial⟩, trivial⟩, trivial⟩
  · have hj : j.Finite :=
      ⟨⟨⟨trivial, ⟨⟨trivial, trivial, trivial, trivial⟩, trivial⟩, trivial⟩, trivial⟩, trivial⟩
    exact ⟨_, rfl, (htree j _ hj rfl).2⟩
  · have hread : (ofJson text).isOk = true := by decide +kernel
    cases h : ofJson text with
    | error e => simp [h, Except.isOk, Except.toBool] at hread
    | ok t => exact ⟨t, rfl, (htext text t h).2⟩

end RuleSet

end Targeting
