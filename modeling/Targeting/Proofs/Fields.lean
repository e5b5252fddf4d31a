import Targeting.Proofs.RoundTrip

namespace Targeting

theorem Json.record_array_eq_ok {take : δ → String → Json → Except Error δ}
    {finish : δ → Except Error α} {shape : Shape} {d : δ} {js : List Json} {a : α} :
    record shape take finish d (.array js) = .ok a ↔
      js.length ≤ shape.fields.length ∧
        record shape take finish d (ofFields (shape.fields.zip js)) = .ok a := by
  rw [record_ofFields, record, takeAll, Expr.bind_eq_ok, Expr.bind_eq_ok, ← exists_and_left]
  refine exists_congr fun e => ?_
  rw [and_left_comm]
  refine and_congr_right fun _ => ?_
  change (if _ then throw Error.malformed else (finish e).mapError _) = _ ↔ _
  rw [ite_throw_eq_ok, mapError_eq_ok, Nat.not_lt]

namespace Descriptor

inductive Field
  | type : Field
  | operator : Field
  | opens : Field
  | closes : Field
  | config : Field
  deriving DecidableEq

namespace Field

def Content : Field → Type
  | .type => String
  | .operator => Option Operator
  | .opens => Bool
  | .closes => Bool
  | .config => Table Value

def label : Field → String
  | .type => "type"
  | .operator => "operator"
  | .opens => "bracket_left"
  | .closes => "bracket_right"
  | .config => "config"

def ofName? : String → Option Field
  | "type" => some .type
  | "operator" => some .operator
  | "bracket_left" | "bracketLeft" => some .opens
  | "bracket_right" | "bracketRight" => some .closes
  | "config" => some .config
  | _ => none

def read : (f : Field) → Json → Except Json.Error f.Content
  | .type => Json.text
  | .operator => Json.optional fun j => .ofText <$> Json.text j
  | .opens => Json.flag
  | .closes => Json.flag
  | .config => Json.table

def default? : (f : Field) → Option f.Content
  | .type => none
  | .operator => some none
  | .opens => some false
  | .closes => some false
  | .config => some (∅ : Table Value)

theorem forall_iff {p : Field → Prop} :
    (∀ f, p f) ↔ p .type ∧ p .operator ∧ p .opens ∧ p .closes ∧ p .config := by
  constructor
  · exact fun h => ⟨h _, h _, h _, h _, h _⟩
  · rintro ⟨htype, hoperator, hopens, hcloses, hconfig⟩ f
    cases f <;> assumption

end Field

def content (d : Descriptor) : (f : Field) → f.Content
  | .type => d.type
  | .operator => d.operator
  | .opens => d.opens
  | .closes => d.closes
  | .config => d.config

namespace Draft

variable {d e : Draft} {f : Field} {k : String} {j : Json}

def get (d : Draft) : (f : Field) → Option f.Content
  | .type => d.type
  | .operator => d.operator
  | .opens => d.opens
  | .closes => d.closes
  | .config => d.config

def ofContents (c : (f : Field) → Option f.Content) : Draft :=
  ⟨c .type, c .operator, c .opens, c .closes, c .config⟩

def set (d : Draft) (f : Field) (a : Option f.Content) : Draft := ofContents (Function.update d.get f a)

theorem get_ofContents (c : (f : Field) → Option f.Content) : (ofContents c).get = c := by
  funext f
  cases f <;> rfl

theorem ofContents_get (d : Draft) : ofContents d.get = d := rfl

theorem get_inj : d.get = e.get ↔ d = e := by
  refine ⟨fun h => ?_, congrArg get⟩
  rw [← ofContents_get d, h, ofContents_get]

theorem eq_set_iff {a : Option f.Content} :
    e = d.set f a ↔ e.get f = a ∧ ∀ g, g ≠ f → e.get g = d.get g := by
  rw [← get_inj, set, get_ofContents, Function.eq_update_iff]

theorem take_of_field (h : Field.ofName? k = some f) (d : Draft) (j : Json) :
    d.take k j = Document.once f.label (d.get f) f.read j >>= fun a => .ok (d.set f a) := by
  unfold Field.ofName? at h
  split at h <;> cases h <;> rfl

theorem take_eq_ok_of_field (h : Field.ofName? k = some f) :
    d.take k j = .ok e ↔ d.get f = none ∧ ∃ a, f.read j = .ok a ∧ e = d.set f (some a) := by
  rw [take_of_field h, Expr.bind_eq_ok]
  simp only [Json.once_eq_ok]
  constructor
  · rintro ⟨_, ⟨hget, a, ha, rfl⟩, h⟩
    cases h
    exact ⟨hget, a, ha, rfl⟩
  · rintro ⟨hget, a, ha, rfl⟩
    exact ⟨_, ⟨hget, a, ha, rfl⟩, rfl⟩

theorem take_eq_ok_of_unknown (h : Field.ofName? k = none) :
    d.take k j = .ok e ↔ j.whole = true ∧ e = d := by
  have htake : d.take k j = Json.skip j >>= fun _ => .ok d := by
    unfold Field.ofName? at h
    split at h
    case h_8 =>
      unfold Draft.take
      split <;> first | contradiction | rfl
    all_goals cases h
  rw [htake, Json.skip]
  cases j.whole <;> simp [bind, Except.bind, eq_comm]

theorem finish_eq_ok {c : Descriptor} :
    d.finish Json = .ok c ↔ ∀ f, (d.get f).or f.default? = some (c.content f) := by
  have hor {α : Type} (o : Option α) (a b : α) : o.or (some a) = some b ↔ o.getD a = b := by
    simp
  obtain ⟨type, operator, opens, closes, config⟩ := c
  rw [Field.forall_iff]
  change _ ↔ d.type.or none = some type ∧ d.operator.or (some none) = some operator ∧
    d.opens.or (some false) = some opens ∧ d.closes.or (some false) = some closes ∧
    d.config.or (some ∅) = some config
  simp only [hor, Option.or_none]
  cases htype : d.type with
  | none =>
    rw [finish, htype]
    constructor
    · nofun
    · nofun
  | some t =>
    rw [finish, htype]
    change Except.ok (Descriptor.mk _ _ _ _ _) = Except.ok (Descriptor.mk _ _ _ _ _) ↔ _
    simp only [Except.ok.injEq, Descriptor.mk.injEq, Option.some.injEq]

end Draft

def Passes (m : Option String × Json) : Prop :=
  ∃ k, m.1 = some k ∧ (Field.ofName? k = none → m.2.whole = true)

def given (f : Field) (ms : List (Option String × Json)) : List Json :=
  (ms.filter fun m => m.1.bind Field.ofName? = some f).map Prod.snd

section

variable {f : Field} {k : String} {ms ms' : List (Option String × Json)}

theorem given_cons (f : Field) (k : String) (j : Json) (ms : List (Option String × Json)) :
    given f ((some k, j) :: ms) =
      if Field.ofName? k = some f then j :: given f ms else given f ms := by
  by_cases h : Field.ofName? k = some f <;> simp [given, h]

theorem given_cons_self (h : Field.ofName? k = some f) (j : Json)
    (ms : List (Option String × Json)) : given f ((some k, j) :: ms) = j :: given f ms := by
  rw [given_cons, if_pos h]

theorem given_cons_of_ne (h : Field.ofName? k ≠ some f) (j : Json)
    (ms : List (Option String × Json)) : given f ((some k, j) :: ms) = given f ms := by
  rw [given_cons, if_neg h]

theorem given_append (f : Field) (ms ms' : List (Option String × Json)) :
    given f (ms ++ ms') = given f ms ++ given f ms' := by
  simp [given]

theorem given_perm (h : ms.Perm ms') (f : Field) : (given f ms).Perm (given f ms') :=
  (h.filter _).map _

end

namespace Field

variable {f : Field} {js js' : List Json} {j : Json} {a : f.Content}

/-- The values for a field take it from one draft to another: none leaves it as it is, and one fills
it where it was not met before. -/
def Fills (f : Field) : List Json → Option f.Content → Option f.Content → Prop
  | [], old, new => new = old
  | j :: js, old, new => old = none ∧ ∃ a, f.read j = .ok a ∧ f.Fills js (some a) new

def Gives (f : Field) : List Json → f.Content → Prop
  | [], a => f.default? = some a
  | [j], a => f.read j = .ok a
  | _, _ => False

theorem fills_append {old new : Option f.Content} :
    f.Fills (js ++ js') old new ↔ ∃ mid, f.Fills js old mid ∧ f.Fills js' mid new := by
  induction js generalizing old with
  | nil => simp [Fills]
  | cons j js ih =>
    simp only [List.cons_append, Fills, ih]
    constructor
    · rintro ⟨hold, a, ha, mid, hjs, hjs'⟩
      exact ⟨mid, ⟨hold, a, ha, hjs⟩, hjs'⟩
    · rintro ⟨mid, ⟨hold, a, ha, hjs⟩, hjs'⟩
      exact ⟨hold, a, ha, mid, hjs, hjs'⟩

theorem gives_iff : f.Gives js a ↔ ∃ o, f.Fills js none o ∧ o.or f.default? = some a := by
  match js with
  | [] => simp [Gives, Fills]
  | [j] => simp [Gives, Fills]
  | _ :: _ :: _ => simp [Gives, Fills]

theorem Gives.perm (h : f.Gives js a) (hjs : js.Perm js') : f.Gives js' a := by
  match js with
  | [] => rwa [← hjs.nil_eq]
  | [j] => rwa [← List.singleton_perm.1 hjs]
  | _ :: _ :: _ => exact h.elim

theorem Gives.tail (h : f.Gives (j :: js) a) {b : f.Content} (hj : f.read j = .ok b)
    (hb : f.default? = some b) : f.Gives js a := by
  cases js with
  | nil =>
    obtain rfl : b = a := Except.ok.inj (hj.symm.trans h)
    exact hb
  | cons => exact h.elim

end Field

def takeMember (d : Draft) (m : Option String × Json) : Except Json.Error Draft := do
  Draft.take d (← Json.key m.1) m.2

theorem takeMember_eq_ok {m : Option String × Json} {d e : Draft} :
    takeMember d m = .ok e ↔
      Passes m ∧ ∀ f : Field, f.Fills (given f [m]) (d.get f) (e.get f) := by
  obtain ⟨_ | k, j⟩ := m
  case none => exact ⟨nofun, nofun⟩
  change d.take k j = .ok e ↔ _
  cases hk : Field.ofName? k with
  | none =>
    have hgiven (f : Field) : given f [(some k, j)] = [] := given_cons_of_ne (by simp [hk]) j []
    rw [Draft.take_eq_ok_of_unknown hk, ← Draft.get_inj, funext_iff]
    simp [Passes, Field.Fills, hgiven, hk]
  | some f =>
    have hself : given f [(some k, j)] = [j] := given_cons_self hk j []
    have hother {g : Field} (hg : g ≠ f) : given g [(some k, j)] = [] :=
      given_cons_of_ne (by simp [hk, hg.symm]) j []
    rw [Draft.take_eq_ok_of_field hk]
    simp only [Draft.eq_set_iff]
    constructor
    · rintro ⟨hnone, a, ha, hf, hrest⟩
      refine ⟨⟨k, rfl, by simp [hk]⟩, fun g => ?_⟩
      by_cases hg : g = f
      · subst hg
        rw [hself]
        exact ⟨hnone, a, ha, hf⟩
      · rw [hother hg]
        exact hrest g hg
    · rintro ⟨-, h⟩
      have hf := h f
      rw [hself] at hf
      obtain ⟨hnone, a, ha, hf⟩ := hf
      refine ⟨hnone, a, ha, hf, fun g hg => ?_⟩
      have hg' := h g
      rw [hother hg] at hg'
      exact hg'

theorem takeMembers_eq_ok {ms : List (Option String × Json)} {d e : Draft} :
    ms.foldlM takeMember d = .ok e ↔
      (∀ m ∈ ms, Passes m) ∧ ∀ f : Field, f.Fills (given f ms) (d.get f) (e.get f) := by
  induction ms generalizing d with
  | nil =>
    constructor
    · intro h
      cases h
      exact ⟨nofun, fun _ => rfl⟩
    · rintro ⟨-, h⟩
      exact congrArg Except.ok (Draft.get_inj.1 (funext fun f => (h f).symm))
  | cons m ms ih =>
    have hgiven (f : Field) : given f (m :: ms) = given f [m] ++ given f ms := by
      rw [← List.singleton_append, given_append]
    rw [List.foldlM_cons, Expr.bind_eq_ok, List.forall_mem_cons]
    simp only [ih, takeMember_eq_ok, hgiven, Field.fills_append]
    constructor
    · rintro ⟨c, ⟨hm, hfirst⟩, hms, hrest⟩
      exact ⟨⟨hm, hms⟩, fun f => ⟨c.get f, hfirst f, hrest f⟩⟩
    · rintro ⟨⟨hm, hms⟩, h⟩
      choose mid hfirst hrest using h
      refine ⟨.ofContents mid, ⟨hm, ?_⟩, hms, ?_⟩ <;> rwa [Draft.get_ofContents]

theorem read_object_eq_ok {ms : List (Option String × Json)} {d : Descriptor} :
    read (Json.object ms) = .ok d ↔
      (∀ m ∈ ms, Passes m) ∧ ∀ f : Field, f.Gives (given f ms) (d.content f) := by
  have hread : read (Json.object ms) = ms.foldlM takeMember {} >>= Draft.finish Json := rfl
  have hempty (f : Field) : Draft.get {} f = none := by cases f <;> rfl
  rw [hread, Expr.bind_eq_ok]
  simp only [takeMembers_eq_ok, Draft.finish_eq_ok, Field.gives_iff, hempty]
  constructor
  · rintro ⟨e, ⟨hms, hfills⟩, hfinish⟩
    exact ⟨hms, fun f => ⟨e.get f, hfills f, hfinish f⟩⟩
  · rintro ⟨hms, h⟩
    choose o hfills hfinish using h
    refine ⟨.ofContents o, ⟨hms, ?_⟩, ?_⟩ <;> rwa [Draft.get_ofContents]

/-- Another way to write an object down: in another order, with a member that belongs to no field,
with another name for a field, or without what is the default. -/
inductive Restates : List (Option String × Json) → List (Option String × Json) → Prop
  | perm {ms ms' : List (Option String × Json)} : ms.Perm ms' → Restates ms ms'
  | add {k : String} {j : Json} {ms : List (Option String × Json)} : Field.ofName? k = none →
      j.whole = true → Restates ms ((some k, j) :: ms)
  | respell {k k' : String} {j : Json} {ms : List (Option String × Json)} :
      Field.ofName? k = Field.ofName? k' → Restates ((some k, j) :: ms) ((some k', j) :: ms)
  | drop {k : String} {j : Json} {f : Field} {a : f.Content} {ms : List (Option String × Json)} :
      Field.ofName? k = some f → f.read j = .ok a → f.default? = some a →
      Restates ((some k, j) :: ms) ms
  | trans {ms ms' ms'' : List (Option String × Json)} : Restates ms ms' → Restates ms' ms'' →
      Restates ms ms''

section

variable {ms ms' : List (Option String × Json)} {d : Descriptor} {k k' : String} {j j' : Json}

theorem read_perm (h : ms.Perm ms') (hd : read (Json.object ms) = .ok d) :
    read (Json.object ms') = .ok d := by
  rw [read_object_eq_ok] at hd ⊢
  exact ⟨fun m hm => hd.1 m (h.mem_iff.2 hm), fun f => (hd.2 f).perm (given_perm h f)⟩

theorem Restates.read_eq_ok (h : Restates ms ms') (hd : read (Json.object ms) = .ok d) :
    read (Json.object ms') = .ok d := by
  induction h with
  | perm h => exact read_perm h hd
  | @add k j ms hk hj =>
    rw [read_object_eq_ok] at hd ⊢
    refine ⟨List.forall_mem_cons.2 ⟨⟨k, rfl, fun _ => hj⟩, hd.1⟩, fun f => ?_⟩
    rw [given_cons_of_ne (by simp [hk])]
    exact hd.2 f
  | @respell k k' j ms hk =>
    rw [read_object_eq_ok] at hd ⊢
    obtain ⟨hms, hgives⟩ := hd
    obtain ⟨⟨_, heq, hwhole⟩, hms⟩ := List.forall_mem_cons.1 hms
    cases heq
    refine ⟨List.forall_mem_cons.2 ⟨⟨k', rfl, hk ▸ hwhole⟩, hms⟩, fun f => ?_⟩
    rw [given_cons, ← hk, ← given_cons]
    exact hgives f
  | @drop k j f a ms hk ha hdefault =>
    rw [read_object_eq_ok] at hd ⊢
    refine ⟨fun m hm => hd.1 m (List.mem_cons_of_mem _ hm), fun g => ?_⟩
    have hg := hd.2 g
    by_cases h : g = f
    · subst h
      rw [given_cons_self hk] at hg
      exact hg.tail ha hdefault
    · rwa [given_cons_of_ne (by simp [hk, Ne.symm h])] at hg
  | trans _ _ ih ih' => exact ih' (ih hd)

theorem exists_error_of_ne_ok {x : Except ε α} (h : ∀ a, x ≠ .ok a) : ∃ e, x = .error e := by
  cases x with
  | error e => exact ⟨e, rfl⟩
  | ok a => exact absurd rfl (h a)

theorem read_ne_ok_of_twice {f : Field} (hne : k ≠ k') (hk : Field.ofName? k = some f)
    (hk' : Field.ofName? k' = some f) (hj : (some k, j) ∈ ms) (hj' : (some k', j') ∈ ms) :
    read (Json.object ms) ≠ .ok d := by
  obtain ⟨pre, post, rfl⟩ := List.append_of_mem hj
  have hmem : (some k', j') ∈ pre ++ post := by simpa [hne.symm] using hj'
  obtain ⟨pre', post', hsplit⟩ := List.append_of_mem hmem
  -- both may be taken to stand in front
  have hperm : (pre ++ (some k, j) :: post).Perm ((some k, j) :: (some k', j') :: (pre' ++ post')) := by
    refine List.perm_middle.trans (.cons _ ?_)
    rw [hsplit]
    exact List.perm_middle
  intro hd
  have hf := (read_object_eq_ok.1 (read_perm hperm hd)).2 f
  rw [given_cons_self hk, given_cons_self hk'] at hf
  exact hf

end

/-- What is read depends on the fields that are given: not on how an object is written down, and an
array is read as an object of as many fields. No field is given by two names. -/
theorem read_fields :
    (∀ ms ms' d, Restates ms ms' → read (Json.object ms) = .ok d →
      read (Json.object ms') = .ok d) ∧
    (∀ ms ms' e, ms.Perm ms' → read (Json.object ms) = .error e →
      ∃ e', read (Json.object ms') = .error e') ∧
    (∀ ms k k' f j j', k ≠ k' → Field.ofName? k = some f → Field.ofName? k' = some f →
      (some k, j) ∈ ms → (some k', j') ∈ ms → ∃ e, read (Json.object ms) = .error e) ∧
    ∀ js d, read (Json.array js) = .ok d ↔
      js.length ≤ shape.fields.length ∧ read (Json.ofFields (shape.fields.zip js)) = .ok d := by
  refine ⟨fun ms ms' d h => h.read_eq_ok, fun ms ms' e h he => ?_, ?_, fun js d => Json.record_array_eq_ok⟩
  · refine exists_error_of_ne_ok fun d hd => ?_
    cases he.symm.trans (read_perm h.symm hd)
  · intro ms k k' f j j' hne hk hk' hj hj'
    exact exists_error_of_ne_ok fun d => read_ne_ok_of_twice hne hk hk' hj hj'

theorem read_fields_bracket :
    let ms : List (Option String × Json) :=
      [(some "bracket_left", .bool true), (some "operator", .null), (some "type", .string "geo")]
    let ms' : List (Option String × Json) :=
      [(some "note", .array [.null]), (some "type", .string "geo"), (some "bracketLeft", .bool true)]
    Restates ms ms' ∧ read (Json.object ms') = .ok (ofType "geo").opened ∧
      (∃ e, read (Json.object (ms.take 1 ++ ms')) = .error e) ∧
      (∃ e, read (Json.object (ms' ++ ms.take 1)) = .error e) ∧
      read (Json.array [.string "geo", .null, .bool true]) = .ok (ofType "geo").opened := by
  intro ms ms'
  have hms : read (Json.object ms) = .ok (ofType "geo").opened := rfl
  let bracket : Option String × Json := (some "bracketLeft", .bool true)
  let type : Option String × Json := (some "type", .string "geo")
  have hrespell : Restates ms [bracket, (some "operator", .null), type] := .respell rfl
  have hdrop : Restates [(some "operator", .null), bracket, type] [bracket, type] :=
    .drop (f := .operator) rfl rfl rfl
  have hadd : Restates [type, bracket] ms' := .add rfl rfl
  have hrestates : Restates ms ms' :=
    hrespell.trans (.trans (.perm (.swap ..)) (hdrop.trans (.trans (.perm (.swap ..)) hadd)))
  obtain ⟨hrestate, hperm, htwice, harray⟩ := read_fields
  obtain ⟨e, he⟩ := htwice (ms.take 1 ++ ms') "bracket_left" "bracketLeft" .opens
    (.bool true) (.bool true) (by decide) rfl rfl (by simp [ms]) (by simp [ms'])
  refine ⟨hrestates, hrestate _ _ _ hrestates hms, ⟨e, he⟩,
    hperm _ _ e List.perm_append_comm he, (harray _ _).2 ⟨by decide, rfl⟩⟩

end Descriptor

end Targeting
