import Targeting.Proofs.Gathering

namespace Targeting

section

variable {D : List α → α → ε → Prop} {check : List α → α → Except ε Unit} {x : α} {xs : List α} {f : ε}

def Sound (D : List α → α → ε → Prop) (xs : List α) : Prop :=
  ∀ pre x post, xs = pre ++ x :: post → ∀ f, ¬ D pre x f

/-- An item has the defect, and no item before it has any. -/
def FirstDefect (D : List α → α → ε → Prop) (xs : List α) (f : ε) : Prop :=
  ∃ pre x post, xs = pre ++ x :: post ∧ Sound D pre ∧ D pre x f

theorem sound_cons :
    Sound D (x :: xs) ↔ (∀ f, ¬ D [] x f) ∧ Sound (fun pre => D (x :: pre)) xs := forall_split_cons

theorem firstDefect_cons : FirstDefect D (x :: xs) f ↔
    D [] x f ∨ (∀ f, ¬ D [] x f) ∧ FirstDefect (fun pre => D (x :: pre)) xs f := by
  rw [FirstDefect, exists_split_cons]
  simp only [sound_cons]
  constructor
  · rintro (⟨-, hx⟩ | ⟨pre, y, post, hxs, ⟨hx, hpre⟩, hy⟩)
    · exact .inl hx
    · exact .inr ⟨hx, pre, y, post, hxs, hpre, hy⟩
  · rintro (hx | ⟨hx, pre, y, post, hxs, hpre, hy⟩)
    · exact .inl ⟨by simp [Sound], hx⟩
    · exact .inr ⟨pre, y, post, hxs, ⟨hx, hpre⟩, hy⟩

def checkAll (check : List α → α → Except ε Unit) (pre : List α) : List α → Except ε Unit
  | [] => .ok ()
  | x :: xs => do
    check pre x
    checkAll check (pre ++ [x]) xs

theorem eq_ok_unit {y : Except ε Unit} : y = .ok () ↔ ∀ f, y ≠ .error f := by
  cases y <;> simp

theorem checkAll_eq_ok {pre : List α} : checkAll check pre xs = .ok () ↔
    Sound (fun as x f => check (pre ++ as) x = .error f) xs := by
  induction xs generalizing pre with
  | nil => simp [checkAll, Sound]
  | cons x xs ih =>
    rw [checkAll, check_bind_eq_ok, sound_cons, ih, eq_ok_unit]
    simp

theorem checkAll_eq_error {pre : List α} : checkAll check pre xs = .error f ↔
    FirstDefect (fun as x f => check (pre ++ as) x = .error f) xs f := by
  induction xs generalizing pre with
  | nil => simp [checkAll, FirstDefect]
  | cons x xs ih =>
    rw [checkAll, check_bind_eq_error, firstDefect_cons, ih, eq_ok_unit]
    simp

theorem mapError_checkAll {g : ε → ε'} {pre : List α} : (checkAll check pre xs).mapError g =
    checkAll (fun pre x => (check pre x).mapError g) pre xs := by
  induction xs generalizing pre with
  | nil => rfl
  | cons x xs ih =>
    rw [checkAll, checkAll, mapError_bind]
    simp only [ih]

end

namespace Rule

theorem repeated?_eq_some {seen ids : List String} {id : String} :
    repeated? seen ids = some id ↔ ∃ pre i post, ids = pre ++ i :: post ∧
      Fresh seen pre ∧ (i ∈ pre ∨ i ∈ seen) ∧ i = id := by
  induction ids generalizing seen with
  | nil => simp [repeated?]
  | cons i ids ih =>
    rw [repeated?, exists_split_cons]
    simp only [fresh_cons, List.mem_cons]
    split
    case isTrue hi => simp [hi]
    case isFalse hi => simp [hi, ih, or_assoc, or_left_comm]

inductive Defect (r : Rule) : RuleError → Prop
  | blank : Text.isBlankText r.id = true → r.Defect (.missingField "rule.id")
  | reference {pre post : List String} {id : String} : Text.isBlankText r.id = false →
      r.segments = pre ++ id :: post → pre.Nodup → id ∈ pre →
      r.Defect (.invalidValue s!"rule '{r.id}' references segment '{id}' more than once")

theorem validate_eq_error {r : Rule} {e : RuleError} : r.validate = .error e ↔ r.Defect e := by
  rw [validate, ite_throw_eq_error]
  constructor
  · rintro (⟨hblank, rfl⟩ | ⟨hnamed, h⟩)
    · exact .blank hblank
    · cases hid : repeated? [] r.segments with
      | none =>
        rw [hid] at h
        cases h
      | some id =>
        rw [hid] at h
        cases h
        obtain ⟨pre, id, post, hr, hpre, hmem, rfl⟩ := repeated?_eq_some.1 hid
        exact .reference (by simpa using hnamed) hr (fresh_nil_iff.1 hpre) (by simpa using hmem)
  · rintro (hblank | ⟨hnamed, hr, hpre, hmem⟩)
    · exact .inl ⟨hblank, rfl⟩
    · have hid := repeated?_eq_some.2 ⟨_, _, _, hr, fresh_nil_iff.2 hpre, .inl hmem, rfl⟩
      rw [hid]
      exact .inr ⟨by simp [hnamed], rfl⟩

end Rule

namespace RuleSet

inductive SegmentDefect (pre : List Segment) (g : Segment) : Failure → Prop
  | blank : Text.isBlankText g.id = true → SegmentDefect pre g (.ruleSet "segment with empty id")
  | repeated : Text.isBlankText g.id = false → g.id ∈ pre.map (·.id) →
      SegmentDefect pre g (.ruleSet s!"duplicate segment id '{g.id}'")

inductive RuleDefect (known : List String) (pre : List Rule) (r : Rule) : Failure → Prop
  | own {e : RuleError} : r.Defect e → RuleDefect known pre r (.rule e)
  | repeated : r.WellFormed → r.id ∈ pre.map (·.id) →
      RuleDefect known pre r (.ruleSet s!"duplicate rule id '{r.id}'")
  | unknown {ids post : List String} {id : String} : r.WellFormed → r.id ∉ pre.map (·.id) →
      r.segments = ids ++ id :: post → (∀ i ∈ ids, i ∈ known) → id ∉ known → RuleDefect known pre r
        (.ruleSet s!"rule '{r.id}' references unknown segment '{id}'")

inductive Told (s : RuleSet) : Failure → Prop
  | segment {f : Failure} : FirstDefect SegmentDefect s.segments f → Told s f
  | rule {f : Failure} : Sound SegmentDefect s.segments →
      FirstDefect (RuleDefect (s.segments.map (·.id))) s.rules f → Told s f

def checkSegment (pre : List Segment) (g : Segment) : Except RuleSetError Unit :=
  if Text.isBlankText g.id then throw .blankSegment
  else if g.id ∈ pre.map (·.id) then throw (.repeatedSegment g.id)
  else return

def checkRule (known : List String) (pre : List Rule) (r : Rule) : Except RuleSetError Unit :=
  r.validate.mapError .badRule >>= fun _ =>
    if r.id ∈ pre.map (·.id) then throw (.repeatedRule r.id)
    else match r.segments.find? (· ∉ known) with
      | some id => throw (.unknownSegment r.id id)
      | none => return

theorem validateSegments_eq_checkAll (pre gs : List Segment) :
    validateSegments (pre.map (·.id)).reverse gs = checkAll checkSegment pre gs := by
  induction gs generalizing pre with
  | nil => rfl
  | cons g gs ih =>
    have htail := ih (pre ++ [g])
    rw [List.map_append, List.reverse_append] at htail
    simp only [validateSegments, checkAll, checkSegment, ← htail, List.mem_reverse]
    split
    case isTrue => rfl
    case isFalse =>
      split
      case isTrue => rfl
      case isFalse => rfl

theorem validateRules_eq_checkAll (known : List String) (pre rs : List Rule) :
    validateRules known (pre.map (·.id)).reverse rs = checkAll (checkRule known) pre rs := by
  induction rs generalizing pre with
  | nil => rfl
  | cons r rs ih =>
    have htail := ih (pre ++ [r])
    rw [List.map_append, List.reverse_append] at htail
    simp only [validateRules_cons, checkAll, checkRule, ← htail, List.mem_reverse]
    cases r.validate with
    | error e => rfl
    | ok =>
      change ite _ _ _ = ite _ _ _ >>= _
      split
      case isTrue => rfl
      case isFalse =>
        cases r.segments.find? (· ∉ known) with
        | none => rfl
        | some id => rfl

theorem segmentDefect_iff {pre : List Segment} {g : Segment} {f : Failure} :
    (checkSegment pre g).mapError .ofRuleSet = .error f ↔ SegmentDefect pre g f := by
  rw [mapError_eq_error]
  simp only [checkSegment, ite_throw_eq_error]
  constructor
  · rintro ⟨e, ⟨hblank, rfl⟩ | ⟨hnamed, ⟨hid, rfl⟩ | ⟨-, h⟩⟩, rfl⟩
    · exact .blank hblank
    · exact .repeated (by simpa using hnamed) hid
    · cases h
  · rintro (hblank | ⟨hnamed, hid⟩)
    · exact ⟨_, .inl ⟨hblank, rfl⟩, rfl⟩
    · exact ⟨_, .inr ⟨by simp [hnamed], .inl ⟨hid, rfl⟩⟩, rfl⟩

theorem find?_unknown {known ids : List String} {id : String} :
    ids.find? (· ∉ known) = some id ↔
      ∃ pre post, ids = pre ++ id :: post ∧ (∀ i ∈ pre, i ∈ known) ∧ id ∉ known := by
  simp only [List.find?_eq_some_iff_append, decide_not]
  grind

theorem ruleDefect_iff {known : List String} {pre : List Rule} {r : Rule} {f : Failure} :
    (checkRule known pre r).mapError .ofRuleSet = .error f ↔ RuleDefect known pre r f := by
  rw [mapError_eq_error]
  simp only [checkRule, check_bind_eq_error, ite_throw_eq_error, mapError_eq_ok, mapError_eq_error,
    Rule.validate_eq_error, Rule.validate_eq_ok]
  constructor
  · rintro ⟨e, ⟨e, h, rfl⟩ | ⟨hr, ⟨hid, rfl⟩ | ⟨hid, h⟩⟩, rfl⟩
    · exact .own h
    · exact .repeated hr hid
    · split at h
      case h_1 id hfind =>
        cases h
        obtain ⟨ids, post, hids, hknown, hid⟩ := find?_unknown.1 hfind
        exact .unknown hr ‹_› hids hknown hid
      case h_2 => cases h
  · rintro (h | ⟨hr, hid⟩ | ⟨hr, hid, hids, hknown, hunknown⟩)
    · exact ⟨_, .inl ⟨_, h, rfl⟩, rfl⟩
    · exact ⟨_, .inr ⟨hr, .inl ⟨hid, rfl⟩⟩, rfl⟩
    · rw [find?_unknown.2 ⟨_, _, hids, hknown, hunknown⟩]
      exact ⟨_, .inr ⟨hr, .inr ⟨hid, rfl⟩⟩, rfl⟩

theorem validate_eq_checkAll (s : RuleSet) : s.validate =
    checkAll checkSegment [] s.segments >>= fun _ =>
      checkAll (checkRule (s.segments.map (·.id))) [] s.rules := by
  rw [← validateSegments_eq_checkAll, ← validateRules_eq_checkAll]
  rfl

theorem validate_eq_error {s : RuleSet} {f : Failure} :
    s.validate.mapError .ofRuleSet = .error f ↔ s.Told f := by
  rw [validate_eq_checkAll, mapError_bind, mapError_checkAll, mapError_checkAll,
    check_bind_eq_error, checkAll_eq_error, checkAll_eq_ok, checkAll_eq_error]
  simp only [segmentDefect_iff, ruleDefect_iff, List.nil_append]
  constructor
  · rintro (h | ⟨hsegments, h⟩)
    · exact .segment h
    · exact .rule hsegments h
  · rintro (h | ⟨hsegments, h⟩)
    · exact .inl h
    · exact .inr ⟨hsegments, h⟩

structure Judged (s : RuleSet) (verdict : Except Failure Unit) : Prop where
  ok : verdict = .ok () ↔ s.WellFormed
  error : ∀ f, verdict = .error f ↔ s.Told f

/-- Rule sets that are put together are judged as one that lists everything they list. -/
theorem judged_validate :
    (∀ s : RuleSet, s.Judged (s.validate.mapError .ofRuleSet)) ∧
    ∀ ss : List RuleSet, Judged ⟨ss.flatMap (·.segments), ss.flatMap (·.rules)⟩
      ((ss.foldl (· ++ ·) ∅).validate.mapError .ofRuleSet) := by
  have hall (s : RuleSet) : s.Judged (s.validate.mapError .ofRuleSet) :=
    ⟨mapError_eq_ok.trans validate_eq_ok, fun _ => validate_eq_error⟩
  refine ⟨hall, fun ss => ?_⟩
  rw [foldl_append]
  exact hall _

example :
    let doc : RuleSet := ⟨[⟨"ski", "Skiers"⟩], [⟨" ", "", none, true, [], ["snow"]⟩]⟩
    ([doc, doc].foldl (· ++ ·) ∅).validate.mapError Failure.ofRuleSet =
      .error (.ruleSet "duplicate segment id 'ski'") := rfl

end RuleSet

end Targeting
