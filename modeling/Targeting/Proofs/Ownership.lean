import Targeting.Proofs.Marks

/-!
Fields that belong to providers. Loads that write no fields but their own, and look at none that
belong to a provider, commute, and it makes no difference whether one is made again. Main statement:
what calls leave is what their loads leave, each of them made once and in any order.
-/

namespace Targeting

theorem Visitor.ext_get? {v w : Visitor} (hid : v.id = w.id) (hrules : v.rules = w.rules)
    (hsegments : v.segments = w.segments) (hdata : ∀ field, v.get? field = w.get? field)
    (hloaded : ∀ key, v.isLoaded key = w.isLoaded key) : v = w := by
  obtain ⟨id, data, rules, segments, loaded⟩ := v
  obtain ⟨id', data', rules', segments', loaded'⟩ := w
  obtain rfl : id = id' := hid
  obtain rfl : rules = rules' := hrules
  obtain rfl : segments = segments' := hsegments
  obtain rfl : data = data' := Table.ext_get? hdata
  obtain rfl : loaded = loaded' := by
    apply Table.ext_get?
    intro key
    have h : (loaded.get? key).isSome = (loaded'.get? key).isSome := hloaded key
    cases hk : loaded.get? key <;> cases hk' : loaded'.get? key <;> simp [hk, hk'] at h ⊢
  rfl

/-- Who the fields of the data belong to, and what a load leaves that comes to an end. -/
structure Ownership where
  owner : (field : String) → Option String
  load : (key : String) → Visitor → Visitor
  data : ∀ key v, load key v = { v with data := (load key v).data }
  own : ∀ key v field, owner field ≠ some key → (load key v).get? field = v.get? field
  /-- Where visitors agree in all fields that belong to no provider, the same is written to a field,
  or nothing to either of them. -/
  value : ∀ key v w field, (∀ f, owner f = none → v.get? f = w.get? f) →
    (load key v).get? field = (load key w).get? field ∨
      (load key v).get? field = v.get? field ∧ (load key w).get? field = w.get? field

def Ownership.copies (source : String) : Ownership where
  owner field := if field = source then none else some field
  load key v := if key = source then v else v.set key ((v.get? source).getD .null)
  data key v := by split <;> rfl
  own key v field h := by
    split
    case isTrue => rfl
    case isFalse hkey =>
      have hfield : field ≠ key := fun heq => h (by rw [heq, if_neg hkey])
      simp [Visitor.get?, Visitor.set, hfield]
  value key v w field h := by
    have hsource : v.data.get? source = w.data.get? source := h source (if_pos rfl)
    by_cases hkey : key = source
    · simp [hkey]
    · by_cases hfield : field = key
      · simp [hkey, hsource, hfield, Visitor.get?, Visitor.set]
      · simp [hkey, hfield, Visitor.get?, Visitor.set]

namespace Ownership

variable {O : Ownership} {v w : Visitor} {j k key field : String} {keys : List String}

def fill (O : Ownership) (key : String) (v : Visitor) : Visitor := (O.load key v).markLoaded key

@[simp] theorem id_fill : (O.fill key v).id = v.id := by
  rw [fill, O.data]
  rfl

@[simp] theorem rules_fill : (O.fill key v).rules = v.rules := by
  rw [fill, O.data]
  rfl

@[simp] theorem segments_fill : (O.fill key v).segments = v.segments := by
  rw [fill, O.data]
  rfl

@[simp] theorem isLoaded_fill : (O.fill key v).isLoaded k = (k == key || v.isLoaded k) := by
  rw [fill, Matcher.isLoaded_markLoaded, O.data]
  rfl

theorem get?_fill_of_ne (h : O.owner field ≠ some key) :
    (O.fill key v).get? field = v.get? field := O.own key v field h

theorem get?_load_congr (hfree : ∀ f, O.owner f = none → v.get? f = w.get? f)
    (hfield : v.get? field = w.get? field) :
    (O.load key v).get? field = (O.load key w).get? field := by
  rcases O.value key v w field hfree with h | ⟨hv, hw⟩
  · exact h
  · rw [hv, hw, hfield]

theorem free_fill (f : String) (hf : O.owner f = none) : (O.fill key v).get? f = v.get? f :=
  get?_fill_of_ne (by simp [hf])

@[simp] theorem fill_fill : O.fill key (O.fill key v) = O.fill key v := by
  refine Visitor.ext_get? (by simp) (by simp) (by simp) (fun field => ?_) (by simp)
  rcases O.value key (O.fill key v) v field free_fill with h | ⟨h, -⟩
  · exact h
  · exact h

theorem fill_comm (j k : String) (v : Visitor) : O.fill j (O.fill k v) = O.fill k (O.fill j v) := by
  refine Visitor.ext_get? (by simp) (by simp) (by simp) (fun field => ?_)
    (by simp [Bool.or_left_comm])
  by_cases hjk : j = k
  · rw [hjk]
  by_cases hj : O.owner field = some j
  · have hk : O.owner field ≠ some k := by simp [hj, hjk]
    rw [get?_fill_of_ne hk]
    exact get?_load_congr free_fill (get?_fill_of_ne hk)
  · rw [get?_fill_of_ne hj]
    exact (get?_load_congr free_fill (get?_fill_of_ne hj)).symm

def fillAll (O : Ownership) (keys : List String) (v : Visitor) : Visitor :=
  keys.foldl (fun v key => O.fill key v) v

@[simp] theorem fillAll_nil : O.fillAll [] v = v := rfl

@[simp] theorem fillAll_cons : O.fillAll (key :: keys) v = O.fillAll keys (O.fill key v) := rfl

theorem fill_fillAll : O.fill key (O.fillAll keys v) = O.fillAll keys (O.fill key v) := by
  induction keys generalizing v with
  | nil => rfl
  | cons k keys ih => simp [ih, fill_comm]

theorem fill_fillAll_of_mem (h : key ∈ keys) : O.fill key (O.fillAll keys v) = O.fillAll keys v := by
  induction keys generalizing v with
  | nil => cases h
  | cons k keys ih =>
    rcases List.mem_cons.1 h with rfl | h
    · simp [fill_fillAll]
    · simp [ih h]

theorem fillAll_fillAll_of_subset {js ks : List String} (h : js ⊆ ks) :
    O.fillAll js (O.fillAll ks v) = O.fillAll ks v := by
  induction js with
  | nil => rfl
  | cons j js ih =>
    rw [List.cons_subset] at h
    rw [fillAll_cons, fill_fillAll_of_mem h.1, ih h.2]

theorem isLoaded_fillAll :
    (O.fillAll keys v).isLoaded k = true ↔ k ∈ keys ∨ v.isLoaded k = true := by
  induction keys generalizing v with
  | nil => simp
  | cons key keys ih => simp [ih, or_left_comm, or_assoc]

theorem get?_fillAll (h : ∀ k ∈ keys, O.owner field = some k → O.fill k v = v) :
    (O.fillAll keys v).get? field = v.get? field := by
  induction keys generalizing v with
  | nil => rfl
  | cons key keys ih =>
    rw [List.forall_mem_cons] at h
    by_cases hkey : O.owner field = some key
    · rw [fillAll_cons, h.1 hkey, ih h.2]
    · rw [fillAll_cons, ih, get?_fill_of_ne hkey]
      intro k hk hfield
      rw [fill_comm, h.2 k hk hfield]

end Ownership

/-- Providers write what they are to write, and conditions look at no field that belongs to a
provider they do not require. -/
structure Ownership.Governs (O : Ownership) (m : Matcher) : Prop where
  writes : ∀ key p v w, m.locate key = .ok p → p v = (w, .ok ()) → w = O.load key v
  reads : ∀ d c, m.build d = .ok c → c.configured = true → ∀ v w : Visitor,
    (∀ f, (∀ key, O.owner f = some key → key ∈ c.requires.getD []) → v.get? f = w.get? f) →
    c.holds v = c.holds w

namespace Matcher

variable {O : Ownership} {m : Matcher} {v w : Visitor} {key : String} {cs ds : List Call}

theorem exists_of_answer_load (h : m.answer ⟨.load key, v⟩ = .ok ()) :
    ∃ p w, m.locate key = .ok p ∧ p v = (w, .ok ()) := by
  rw [answer] at h
  cases hlocate : m.locate key with
  | error e => simp [hlocate, Except.bind] at h
  | ok p =>
    rcases hload : p v with ⟨w, _ | _⟩
    · simp [hlocate, hload, Except.bind] at h
    · exact ⟨p, w, rfl, hload⟩

theorem after_load (hO : O.Governs m) (h : m.answer ⟨.load key, v⟩ = .ok ()) :
    m.after v (.load key) = O.fill key v := by
  obtain ⟨p, w, hlocate, hload⟩ := exists_of_answer_load h
  simp [after, hlocate, hload, Ownership.fill, hO.writes key p v w hlocate hload]

def loadKeys (cs : List Call) : List String := cs.filterMap fun c =>
  match c.action with
  | .load key => some key
  | _ => none

theorem loadKeys_append (cs ds : List Call) : loadKeys (cs ++ ds) = loadKeys cs ++ loadKeys ds :=
  List.filterMap_append

theorem mem_loadKeys : key ∈ loadKeys cs ↔ ∃ c ∈ cs, c.action = .load key := by
  rw [loadKeys, List.mem_filterMap]
  refine exists_congr fun c => and_congr_right fun _ => ?_
  cases c.action <;> simp

theorem Logs.eq_fillAll (hO : O.Governs m) (h : m.Logs v cs w none) :
    w = O.fillAll (loadKeys cs) v := by
  generalize hnone : (none : Option Fault) = f at h
  induction h with
  | nil => rfl
  | failed => cases hnone
  | @cons v w a cs f ha _ ih =>
    cases a with
    | load key => rw [ih hnone, after_load hO ha]; rfl
    | build d => exact ih hnone
    | lookup key => exact ih hnone
    | judge c => exact ih hnone

theorem Logs.of_cons {c : Call} (h : m.Logs v (c :: cs) w none) :
    c.visitor = v ∧ m.answer c = .ok () ∧ m.Logs (m.after v c.action) cs w none := by
  cases h with
  | cons ha h => exact ⟨rfl, ha, h⟩

theorem Logs.exists_of_append (h : m.Logs v (cs ++ ds) w none) :
    ∃ u, m.Logs v cs u none ∧ m.Logs u ds w none := by
  induction cs generalizing v with
  | nil => exact ⟨v, .nil, h⟩
  | cons c cs ih =>
    obtain ⟨rfl, ha, h⟩ := h.of_cons
    obtain ⟨u, hcs, hds⟩ := ih h
    exact ⟨u, .cons ha hcs, hds⟩

theorem Logs.visitor_eq_fillAll (hO : O.Governs m) {c : Call}
    (h : m.Logs v (cs ++ c :: ds) w none) : c.visitor = O.fillAll (loadKeys cs) v := by
  obtain ⟨u, hcs, hds⟩ := h.exists_of_append
  rw [hds.of_cons.1]
  exact hcs.eq_fillAll hO

end Matcher

end Targeting
