import Targeting.Proofs.Retry

namespace Targeting

attribute [local instance] Run.lawful

namespace Ownership

variable {O : Ownership} {v : Visitor} {js ks keys : List String}

theorem fillAll_append : O.fillAll (js ++ ks) v = O.fillAll ks (O.fillAll js v) :=
  List.foldl_append

theorem fillAll_comm (js ks : List String) (v : Visitor) :
    O.fillAll js (O.fillAll ks v) = O.fillAll ks (O.fillAll js v) := by
  induction js generalizing v with
  | nil => rfl
  | cons j js ih => rw [fillAll_cons, fillAll_cons, fill_fillAll, ih]

@[simp] theorem rules_fillAll : (O.fillAll keys v).rules = v.rules := by
  induction keys generalizing v with
  | nil => rfl
  | cons key keys ih => simp [ih]

@[simp] theorem segments_fillAll : (O.fillAll keys v).segments = v.segments := by
  induction keys generalizing v with
  | nil => rfl
  | cons key keys ih => simp [ih]

theorem fillAll_perm (h : js.Perm ks) (v : Visitor) : O.fillAll js v = O.fillAll ks v := by
  induction h generalizing v with
  | nil => rfl
  | cons key _ ih => exact ih (O.fill key v)
  | swap j k ks => rw [fillAll_cons, fillAll_cons, fillAll_cons, fillAll_cons, fill_comm]
  | trans _ _ ih ih' => exact (ih v).trans (ih' v)

end Ownership

namespace Matcher

variable {O : Ownership} {m : Matcher} {keys : List String} {v w : Visitor}

def Reliable (m : Matcher) : Prop := ∀ key p v, m.locate key = .ok p → (p v).2 = .ok ()

def Located (m : Matcher) (keys : List String) : Prop := ∀ key ∈ keys, ∃ p, m.locate key = .ok p

theorem Reliable.answer_load (hm : m.Reliable) (key : String) (v : Visitor) :
    m.answer ⟨.load key, v⟩ = (m.locate key).map fun _ => () := by
  cases hlocate : m.locate key with
  | error e => simp [answer, hlocate, Except.bind, Except.map]
  | ok p => simp [answer, hlocate, Except.bind, Except.map, hm key p v hlocate]

def Steady (m : Matcher) (O : Ownership) (keys : List String) (x : Run α) : Prop :=
  ∀ v, m.Settled O keys v → (x (O.fillAll keys v)).result = (x v).result ∧
    ∀ a, (x v).result = .ok a → m.Settled O keys (x v).visitor ∧
      (x (O.fillAll keys v)).visitor = O.fillAll keys (x v).visitor

theorem Steady.of_keeps {x : Run α} (hvisitor : ∀ v, (x v).visitor = v)
    (hresult : ∀ v w, (x v).result = (x w).result) : m.Steady O keys x := by
  intro v hv
  rw [hvisitor, hvisitor]
  exact ⟨hresult _ v, fun _ _ => ⟨hv, rfl⟩⟩

theorem Steady.closed (m : Matcher) (O : Ownership) (keys : List String) :
    Run.Closed fun x _ => m.Steady O keys x where
  pure _ := .of_keeps (fun _ => rfl) fun _ _ => rfl
  lift _ := .of_keeps (fun _ => rfl) fun _ _ => rfl
  announce _ := .of_keeps (fun _ => rfl) fun _ _ => rfl
  bind := by
    intro α β x _ f _ hx hf v hv
    obtain ⟨hresult, hok⟩ := hx v hv
    cases hxv : (x v).result with
    | error fault =>
      rw [Run.bind_of_error hxv, Run.bind_of_error (hresult.trans hxv)]
      exact ⟨rfl, nofun⟩
    | ok a =>
      obtain ⟨hw, hvisitor⟩ := hok a hxv
      rw [Run.bind_of_ok hxv, Run.bind_of_ok (hresult.trans hxv), hvisitor]
      exact hf a (x v).visitor hw

theorem steady_require (hO : O.Governs m) (hm : m.Reliable) (hkeys : m.Located keys)
    (key : String) : m.Steady O keys (m.require key) := by
  intro v hv
  by_cases hskip : m.policy = .oncePerVisitor ∧ v.isLoaded key = true
  case pos =>
    have hskip' : m.policy = .oncePerVisitor ∧ (O.fillAll keys v).isLoaded key = true :=
      ⟨hskip.1, Ownership.isLoaded_fillAll.2 (.inr hskip.2)⟩
    rw [require_apply, require_apply, if_pos hskip, if_pos hskip']
    exact ⟨rfl, fun _ _ => ⟨hv, rfl⟩⟩
  case neg =>
    by_cases hskip' : m.policy = .oncePerVisitor ∧ (O.fillAll keys v).isLoaded key = true
    case pos =>
      -- one of the keys, so it can be loaded here, and there it is already
      have hkey : key ∈ keys := (Ownership.isLoaded_fillAll.1 hskip'.2).resolve_right
        fun hloaded => hskip ⟨hskip'.1, hloaded⟩
      obtain ⟨p, hlocate⟩ := hkeys key hkey
      have hload : m.answer ⟨.load key, v⟩ = .ok () := by rw [hm.answer_load, hlocate]; rfl
      rw [require_apply, require_apply, if_pos hskip', if_neg hskip, fetch_apply, after_load hO hload]
      refine ⟨hload.symm, fun _ _ => ⟨hv.fill key, ?_⟩⟩
      rw [← Ownership.fill_fillAll, Ownership.fill_fillAll_of_mem hkey]
    case neg =>
      rw [require_apply, require_apply, if_neg hskip', if_neg hskip, fetch_apply, fetch_apply]
      have hanswer : m.answer ⟨.load key, O.fillAll keys v⟩ = m.answer ⟨.load key, v⟩ := by
        rw [hm.answer_load, hm.answer_load]
      refine ⟨hanswer, fun _ hok => ?_⟩
      rw [after_load hO hok, after_load hO (hanswer.trans hok), Ownership.fill_fillAll]
      exact ⟨hv.fill key, rfl⟩

theorem steady_ask (hO : O.Governs m) (hm : m.Reliable) (hkeys : m.Located keys) {d : Descriptor}
    {c : Condition} (hc : m.build d = .ok c) : m.Steady O keys (m.ask c) := by
  rw [ask_eq]
  split
  case isFalse => exact (Steady.closed m O keys).pure true
  case isTrue hconf =>
    intro v hv
    obtain ⟨hresult, hok⟩ := (Steady.closed m O keys).requireAll (n := m)
      (steady_require hO hm hkeys) (c.requires.getD []) v hv
    cases hreq : (m.requireAll (c.requires.getD []) v).result with
    | error fault =>
      rw [Run.bind_of_error hreq, Run.bind_of_error (hresult.trans hreq)]
      exact ⟨rfl, nofun⟩
    | ok =>
      obtain ⟨hw, hvisitor⟩ := hok () hreq
      rw [Run.bind_of_ok hreq, Run.bind_of_ok (hresult.trans hreq), hvisitor]
      have hholds := hO.reads d c hc hconf _ _ fun f hf =>
        Ownership.get?_fillAll fun k hk hkf => hv.fill_requireAll hO hreq (hf k hkf) hk
      exact ⟨congrArg Except.ok hholds, fun _ _ => ⟨hw, rfl⟩⟩

theorem steady_holds (hO : O.Governs m) (hm : m.Reliable) (hkeys : m.Located keys)
    (ds : List Descriptor) : m.Steady O keys (m.holds ds) := by
  have hQ := Steady.closed m O keys
  refine hQ.holds (n := m) (fun d => ?_) ds
  exact hQ.decide (n := m) rfl d (.of_keeps (fun _ => rfl) fun _ _ => rfl)
    fun c hc => steady_ask hO hm hkeys hc

theorem logs_holds {ds : List Descriptor} {b : Bool} (h : (m.holds ds v).result = .ok b) :
    m.Logs v (m.holds ds v).calls (m.holds ds v).visitor none := by
  obtain ⟨f, hlogs, hf⟩ := (Tracks.closed m).holds (n := m) (fun d => (Logged.decide d).tracks) ds v
  cases f with
  | none => exact hlogs
  | some fault => cases h.symm.trans (hf fault rfl)

theorem Logs.located {cs : List Call} (h : m.Logs v cs w none) : m.Located (loadKeys cs) := by
  intro key hkey
  obtain ⟨⟨action, u⟩, hc, rfl⟩ := mem_loadKeys.1 hkey
  obtain ⟨p, -, hlocate, -⟩ := exists_of_answer_load (h.answer_ok hc)
  exact ⟨p, hlocate⟩

end Matcher

namespace Engine

variable {O : Ownership} {e f : Engine} {keys : List String} {v : Visitor} {r : Rule} {rs : List Rule}

def matchesAlone (e : Engine) (v : Visitor) (r : Rule) : Bool :=
  considers r && (e.matcher.holds r.conditions v).result.toOption == some true

def loadsAlone (e : Engine) (v : Visitor) (r : Rule) : List String :=
  if considers r then Matcher.loadKeys (e.matcher.holds r.conditions v).calls else []

def Succeeds (e : Engine) (v : Visitor) (r : Rule) : Prop :=
  considers r = true → ∃ b, (e.matcher.holds r.conditions v).result = .ok b

theorem result_matching_skip (h : considers r = false) :
    (e.matching (r :: rs) v) = e.matching rs v := by
  rw [matching, h]
  rfl

theorem visitor_matching_cons (hstop : e.config.stopOnFirstMatch = false)
    (h : considers r = true) {b : Bool} (hb : (e.matcher.holds r.conditions v).result = .ok b) :
    (e.matching (r :: rs) v).visitor =
      (e.matching rs (e.matcher.holds r.conditions v).visitor).visitor := by
  rw [matching_cons, if_pos h, Run.bind_of_ok hb, hstop]
  cases b with
  | false => rfl
  | true =>
    cases hrs : (e.matching rs (e.matcher.holds r.conditions v).visitor).result <;>
      simp [Run.bind_apply, Run.announce, Run.visitor, Run.notice, Run.map_apply, hrs]

theorem holds_fillAll (hO : O.Governs e.matcher) (hm : e.matcher.Reliable)
    (hkeys : e.matcher.Located keys) (hv : e.matcher.Settled O keys v) (r : Rule) :
    (e.matcher.holds r.conditions (O.fillAll keys v)).result =
      (e.matcher.holds r.conditions v).result ∧
    ∀ b, considers r = true → (e.matcher.holds r.conditions v).result = .ok b →
      (e.matcher.holds r.conditions (O.fillAll keys v)).visitor =
        O.fillAll (e.loadsAlone v r ++ keys) v ∧
      e.matcher.Located (e.loadsAlone v r ++ keys) ∧
      e.matcher.Settled O (e.loadsAlone v r ++ keys) v := by
  obtain ⟨hresult, hok⟩ := Matcher.steady_holds hO hm hkeys r.conditions v hv
  refine ⟨hresult, fun b hconsiders hb => ?_⟩
  have hlogs := Matcher.logs_holds hb
  have hsettled := hlogs.settled hO fun honce c hc =>
    (Run.Always.closed Matcher.Needed).holds (n := e.matcher)
      (Matcher.always_needed_decide honce) r.conditions v c hc
  rw [loadsAlone, if_pos hconsiders, (hok b hb).2, hlogs.eq_fillAll hO, Ownership.fillAll_append]
  refine ⟨rfl, ?_, ?_⟩
  · exact fun k hk => (List.mem_append.1 hk).elim (hlogs.located k) (hkeys k)
  · exact fun honce k hk => (List.mem_append.1 hk).elim (hsettled honce k) (hv honce k)

theorem matching_of_succeeds (hO : O.Governs e.matcher) (hm : e.matcher.Reliable)
    (hstop : e.config.stopOnFirstMatch = false) (hkeys : e.matcher.Located keys)
    (hv : e.matcher.Settled O keys v) (h : ∀ r ∈ rs, e.Succeeds v r) :
    (e.matching rs (O.fillAll keys v)).result = .ok (rs.filter (e.matchesAlone v)) ∧
      (e.matching rs (O.fillAll keys v)).visitor =
        O.fillAll (rs.flatMap (e.loadsAlone v)) (O.fillAll keys v) := by
  induction rs generalizing keys with
  | nil => exact ⟨rfl, rfl⟩
  | cons r rs ih =>
    obtain ⟨hr, hrs⟩ := List.forall_mem_cons.1 h
    rw [List.flatMap_cons, Ownership.fillAll_append]
    cases hconsiders : considers r with
    | false =>
      have hmatches : e.matchesAlone v r = false := by simp [matchesAlone, hconsiders]
      rw [result_matching_skip hconsiders, List.filter_cons_of_neg (by simp [hmatches]), loadsAlone,
        hconsiders]
      exact ih hkeys hv hrs
    | true =>
      obtain ⟨b, hb⟩ := hr hconsiders
      obtain ⟨hresult, hrest⟩ := holds_fillAll hO hm hkeys hv r
      obtain ⟨hvisitor, hkeys', hv'⟩ := hrest b hconsiders hb
      obtain ⟨hresult', hvisitor'⟩ := ih hkeys' hv' hrs
      rw [hb] at hresult
      rw [visitor_matching_cons hstop hconsiders hresult, result_matching_cons, if_pos hconsiders,
        hresult, hvisitor, hresult', hvisitor', Ownership.fillAll_append, Ownership.fillAll_comm keys _ v]
      refine ⟨?_, rfl⟩
      cases b <;> simp [matchesAlone, hconsiders, hb, hstop, Except.map, Except.toOption]

theorem succeeds_of_matching (hO : O.Governs e.matcher) (hm : e.matcher.Reliable)
    (hstop : e.config.stopOnFirstMatch = false) (hkeys : e.matcher.Located keys)
    (hv : e.matcher.Settled O keys v) {found : List Rule}
    (h : (e.matching rs (O.fillAll keys v)).result = .ok found) : ∀ r ∈ rs, e.Succeeds v r := by
  induction rs generalizing keys found with
  | nil => nofun
  | cons r rs ih =>
    cases hconsiders : considers r with
    | false =>
      rw [result_matching_skip hconsiders] at h
      exact List.forall_mem_cons.2 ⟨by simp [Succeeds, hconsiders], ih hkeys hv h⟩
    | true =>
      obtain ⟨hresult, hrest⟩ := holds_fillAll hO hm hkeys hv r
      rw [result_matching_cons, if_pos hconsiders, hresult] at h
      cases hb : (e.matcher.holds r.conditions v).result with
      | error fault =>
        rw [hb] at h
        cases h
      | ok b =>
        obtain ⟨hvisitor, hkeys', hv'⟩ := hrest b hconsiders hb
        rw [hb, hvisitor, hstop] at h
        refine List.forall_mem_cons.2 ⟨fun _ => ⟨b, hb⟩, ?_⟩
        cases b with
        | false => exact ih hkeys' hv' h
        | true =>
          cases hrs : (e.matching rs (O.fillAll (e.loadsAlone v r ++ keys) v)).result with
          | error fault => simp [hrs, Except.map] at h
          | ok found => exact ih hkeys' hv' hrs

theorem evaluate_of_succeeds (hO : O.Governs e.matcher) (hm : e.matcher.Reliable)
    (hstop : e.config.stopOnFirstMatch = false) (h : ∀ r ∈ e.rules, e.Succeeds v r) :
    (e.evaluate v).result = .ok ((e.rules.filter (e.matchesAlone v)).map (·.id)) ∧
      (e.evaluate v).visitor = { O.fillAll (e.rules.flatMap (e.loadsAlone v)) v with
        rules := v.rules ++ e.rules.filter (e.matchesAlone v)
        segments := v.segments ++ (e.rules.filter (e.matchesAlone v)).flatMap e.resolved } := by
  have hlocated : e.matcher.Located [] := nofun
  have hsettled : e.matcher.Settled O [] v := nofun
  obtain ⟨hresult, hvisitor⟩ := matching_of_succeeds hO hm hstop hlocated hsettled h
  rw [Ownership.fillAll_nil] at hresult hvisitor
  rw [evaluate_of_ok hresult, foldl_record, hvisitor]
  simp

theorem exists_evaluate_iff (hO : O.Governs e.matcher) (hm : e.matcher.Reliable)
    (hstop : e.config.stopOnFirstMatch = false) :
    (∃ ids, (e.evaluate v).result = .ok ids) ↔ ∀ r ∈ e.rules, e.Succeeds v r := by
  constructor
  · rintro ⟨ids, h⟩
    obtain ⟨found, hfound, -⟩ := exists_of_evaluate_ok h
    have hlocated : e.matcher.Located [] := nofun
    have hsettled : e.matcher.Settled O [] v := nofun
    exact succeeds_of_matching hO hm hstop hlocated hsettled hfound
  · exact fun h => ⟨_, (evaluate_of_succeeds hO hm hstop h).1⟩

/-- Rules that are declared in another order are found alike, each time in the order of their
declaration, and leave the same data and the same providers loaded. -/
theorem evaluate_perm (hO : O.Governs e.matcher) (hm : e.matcher.Reliable)
    (hstop : e.config.stopOnFirstMatch = false) (hperm : e.rules.Perm rs) (v : Visitor) :
    let f : Engine := { e with rules := rs }
    ((∃ ids, (e.evaluate v).result = .ok ids) ↔ ∃ ids, (f.evaluate v).result = .ok ids) ∧
    ∀ ids ids', (e.evaluate v).result = .ok ids → (f.evaluate v).result = .ok ids' →
      ids = (e.rules.filter (e.matchesAlone v)).map (·.id) ∧
      ids' = (rs.filter (e.matchesAlone v)).map (·.id) ∧
      (e.evaluate v).visitor.rules = v.rules ++ e.rules.filter (e.matchesAlone v) ∧
      (f.evaluate v).visitor.rules = v.rules ++ rs.filter (e.matchesAlone v) ∧
      (f.evaluate v).visitor.data = (e.evaluate v).visitor.data ∧
      (f.evaluate v).visitor.loaded = (e.evaluate v).visitor.loaded := by
  intro f
  have hmem : (∀ r ∈ e.rules, e.Succeeds v r) ↔ ∀ r ∈ rs, f.Succeeds v r :=
    forall_congr' fun r => imp_congr_left hperm.mem_iff
  have he := exists_evaluate_iff (e := e) (v := v) hO hm hstop
  have hf := exists_evaluate_iff (e := f) (v := v) hO hm hstop
  refine ⟨he.trans (hmem.trans hf.symm), fun ids ids' hids hids' => ?_⟩
  obtain ⟨hresult, hvisitor⟩ := evaluate_of_succeeds hO hm hstop (he.1 ⟨ids, hids⟩)
  obtain ⟨hresult', hvisitor'⟩ := evaluate_of_succeeds (e := f) hO hm hstop (hf.1 ⟨ids', hids'⟩)
  have hloads : O.fillAll (e.rules.flatMap (e.loadsAlone v)) v =
      O.fillAll (rs.flatMap (f.loadsAlone v)) v :=
    Ownership.fillAll_perm (hperm.flatMap_right _) v
  cases hids.symm.trans hresult
  cases hids'.symm.trans hresult'
  rw [hvisitor, hvisitor', hloads]
  exact ⟨rfl, rfl, rfl, rfl, rfl, rfl⟩

theorem evaluate_perm_device :
    let O := Ownership.copies "agent"
    let conditions : Factory := fun d => .ok ⟨true, (·.has d.type), some [d.type, "device"]⟩
    let m : Matcher := ⟨conditions, fun key => .ok fun v => (O.load key v, .ok ()), .oncePerVisitor⟩
    let located : Rule := ⟨"located", "", none, true, [.ofType "geo"], []⟩
    let mobile : Rule := ⟨"mobile", "", none, true, [.ofType "device"], []⟩
    let e : Engine := ⟨m, [located, mobile], ∅, ∅⟩
    let f : Engine := { e with rules := [mobile, located] }
    let v := Visitor.anonymous.set "agent" (.string "phone")
    (e.evaluate v).result = .ok ["located", "mobile"] ∧
      (f.evaluate v).result = .ok ["mobile", "located"] ∧
      Matcher.loadKeys (e.evaluate v).calls = ["geo", "device"] ∧
      Matcher.loadKeys (f.evaluate v).calls = ["device", "geo"] ∧
      (f.evaluate v).visitor.data = (e.evaluate v).visitor.data ∧
      (f.evaluate v).visitor.loaded = (e.evaluate v).visitor.loaded := by
  intro O conditions m located mobile e f v
  have governs : O.Governs e.matcher := by
    constructor
    case writes =>
      rintro key p v w ⟨⟩ ⟨⟩
      rfl
    case reads =>
      rintro d c ⟨⟩ - v w h
      have hfield : v.get? d.type = w.get? d.type := by
        apply h
        intro key hkey
        by_cases hagent : d.type = "agent"
        · simp [O, Ownership.copies, hagent] at hkey
        · simp_all [O, Ownership.copies]
      simp [Visitor.has, Visitor.known?, hfield]
  have reliable : e.matcher.Reliable := by
    rintro key p v ⟨⟩
    rfl
  have he : (e.evaluate v).result = .ok ["located", "mobile"] := by cbv
  have hf : (f.evaluate v).result = .ok ["mobile", "located"] := by cbv
  obtain ⟨-, -, -, -, hdata, hloaded⟩ :=
    (evaluate_perm governs reliable rfl (.swap mobile located []) v).2 _ _ he hf
  exact ⟨he, hf, by cbv, by cbv, hdata, hloaded⟩

end Engine

end Targeting
