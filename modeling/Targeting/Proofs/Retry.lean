import Targeting.Proofs.Ledger
import Targeting.Proofs.Ownership

namespace Targeting

attribute [local instance] Run.lawful

def Run.Follows (x y : Run α) : Prop := ∀ v b, (y v).result = .ok b →
  x v = y v ∨ (∃ f, (x v).result = .error f) ∧ ∃ key, ⟨.load key, (x v).visitor⟩ ∈ (y v).calls

theorem Run.closed_follows : Run.Closed Run.Follows where
  pure _ _ _ _ := .inl rfl
  lift _ _ _ _ := .inl rfl
  announce _ _ _ _ := .inl rfl
  bind := by
    intro α β x y f g hxy hfg v b hok
    obtain ⟨a, hy, hg⟩ := exists_of_bind_ok hok
    rcases hxy v a hy with hx | ⟨⟨fault, hx⟩, key, hcall⟩
    · rcases hfg a (y v).visitor b hg with hf | ⟨⟨fault, hf⟩, key, hcall⟩
      · left
        rw [bind_of_ok (hx ▸ hy), bind_of_ok hy, hx, hf]
      · right
        rw [bind_of_ok (hx ▸ hy), hx]
        exact ⟨⟨fault, hf⟩, key, mem_calls_bind_right hy hcall⟩
    · right
      rw [bind_of_error hx]
      exact ⟨⟨fault, rfl⟩, key, mem_calls_bind_left hcall⟩

namespace Matcher

structure Flaky (m n : Matcher) : Prop where
  build : n.build = m.build
  policy : n.policy = m.policy
  locate : ∀ key p, m.locate key = .ok p → ∃ q, n.locate key = .ok q ∧
    ∀ v, q v = p v ∨ ∃ f, q v = (v, .error f)

variable {m n : Matcher}

theorem Flaky.follows_require (h : m.Flaky n) (key : String) :
    (n.require key).Follows (m.require key) := by
  intro v _ hok
  rw [require_apply] at hok
  rw [require_apply, require_apply, h.policy]
  split at hok
  case isTrue hskip => exact .inl (by rw [if_pos hskip, if_pos hskip])
  case isFalse hskip =>
    rw [if_neg hskip, if_neg hskip]
    rw [fetch_apply] at hok
    obtain ⟨p, w, hlocate, hload⟩ := exists_of_answer_load hok
    obtain ⟨q, hlocate', hq⟩ := h.locate key p hlocate
    rw [fetch_apply, fetch_apply]
    rcases hq v with hq | ⟨f, hq⟩
    · exact .inl (by simp [answer, after, hlocate, hlocate', hq, Except.bind])
    · exact .inr (by simp [answer, after, hlocate, hlocate', hq, Except.bind])

theorem Flaky.follows_decide (h : m.Flaky n) (d : Descriptor) :
    (n.decide d).Follows (m.decide d) := by
  refine Run.closed_follows.decide h.build d (fun _ _ _ => .inl rfl) fun c _ => ?_
  exact Run.closed_follows.ask h.follows_require c fun _ _ _ => .inl rfl

end Matcher

/-- Where an evaluation may leave the visitor when a load fails: at any of the loads that it makes, or
where providers that are flaky leave it. -/
inductive Engine.Breaks (e : Engine) (v : Visitor) : Visitor → Prop
  | load {key : String} {u : Visitor} : ⟨.load key, u⟩ ∈ (e.evaluate v).calls → Breaks e v u
  | flaky {n : Matcher} {f : Fault} : e.matcher.Flaky n →
      (({ e with matcher := n } : Engine).evaluate v).result = .error f →
      Breaks e v (({ e with matcher := n } : Engine).evaluate v).visitor

theorem Engine.Breaks.exists_load {e : Engine} {u v : Visitor} {found : List Rule}
    (h : e.Breaks v u) (hok : (e.matching e.rules v).result = .ok found) :
    ∃ key, ⟨.load key, u⟩ ∈ (e.matching e.rules v).calls := by
  cases h with
  | load h => exact ⟨_, e.calls_evaluate v ▸ h⟩
  | @flaky n f hflaky herror =>
    have hfollows := Run.closed_follows.matching (e := { e with matcher := n }) (f := e)
      hflaky.follows_decide rfl e.rules v found hok
    rcases hfollows with heq | ⟨⟨fault, hfault⟩, hcall⟩
    · rw [evaluate_of_ok (heq ▸ hok)] at herror
      cases herror
    · rwa [evaluate_of_error hfault]

namespace Matcher

variable {O : Ownership} {m : Matcher} {keys ks : List String} {key : String} {u v w : Visitor}

def Settled (m : Matcher) (O : Ownership) (keys : List String) (v : Visitor) : Prop :=
  m.policy = .oncePerVisitor → ∀ k ∈ keys, v.isLoaded k = true → O.fill k v = v

theorem Settled.fill (h : m.Settled O keys v) (key : String) :
    m.Settled O keys (O.fill key v) := by
  intro honce k hk hloaded
  by_cases hkey : k = key
  · rw [hkey, Ownership.fill_fill]
  · have hv : v.isLoaded k = true := by simpa [hkey] using hloaded
    rw [Ownership.fill_comm, h honce k hk hv]

theorem visitor_require (hO : O.Governs m) (hok : (m.require key v).result = .ok ()) :
    (m.policy = .oncePerVisitor ∧ v.isLoaded key = true ∧ (m.require key v).visitor = v) ∨
      (m.require key v).visitor = O.fill key v := by
  rw [require_apply] at hok ⊢
  split at hok
  case isTrue hskip => exact .inl ⟨hskip.1, hskip.2, by rw [if_pos hskip]⟩
  case isFalse hskip =>
    rw [fetch_apply] at hok
    exact .inr (by rw [if_neg hskip, fetch_apply, after_load hO hok])

theorem Settled.require (hO : O.Governs m) (h : m.Settled O keys v)
    (hok : (m.require key v).result = .ok ()) : m.Settled O keys (m.require key v).visitor := by
  rcases visitor_require hO hok with ⟨-, -, hvisitor⟩ | hvisitor
  · rwa [hvisitor]
  · rw [hvisitor]
    exact h.fill key

theorem Settled.fill_require (hO : O.Governs m) (h : m.Settled O keys v)
    (hok : (m.require key v).result = .ok ()) (hkey : key ∈ keys) :
    O.fill key (m.require key v).visitor = (m.require key v).visitor := by
  rcases visitor_require hO hok with ⟨honce, hloaded, hvisitor⟩ | hvisitor
  · rw [hvisitor, h honce key hkey hloaded]
  · rw [hvisitor, Ownership.fill_fill]

theorem exists_fillAll_requireAll (hO : O.Governs m) (hok : (m.requireAll ks v).result = .ok ()) :
    ∃ js, (m.requireAll ks v).visitor = O.fillAll js v := by
  have hlogs := Logged.requireAll (m := m) ks v
  rw [Outcome.fault?, hok] at hlogs
  exact ⟨_, hlogs.eq_fillAll hO⟩

theorem Settled.fill_requireAll (hO : O.Governs m) (h : m.Settled O keys v)
    (hok : (m.requireAll ks v).result = .ok ()) {k : String} (hk : k ∈ ks) (hkeys : k ∈ keys) :
    O.fill k (m.requireAll ks v).visitor = (m.requireAll ks v).visitor := by
  induction ks generalizing v with
  | nil => cases hk
  | cons key ks ih =>
    rw [requireAll] at hok ⊢
    obtain ⟨_, hkey, hks⟩ := Run.exists_of_bind_ok hok
    rw [Run.bind_of_ok hkey]
    rcases List.mem_cons.1 hk with rfl | hk
    · obtain ⟨js, hjs⟩ := exists_fillAll_requireAll hO hks
      rw [hjs, Ownership.fill_fillAll, h.fill_require hO hkey hkeys]
    · exact ih (h.require hO hkey) hks hk

theorem Logs.settled (hO : O.Governs m) {cs : List Call} (h : m.Logs v cs w none)
    (hneeded : m.policy = .oncePerVisitor → ∀ c ∈ cs, Needed c) :
    m.Settled O (loadKeys cs) v := by
  intro honce k hk hloaded
  obtain ⟨c, hc, haction⟩ := mem_loadKeys.1 hk
  obtain ⟨before, behind, rfl⟩ := List.append_of_mem hc
  have hfresh := hneeded honce c hc k (by simp [haction, fetches])
  rw [h.visitor_eq_fillAll hO] at hfresh
  simp [Ownership.isLoaded_fillAll.2 (.inr hloaded)] at hfresh

def Loads (m : Matcher) (cs : List Call) : Prop :=
  ∀ c ∈ cs, ∀ key, c.action = .load key → m.answer c = .ok ()

def Resumes (m : Matcher) (O : Ownership) (keys : List String) (x : Run α) : Prop :=
  ∀ v a, m.Settled O keys v → (x v).result = .ok a → m.Loads (x (O.fillAll keys v)).calls →
    m.Settled O keys (x v).visitor ∧ (x (O.fillAll keys v)).result = .ok a ∧
      (x (O.fillAll keys v)).visitor = O.fillAll keys (x v).visitor

theorem Resumes.of_keeps {x : Run α} (hvisitor : ∀ v, (x v).visitor = v)
    (hresult : ∀ v w, (x v).result = (x w).result) : m.Resumes O keys x := by
  intro v a hv hok _
  rw [hvisitor, hvisitor, hresult _ v]
  exact ⟨hv, hok, rfl⟩

theorem Resumes.closed (m : Matcher) (O : Ownership) (keys : List String) :
    Run.Closed fun x _ => m.Resumes O keys x where
  pure _ := .of_keeps (fun _ => rfl) fun _ _ => rfl
  lift _ := .of_keeps (fun _ => rfl) fun _ _ => rfl
  announce _ := .of_keeps (fun _ => rfl) fun _ _ => rfl
  bind := by
    intro α β x _ f _ hx hf v b hv hok hloads
    obtain ⟨a, hxok, hfok⟩ := Run.exists_of_bind_ok hok
    obtain ⟨hw, hxu, hvisitor⟩ :=
      hx v a hv hxok fun c hc => hloads c (Run.mem_calls_bind_left hc)
    have hfloads : m.Loads (f a (O.fillAll keys (x v).visitor)).calls := fun c hc =>
      hloads c (Run.mem_calls_bind_right hxu (hvisitor ▸ hc))
    rw [Run.bind_of_ok hxok, Run.bind_of_ok hxu, hvisitor]
    exact hf a (x v).visitor b hw hfok hfloads

theorem resumes_require (hO : O.Governs m) (key : String) :
    m.Resumes O keys (m.require key) := by
  intro v _ hv hok hloads
  refine ⟨hv.require hO hok, ?_⟩
  rw [require_apply] at hok hloads ⊢
  rw [require_apply m key v]
  by_cases hskip : m.policy = .oncePerVisitor ∧ v.isLoaded key = true
  · have hskip' : m.policy = .oncePerVisitor ∧ (O.fillAll keys v).isLoaded key = true :=
      ⟨hskip.1, Ownership.isLoaded_fillAll.2 (.inr hskip.2)⟩
    rw [if_pos hskip, if_pos hskip']
    exact ⟨rfl, rfl⟩
  · rw [if_neg hskip, fetch_apply] at hok
    rw [if_neg hskip, fetch_apply m key v, after_load hO hok, ← Ownership.fill_fillAll]
    split at hloads
    case isTrue hskip' =>
      -- the load was made before the failure, and the retry does not make it again
      have hkey : key ∈ keys := (Ownership.isLoaded_fillAll.1 hskip'.2).resolve_right
        fun hloaded => hskip ⟨hskip'.1, hloaded⟩
      rw [if_pos hskip', Ownership.fill_fillAll_of_mem hkey]
      exact ⟨rfl, rfl⟩
    case isFalse hskip' =>
      obtain ⟨p, _, hlocate, -⟩ := exists_of_answer_load hok
      have hload : m.answer ⟨.load key, O.fillAll keys v⟩ = .ok () :=
        hloads _ (by simp [fetch_apply, hlocate]) key rfl
      rw [if_neg hskip', fetch_apply, after_load hO hload]
      exact ⟨hload, rfl⟩

theorem resumes_ask (hO : O.Governs m) {d : Descriptor} {c : Condition} (hc : m.build d = .ok c) :
    m.Resumes O keys (m.ask c) := by
  rw [ask_eq]
  split
  case isFalse => exact (Resumes.closed m O keys).pure true
  case isTrue hconf =>
    intro v b hv hok hloads
    have hrequires := (Resumes.closed m O keys).requireAll (n := m) (resumes_require hO)
      (c.requires.getD [])
    obtain ⟨_, hreq, hjudge⟩ := Run.exists_of_bind_ok hok
    obtain ⟨hw, hreq', hvisitor⟩ :=
      hrequires v () hv hreq fun c hc => hloads c (Run.mem_calls_bind_left hc)
    rw [Run.bind_of_ok hreq, Run.bind_of_ok hreq', hvisitor]
    refine ⟨hw, ?_, rfl⟩
    -- a field the condition looks at belongs to none of the keys, or to one that is settled
    have hholds := hO.reads d c hc hconf _ _ fun f hf =>
      Ownership.get?_fillAll fun k hk hkf => hv.fill_requireAll hO hreq (hf k hkf) hk
    rw [← hjudge]
    exact congrArg Except.ok hholds

theorem resumes_decide (hO : O.Governs m) (d : Descriptor) : m.Resumes O keys (m.decide d) :=
  (Resumes.closed m O keys).decide (n := m) rfl d (.of_keeps (fun _ => rfl) fun _ _ => rfl)
    fun _ hc => resumes_ask hO hc

end Matcher

namespace Engine

variable {O : Ownership} {e : Engine} {u v : Visitor} {rs found : List Rule} {ids : List String}

theorem logs_matching (h : (e.matching rs v).result = .ok found) :
    e.matcher.Logs v (e.matching rs v).calls (e.matching rs v).visitor none := by
  obtain ⟨f, hlogs, hf⟩ := (Matcher.Tracks.closed e.matcher).matching (f := e)
    (fun d => (Matcher.Logged.decide d).tracks) rfl rs v
  cases f with
  | none => exact hlogs
  | some fault => cases h.symm.trans (hf fault rfl)

theorem needed_matching (honce : e.matcher.policy = .oncePerVisitor) (rs : List Rule) :
    (e.matching rs).Always Matcher.Needed :=
  (Run.Always.closed Matcher.Needed).matching (f := e) (Matcher.always_needed_decide honce) rfl rs

/-- After a load that failed, an evaluation in which none fails ends where the first one would have
ended without the failure, with the same ids and the same visitor. -/
theorem retry_eq_clean (hO : O.Governs e.matcher) (hclean : (e.evaluate v).result = .ok ids)
    (hbreaks : e.Breaks v u) (hloads : e.matcher.Loads (e.evaluate u).calls) :
    (e.evaluate u).result = .ok ids ∧ (e.evaluate u).visitor = (e.evaluate v).visitor := by
  obtain ⟨found, hfound, rfl⟩ := exists_of_evaluate_ok hclean
  obtain ⟨key, hcall⟩ := hbreaks.exists_load hfound
  obtain ⟨before, behind, hcalls⟩ := List.append_of_mem hcall
  have hlogs := logs_matching hfound
  have hend := hlogs.eq_fillAll hO
  rw [hcalls] at hlogs
  have hu : u = O.fillAll (Matcher.loadKeys before) v := hlogs.visitor_eq_fillAll hO
  obtain ⟨_, hbefore, -⟩ := hlogs.exists_of_append
  have hsettled := hbefore.settled hO fun honce c hc =>
    needed_matching honce e.rules v c (hcalls ▸ List.mem_append_left _ hc)
  rw [calls_evaluate, hu] at hloads
  obtain ⟨-, hresult, hvisitor⟩ := (Matcher.Resumes.closed e.matcher O _).matching (f := e)
    (Matcher.resumes_decide hO) rfl e.rules v found hsettled hfound hloads
  -- the clean evaluation made these loads as well
  have hsame : (e.matching e.rules u).visitor = (e.matching e.rules v).visitor := by
    rw [hu, hvisitor, hend, hcalls, Matcher.loadKeys_append]
    exact Ownership.fillAll_fillAll_of_subset (List.subset_append_left _ _)
  rw [← hu] at hresult
  rw [evaluate_of_ok hresult, evaluate_of_ok hfound, hsame]
  exact ⟨rfl, rfl⟩

theorem retry_eq_clean_device :
    let O := Ownership.copies "agent"
    let conditions : Factory := fun d => .ok ⟨true, (·.has d.type), some [d.type]⟩
    let m : Matcher := ⟨conditions, fun key => .ok fun v => (O.load key v, .ok ()), .oncePerVisitor⟩
    let n : Matcher := { m with
      locate := fun key => .ok fun v =>
        if key = "device" then (v, .error (.providerFailed key "down")) else (O.load key v, .ok ()) }
    let e : Engine := ⟨m, [⟨"located", "", none, true, [.ofType "geo"], []⟩,
      ⟨"mobile", "", none, true, [.ofType "device"], []⟩], ∅, ∅⟩
    let v := Visitor.anonymous.set "agent" (.string "phone")
    let first := ({ e with matcher := n } : Engine).evaluate v
    first.result = .error (.providerFailed "device" "down") ∧ first.visitor.isLoaded "geo" = true ∧
      (e.evaluate first.visitor).result = .ok ["located", "mobile"] ∧
      (e.evaluate first.visitor).visitor = (e.evaluate v).visitor ∧
      (e.evaluate v).calls.length = 8 ∧ (e.evaluate first.visitor).calls.length = 6 := by
  intro O conditions m n e v first
  have governs : O.Governs e.matcher := by
    constructor
    case writes =>
      rintro key p v w ⟨⟩ ⟨⟩
      rfl
    case reads =>
      rintro d c ⟨⟩ - v w h
      have hfield : v.get? d.type = w.get? d.type := by
        apply h
        intro key hkey
        by_cases hagent : d.type = "agent"
        · simp [O, Ownership.copies, hagent] at hkey
        · simpa [O, Ownership.copies, hagent, eq_comm] using hkey
      simp [Visitor.has, Visitor.known?, hfield]
  have flaky : e.matcher.Flaky n := by
    refine ⟨rfl, rfl, fun key p hp => ⟨_, rfl, fun v => ?_⟩⟩
    cases hp
    by_cases hkey : key = "device"
    · exact .inr ⟨_, if_pos hkey⟩
    · exact .inl (if_neg hkey)
  have failed : first.result = .error (.providerFailed "device" "down") := by
    simp only [first]
    cbv
  have located : first.visitor.isLoaded "geo" = true := by
    simp only [first]
    cbv
  have calls : (e.evaluate first.visitor).calls.length = 6 := by
    simp only [first]
    cbv
  have loads : e.matcher.Loads (e.evaluate first.visitor).calls := by
    intro c _ key h
    rw [Matcher.answer, h]
    rfl
  have clean : (e.evaluate v).result = .ok ["located", "mobile"] := by cbv
  obtain ⟨hresult, hvisitor⟩ := retry_eq_clean governs clean (.flaky flaky failed) loads
  exact ⟨failed, located, hresult, hvisitor, by cbv, calls⟩

end Engine

end Targeting
