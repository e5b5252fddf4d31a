import Mathlib.Data.List.DropRight
import Targeting.Proofs.Resolution
import Targeting.Proofs.Traversal

namespace Targeting

namespace RuleSet

def concat (ss : List RuleSet) : RuleSet := ⟨ss.flatMap (·.segments), ss.flatMap (·.rules)⟩

theorem append_empty (s : RuleSet) : s ++ (∅ : RuleSet) = s :=
  congrArg₂ RuleSet.mk (List.append_nil _) (List.append_nil _)

theorem foldl_append (s : RuleSet) (ss : List RuleSet) : ss.foldl (· ++ ·) s = s ++ concat ss := by
  induction ss generalizing s with
  | nil => exact (append_empty s).symm
  | cons a ss ih =>
    rw [List.foldl_cons, ih]
    exact congrArg₂ RuleSet.mk (List.append_assoc ..) (List.append_assoc ..)

theorem WellFormed.segment?_eq {s : RuleSet} (hs : s.WellFormed) {g : Segment}
    (hg : g ∈ s.segments) : s.segment? g.id = some g := by
  obtain ⟨g', hg'⟩ := exists_segment? (List.mem_map_of_mem hg)
  obtain ⟨hmem, hid⟩ := mem_of_segment? hg'
  rw [hg', List.inj_on_of_nodup_map hs.segments hmem hg hid]

theorem ofFile_of_yaml (files : Files) (path text : String) (h : files path = .ok text)
    (hjson : isJson path = false) : ofFile files path = ofYaml text := by
  simp [ofFile, h, hjson, Except.mapError, bind, Except.bind]

theorem ofYaml_error {text : String} {f : Failure} (h : ofYaml text = .error f) :
    f = .yaml shape text := by
  rw [ofYaml, readYaml] at h
  split at h <;> cases h
  rfl

end RuleSet

namespace Builder

inductive Step
  | config : Config → Step
  | policy : LoadPolicy → Step
  | condition : (type : String) → Factory → Step
  | factory : Factory → Step
  | provider : (key : String) → Provider → Step
  | locator : Locator → Step
  | file : (path : String) → Step
  | content : (text : String) → Step
  | rule : Rule → Step
  | segment : Segment → Step

namespace Step

def config? : Step → Option Config
  | config c => some c
  | _ => none

def file? : Step → Option String
  | file path => some path
  | _ => none

def content? : Step → Option String
  | content text => some text
  | _ => none

def rule? : Step → Option Rule
  | rule r => some r
  | _ => none

def segment? : Step → Option Segment
  | segment g => some g
  | _ => none

def apply (b : Builder) : Step → Builder
  | config c => b.withConfig c
  | policy p => b.withPolicy p
  | condition type f => b.registerCondition type f
  | factory f => b.withFactory f
  | provider key p => b.registerProvider key p
  | locator l => b.withLocator l
  | file path => b.addFile path
  | content text => b.addContent text
  | rule r => b.addRule r
  | segment g => b.addSegment g

theorem ruleFiles_apply (b : Builder) (s : Step) :
    (s.apply b).config.ruleFiles = match s.config? with
      | some c => c.ruleFiles
      | none => b.config.ruleFiles ++ s.file?.toList := by
  cases s with
  | config c => rfl
  | file path => rfl
  | _ => exact (List.append_nil _).symm

theorem contents_apply (b : Builder) (s : Step) :
    (s.apply b).contents = b.contents ++ s.content?.toList := by
  cases s with
  | content text => rfl
  | _ => exact (List.append_nil _).symm

theorem added_apply (b : Builder) (s : Step) :
    (s.apply b).added = b.added ++ (⟨s.segment?.toList, s.rule?.toList⟩ : RuleSet) := by
  cases s with
  | rule r => rfl
  | segment g => rfl
  | _ => exact (RuleSet.append_empty _).symm

end Step

def ofSteps (steps : List Step) : Builder := steps.foldl Step.apply ∅

def filesOf (steps : List Step) : List String :=
  ((steps.filterMap Step.config?).getLast?.map (·.ruleFiles)).getD [] ++
    (steps.rtakeWhile (·.config?.isNone)).filterMap Step.file?

def contentsOf (steps : List Step) : List String := steps.filterMap Step.content?

def addedBy (steps : List Step) : RuleSet :=
  ⟨steps.filterMap Step.segment?, steps.filterMap Step.rule?⟩

theorem filesOf_concat (steps : List Step) (s : Step) :
    filesOf (steps ++ [s]) = match s.config? with
      | some c => c.ruleFiles
      | none => filesOf steps ++ s.file?.toList := by
  cases hs : s.config? with
  | some c => simp [filesOf, hs]
  | none => cases hfile : s.file? <;> simp [filesOf, hs, hfile]

theorem filterMap_concat (f : α → Option β) (xs : List α) (x : α) :
    (xs ++ [x]).filterMap f = xs.filterMap f ++ (f x).toList := by
  cases h : f x <;> simp [h]

theorem ofSteps_concat (steps : List Step) (s : Step) :
    ofSteps (steps ++ [s]) = s.apply (ofSteps steps) := List.foldl_concat ..

theorem ruleFiles_ofSteps (steps : List Step) : (ofSteps steps).config.ruleFiles = filesOf steps := by
  induction steps using List.reverseRecOn with
  | nil => rfl
  | append_singleton steps s ih =>
    rw [ofSteps_concat, Step.ruleFiles_apply, filesOf_concat, ih]

theorem contents_ofSteps (steps : List Step) : (ofSteps steps).contents = contentsOf steps := by
  induction steps using List.reverseRecOn with
  | nil => rfl
  | append_singleton steps s ih =>
    rw [ofSteps_concat, Step.contents_apply, contentsOf, filterMap_concat, ih, contentsOf]

theorem added_ofSteps (steps : List Step) : (ofSteps steps).added = addedBy steps := by
  induction steps using List.reverseRecOn with
  | nil => rfl
  | append_singleton steps s ih =>
    rw [ofSteps_concat, Step.added_apply, addedBy, filterMap_concat, filterMap_concat, ih]
    rfl

/-- Each file and each document is a rule set, and these are all of them, with the added rules
behind. -/
inductive Gathers (files : Files) (steps : List Step) : RuleSet → Prop
  | sources {loaded read : List RuleSet} :
      List.Forall₂ (fun path s => RuleSet.ofFile files path = .ok s) (filesOf steps) loaded →
      List.Forall₂ (fun text s => RuleSet.ofYaml text = .ok s) (contentsOf steps) read →
      Gathers files steps (.concat (loaded ++ read ++ [addedBy steps]))

/-- A file fails before any document, and a document before the rules are looked at. -/
inductive Fails (files : Files) (w : Wording) (steps : List Step) : Failure → Prop
  | file {pre post : List String} {path : String} {e : Failure} :
      filesOf steps = pre ++ path :: post → (∀ p ∈ pre, ∃ s, RuleSet.ofFile files p = .ok s) →
      RuleSet.ofFile files path = .error e →
      Fails files w steps (.config s!"failed to load {path}: {e.message w}")
  | content {pre post : List String} {text : String} :
      (∀ path ∈ filesOf steps, ∃ s, RuleSet.ofFile files path = .ok s) →
      contentsOf steps = pre ++ text :: post → (∀ t ∈ pre, ∃ s, RuleSet.ofYaml t = .ok s) →
      RuleSet.ofYaml text = .error (.yaml RuleSet.shape text) →
      Fails files w steps (.yaml RuleSet.shape text)
  | invalid {s : RuleSet} {e : RuleSetError} : Gathers files steps s → s.validate = .error e →
      Fails files w steps (.ofRuleSet e)

theorem loadFile_eq_ok {files : Files} {w : Wording} {path : String} {s : RuleSet} :
    loadFile files w path = .ok s ↔ RuleSet.ofFile files path = .ok s := mapError_eq_ok

theorem loadFile_eq_error {files : Files} {w : Wording} {path : String} {f : Failure} :
    loadFile files w path = .error f ↔ ∃ e, RuleSet.ofFile files path = .error e ∧
      Failure.config s!"failed to load {path}: {e.message w}" = f := mapError_eq_error

theorem gather_ofSteps (steps : List Step) (files : Files) (w : Wording) :
    (ofSteps steps).gather files w = ((filesOf steps).mapM (loadFile files w) >>= fun loaded =>
      (contentsOf steps).mapM RuleSet.ofYaml >>= fun read =>
        .ok (.concat (loaded ++ read ++ [addedBy steps]))) := by
  simp only [gather, RuleSet.foldl_append, ruleFiles_ofSteps, contents_ofSteps, added_ofSteps]
  rfl

theorem exists_loaded {steps : List Step} {files : Files} {w : Wording} :
    (∃ loaded, (filesOf steps).mapM (loadFile files w) = .ok loaded) ↔
      ∀ path ∈ filesOf steps, ∃ s, RuleSet.ofFile files path = .ok s := by
  simp only [exists_mapM_ok, loadFile_eq_ok]

theorem gather_eq_ok {steps : List Step} {files : Files} {w : Wording} {s : RuleSet} :
    (ofSteps steps).gather files w = .ok s ↔ Gathers files steps s := by
  rw [gather_ofSteps]
  simp only [Expr.bind_eq_ok, mapM_eq_ok, loadFile_eq_ok]
  constructor
  · rintro ⟨loaded, hloaded, read, hread, h⟩
    cases h
    exact .sources hloaded hread
  · rintro ⟨hloaded, hread⟩
    exact ⟨_, hloaded, _, hread, rfl⟩

theorem build_eq (b : Builder) (files : Files) (w : Wording) : b.build files w =
    (b.gather files w >>= fun s => s.validate.mapError .ofRuleSet >>= fun _ =>
      .ok (.ofRuleSet b.matcher s b.config,
        b.warnings s ++ [.built s.rules.length s.segments.length])) :=
  rfl

theorem build_eq_error {steps : List Step} {files : Files} {w : Wording} {f : Failure} :
    (ofSteps steps).build files w = .error f ↔ Fails files w steps f := by
  rw [build_eq, bind_eq_error]
  constructor
  · rintro (h | ⟨s, hs, h⟩)
    · rw [gather_ofSteps] at h
      rcases bind_eq_error.1 h with h | ⟨loaded, hloaded, h⟩
      · obtain ⟨pre, path, post, hfiles, hpre, hpath⟩ := mapM_eq_error.1 h
        obtain ⟨e, he, rfl⟩ := loadFile_eq_error.1 hpath
        simp only [loadFile_eq_ok] at hpre
        exact .file hfiles hpre he
      · rcases bind_eq_error.1 h with h | ⟨_, _, h⟩
        · obtain ⟨pre, text, post, hcontents, hpre, htext⟩ := mapM_eq_error.1 h
          obtain rfl := RuleSet.ofYaml_error htext
          exact .content (exists_loaded.1 ⟨loaded, hloaded⟩) hcontents hpre htext
        · cases h
    · rcases bind_eq_error.1 h with h | ⟨_, _, h⟩
      · obtain ⟨e, he, rfl⟩ := mapError_eq_error.1 h
        exact .invalid (gather_eq_ok.1 hs) he
      · cases h
  · intro h
    cases h with
    | file hfiles hpre he =>
      simp only [← loadFile_eq_ok (w := w)] at hpre
      rw [gather_ofSteps, mapM_eq_error.2 ⟨_, _, _, hfiles, hpre, loadFile_eq_error.2 ⟨_, he, rfl⟩⟩]
      exact .inl rfl
    | content hloaded hcontents hpre htext =>
      obtain ⟨loaded, hloaded⟩ := exists_loaded (w := w).2 hloaded
      have hcontent := mapM_eq_error.2 ⟨_, _, _, hcontents, hpre, htext⟩
      rw [gather_ofSteps]
      exact .inl (bind_eq_error.2 (.inr ⟨loaded, hloaded, bind_eq_error.2 (.inl hcontent)⟩))
    | invalid hs he =>
      refine .inr ⟨_, gather_eq_ok.2 hs, bind_eq_error.2 (.inl ?_)⟩
      exact mapError_eq_error.2 ⟨_, he, rfl⟩

theorem exists_build_ok {steps : List Step} {files : Files} {w : Wording} :
    (∃ e ns, (ofSteps steps).build files w = .ok (e, ns)) ↔
      ∃ s, Gathers files steps s ∧ s.validate = .ok () := by
  simp only [← gather_eq_ok (w := w)]
  constructor
  · rintro ⟨e, ns, h⟩
    obtain ⟨s, hs, h⟩ := Expr.bind_eq_ok.1 h
    exact ⟨s, hs, mapError_eq_ok.1 (check_bind_eq_ok.1 h).1⟩
  · rintro ⟨s, hs, hvalid⟩
    exact ⟨_, _, Expr.bind_eq_ok.2 ⟨s, hs, check_bind_eq_ok.2 ⟨mapError_eq_ok.2 hvalid, rfl⟩⟩⟩

theorem exists_gathers {steps : List Step} {files : Files} : (∃ s, Gathers files steps s) ↔
    (∀ path ∈ filesOf steps, ∃ s, RuleSet.ofFile files path = .ok s) ∧
      ∀ text ∈ contentsOf steps, ∃ s, RuleSet.ofYaml text = .ok s := by
  rw [← exists_loaded (w := default), ← exists_mapM_ok]
  simp only [mapM_eq_ok, loadFile_eq_ok]
  constructor
  · rintro ⟨_, hloaded, hread⟩
    exact ⟨⟨_, hloaded⟩, _, hread⟩
  · rintro ⟨⟨loaded, hloaded⟩, read, hread⟩
    exact ⟨_, .sources hloaded hread⟩

theorem Gathers.unique {steps : List Step} {files : Files} {s t : RuleSet}
    (hs : Gathers files steps s) (ht : Gathers files steps t) : s = t :=
  Except.ok.inj ((gather_eq_ok (w := default).2 hs).symm.trans (gather_eq_ok.2 ht))

/-- There is an engine exactly if every file and every document is a rule set and all of them
together are in order. It has the rules of all sources, in the order of the sources, and finds all of
their segments. What went wrong otherwise is told of the first source that failed, and of the whole
only if none did. -/
theorem build_ofSteps (steps : List Step) (files : Files) (w : Wording) :
    ((∃ e ns, (ofSteps steps).build files w = .ok (e, ns)) ↔
      (∀ path ∈ filesOf steps, ∃ s, RuleSet.ofFile files path = .ok s) ∧
      (∀ text ∈ contentsOf steps, ∃ s, RuleSet.ofYaml text = .ok s) ∧
      ∀ s, Gathers files steps s → s.validate = .ok ()) ∧
    (∀ e ns, (ofSteps steps).build files w = .ok (e, ns) → ∃ loaded read : List RuleSet,
      List.Forall₂ (fun path s => RuleSet.ofFile files path = .ok s) (filesOf steps) loaded ∧
      List.Forall₂ (fun text s => RuleSet.ofYaml text = .ok s) (contentsOf steps) read ∧
      e.rules = loaded.flatMap (·.rules) ++ read.flatMap (·.rules) ++ steps.filterMap Step.rule? ∧
      (∀ s ∈ loaded ++ read, ∀ g ∈ s.segments, e.segment? g.id = some g) ∧
      ∀ g ∈ steps.filterMap Step.segment?, e.segment? g.id = some g) ∧
    ∀ f, (ofSteps steps).build files w = .error f ↔ Fails files w steps f := by
  refine ⟨?_, fun e ns h => ?_, fun f => build_eq_error⟩
  case refine_1 =>
    rw [exists_build_ok, ← and_assoc, ← exists_gathers]
    constructor
    · rintro ⟨s, hs, hvalid⟩
      exact ⟨⟨s, hs⟩, fun t ht => hs.unique ht ▸ hvalid⟩
    · rintro ⟨⟨s, hs⟩, hvalid⟩
      exact ⟨s, hs, hvalid s hs⟩
  case refine_2 =>
    obtain ⟨s, hgather, hs, hrules, hsegment⟩ := exists_of_build h
    obtain @⟨loaded, read, hloaded, hread⟩ := gather_eq_ok.1 hgather
    have hfound : ∀ g ∈ (RuleSet.concat (loaded ++ read ++ [addedBy steps])).segments,
        e.segment? g.id = some g := by
      intro g hg
      rw [hsegment]
      exact hs.segment?_eq hg
    simp only [RuleSet.concat, List.flatMap_append, List.flatMap_singleton, List.mem_append,
      List.mem_flatMap] at hrules hfound
    refine ⟨loaded, read, hloaded, hread, hrules, fun s hs g hg => ?_, fun g hg => ?_⟩
    · rcases List.mem_append.1 hs with hs | hs
      · exact hfound g (.inl (.inl ⟨s, hs, hg⟩))
      · exact hfound g (.inl (.inr ⟨s, hs, hg⟩))
    · exact hfound g (.inr hg)

theorem build_ofSteps_mixed :
    let named (id : String) : Rule := ⟨id, "", none, true, [], []⟩
    let files : Files := fun path =>
      if path = "a" then .ok "segments: [\x7bid: alps\x7d]"
      else if path = "b" then .ok "rules: [\x7bid: first\x7d]" else .error .notFound
    let steps : List Builder.Step := [.file "none", .rule (named "third"),
      .content "rules: [\x7bid: second\x7d]", .config ⟨.everyCondition, ["a"], false⟩,
      .segment ⟨"dach", "DACH"⟩, .file "b"]
    ∃ e ns, (ofSteps steps).build files default = .ok (e, ns) ∧
      e.rules.map (·.id) = ["first", "second", "third"] ∧
      e.segment? "dach" = some ⟨"dach", "DACH"⟩ ∧
      (ofSteps (steps ++ [.content "[", .file "c"])).build files default =
        .error (.config "failed to load c: I/O error: No such file or directory (os error 2)") ∧
      (ofSteps (steps ++ [.content "[", .content "]"])).build files default =
        .error (.yaml RuleSet.shape "[") := by
  intro named files steps
  have hfiles : filesOf steps = ["a", "b"] := rfl
  have ha := RuleSet.ofFile_of_yaml files "a" _ rfl (by cbv)
  have hb := RuleSet.ofFile_of_yaml files "b" _ rfl (by cbv)
  have hrun : ((ofSteps steps).build files default).toOption.map (fun p => p.1.rules.map (·.id)) =
      some ["first", "second", "third"] := by
    simp only [build_eq, gather_ofSteps, hfiles, List.mapM_cons, List.mapM_nil, loadFile, ha, hb]
    simp only [steps, named]
    decide +kernel
  obtain ⟨⟨e, ns⟩, hbuild, hrules⟩ := Option.map_eq_some_iff.1 hrun
  have hbuild := toOption_eq_some.1 hbuild
  obtain ⟨hok, hbuilt, -⟩ := build_ofSteps steps files default
  obtain ⟨hloaded, hread, -⟩ := hok.1 ⟨e, ns, hbuild⟩
  obtain ⟨_, _, -, -, -, -, hadded⟩ := hbuilt e ns hbuild
  refine ⟨e, ns, hbuild, hrules, hadded ⟨"dach", "DACH"⟩ (by simp [steps, Step.segment?]), ?_, ?_⟩
  · have hfiles : filesOf (steps ++ [.content "[", .file "c"]) = filesOf steps ++ "c" :: [] := rfl
    have hmissing : RuleSet.ofFile files "c" = .error (.io .notFound) := rfl
    exact ((build_ofSteps _ files default).2.2 _).2 (.file hfiles hloaded hmissing)
  · have hfiles : filesOf (steps ++ [.content "[", .content "]"]) = filesOf steps := rfl
    have hcontents : contentsOf (steps ++ [.content "[", .content "]"]) =
        contentsOf steps ++ "[" :: ["]"] := rfl
    have hbroken : RuleSet.ofYaml "[" = .error (.yaml RuleSet.shape "[") := by
      cbv
    exact ((build_ofSteps _ files default).2.2 _).2 (.content (hfiles ▸ hloaded) hcontents hread hbroken)

end Builder

end Targeting
