import Targeting.Proofs.Grammar
import Targeting.Proofs.Lexing

namespace Targeting

namespace Token

structure IsName (n : String) : Prop where
  nonempty : n.toList ≠ []
  word : ∀ c ∈ n.toList, isWordChar c
  free : n ∉ ["and", "or", "not"]

instance (n : String) : Decidable (IsName n) :=
  decidable_of_iff (n.toList ≠ [] ∧ n.toList.all isWordChar ∧ n ∉ ["and", "or", "not"])
    ⟨fun ⟨hnonempty, hword, hfree⟩ => ⟨hnonempty, List.all_eq_true.1 hword, hfree⟩,
      fun ⟨hnonempty, hword, hfree⟩ => ⟨hnonempty, List.all_eq_true.2 hword, hfree⟩⟩

theorem IsName.stable {n : String} (h : IsName n) : (Token.var n).Stable :=
  stable_var h.nonempty h.word (ofWord_eq_var h.free)

theorem isName_of_ofWord {w n : String} (hw : w.toList ≠ []) (hc : ∀ c ∈ w.toList, isWordChar c)
    (h : ofWord w = .var n) : IsName n := by
  by_cases hfree : w ∈ ["and", "or", "not"]
  · simp only [List.mem_cons, List.not_mem_nil, or_false] at hfree
    rcases hfree with rfl | rfl | rfl <;> cases h
  · rw [ofWord_eq_var hfree] at h
    cases h
    exact ⟨hw, hc, hfree⟩

theorem isName_of_mem_scan {cs : List Char} {n : String} (h : .var n ∈ scan cs) : IsName n := by
  fun_induction scan cs with
  | case1 => cases h
  | case2 cs ih => exact ih (by simpa using h)
  | case3 cs ih => exact ih (by simpa using h)
  | case4 cs ih => exact ih (by simpa using h)
  | case5 cs ih => exact ih (by simpa using h)
  | case6 cs ih => exact ih (by simpa using h)
  | case7 c cs _ _ _ _ _ _ ih => exact ih h
  | case8 c cs _ _ _ _ _ _ hc ih =>
    rcases List.mem_cons.1 h with h | h
    · refine isName_of_ofWord (by simp) ?_ h.symm
      simpa using ⟨hc, fun b => List.mem_takeWhile_imp⟩
    · exact ih h
  | case9 c cs _ _ _ _ _ _ _ ih => exact ih (by simpa using h)

end Token

namespace Expr

inductive WellFormed : Expr → Prop
  | var {n : String} : Token.IsName n → WellFormed (.var n)
  | not {e : Expr} : WellFormed e → WellFormed (.not e)
  | and {es : List Expr} : 2 ≤ es.length → (∀ e ∈ es, WellFormed e) → WellFormed (.and es)
  | or {es : List Expr} : 2 ≤ es.length → (∀ e ∈ es, WellFormed e) → WellFormed (.or es)

mutual

def tokens : Expr → List Token
  | .var n => [.var n]
  | .not e => .not :: e.tokens
  | .and es => .lparen :: tokensAll .and es ++ [.rparen]
  | .or es => .lparen :: tokensAll .or es ++ [.rparen]

def tokensAll (t : Token) : List Expr → List Token
  | [] => []
  | [e] => e.tokens
  | e :: e' :: es => e.tokens ++ t :: tokensAll t (e' :: es)

end

theorem tokensAll_eq (t : Token) (es : List Expr) :
    tokensAll t es = [t].intercalate (es.map tokens) := by
  induction es with
  | nil => rfl
  | cons e es ih =>
    cases es with
    | nil => simp [tokensAll]
    | cons e' es => simp [tokensAll, ih]

def printed (es : List Expr) : List (List Token × Expr) := es.map fun e => (e.tokens, e)

theorem intercalate_printed (t : Token) (es : List Expr) :
    [t].intercalate ((printed es).map Prod.fst) = tokensAll t es := by
  simp [printed, tokensAll_eq, Function.comp_def]

@[simp] theorem map_snd_printed (es : List Expr) : (printed es).map Prod.snd = es := by
  simp [printed, Function.comp_def]

theorem WellFormed.derives {e : Expr} (h : e.WellFormed) : Derives .unary e.tokens e := by
  induction h with
  | var => exact .ofPrimary .var
  | not _ ih => exact .not ih
  | @and es hlen _ ih =>
    have hchain := @Derives.and (printed es) (by simpa [printed]) (by simpa [printed] using ih)
    rw [intercalate_printed, map_snd_printed] at hchain
    exact .ofPrimary (.group (.ofAnd hchain))
  | @or es hlen _ ih =>
    have hchain := @Derives.or (printed es) (by simpa [printed])
      (by simpa [printed] using fun e he => (ih e he).ofUnary)
    rw [intercalate_printed, map_snd_printed] at hchain
    exact .ofPrimary (.group hchain)

def Scans (s : String) (ts : List Token) : Prop :=
  ∀ rest, Token.Stops rest → Token.scan (s.toList ++ rest) = ts ++ Token.scan rest

def Separates (s : String) (t : Token) : Prop :=
  ∀ rest, Token.Stops (s.toList ++ rest) ∧ Token.scan (s.toList ++ rest) = t :: Token.scan rest

theorem separates_and : Separates " && " .and := fun rest => by
  simp [Token.Stops, Token.scan, Token.scan_blank, show Token.isSeparator ' ' by decide,
    show Text.isBlank ' ' by decide]

theorem separates_or : Separates " || " .or := fun rest => by
  simp [Token.Stops, Token.scan, Token.scan_blank, show Token.isSeparator ' ' by decide,
    show Text.isBlank ' ' by decide]

theorem Scans.all {s : String} {t : Token} (hs : Separates s t) {es : List Expr}
    (h : ∀ e ∈ es, Scans e.text e.tokens) : Scans (textAll s es) (tokensAll t es) := by
  intro rest hrest
  induction es with
  | nil => simp [textAll, tokensAll]
  | cons e es ih =>
    simp only [List.forall_mem_cons] at h
    cases es with
    | nil => exact h.1 rest hrest
    | cons e' es =>
      have ⟨hstops, hscan⟩ := hs ((textAll s (e' :: es)).toList ++ rest)
      simp only [textAll, tokensAll, String.toList_append, List.append_assoc, List.cons_append]
      rw [h.1 _ hstops, hscan, ih h.2]

theorem Scans.brackets {s : String} {ts : List Token} (h : Scans s ts) :
    Scans ("(" ++ s ++ ")") (.lparen :: ts ++ [.rparen]) := by
  intro rest hrest
  have hclose : Token.Stops (')' :: rest) := by
    simpa [Token.Stops] using show Token.isSeparator ')' by decide
  have := h (')' :: rest) hclose
  simp [Token.scan, this]

theorem WellFormed.scans {e : Expr} (h : e.WellFormed) : Scans e.text e.tokens := by
  induction h with
  | var hn => exact fun rest => hn.stable rest
  | @not e _ ih =>
    intro rest hrest
    have hspace : Token.Stops (' ' :: (e.text.toList ++ rest)) := by
      simpa [Token.Stops] using show Token.isSeparator ' ' by decide
    have hnot := Token.stable_not _ hspace
    rw [Token.scan_blank (by decide), ih rest hrest] at hnot
    simpa [text, tokens, Token.text] using hnot
  | and _ _ ih => exact (Scans.all separates_and ih).brackets
  | or _ _ ih => exact (Scans.all separates_or ih).brackets

theorem WellFormed.lex_text {e : Expr} (h : e.WellFormed) : Token.lex e.text = e.tokens := by
  simpa [Token.lex, Token.scan] using h.scans [] (by simp [Token.Stops])

theorem WellFormed.ofText_text {e : Expr} (h : e.WellFormed) : ofText e.text = .ok e := by
  rw [ofText, h.lex_text]
  exact parse_eq_ok.2 (.ofAnd (.ofUnary h.derives))

theorem mem_intercalate {t u : Token} {ps : List (List Token × Expr)} {p : List Token × Expr}
    (hp : p ∈ ps) (hu : u ∈ p.1) : u ∈ [t].intercalate (ps.map Prod.fst) := by
  cases ps with
  | nil => cases hp
  | cons q ps =>
    rw [List.map_cons, intercalate_eq_joined, List.mem_append]
    rcases List.mem_cons.1 hp with rfl | hp
    · exact .inl hu
    · exact .inr (List.mem_flatMap.2 ⟨p, hp, List.mem_cons_of_mem t hu⟩)

theorem Derives.wellFormed {l : Level} {ts : List Token} {e : Expr} (h : Derives l ts e)
    (hts : ∀ n, .var n ∈ ts → Token.IsName n) : e.WellFormed := by
  induction h with
  | ofAnd _ ih => exact ih hts
  | ofUnary _ ih => exact ih hts
  | ofPrimary _ ih => exact ih hts
  | var => exact .var (hts _ (List.mem_singleton_self _))
  | not _ ih => exact .not (ih fun n hn => hts n (List.mem_cons_of_mem _ hn))
  | group _ ih => exact ih fun n hn => hts n (by simp [hn])
  | @or ps hlen _ ih =>
    refine .or (by simpa using hlen) fun e he => ?_
    obtain ⟨p, hp, rfl⟩ := List.mem_map.1 he
    exact ih p hp fun n hn => hts n (mem_intercalate hp hn)
  | @and ps hlen _ ih =>
    refine .and (by simpa using hlen) fun e he => ?_
    obtain ⟨p, hp, rfl⟩ := List.mem_map.1 he
    exact ih p hp fun n hn => hts n (mem_intercalate hp hn)

theorem wellFormed_of_ofText {s : String} {e : Expr} (h : ofText s = .ok e) : e.WellFormed :=
  (parse_eq_ok.1 h).wellFormed fun _ => Token.isName_of_mem_scan

/-- Printing is undone by reading, and what is read can be printed. -/
theorem ofText_roundTrip :
    (∀ e : Expr, e.WellFormed → ofText e.text = .ok e) ∧
    (∀ s e, ofText s = .ok e → e.WellFormed ∧ ofText e.text = ofText s) ∧
    ∀ e e' : Expr, e.WellFormed → e'.WellFormed → e.text = e'.text → e = e' := by
  refine ⟨fun e he => he.ofText_text, fun s e h => ?_, fun e e' he he' htext => ?_⟩
  · have he := wellFormed_of_ofText h
    exact ⟨he, he.ofText_text.trans h.symm⟩
  · have h := he'.ofText_text
    rw [← htext, he.ofText_text] at h
    exact Except.ok.inj h

theorem ofText_roundTrip_nested :
    let e : Expr := .and [.and [.var "a_1", .or [.var "or_1", .not (.var "a_1")]],
      .not (.not (.var "geo.ip_2"))]
    e.WellFormed ∧ e.text = "((a_1 && (or_1 || not a_1)) && not not geo.ip_2)" ∧
      ofText e.text = .ok e := by
  intro e
  have name : ∀ n ∈ ["a_1", "or_1", "geo.ip_2"], Token.IsName n := by decide +kernel
  simp only [List.forall_mem_cons, List.not_mem_nil, false_implies, implies_true, and_true] at name
  obtain ⟨ha, hor, hgeo⟩ := name
  have inner : (Expr.or [.var "or_1", .not (.var "a_1")]).WellFormed :=
    .or (by decide) (by simpa using ⟨.var hor, .not (.var ha)⟩)
  have left : (Expr.and [.var "a_1", .or [.var "or_1", .not (.var "a_1")]]).WellFormed :=
    .and (by decide) (by simpa using ⟨.var ha, inner⟩)
  have well : e.WellFormed := .and (by decide) (by simpa using ⟨left, .not (.not (.var hgeo))⟩)
  exact ⟨well, by decide, ofText_roundTrip.1 e well⟩

end Expr

end Targeting
