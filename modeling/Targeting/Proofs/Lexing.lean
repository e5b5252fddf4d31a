import Mathlib
import Targeting.Expr.Eval
import Targeting.Proofs.Spelling

namespace Targeting

namespace Text

theorem Ranges.mem_of_covers {rs : Ranges} {n : Nat} (h : rs.covers n) :
    n ∈ rs.flatMap fun r => List.range' r.1 (r.2 + 1 - r.1) := by
  induction rs with
  | nil => simp [covers] at h
  | cons r rs ih =>
    simp only [covers, Bool.and_eq_true, Bool.or_eq_true, decide_eq_true_eq] at h
    simp only [List.flatMap_cons, List.mem_append, List.mem_range'_1]
    rcases h.2 with hn | hn
    · exact .inl (by omega)
    · exact .inr (ih hn)

theorem isAlphanumeric_of_isBlank {c : Char} (h : isBlank c) : isAlphanumeric c = false := by
  have blanks : ∀ n ∈ blankRanges.flatMap fun r => List.range' r.1 (r.2 + 1 - r.1),
      alphanumericRanges.covers n = false := by decide +kernel
  exact blanks _ (Ranges.mem_of_covers h)

end Text

namespace Token

variable {c : Char} {cs w rest : List Char}

def isSeparator (c : Char) : Bool := Text.isBlank c || isBracket c

theorem isWordChar_of_isSeparator (h : isSeparator c) : isWordChar c = false := by
  simp only [isSeparator, isBracket, Bool.or_eq_true, beq_iff_eq] at h
  rcases h with h | rfl | rfl
  · have : c ≠ '_' ∧ c ≠ '.' := by constructor <;> rintro rfl <;> revert h <;> decide
    simp [isWordChar, Text.isAlphanumeric_of_isBlank h, this]
  · decide
  · decide

theorem isSign_of_isSeparator (h : isSeparator c) : isSign c = false := by
  simp only [isSeparator, Bool.or_eq_true] at h
  rcases h with h | h <;> simp [isSign, h]

theorem isSeparator_of_isWordChar (h : isWordChar c) : isSeparator c = false := by
  cases hc : isSeparator c with
  | false => rfl
  | true => simp [isWordChar_of_isSeparator hc] at h

/-- No sign stands for itself at `c`, before `cs`. -/
def Plain (c : Char) (cs : List Char) : Prop :=
  c ≠ '(' ∧ c ≠ ')' ∧ c ≠ '!' ∧ (c = '&' ∨ c = '|' → cs.head? ≠ some c)

theorem plain_of_class {p : Char → Bool} (hp : ['(', ')', '!', '&', '|'].any p = false) (h : p c) :
    Plain c cs := by
  have signs : ∀ s ∈ ['(', ')', '!', '&', '|'], c ≠ s := by
    rintro s hs rfl
    exact List.any_eq_false.1 hp c hs h
  simp only [List.forall_mem_cons] at signs
  simp [Plain, signs]

theorem plain_of_isWordChar (h : isWordChar c) : Plain c cs := plain_of_class (by decide) h

theorem plain_of_isBlank (h : Text.isBlank c) : Plain c cs := plain_of_class (by decide) h

theorem plain_of_ne (hl : c ≠ '(') (hr : c ≠ ')') (hn : c ≠ '!')
    (hand : ∀ ds, c = '&' → cs = '&' :: ds → False)
    (hor : ∀ ds, c = '|' → cs = '|' :: ds → False) : Plain c cs := by
  refine ⟨hl, hr, hn, fun hdouble hcs => ?_⟩
  obtain ⟨ds, rfl⟩ := List.head?_eq_some_iff.1 hcs
  rcases hdouble with rfl | rfl
  · exact hand ds rfl rfl
  · exact hor ds rfl rfl

theorem Plain.takeWhile {p : Char → Bool} (h : Plain c cs) : Plain c (cs.takeWhile p) := by
  refine ⟨h.1, h.2.1, h.2.2.1, fun hdouble hcs => h.2.2.2 hdouble ?_⟩
  rw [List.head?_takeWhile, Option.filter_eq_some_iff] at hcs
  exact hcs.1

theorem scan_of_plain (h : Plain c cs) :
    scan (c :: cs) =
      if Text.isBlank c then scan cs
      else if isWordChar c then
        ofWord (String.ofList (c :: cs.takeWhile isWordChar)) :: scan (cs.dropWhile isWordChar)
      else .raw (String.ofList (c :: cs.takeWhile isSign)) :: scan (cs.dropWhile isSign) := by
  obtain ⟨hl, hr, hn, hd⟩ := h
  rw [scan]
  · exact hl
  · exact hr
  · exact hn
  · rintro ds rfl rfl
    simp at hd
  · rintro ds rfl rfl
    simp at hd

theorem scan_blank (h : Text.isBlank c) : scan (c :: cs) = scan cs := by
  rw [scan_of_plain (plain_of_isBlank h), if_pos h]

def Stops (rest : List Char) : Prop := ∀ c ∈ rest.head?, isSeparator c

theorem Plain.append (h : Plain c cs) (hrest : Stops rest) : Plain c (cs ++ rest) := by
  refine ⟨h.1, h.2.1, h.2.2.1, fun hdouble => ?_⟩
  cases cs with
  | cons b bs => exact h.2.2.2 hdouble
  | nil =>
    intro hhead
    have hc : isSeparator c := hrest c hhead
    rcases hdouble with rfl | rfl <;> revert hc <;> decide

theorem takeWhile_of_stops {p : Char → Bool} (hp : ∀ c, isSeparator c → p c = false)
    (h : Stops rest) : rest.takeWhile p = [] ∧ rest.dropWhile p = rest := by
  cases rest with
  | nil => simp
  | cons c cs => simp [hp c (h c rfl)]

theorem scan_word (hw : w ≠ []) (hc : ∀ c ∈ w, isWordChar c) (h : Stops rest) :
    scan (w ++ rest) = ofWord (String.ofList w) :: scan rest := by
  cases w with
  | nil => exact absurd rfl hw
  | cons c cs =>
    simp only [List.forall_mem_cons] at hc
    have hblank : Text.isBlank c = false := by
      have := isSeparator_of_isWordChar hc.1
      simp only [isSeparator, Bool.or_eq_false_iff] at this
      exact this.1
    have ⟨htake, hdrop⟩ := takeWhile_of_stops (fun c => isWordChar_of_isSeparator) h
    rw [List.cons_append, scan_of_plain (plain_of_isWordChar hc.1)]
    simp [hblank, hc.1, List.takeWhile_append_of_pos hc.2, List.dropWhile_append_of_pos hc.2, htake,
      hdrop]

theorem scan_signs (hc : isSign c) (hcs : ∀ c ∈ cs, isSign c) (hplain : Plain c cs)
    (h : Stops rest) :
    scan (c :: cs ++ rest) = .raw (String.ofList (c :: cs)) :: scan rest := by
  have ⟨htake, hdrop⟩ := takeWhile_of_stops (fun c => isSign_of_isSeparator) h
  rw [List.cons_append, scan_of_plain (hplain.append h)]
  simp only [isSign, Bool.not_eq_true', Bool.or_eq_false_iff] at hc
  simp [hc.1, List.takeWhile_append_of_pos hcs, List.dropWhile_append_of_pos hcs, htake, hdrop]

def Stable (t : Token) : Prop := ∀ rest, Stops rest → scan (t.text.toList ++ rest) = t :: scan rest

theorem stable_and : Stable .and := fun rest _ => by simp [text, scan]

theorem stable_or : Stable .or := fun rest _ => by simp [text, scan]

theorem stable_lparen : Stable .lparen := fun rest _ => by simp [text, scan]

theorem stable_rparen : Stable .rparen := fun rest _ => by simp [text, scan]

theorem stable_not : Stable .not := fun rest h => by
  have := scan_word (w := ['n', 'o', 't']) (by simp) (List.all_eq_true.1 (by decide)) h
  simpa [text, ofWord] using this

theorem stable_var {name : String} (hname : name.toList ≠ [])
    (hc : ∀ c ∈ name.toList, isWordChar c) (hword : ofWord name = .var name) :
    Stable (.var name) := fun rest h => by
  rw [text, scan_word hname hc h, String.ofList_toList, hword]

theorem ofWord_eq_var {name : String} (h : name ∉ ["and", "or", "not"]) :
    ofWord name = .var name := by
  unfold ofWord
  split <;> simp at h ⊢

theorem stable_ofWord (hw : w ≠ []) (hc : ∀ c ∈ w, isWordChar c) :
    Stable (ofWord (String.ofList w)) := by
  by_cases h : String.ofList w ∈ ["and", "or", "not"]
  · simp only [List.mem_cons, List.not_mem_nil, or_false] at h
    rcases h with h | h | h <;> rw [h]
    · exact stable_and
    · exact stable_or
    · exact stable_not
  · have hword := ofWord_eq_var h
    rw [hword]
    exact stable_var (by simpa using hw) (by simpa using hc) hword

theorem stable_raw (hc : isSign c) (hcs : ∀ c ∈ cs, isSign c) (hplain : Plain c cs) :
    Stable (.raw (String.ofList (c :: cs))) := fun rest h => by
  rw [text, String.toList_ofList, scan_signs hc hcs hplain h]

theorem stable_scan (cs : List Char) : ∀ t ∈ scan cs, t.Stable := by
  fun_induction scan cs with
  | case1 => simp
  | case2 cs ih => simpa using ⟨stable_lparen, ih⟩
  | case3 cs ih => simpa using ⟨stable_rparen, ih⟩
  | case4 cs ih => simpa using ⟨stable_not, ih⟩
  | case5 cs ih => simpa using ⟨stable_and, ih⟩
  | case6 cs ih => simpa using ⟨stable_or, ih⟩
  | case7 c cs _ _ _ _ _ _ ih => exact ih
  | case8 c cs _ _ _ _ _ _ hc ih =>
    refine List.forall_mem_cons.2 ⟨stable_ofWord (by simp) ?_, ih⟩
    exact List.forall_mem_cons.2 ⟨hc, fun b => List.mem_takeWhile_imp⟩
  | case9 c cs hl hr hn hand hor hblank hword ih =>
    -- no other case reads `c`, so it is a sign and does not stand for itself
    have hc : isSign c := by
      have : c ≠ '(' ∧ c ≠ ')' := ⟨hl, hr⟩
      simp [isSign, isBracket, this, hblank, hword]
    have hplain : Plain c cs := plain_of_ne hl hr hn hand hor
    have := stable_raw hc (fun b => List.mem_takeWhile_imp) hplain.takeWhile
    exact List.forall_mem_cons.2 ⟨this, ih⟩

theorem toList_join_cons (t : Token) (ts : List Token) :
    (join (t :: ts)).toList = t.text.toList ++ ts.flatMap fun t => ' ' :: t.text.toList := by
  induction ts generalizing t with
  | nil => simp [join]
  | cons u ts ih =>
    have := ih u
    simp [join] at this ⊢
    simp [this]

theorem stops_flatMap (ts : List Token) : Stops (ts.flatMap fun t => ' ' :: t.text.toList) := by
  cases ts with
  | nil => simp [Stops]
  | cons t ts => simpa [Stops] using show isSeparator ' ' by decide

theorem scan_flatMap {ts : List Token} (h : ∀ t ∈ ts, t.Stable) :
    scan (ts.flatMap fun t => ' ' :: t.text.toList) = ts := by
  induction ts with
  | nil => simp [scan]
  | cons t ts ih =>
    simp only [List.forall_mem_cons] at h
    rw [List.flatMap_cons, List.cons_append, scan_blank (by decide), h.1 _ (stops_flatMap ts),
      ih h.2]

theorem lex_join {ts : List Token} (h : ∀ t ∈ ts, t.Stable) : lex (join ts) = ts := by
  cases ts with
  | nil => simp [join, lex, scan]
  | cons t ts =>
    simp only [List.forall_mem_cons] at h
    rw [lex, toList_join_cons, h.1 _ (stops_flatMap ts), scan_flatMap h.2]

end Token

theorem Operator.stable_tokens (o : Operator) : ∀ t ∈ o.tokens, t.Stable := by
  cases o with
  | and => simpa [tokens] using Token.stable_and
  | or => simpa [tokens] using Token.stable_or
  | andNot => simpa [tokens] using ⟨Token.stable_and, Token.stable_not⟩
  | raw s => exact Token.stable_scan s.toList

namespace Assembly

theorem isWordChar_of_isDigit {c : Char} (h : c.isDigit) : Token.isWordChar c := by
  have digits : ∀ n ∈ List.range' 48 10, Text.alphanumericRanges.covers n := by decide +kernel
  have : c.toNat ∈ List.range' 48 10 := by
    simp only [Char.isDigit, Bool.and_eq_true, decide_eq_true_eq, UInt32.le_iff_toNat_le] at h
    simpa [Nat.lt_succ_iff] using h
  simp [Token.isWordChar, Text.isAlphanumeric, digits _ this]

theorem stable_variable {type : String} (h : ∀ c ∈ type.toList, Token.isWordChar c) (n : Nat) :
    (Token.var (variableName type n)).Stable := by
  have underscore : '_' ∈ (variableName type n).toList := by simp [toList_variableName]
  have operators : ∀ w ∈ ["and", "or", "not"], '_' ∉ w.toList := by decide
  apply Token.stable_var
  · exact List.ne_nil_of_mem underscore
  · intro c hc
    simp only [toList_variableName, List.mem_append, List.mem_cons] at hc
    rcases hc with hc | rfl | hc
    · exact h c hc
    · decide
    · exact isWordChar_of_isDigit (Nat.isDigit_of_mem_toDigits (by decide) (by decide) hc)
  · exact Token.ofWord_eq_var fun hname => operators _ hname underscore

theorem stable_termTokens {d : Descriptor} {name : String} (h : (Token.var name).Stable)
    (first : Bool) : ∀ t ∈ termTokens first d name, t.Stable := by
  intro t ht
  simp only [termTokens, List.mem_append, List.mem_singleton] at ht
  rcases ht with ((ht | ht) | rfl) | ht
  · split at ht
    · cases ht
    · exact d.joint.stable_tokens t ht
  · split at ht <;> simp at ht
    exact ht ▸ Token.stable_lparen
  · exact h
  · split at ht <;> simp at ht
    exact ht ▸ Token.stable_rparen

theorem stable_ofTerms {ts : List Term}
    (h : ∀ t ∈ ts, ∀ c ∈ t.1.type.toList, Token.isWordChar c) :
    ∀ t ∈ (ofTerms ts).tokens, t.Stable := by
  induction ts using List.reverseRecOn with
  | nil => exact nofun
  | append_singleton ts t ih =>
    simp only [List.mem_append, List.mem_singleton] at h
    rw [ofTerms_append, push]
    intro u hu
    rcases List.mem_append.1 hu with hu | hu
    · exact ih (fun t ht => h t (.inl ht)) u hu
    · exact stable_termTokens (stable_variable (h t (.inr rfl)) _) _ u hu

/-- The text says as much as the tokens do. -/
theorem lex_text_ofTerms (ts : List Term)
    (h : ∀ t ∈ ts, ∀ c ∈ t.1.type.toList, Token.isWordChar c) :
    Token.lex (ofTerms ts).text = (ofTerms ts).tokens ∧
      Expr.ofText (ofTerms ts).text = (ofTerms ts).finish.map Assembled.expr ∧
      ∀ a, (ofTerms ts).finish = .ok a → Expr.evalText a.bindings a.source = a.eval := by
  have hlex : Token.lex (ofTerms ts).text = (ofTerms ts).tokens := Token.lex_join (stable_ofTerms h)
  have hparse : Expr.ofText (ofTerms ts).text = (ofTerms ts).finish.map Assembled.expr := by
    rw [Expr.ofText, hlex, finish]
    cases Expr.parse (ofTerms ts).tokens <;> rfl
  refine ⟨hlex, hparse, fun a ha => ?_⟩
  rw [ha] at hparse
  obtain ⟨e, -, rfl⟩ := eq_of_finish ha
  rw [Expr.evalText, hparse]
  rfl

theorem lex_text_ofTerms_raw :
    let ts : List Term := [(.ofType "", false),
      (((Descriptor.ofType "geo.ip").withOperator (.raw "||!(")).closed, false)]
    (∀ t ∈ ts, ∀ c ∈ t.1.type.toList, Token.isWordChar c) ∧
      Token.lex (ofTerms ts).text = (ofTerms ts).tokens ∧
      ∃ a, (ofTerms ts).finish = .ok a ∧ a.source = "_1 || not ( geo.ip_1 )" ∧
        Expr.evalText a.bindings a.source = .ok true := by
  intro ts
  have hts : ∀ t ∈ ts, ∀ c ∈ t.1.type.toList, Token.isWordChar c := by
    have : ts.all fun t => t.1.type.toList.all Token.isWordChar := by decide +kernel
    exact fun t ht => List.all_eq_true.1 (List.all_eq_true.1 this t ht)
  have ⟨hlex, _, heval⟩ := lex_text_ofTerms ts hts
  have hfinish : (ofTerms ts).finish.map (fun a => (a.source, a.eval)) =
      .ok ("_1 || not ( geo.ip_1 )", .ok true) := by cbv
  cases h : (ofTerms ts).finish with
  | error e => simp [h, Except.map] at hfinish
  | ok a =>
    simp only [h, Except.map, Except.ok.injEq, Prod.mk.injEq] at hfinish
    exact ⟨hts, hlex, a, rfl, hfinish.1, (heval a h).trans hfinish.2⟩

end Assembly

end Targeting
