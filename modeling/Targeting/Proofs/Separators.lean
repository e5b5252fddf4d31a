import Targeting.Proofs.Lexing

namespace Targeting

namespace Token

variable {c : Char} {cs rest : List Char}

theorem takeWhile_append_of_stops {p : Char → Bool} (hp : ∀ c, isSeparator c → p c = false)
    (h : Stops rest) (cs : List Char) :
    (cs ++ rest).takeWhile p = cs.takeWhile p ∧
      (cs ++ rest).dropWhile p = cs.dropWhile p ++ rest := by
  induction cs with
  | nil => simpa using takeWhile_of_stops hp h
  | cons c cs ih => cases hc : p c <;> simp [hc, ih]

theorem scan_append (cs : List Char) (h : Stops rest) : scan (cs ++ rest) = scan cs ++ scan rest := by
  -- Where the text before it ends, `scan` looks at the rest only to see that a run does not go on.
  fun_induction scan cs with
  | case1 => rfl
  | case2 cs ih => simp [scan, ih]
  | case3 cs ih => simp [scan, ih]
  | case4 cs ih => simp [scan, ih]
  | case5 cs ih => simp [scan, ih]
  | case6 cs ih => simp [scan, ih]
  | case7 c cs _ _ _ _ _ hblank ih => rw [List.cons_append, scan_blank hblank, ih]
  | case8 c cs _ _ _ _ _ hblank hword ih =>
    obtain ⟨htake, hdrop⟩ := takeWhile_append_of_stops (fun c => isWordChar_of_isSeparator) h cs
    rw [List.cons_append, scan_of_plain (plain_of_isWordChar hword), if_neg hblank, if_pos hword,
      htake, hdrop, ih, List.cons_append]
  | case9 c cs hl hr hn hand hor hblank hword ih =>
    have hplain : Plain c (cs ++ rest) := (plain_of_ne hl hr hn hand hor).append h
    obtain ⟨htake, hdrop⟩ := takeWhile_append_of_stops (fun c => isSign_of_isSeparator) h cs
    rw [List.cons_append, scan_of_plain hplain, if_neg hblank, if_neg hword, htake, hdrop, ih,
      List.cons_append]

theorem scan_append_cons (hc : isSeparator c) (cs ds : List Char) :
    scan (cs ++ c :: ds) = scan cs ++ scan [c] ++ scan ds := by
  have hbehind : scan (c :: ds) = scan [c] ++ scan ds := by
    simp only [isSeparator, isBracket, Bool.or_eq_true, beq_iff_eq] at hc
    rcases hc with hblank | rfl | rfl
    · rw [scan_blank hblank, scan_blank hblank, scan, List.nil_append]
    · simp [scan]
    · simp [scan]
  rw [scan_append cs (by simpa [Stops] using hc), hbehind, List.append_assoc]

theorem scan_blanks (h : ∀ c ∈ cs, Text.isBlank c) (rest : List Char) :
    scan (cs ++ rest) = scan rest := by
  induction cs with
  | nil => rfl
  | cons c cs ih =>
    obtain ⟨hc, hcs⟩ := List.forall_mem_cons.1 h
    rw [List.cons_append, scan_blank hc, ih hcs]

/-- Texts with a separator between them are read each on its own, whatever they end and begin with.
The separator is a token if it is a bracket, and nothing if it is blank. -/
theorem lex_append_separator (a b : String) :
    (∀ c, isSeparator c →
      lex (a ++ String.singleton c ++ b) = lex a ++ lex (String.singleton c) ++ lex b) ∧
    (∀ c, Text.isBlank c → lex (String.singleton c) = []) ∧
    lex (String.singleton '(') = [.lparen] ∧ lex (String.singleton ')') = [.rparen] := by
  refine ⟨fun c hc => ?_, fun c hc => ?_, by simp [lex, scan], by simp [lex, scan]⟩
  · rw [lex, String.toList_append, String.toList_append, String.toList_singleton, List.append_assoc,
      List.singleton_append, scan_append_cons hc, lex, lex, lex, String.toList_singleton]
  · rw [lex, String.toList_singleton, scan_blank hc, scan]

theorem lex_append_separator_halves :
    isSeparator '(' ∧ isSeparator '\u3000' ∧ Text.isBlank '\u3000' ∧
      lex ("a =&" ++ String.singleton '(' ++ "&b") =
        [.var "a", .raw "=&", .lparen, .raw "&", .var "b"] ∧
      lex ("no" ++ String.singleton '\u3000' ++ "t") = [.var "no", .var "t"] ∧
      lex (String.singleton '\u3000') = [] := by
  have hparen : isSeparator '(' := by decide
  have hblank : Text.isBlank '\u3000' := by decide
  have hwide : isSeparator '\u3000' := by decide
  obtain ⟨between, -, hopen, -⟩ := lex_append_separator "a =&" "&b"
  obtain ⟨between', nothing, -⟩ := lex_append_separator "no" "t"
  refine ⟨hparen, hwide, hblank, ?_, ?_, nothing _ hblank⟩
  · rw [between '(' hparen, hopen]
    decide +kernel
  · rw [between' _ hwide, nothing _ hblank]
    decide +kernel

end Token

theorem Operator.tokens_raw_padded {pre post : String} (hpre : ∀ c ∈ pre.toList, Text.isBlank c)
    (hpost : ∀ c ∈ post.toList, Text.isBlank c) (s : String) :
    (raw (pre ++ s ++ post)).tokens = (raw s).tokens := by
  have hstops : Token.Stops post.toList := fun c hc => by
    simp [Token.isSeparator, hpost c (List.mem_of_mem_head? hc)]
  have hnone : Token.scan post.toList = [] := by
    simpa [Token.scan] using Token.scan_blanks hpost []
  rw [tokens, tokens, Token.lex, Token.lex, String.toList_append, String.toList_append,
    List.append_assoc, Token.scan_blanks hpre, Token.scan_append _ hstops, hnone, List.append_nil]

end Targeting
