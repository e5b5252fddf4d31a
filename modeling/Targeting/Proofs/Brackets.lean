import Targeting.Proofs.Meaning
import Targeting.Proofs.Traversal

/-!
Brackets that do not match. Where operands and operators take turns, brackets alone decide whether
there is an expression. Main statement: which lists of terms are one, and what is found to be wrong
with the others, told by how deep the brackets stand after each term.
-/

namespace Targeting

section

variable {rs ss : List Int}

def lowest : List Int → Int
  | [] => 0
  | r :: rs => min 0 (r + lowest rs)

theorem lowest_le_zero (rs : List Int) : lowest rs ≤ 0 := by
  cases rs with
  | nil => exact Int.le_refl 0
  | cons r rs => exact Int.min_le_left ..

theorem le_lowest_iff {m : Int} : m ≤ lowest rs ↔ ∀ k, m ≤ (rs.take k).sum := by
  induction rs generalizing m with
  | nil => simp [lowest]
  | cons r rs ih =>
    have step : m ≤ lowest (r :: rs) ↔ m ≤ 0 ∧ m - r ≤ lowest rs := by
      rw [lowest]
      omega
    rw [step, ih]
    constructor
    · rintro ⟨hzero, h⟩ k
      cases k with
      | zero => exact hzero
      | succ k =>
        have := h k
        rw [List.take_succ_cons, List.sum_cons]
        omega
    · intro h
      refine ⟨h 0, fun k => ?_⟩
      have := h (k + 1)
      rw [List.take_succ_cons, List.sum_cons] at this
      omega

theorem lowest_append (rs ss : List Int) :
    lowest (rs ++ ss) = min (lowest rs) (rs.sum + lowest ss) := by
  induction rs with
  | nil => simpa [lowest] using lowest_le_zero ss
  | cons r rs ih =>
    rw [List.cons_append, lowest, ih, lowest, List.sum_cons]
    omega

structure Nested (rs : List Int) : Prop where
  lowest : 0 ≤ lowest rs
  sum : rs.sum = 0

structure Unclosed (rs : List Int) : Prop where
  lowest : 0 ≤ lowest rs
  sum : 0 < rs.sum

theorem nested_nil : Nested [] := ⟨Int.le_refl 0, rfl⟩

theorem nested_zero : Nested [0] := ⟨Int.le_refl 0, rfl⟩

theorem Nested.lowest_append (h : Nested rs) :
    Targeting.lowest (rs ++ ss) = Targeting.lowest ss := by
  have := h.lowest
  have := lowest_le_zero ss
  rw [Targeting.lowest_append, h.sum]
  omega

theorem Nested.sum_append (h : Nested rs) : (rs ++ ss).sum = ss.sum := by
  rw [List.sum_append, h.sum, Int.zero_add]

theorem Nested.append (h : Nested rs) (h' : Nested ss) : Nested (rs ++ ss) where
  lowest := h.lowest_append.symm ▸ h'.lowest
  sum := h.sum_append.trans h'.sum

theorem Nested.group (h : Nested rs) : Nested (1 :: rs ++ [-1]) := by
  constructor
  · rw [List.cons_append, Targeting.lowest, h.lowest_append]
    decide
  · simp [h.sum]

theorem Nested.append_unclosed (h : Nested rs) (h' : Unclosed ss) : Unclosed (rs ++ ss) where
  lowest := h.lowest_append.symm ▸ h'.lowest
  sum := h.sum_append.symm ▸ h'.sum

theorem unclosed_cons (hlowest : 0 ≤ lowest rs) (hsum : 0 ≤ rs.sum) : Unclosed (1 :: rs) := by
  constructor
  · rw [lowest]
    omega
  · rw [List.sum_cons]
    omega

end

def Token.rise : Token → Int
  | .lparen => 1
  | .rparen => -1
  | _ => 0

namespace Expr

open Token

inductive Due
  | operand : Due
  | operator : Due

/-- Operands and operators take turns, whatever the brackets are. -/
inductive Alternates : Due → List Token → Prop
  | not : Alternates .operand ts → Alternates .operand (.not :: ts)
  | lparen : Alternates .operand ts → Alternates .operand (.lparen :: ts)
  | var : Alternates .operator ts → Alternates .operand (.var n :: ts)
  | nil : Alternates .operator []
  | rparen : Alternates .operator ts → Alternates .operator (.rparen :: ts)
  | and : Alternates .operand ts → Alternates .operator (.and :: ts)
  | or : Alternates .operand ts → Alternates .operator (.or :: ts)

theorem Derives.nested {l : Level} {ts : List Token} {e : Expr} (h : Derives l ts e) :
    Nested (ts.map rise) := by
  refine h.tokens_induction (motive := fun ts => Nested (ts.map rise)) (fun _ => nested_zero)
    (fun ts hts => ?_) (fun ts hts => ?_) fun t ht us vs hus hvs => ?_
  · exact nested_zero.append hts
  · rw [List.map_append]
    exact hts.group
  · rw [List.map_append]
    rcases ht with rfl | rfl
    · exact hus.append (nested_zero.append hvs)
    · exact hus.append (nested_zero.append hvs)

def Turns (ts : List Token) : Prop :=
  ∀ rest, Alternates .operand (ts ++ rest) → Alternates .operator rest

theorem Derives.turns {l : Level} {ts : List Token} {e : Expr} (h : Derives l ts e) : Turns ts := by
  refine h.tokens_induction (motive := Turns) (fun n rest h => ?_) (fun ts hts rest h => ?_)
    (fun ts hts rest h => ?_) fun t ht us vs hus hvs rest h => ?_
  · cases h with
    | var h => exact h
  · cases h with
    | not h => exact hts rest h
  · rw [List.append_assoc] at h
    cases h with
    | lparen h =>
      cases hts _ h with
      | rparen h => exact h
  · rw [List.append_assoc] at h
    rcases ht with rfl | rfl
    · cases hus _ h with
      | and h => exact hvs rest h
    · cases hus _ h with
      | or h => exact hvs rest h

theorem Reads.alternates {l : Level} {ts rest : List Token} {e : Expr} (h : Reads l ts e rest)
    (hts : Alternates .operand ts) : Alternates .operator rest := by
  obtain ⟨us, rfl, hus, -⟩ := h
  exact hus.turns rest hts

def Dangles (ts : List Token) (m : ParseError) : Prop := m = .unclosed ∧ Unclosed (ts.map rise)

theorem Reads.dangles {l : Level} {ts rest : List Token} {e : Expr} {m : ParseError}
    (h : Reads l ts e rest) (hrest : Dangles rest m) : Dangles ts m := by
  obtain ⟨us, rfl, hus, -⟩ := h
  rw [Dangles, List.map_append]
  exact ⟨hrest.1, hus.nested.append_unclosed hrest.2⟩

theorem Dangles.cons {t : Token} {ts : List Token} {m : ParseError} (ht : t.rise = 0)
    (h : Dangles ts m) : Dangles (t :: ts) m := by
  rw [Dangles, List.map_cons, ht]
  exact ⟨h.1, nested_zero.append_unclosed h.2⟩

theorem Alternates.nil_or_rparen {ts : List Token} (h : Alternates .operator ts)
    (hends : Level.or.Ends ts) : ts = [] ∨ ∃ us, ts = .rparen :: us := by
  cases h with
  | nil => exact .inl rfl
  | rparen => exact .inr ⟨_, rfl⟩
  | and => exact absurd (.inr rfl) (hends _ rfl)
  | or => exact absurd (.inl rfl) (hends _ rfl)

theorem dangles_of_chain {l : Level} {tail : TailParser} {ts : List Token} {m : ParseError}
    {f : (e : Parsed ts) → ParsedTail e.rest → α} (hts : Alternates .operand ts)
    (head : ∀ m, parseAt l ts = .error m → Dangles ts m)
    (rest : ∀ e : Parsed ts, Alternates .operator e.rest →
      ∀ m, tail e.rest = .error m → Dangles e.rest m)
    (hm : (do let e ← parseAt l ts; let es ← tail e.rest; return f e es) = .error m) :
    Dangles ts m := by
  rcases bind_eq_error.1 hm with hm | ⟨e, he, hm⟩
  · exact head m hm
  · have reads := Reads.of_parseAt he
    rcases bind_eq_error.1 hm with hm | ⟨es, -, hm⟩
    · exact reads.dangles (rest e (reads.alternates hts) m hm)
    · cases hm

theorem dangles_of_error :
    (∀ ts, Alternates .operand ts → ∀ m, parseOr ts = .error m → Dangles ts m) ∧
    (∀ ts, Alternates .operator ts → ∀ m, parseOrTail ts = .error m → Dangles ts m) ∧
    (∀ ts, Alternates .operand ts → ∀ m, parseAnd ts = .error m → Dangles ts m) ∧
    (∀ ts, Alternates .operator ts → ∀ m, parseAndTail ts = .error m → Dangles ts m) ∧
    (∀ ts, Alternates .operand ts → ∀ m, parseUnary ts = .error m → Dangles ts m) ∧
    (∀ ts, Alternates .operand ts → (∀ us, ts ≠ .not :: us) → ∀ m,
      parsePrimary ts = .error m → Dangles ts m) := by
  -- one case for each equation of the parser; a primary is only read where no `not` stands
  apply parseOr.mutual_induct
  case case1 =>
    intro ts ihAnd ihTail hts m hm
    rw [parseOr] at hm
    exact dangles_of_chain (l := .and) hts (ihAnd hts) ihTail hm
  case case2 =>
    intro ts ihAnd ihTail hts m hm
    rw [parseOrTail] at hm
    cases hts with
    | or hts => exact (dangles_of_chain (l := .and) hts (ihAnd hts) ihTail hm).cons rfl
  case case3 =>
    intro ts hne _ m hm
    rw [parseOrTail] at hm
    · cases hm
    · exact hne
  case case4 =>
    intro ts ihUnary ihTail hts m hm
    rw [parseAnd] at hm
    exact dangles_of_chain (l := .unary) hts (ihUnary hts) ihTail hm
  case case5 =>
    intro ts ihUnary ihTail hts m hm
    rw [parseAndTail] at hm
    cases hts with
    | and hts => exact (dangles_of_chain (l := .unary) hts (ihUnary hts) ihTail hm).cons rfl
  case case6 =>
    intro ts hne _ m hm
    rw [parseAndTail] at hm
    · cases hm
    · exact hne
  case case7 =>
    intro ts ih hts m hm
    rw [parseUnary] at hm
    cases hts with
    | not hts =>
      rcases bind_eq_error.1 hm with hm | ⟨e, -, hm⟩
      · exact (ih hts m hm).cons rfl
      · cases hm
  case case8 =>
    intro ts hne ih hts m hm
    rw [parseUnary] at hm
    · exact ih hts hne m hm
    · exact hne
  case case9 =>
    intro n ts _ _ m hm
    rw [parsePrimary] at hm
    cases hm
  case case10 =>
    intro ts ih hts _ m hm
    rw [parsePrimary] at hm
    cases hts with
    | lparen hts =>
      rcases bind_eq_error.1 hm with hm | ⟨e, he, hm⟩
      · obtain ⟨hunclosed, hlowest, hsum⟩ := ih hts m hm
        exact ⟨hunclosed, unclosed_cons hlowest (Int.le_of_lt hsum)⟩
      · have reads := Reads.of_parseAt (l := .or) he
        split at hm
        case h_1 => cases hm
        case h_2 hne =>
          cases hm
          -- the phrase in the bracket goes on to the end
          have hrest : e.rest = [] :=
            ((reads.alternates hts).nil_or_rparen reads.ends).resolve_right (not_exists.2 hne)
          obtain ⟨us, hus, hderives, -⟩ := reads
          rw [hrest, List.append_nil] at hus
          subst hus
          exact ⟨rfl, unclosed_cons hderives.nested.lowest hderives.nested.sum.ge⟩
  case case11 =>
    intro t ts hvar hparen hts hnot m hm
    cases hts with
    | not => exact absurd rfl (hnot _)
    | lparen => exact absurd rfl hparen
    | var => exact absurd rfl (hvar _)
  case case12 =>
    intro hts
    cases hts

theorem parseAll_of_alternates {ts : List Token} (hts : Alternates .operand ts) :
    (Nested (ts.map rise) ∧ ∃ e, parseAll ts = .ok e) ∨
    (lowest (ts.map rise) < 0 ∧ parseAll ts = .error (.unexpected .rparen)) ∨
    (Unclosed (ts.map rise) ∧ parseAll ts = .error .unclosed) := by
  cases ts with
  | nil => cases hts
  | cons t ts =>
    cases hp : parseOr (t :: ts) with
    | error m =>
      obtain ⟨rfl, hunclosed⟩ := dangles_of_error.1 _ hts m hp
      exact .inr (.inr ⟨hunclosed, bind_eq_error.2 (.inl hp)⟩)
    | ok p =>
      have reads := Reads.of_parseAt (l := .or) hp
      obtain hrest | ⟨us, hrest⟩ := (reads.alternates hts).nil_or_rparen reads.ends
      · have derives := answers_iff_derives.1 ⟨p, hp, rfl, hrest⟩
        exact .inl ⟨derives.nested, _, parseAll_eq_ok.2 ⟨p, hp, rfl, hrest⟩⟩
      · obtain ⟨vs, hvs, hderives, -⟩ := reads
        refine .inr (.inl ⟨?_, bind_eq_error.2 (.inr ⟨p, hp, ?_⟩)⟩)
        · rw [hvs, hrest, List.map_append, hderives.nested.lowest_append, List.map_cons, lowest]
          have := lowest_le_zero (us.map rise)
          simp only [rise]
          omega
        · rw [hrest]
          rfl

end Expr

structure SameDepths (rs ss : List Int) : Prop where
  lowest : lowest rs = lowest ss
  sum : rs.sum = ss.sum

theorem SameDepths.append {rs rs' ss ss' : List Int} (h : SameDepths rs ss)
    (h' : SameDepths rs' ss') : SameDepths (rs ++ rs') (ss ++ ss') where
  lowest := by rw [lowest_append, lowest_append, h.lowest, h.sum, h'.lowest]
  sum := by rw [List.sum_append, List.sum_append, h.sum, h'.sum]

theorem Nested.sameDepths {rs ss : List Int} (h : Nested rs) : SameDepths (rs ++ ss) ss :=
  ⟨h.lowest_append, h.sum_append⟩

theorem SameDepths.trans {rs ss ts : List Int} (h : SameDepths rs ss) (h' : SameDepths ss ts) :
    SameDepths rs ts :=
  ⟨h.lowest.trans h'.lowest, h.sum.trans h'.sum⟩

theorem nested_nots (n : Nat) : Nested ((List.replicate n Token.not).map Token.rise) := by
  induction n with
  | zero => exact nested_nil
  | succ n ih => exact nested_zero.append ih

theorem Operator.Joins.nested {o : Operator} (h : o.Joins) : Nested (o.tokens.map Token.rise) := by
  obtain ⟨t, n, rfl | rfl, ho⟩ := h
  · exact ho ▸ nested_zero.append (nested_nots n)
  · exact ho ▸ nested_zero.append (nested_nots n)

theorem Expr.Alternates.nots {us : List Token} (h : Alternates .operand us) (n : Nat) :
    Alternates .operand (List.replicate n .not ++ us) := by
  induction n with
  | zero => exact h
  | succ n ih => exact .not ih

theorem Operator.Joins.alternates {o : Operator} (h : o.Joins) {us : List Token}
    (hus : Expr.Alternates .operand us) : Expr.Alternates .operator (o.tokens ++ us) := by
  obtain ⟨t, n, rfl | rfl, ho⟩ := h
  · exact ho ▸ .and (hus.nots n)
  · exact ho ▸ .or (hus.nots n)

def Term.depth (ts : List Term) : Int := (ts.map rise).sum

namespace Assembly

open Term

theorem termTokens_false (d : Descriptor) (name : String) :
    termTokens false d name = d.joint.tokens ++ termTokens true d name := by
  simp [termTokens]

theorem alternates_termTokens (d : Descriptor) (name : String) {us : List Token}
    (h : Expr.Alternates .operator us) :
    Expr.Alternates .operand (termTokens true d name ++ us) := by
  have closed : Expr.Alternates .operator ((if d.closes then [.rparen] else []) ++ us) := by
    split
    · exact .rparen h
    · exact h
  have opened : Expr.Alternates .operand ((if d.opens then [.lparen] else []) ++
      .var name :: ((if d.closes then [.rparen] else []) ++ us)) := by
    split
    · exact .lparen (.var closed)
    · exact .var closed
  simpa [termTokens] using opened

theorem sameDepths_termTokens (t : Term) (name : String) :
    SameDepths ((termTokens true t.1 name).map Token.rise) [t.rise] := by
  cases hopens : t.1.opens <;> cases hcloses : t.1.closes <;>
    constructor <;> simp [termTokens, lowest, Term.rise, Token.rise, hopens, hcloses]

theorem Spells.alternates_and_sameDepths {b : Table Bool} {ts : List Term} {us : List Token}
    (h : Spells b false ts us) (joins : ∀ t ∈ ts, t.1.joint.Joins) :
    Expr.Alternates .operator us ∧ SameDepths (us.map Token.rise) (ts.map Term.rise) := by
  induction ts generalizing us with
  | nil =>
    cases h
    exact ⟨.nil, rfl, rfl⟩
  | cons t ts ih =>
    simp only [List.forall_mem_cons] at joins
    cases h with
    | @cons n _ _ us _ _ h =>
      obtain ⟨hus, hdepths⟩ := ih h joins.2
      rw [termTokens_false, List.append_assoc]
      refine ⟨joins.1.alternates (alternates_termTokens t.1 n hus), ?_⟩
      rw [List.map_append, List.map_append]
      exact joins.1.nested.sameDepths.trans ((sameDepths_termTokens t n).append hdepths)

theorem alternates_ofTerms {ts : List Term} (hne : ts ≠ []) (joined : Joined ts) :
    Expr.Alternates .operand (ofTerms ts).tokens ∧
      SameDepths ((ofTerms ts).tokens.map Token.rise) (ts.map Term.rise) := by
  cases ts with
  | nil => exact absurd rfl hne
  | cons t ts =>
    have h := spells_ofTerms (t :: ts)
    generalize (ofTerms (t :: ts)).tokens = us at h
    cases h with
    | @cons n _ _ us _ _ h =>
      obtain ⟨hus, hdepths⟩ := h.alternates_and_sameDepths joined
      rw [List.map_append]
      exact ⟨alternates_termTokens t.1 n hus, (sameDepths_termTokens t n).append hdepths⟩

theorem finish_of_parseAll_ok {a : Assembly} {e : Expr} (h : Expr.parseAll a.tokens = .ok e) :
    a.finish = .ok ⟨a.text, e, a.bindings, a.names⟩ := by
  rw [finish, Expr.parse_eq_ok_iff.2 h]
  rfl

theorem finish_of_parseAll_error {a : Assembly} {m : ParseError}
    (h : Expr.parseAll a.tokens = .error m) :
    a.finish = .error (.badExpression m.message a.text) := by
  rw [finish, Expr.parse_of_parseAll_error h]
  rfl

theorem finish_cases {ts : List Term} (hne : ts ≠ []) (joined : Joined ts) :
    (0 ≤ lowest (ts.map rise) ∧ depth ts = 0 ∧ ∃ a, (ofTerms ts).finish = .ok a) ∨
    (lowest (ts.map rise) < 0 ∧
      (ofTerms ts).finish = .error (.badExpression "unexpected token ')'" (ofTerms ts).text)) ∨
    (0 ≤ lowest (ts.map rise) ∧ 0 < depth ts ∧
      (ofTerms ts).finish =
        .error (.badExpression "missing closing bracket" (ofTerms ts).text)) := by
  obtain ⟨hts, hlowest, hsum⟩ := alternates_ofTerms hne joined
  rw [← hlowest, depth, ← hsum]
  obtain ⟨⟨hlow, hzero⟩, e, he⟩ | ⟨hlow, he⟩ | ⟨⟨hlow, hpos⟩, he⟩ :=
    Expr.parseAll_of_alternates hts
  · exact .inl ⟨hlow, hzero, _, finish_of_parseAll_ok he⟩
  · exact .inr (.inl ⟨hlow, finish_of_parseAll_error he⟩)
  · exact .inr (.inr ⟨hlow, hpos, finish_of_parseAll_error he⟩)

/-- Terms that are each joined to the one before are an expression if their brackets match. If not,
the first bracket that closes too much is what is wrong, and without one those left open are. -/
theorem finish_of_joined (ts : List Term) (joined : Joined ts) :
    ((∃ a, (ofTerms ts).finish = .ok a) ↔
      ts ≠ [] ∧ (∀ k, 0 ≤ depth (ts.take k)) ∧ depth ts = 0) ∧
    (ts = [] →
      (ofTerms ts).finish = .error (.badExpression "empty expression" (ofTerms ts).text)) ∧
    ((∃ k, depth (ts.take k) < 0) →
      (ofTerms ts).finish = .error (.badExpression "unexpected token ')'" (ofTerms ts).text)) ∧
    ((∀ k, 0 ≤ depth (ts.take k)) → 0 < depth ts →
      (ofTerms ts).finish =
        .error (.badExpression "missing closing bracket" (ofTerms ts).text)) := by
  have nonneg : (∀ k, 0 ≤ depth (ts.take k)) ↔ 0 ≤ lowest (ts.map rise) := by
    simp only [le_lowest_iff, depth, List.map_take]
  have negative : (∃ k, depth (ts.take k) < 0) ↔ lowest (ts.map rise) < 0 := by
    simpa using not_congr nonneg
  have failed {f : Fault} (hf : (ofTerms ts).finish = .error f) :
      ¬ ∃ a, (ofTerms ts).finish = .ok a := by
    rintro ⟨a, ha⟩
    cases hf.symm.trans ha
  rw [nonneg, negative]
  by_cases hne : ts = []
  · have hf := finish_of_parseAll_error (a := ofTerms ts) (m := .empty) (hne ▸ rfl)
    have hdepth : depth ts = 0 := hne ▸ rfl
    have hlow : lowest (ts.map rise) = 0 := hne ▸ rfl
    refine ⟨⟨fun h => absurd h (failed hf), fun h => absurd hne h.1⟩, fun _ => hf, fun h => ?_,
      fun _ h => ?_⟩ <;> omega
  · obtain ⟨hlow, hzero, ok⟩ | ⟨hlow, hf⟩ | ⟨hlow, hpos, hf⟩ := finish_cases hne joined
    · refine ⟨⟨fun _ => ⟨hne, hlow, hzero⟩, fun _ => ok⟩, fun h => absurd h hne, fun h => ?_,
        fun _ h => ?_⟩ <;> omega
    · refine ⟨⟨fun h => absurd h (failed hf), fun h => ?_⟩, fun h => absurd h hne, fun _ => hf,
        fun h => ?_⟩ <;> omega
    · refine ⟨⟨fun h => absurd h (failed hf), fun h => ?_⟩, fun h => absurd h hne, fun h => ?_,
        fun _ _ => hf⟩ <;> omega

theorem finish_of_joined_unopened :
    let ts : List Term := [(⟨"a", none, true, true, ∅⟩, true), (⟨"b", none, false, true, ∅⟩, true),
      (⟨"c", some .andNot, true, false, ∅⟩, false)]
    Joined ts ∧ depth (ts.take 2) < 0 ∧ (ofTerms ts).finish =
      .error (.badExpression "unexpected token ')'" "( a_1 ) && b_1 ) && not ( c_1") := by
  intro ts
  have joined : Joined ts := by
    intro t ht
    simp only [ts, List.tail_cons, List.mem_cons, List.not_mem_nil, or_false] at ht
    rcases ht with rfl | rfl
    · exact ⟨.and, 0, .inl rfl, rfl⟩
    · exact ⟨.and, 1, .inl rfl, rfl⟩
  have negative : depth (ts.take 2) < 0 := by decide
  have text : (ofTerms ts).text = "( a_1 ) && b_1 ) && not ( c_1" := by cbv
  have hf := (finish_of_joined ts joined).2.2.1 ⟨2, negative⟩
  rw [text] at hf
  exact ⟨joined, negative, hf⟩

end Assembly

end Targeting
