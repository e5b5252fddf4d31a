import Targeting.Expr.Parse

/-!
The grammar of expressions as a relation between tokens and trees, told without the parser, and
the parser against it: a level reads exactly its phrases, each as far as it goes.
-/

namespace Targeting.Expr

inductive Level
  | or : Level
  | and : Level
  | unary : Level
  | primary : Level
  deriving DecidableEq

inductive Derives : Level → List Token → Expr → Prop
  | or {ps : List (List Token × Expr)} : 2 ≤ ps.length → (∀ p ∈ ps, Derives .and p.1 p.2) →
      Derives .or ([.or].intercalate (ps.map Prod.fst)) (.or (ps.map Prod.snd))
  | ofAnd : Derives .and ts e → Derives .or ts e
  | and {ps : List (List Token × Expr)} : 2 ≤ ps.length → (∀ p ∈ ps, Derives .unary p.1 p.2) →
      Derives .and ([.and].intercalate (ps.map Prod.fst)) (.and (ps.map Prod.snd))
  | ofUnary : Derives .unary ts e → Derives .and ts e
  | not : Derives .unary ts e → Derives .unary (.not :: ts) (.not e)
  | ofPrimary : Derives .primary ts e → Derives .unary ts e
  | var : Derives .primary [.var n] (.var n)
  | group : Derives .or ts e → Derives .primary (.lparen :: ts ++ [.rparen]) e

def Level.Continues : Level → Token → Prop
  | .or, t => t = .or ∨ t = .and
  | .and, t => t = .and
  | .unary, _ => False
  | .primary, _ => False

def Level.Ends (l : Level) (ts : List Token) : Prop := ∀ t ∈ ts.head?, ¬ l.Continues t

@[simp] theorem Level.ends_nil (l : Level) : l.Ends [] := nofun

@[simp] theorem Level.ends_unary (ts : List Token) : Level.unary.Ends ts := fun _ _ => nofun

@[simp] theorem Level.ends_primary (ts : List Token) : Level.primary.Ends ts := fun _ _ => nofun

theorem Level.ends_and {ts : List Token} : Level.and.Ends ts ↔ ∀ us, ts ≠ .and :: us := by
  cases ts <;> simp [Ends, Continues]

theorem Level.ends_or {ts : List Token} :
    Level.or.Ends ts ↔ Level.and.Ends ts ∧ ∀ us, ts ≠ .or :: us := by
  cases ts <;> simp [Ends, Continues, and_comm]

def joined (t : Token) (ps : List (List Token × Expr)) : List Token := ps.flatMap fun p => t :: p.1

theorem intercalate_eq_joined (t : Token) (us : List Token) (ps : List (List Token × Expr)) :
    [t].intercalate (us :: ps.map Prod.fst) = us ++ joined t ps := by
  induction ps generalizing us with
  | nil => simp [joined]
  | cons q ps ih =>
    rw [List.map_cons, List.intercalate_cons_cons, ih]
    simp [joined]

theorem Derives.disj {ps : List (List Token × Expr)} (hps : ps ≠ [])
    (h : ∀ p ∈ ps, Derives .and p.1 p.2) :
    Derives .or ([.or].intercalate (ps.map Prod.fst)) (Expr.disj (ps.map Prod.snd)) := by
  match ps with
  | [] => exact absurd rfl hps
  | [p] => simpa [Expr.disj, chain] using Derives.ofAnd (h p (by simp))
  | _ :: _ :: _ => exact Derives.or (by simp) h

theorem Derives.conj {ps : List (List Token × Expr)} (hps : ps ≠ [])
    (h : ∀ p ∈ ps, Derives .unary p.1 p.2) :
    Derives .and ([.and].intercalate (ps.map Prod.fst)) (Expr.conj (ps.map Prod.snd)) := by
  match ps with
  | [] => exact absurd rfl hps
  | [p] => simpa [Expr.conj, chain] using Derives.ofUnary (h p (by simp))
  | _ :: _ :: _ => exact Derives.and (by simp) h

theorem intercalate_induction {motive : List Token → Prop} {t : Token}
    (join : ∀ us vs, motive us → motive vs → motive (us ++ t :: vs))
    {ps : List (List Token × Expr)} (hne : ps ≠ []) (h : ∀ p ∈ ps, motive p.1) :
    motive ([t].intercalate (ps.map Prod.fst)) := by
  induction ps with
  | nil => exact absurd rfl hne
  | cons p ps ih =>
    cases ps with
    | nil => simpa using h
    | cons q ps =>
      rw [List.forall_mem_cons] at h
      rw [List.map_cons, List.map_cons, List.intercalate_cons_cons, List.append_assoc]
      exact join _ _ h.1 (ih (List.cons_ne_nil q ps) h.2)

theorem Derives.tokens_induction {motive : List Token → Prop} (var : ∀ n, motive [.var n])
    (not : ∀ ts, motive ts → motive (.not :: ts))
    (group : ∀ ts, motive ts → motive (.lparen :: ts ++ [.rparen]))
    (join : ∀ t, t = .and ∨ t = .or → ∀ us vs, motive us → motive vs → motive (us ++ t :: vs))
    {l : Level} {ts : List Token} {e : Expr} (h : Derives l ts e) : motive ts := by
  induction h with
  | or hlen _ ih =>
    exact intercalate_induction (join _ (.inr rfl)) (List.ne_nil_of_length_pos (by omega)) ih
  | ofAnd _ ih => exact ih
  | and hlen _ ih =>
    exact intercalate_induction (join _ (.inl rfl)) (List.ne_nil_of_length_pos (by omega)) ih
  | ofUnary _ ih => exact ih
  | not _ ih => exact not _ ih
  | ofPrimary _ ih => exact ih
  | var => exact var _
  | group _ ih => exact group _ ih

def parseAt : Level → (ts : List Token) → Except ParseError (Parsed ts)
  | .or => parseOr
  | .and => parseAnd
  | .unary => parseUnary
  | .primary => parsePrimary

theorem bind_eq_ok {x : Except ε α} {f : α → Except ε β} {b : β} :
    x >>= f = .ok b ↔ ∃ a, x = .ok a ∧ f a = .ok b := by
  cases x with
  | error e =>
    constructor
    · intro h
      cases h
    · rintro ⟨a, ha, -⟩
      cases ha
  | ok a =>
    constructor
    · intro h
      exact ⟨a, rfl, h⟩
    · rintro ⟨a', ha, h⟩
      cases ha
      exact h

def Reads (l : Level) (ts : List Token) (e : Expr) (rest : List Token) : Prop :=
  ∃ us, ts = us ++ rest ∧ Derives l us e ∧ l.Ends rest

def ReadsTail (l operand : Level) (t : Token) (ts : List Token) (es : List Expr)
    (rest : List Token) : Prop :=
  ∃ ps : List (List Token × Expr), ts = joined t ps ++ rest ∧ es = ps.map Prod.snd ∧
    (∀ p ∈ ps, Derives operand p.1 p.2) ∧ l.Ends rest

theorem Reads.ends {l : Level} {ts rest : List Token} {e : Expr} (h : Reads l ts e rest) :
    l.Ends rest := h.choose_spec.2.2

theorem ReadsTail.nil {l operand : Level} {t : Token} {ts : List Token} (h : l.Ends ts) :
    ReadsTail l operand t ts [] ts := ⟨[], rfl, rfl, by simp, h⟩

theorem ReadsTail.cons {l operand : Level} {t : Token} {ts us vs : List Token} {e : Expr}
    {es : List Expr} (h : Reads operand ts e us) (hs : ReadsTail l operand t us es vs) :
    ReadsTail l operand t (t :: ts) (e :: es) vs := by
  obtain ⟨xs, rfl, hx, _⟩ := h
  obtain ⟨ps, rfl, rfl, hps, hvs⟩ := hs
  refine ⟨(xs, e) :: ps, by simp [joined], rfl, ?_, hvs⟩
  intro p hp
  rcases List.mem_cons.1 hp with rfl | hp
  · exact hx
  · exact hps p hp

theorem Reads.disj {ts us vs : List Token} {e : Expr} {es : List Expr} (h : Reads .and ts e us)
    (hs : ReadsTail .or .and .or us es vs) : Reads .or ts (Expr.disj (e :: es)) vs := by
  obtain ⟨xs, rfl, hx, _⟩ := h
  obtain ⟨ps, rfl, rfl, hps, hvs⟩ := hs
  have hcons : ∀ p ∈ (xs, e) :: ps, Derives .and p.1 p.2 := by
    simpa using ⟨hx, fun a b h => hps (a, b) h⟩
  refine ⟨xs ++ joined .or ps, by simp, ?_, hvs⟩
  simpa [intercalate_eq_joined] using Derives.disj (List.cons_ne_nil _ _) hcons

theorem Reads.conj {ts us vs : List Token} {e : Expr} {es : List Expr} (h : Reads .unary ts e us)
    (hs : ReadsTail .and .unary .and us es vs) : Reads .and ts (Expr.conj (e :: es)) vs := by
  obtain ⟨xs, rfl, hx, _⟩ := h
  obtain ⟨ps, rfl, rfl, hps, hvs⟩ := hs
  have hcons : ∀ p ∈ (xs, e) :: ps, Derives .unary p.1 p.2 := by
    simpa using ⟨hx, fun a b h => hps (a, b) h⟩
  refine ⟨xs ++ joined .and ps, by simp, ?_, hvs⟩
  simpa [intercalate_eq_joined] using Derives.conj (List.cons_ne_nil _ _) hcons

theorem Reads.not {ts us : List Token} {e : Expr} (h : Reads .unary ts e us) :
    Reads .unary (.not :: ts) (.not e) us := by
  obtain ⟨xs, rfl, hx, hus⟩ := h
  exact ⟨.not :: xs, rfl, hx.not, hus⟩

theorem Reads.ofPrimary {ts us : List Token} {e : Expr} (h : Reads .primary ts e us) :
    Reads .unary ts e us := by
  obtain ⟨xs, rfl, hx, _⟩ := h
  exact ⟨xs, rfl, hx.ofPrimary, by simp⟩

theorem Reads.group {ts us : List Token} {e : Expr} (h : Reads .or ts e (.rparen :: us)) :
    Reads .primary (.lparen :: ts) e us := by
  obtain ⟨xs, rfl, hx, _⟩ := h
  exact ⟨.lparen :: xs ++ [.rparen], by simp, hx.group, by simp⟩

/-- Follows the recursion of the parser. A tail is only read where an operand is over, so its own
end need not say that again. -/
theorem reads_of_parse :
    (∀ ts p, parseOr ts = .ok p → Reads .or ts p.expr p.rest) ∧
    (∀ ts, Level.and.Ends ts → ∀ p, parseOrTail ts = .ok p →
      ReadsTail .or .and .or ts p.exprs p.rest) ∧
    (∀ ts p, parseAnd ts = .ok p → Reads .and ts p.expr p.rest) ∧
    (∀ ts, Level.unary.Ends ts → ∀ p, parseAndTail ts = .ok p →
      ReadsTail .and .unary .and ts p.exprs p.rest) ∧
    (∀ ts p, parseUnary ts = .ok p → Reads .unary ts p.expr p.rest) ∧
    (∀ ts p, parsePrimary ts = .ok p → Reads .primary ts p.expr p.rest) := by
  apply parseOr.mutual_induct
  case case1 =>
    intro ts ihAnd ihTail p hp
    rw [parseOr] at hp
    obtain ⟨e, he, hp⟩ := bind_eq_ok.1 hp
    obtain ⟨es, hes, hp⟩ := bind_eq_ok.1 hp
    cases hp
    have h := ihAnd e he
    exact h.disj (ihTail e h.ends es hes)
  case case2 =>
    intro ts ihAnd ihTail _ p hp
    rw [parseOrTail] at hp
    obtain ⟨e, he, hp⟩ := bind_eq_ok.1 hp
    obtain ⟨es, hes, hp⟩ := bind_eq_ok.1 hp
    cases hp
    have h := ihAnd e he
    exact .cons h (ihTail e h.ends es hes)
  case case3 =>
    intro ts hts hends p hp
    rw [parseOrTail] at hp
    · cases hp
      exact .nil (Level.ends_or.2 ⟨hends, hts⟩)
    · exact hts
  case case4 =>
    intro ts ihUnary ihTail p hp
    rw [parseAnd] at hp
    obtain ⟨e, he, hp⟩ := bind_eq_ok.1 hp
    obtain ⟨es, hes, hp⟩ := bind_eq_ok.1 hp
    cases hp
    have h := ihUnary e he
    exact h.conj (ihTail e h.ends es hes)
  case case5 =>
    intro ts ihUnary ihTail _ p hp
    rw [parseAndTail] at hp
    obtain ⟨e, he, hp⟩ := bind_eq_ok.1 hp
    obtain ⟨es, hes, hp⟩ := bind_eq_ok.1 hp
    cases hp
    have h := ihUnary e he
    exact .cons h (ihTail e h.ends es hes)
  case case6 =>
    intro ts hts _ p hp
    rw [parseAndTail] at hp
    · cases hp
      exact .nil (Level.ends_and.2 hts)
    · exact hts
  case case7 =>
    intro ts ih p hp
    rw [parseUnary] at hp
    obtain ⟨e, he, hp⟩ := bind_eq_ok.1 hp
    cases hp
    exact (ih e he).not
  case case8 =>
    intro ts hts ih p hp
    rw [parseUnary] at hp
    · exact (ih p hp).ofPrimary
    · exact hts
  case case9 =>
    intro n ts p hp
    rw [parsePrimary] at hp
    cases hp
    exact ⟨[.var n], rfl, .var, by simp⟩
  case case10 =>
    intro ts ih p hp
    rw [parsePrimary] at hp
    obtain ⟨e, he, hp⟩ := bind_eq_ok.1 hp
    split at hp
    case h_1 rest hrest =>
      cases hp
      have h := ih e he
      rw [hrest] at h
      exact h.group
    case h_2 => cases hp
  case case11 =>
    intro t ts hvar hparen p hp
    rw [parsePrimary] at hp
    · cases hp
    · exact hvar
    · exact hparen
  case case12 =>
    intro p hp
    rw [parsePrimary] at hp
    cases hp

theorem Reads.of_parseAt {l : Level} {ts : List Token} {p : Parsed ts} (h : parseAt l ts = .ok p) :
    Reads l ts p.expr p.rest := by
  have ⟨hor, _, hand, _, hunary, hprimary⟩ := reads_of_parse
  cases l with
  | or => exact hor ts p h
  | and => exact hand ts p h
  | unary => exact hunary ts p h
  | primary => exact hprimary ts p h

def Answers (l : Level) (ts : List Token) (e : Expr) (rest : List Token) : Prop :=
  ∃ p, parseAt l ts = .ok p ∧ p.expr = e ∧ p.rest = rest

abbrev TailParser := (ts : List Token) → Except ParseError (ParsedTail ts)

def AnswersTail (tail : TailParser) (ts : List Token) (es : List Expr) (rest : List Token) : Prop :=
  ∃ p, tail ts = .ok p ∧ p.exprs = es ∧ p.rest = rest

section

variable {ts us vs : List Token} {e : Expr} {es : List Expr}

theorem AnswersTail.nil_or (h : Level.or.Ends ts) : AnswersTail parseOrTail ts [] ts :=
  ⟨_, parseOrTail.eq_2 ts (Level.ends_or.1 h).2, rfl, rfl⟩

theorem AnswersTail.nil_and (h : Level.and.Ends ts) : AnswersTail parseAndTail ts [] ts :=
  ⟨_, parseAndTail.eq_2 ts (Level.ends_and.1 h), rfl, rfl⟩

theorem AnswersTail.cons_or (h : Answers .and ts e us) (hs : AnswersTail parseOrTail us es vs) :
    AnswersTail parseOrTail (.or :: ts) (e :: es) vs := by
  obtain ⟨p, hp, rfl, rfl⟩ := h
  obtain ⟨q, hq, rfl, rfl⟩ := hs
  refine ⟨⟨p.expr :: q.exprs, q.rest, ?_⟩, ?_, rfl, rfl⟩
  · exact Nat.le_succ_of_le (Nat.le_trans q.noLonger (Nat.le_of_lt p.shorter))
  · rw [parseOrTail]
    exact bind_eq_ok.2 ⟨p, hp, bind_eq_ok.2 ⟨q, hq, rfl⟩⟩

theorem AnswersTail.cons_and (h : Answers .unary ts e us)
    (hs : AnswersTail parseAndTail us es vs) :
    AnswersTail parseAndTail (.and :: ts) (e :: es) vs := by
  obtain ⟨p, hp, rfl, rfl⟩ := h
  obtain ⟨q, hq, rfl, rfl⟩ := hs
  refine ⟨⟨p.expr :: q.exprs, q.rest, ?_⟩, ?_, rfl, rfl⟩
  · exact Nat.le_succ_of_le (Nat.le_trans q.noLonger (Nat.le_of_lt p.shorter))
  · rw [parseAndTail]
    exact bind_eq_ok.2 ⟨p, hp, bind_eq_ok.2 ⟨q, hq, rfl⟩⟩

theorem Answers.disj (h : Answers .and ts e us) (hs : AnswersTail parseOrTail us es vs) :
    Answers .or ts (Expr.disj (e :: es)) vs := by
  obtain ⟨p, hp, rfl, rfl⟩ := h
  obtain ⟨q, hq, rfl, rfl⟩ := hs
  refine ⟨⟨_, q.rest, Nat.lt_of_le_of_lt q.noLonger p.shorter⟩, ?_, rfl, rfl⟩
  rw [parseAt, parseOr]
  exact bind_eq_ok.2 ⟨p, hp, bind_eq_ok.2 ⟨q, hq, rfl⟩⟩

theorem Answers.conj (h : Answers .unary ts e us) (hs : AnswersTail parseAndTail us es vs) :
    Answers .and ts (Expr.conj (e :: es)) vs := by
  obtain ⟨p, hp, rfl, rfl⟩ := h
  obtain ⟨q, hq, rfl, rfl⟩ := hs
  refine ⟨⟨_, q.rest, Nat.lt_of_le_of_lt q.noLonger p.shorter⟩, ?_, rfl, rfl⟩
  rw [parseAt, parseAnd]
  exact bind_eq_ok.2 ⟨p, hp, bind_eq_ok.2 ⟨q, hq, rfl⟩⟩

theorem Answers.not (h : Answers .unary ts e us) : Answers .unary (.not :: ts) (.not e) us := by
  obtain ⟨p, hp, rfl, rfl⟩ := h
  refine ⟨⟨_, p.rest, Nat.lt_succ_of_lt p.shorter⟩, ?_, rfl, rfl⟩
  rw [parseAt, parseUnary]
  exact bind_eq_ok.2 ⟨p, hp, rfl⟩

theorem Answers.ofPrimary (h : Answers .primary ts e us) : Answers .unary ts e us := by
  obtain ⟨p, hp, rfl, rfl⟩ := h
  rw [parseAt] at hp
  refine ⟨p, ?_, rfl, rfl⟩
  rw [parseAt, parseUnary]
  · exact hp
  · intro us h
    subst h
    rw [parsePrimary] at hp
    · cases hp
    · intro n h
      cases h
    · intro h
      cases h

theorem Answers.group (h : Answers .or ts e (.rparen :: us)) :
    Answers .primary (.lparen :: ts) e us := by
  obtain ⟨p, hp, rfl, hrest⟩ := h
  have hlt : us.length < (.lparen :: ts : List Token).length := by
    have := p.shorter
    simp only [hrest, List.length_cons] at *
    omega
  refine ⟨⟨p.expr, us, hlt⟩, ?_, rfl, rfl⟩
  rw [parseAt, parsePrimary]
  refine bind_eq_ok.2 ⟨p, hp, ?_⟩
  split
  case h_1 vs hvs =>
    obtain rfl : vs = us := by simpa [hvs] using hrest
    rfl
  case h_2 hne => exact absurd hrest (hne us)

end

theorem AnswersTail.of_joined {l operand : Level} {t : Token} {tail : TailParser}
    (nil : ∀ {ts}, l.Ends ts → AnswersTail tail ts [] ts)
    (cons : ∀ {ts us vs e es}, Answers operand ts e us → AnswersTail tail us es vs →
      AnswersTail tail (t :: ts) (e :: es) vs)
    (ends : ∀ {ps us}, l.Ends us → operand.Ends (joined t ps ++ us))
    {ps : List (List Token × Expr)} {rest : List Token} (hrest : l.Ends rest)
    (h : ∀ p ∈ ps, ∀ us, operand.Ends us → Answers operand (p.1 ++ us) p.2 us) :
    AnswersTail tail (joined t ps ++ rest) (ps.map Prod.snd) rest := by
  induction ps with
  | nil => exact nil hrest
  | cons p ps ih =>
    have head := h p (by simp) (joined t ps ++ rest) (ends hrest)
    have tail := ih fun q hq => h q (by simp [hq])
    simpa [joined] using cons head tail

theorem Level.Ends.joined_or {ps : List (List Token × Expr)} {us : List Token}
    (h : Level.or.Ends us) : Level.and.Ends (joined .or ps ++ us) := by
  cases ps with
  | nil => exact (Level.ends_or.1 h).1
  | cons p ps => simp [Level.ends_and, joined]

theorem Derives.answers {l : Level} {ts : List Token} {e : Expr} (h : Derives l ts e)
    {rest : List Token} (hrest : l.Ends rest) : Answers l (ts ++ rest) e rest := by
  induction h generalizing rest with
  | @or ps hlen _ ih =>
    match ps, hlen with
    | p :: q :: ps, _ =>
      rw [List.map_cons, intercalate_eq_joined, List.append_assoc]
      have head : Answers .and (p.1 ++ (joined .or (q :: ps) ++ rest)) p.2 _ :=
        ih p (by simp) hrest.joined_or
      have tail : AnswersTail parseOrTail (joined .or (q :: ps) ++ rest) _ rest :=
        .of_joined .nil_or .cons_or .joined_or hrest fun r hr _ hus => ih r (by simp [hr]) hus
      exact head.disj tail
  | ofAnd _ ih => exact (ih (Level.ends_or.1 hrest).1).disj (.nil_or hrest)
  | @and ps hlen _ ih =>
    match ps, hlen with
    | p :: q :: ps, _ =>
      rw [List.map_cons, intercalate_eq_joined, List.append_assoc]
      have head : Answers .unary (p.1 ++ (joined .and (q :: ps) ++ rest)) p.2 _ :=
        ih p (by simp) (by simp)
      have tail : AnswersTail parseAndTail (joined .and (q :: ps) ++ rest) _ rest :=
        .of_joined .nil_and .cons_and (by simp) hrest fun r hr _ hus => ih r (by simp [hr]) hus
      exact head.conj tail
  | ofUnary _ ih => exact (ih (by simp)).conj (.nil_and hrest)
  | not _ ih => exact (ih hrest).not
  | ofPrimary _ ih => exact (ih (by simp)).ofPrimary
  | @var n =>
    refine ⟨⟨.var n, rest, Nat.lt_succ_self _⟩, ?_, rfl, rfl⟩
    exact parsePrimary.eq_1 n rest
  | group _ ih =>
    -- the phrase inside is over at the bracket that closes it
    have inner := @ih (.rparen :: rest) (by simp [Level.ends_or, Level.ends_and])
    simpa using inner.group

theorem answers_iff_derives {ts : List Token} {e : Expr} :
    Answers .or ts e [] ↔ Derives .or ts e := by
  constructor
  · rintro ⟨p, hp, rfl, hrest⟩
    -- nothing is left, so the phrase that was read is the whole list
    obtain ⟨us, hts, hus, _⟩ := Reads.of_parseAt hp
    rw [hrest, List.append_nil] at hts
    exact hts ▸ hus
  · intro h
    simpa using h.answers (Level.ends_nil .or)

theorem parseAll_eq_ok {ts : List Token} {e : Expr} :
    parseAll ts = .ok e ↔ Answers .or ts e [] := by
  constructor
  · intro h
    cases ts with
    | nil => cases h
    | cons t ts =>
      obtain ⟨p, hp, h⟩ := bind_eq_ok.1 h
      split at h
      case h_1 hrest => exact ⟨p, hp, Except.ok.inj h, hrest⟩
      case h_2 => cases h
  · rintro ⟨p, hp, rfl, hrest⟩
    cases ts with
    | nil => exact absurd p.shorter (Nat.not_lt_zero _)
    | cons t ts => exact bind_eq_ok.2 ⟨p, hp, by simp [hrest, pure, Except.pure]⟩

theorem parse_of_parseAll_error {ts : List Token} {m : ParseError} (h : parseAll ts = .error m) :
    parse ts = .error (.badExpression m.message (Token.join ts)) := by
  rw [parse, h]
  rfl

theorem parse_eq_ok_iff {ts : List Token} {e : Expr} : parse ts = .ok e ↔ parseAll ts = .ok e := by
  cases h : parseAll ts with
  | error m =>
    rw [parse_of_parseAll_error h]
    constructor <;> intro h <;> cases h
  | ok e' =>
    rw [parse, h]
    constructor <;> intro h <;> cases h <;> rfl

theorem parse_eq_ok {ts : List Token} {e : Expr} : parse ts = .ok e ↔ Derives .or ts e := by
  rw [parse_eq_ok_iff, parseAll_eq_ok, answers_iff_derives]

/-- The parser accepts the phrases of the loosest level with their trees, and any other list is
named whole in the fault. -/
theorem parse_iff_derives (ts : List Token) :
    (∀ e, parse ts = .ok e ↔ Derives .or ts e) ∧
    ((∀ e, ¬ Derives .or ts e) →
      ∃ message, parse ts = .error (.badExpression message (Token.join ts))) := by
  refine ⟨fun e => parse_eq_ok, fun h => ?_⟩
  cases hall : parseAll ts with
  | ok e => exact absurd (parse_eq_ok.1 (parse_eq_ok_iff.2 hall)) (h e)
  | error m => exact ⟨m.message, parse_of_parseAll_error hall⟩

theorem parse_iff_derives_rparen : (∀ e, ¬ Derives .or [.var "a", .rparen] e) ∧
    ∃ message, parse [.var "a", .rparen] =
      .error (.badExpression message (Token.join [.var "a", .rparen])) := by
  have h : ∀ e, ¬ Derives .or [.var "a", .rparen] e := by
    intro e he
    have := parse_eq_ok_iff.1 (((parse_iff_derives _).1 e).2 he)
    simp [parseAll, parseOr, parseOrTail, parseAnd, parseAndTail, parseUnary, parsePrimary, bind,
      Except.bind, pure, Except.pure, throw, throwThe, MonadExceptOf.throw] at this
  exact ⟨h, (parse_iff_derives _).2 h⟩

end Targeting.Expr
