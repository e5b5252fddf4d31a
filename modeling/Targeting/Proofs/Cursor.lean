import Targeting.Proofs.Brackets

/-!
The parser as routines that share one cursor on the tokens. Main statement: from every position each
of them comes to an end, with the outcome of the parser, and takes the cursor forward only, also where
it fails. What it reads is as long as it can be and has all its brackets closed.
-/

namespace Targeting.Expr

inductive Chain
  | or : Chain
  | and : Chain

namespace Chain

def level : Chain → Level
  | .or => .or
  | .and => .and

def operand : Chain → Level
  | .or => .and
  | .and => .unary

def sign : Chain → Token
  | .or => .or
  | .and => .and

def node : Chain → List Expr → Expr
  | .or => disj
  | .and => conj

def tail : Chain → TailParser
  | .or => parseOrTail
  | .and => parseAndTail

end Chain

inductive Routine
  | phrase : Level → Routine
  | more : Chain → List Expr → Routine

inductive Command
  | answer : Except ParseError Expr → Command
  | eat : Token → (eaten missing : Command) → Command
  | advance : (Option Token → Command) → Command
  | call : Routine → (Expr → Command) → Command

def Command.read (e : Expr) : Command := .answer (.ok e)

def Command.chain (c : Chain) : Command :=
  .call (.phrase c.operand) fun e => .call (.more c [e]) .read

def Command.operand : Option Token → Command
  | some (.var n) => .read (.var n)
  | some .lparen => .call (.phrase .or) fun e => .eat .rparen (.read e) (.answer (.error .unclosed))
  | some t => .answer (.error (.unexpected t))
  | none => .answer (.error .unfinished)

def Routine.body : Routine → Command
  | .phrase .or => .chain .or
  | .phrase .and => .chain .and
  | .phrase .unary =>
    .eat .not (.call (.phrase .unary) fun e => .read e.not) (.call (.phrase .primary) .read)
  | .phrase .primary => .advance .operand
  | .more c es =>
    .eat c.sign (.call (.phrase c.operand) fun e => .call (.more c (es ++ [e])) .read)
      (.read (c.node es))

/-- From position `p` the command comes to an end at `q`, with the outcome `x`, and takes the cursor
to the positions `ps` on the way. A command that goes on for ever has no derivation. -/
inductive Runs (ts : List Token) :
    Command → Nat → List Nat → Except ParseError Expr → Nat → Prop
  | answer : Runs ts (.answer x) p [] x p
  | eaten : ts[p]? = some t → Runs ts a (p + 1) ps x q → Runs ts (.eat t a b) p ((p + 1) :: ps) x q
  | missing : ts[p]? ≠ some t → Runs ts b p ps x q → Runs ts (.eat t a b) p ps x q
  | advance : ts[p]? = some t → Runs ts (k (some t)) (p + 1) ps x q →
      Runs ts (.advance k) p ((p + 1) :: ps) x q
  | finished : ts[p]? = none → Runs ts (k none) p ps x q → Runs ts (.advance k) p ps x q
  | call : Runs ts r.body p ps (.ok e) p' → Runs ts (k e) p' qs x q →
      Runs ts (.call r k) p (ps ++ qs) x q
  | fail : Runs ts r.body p ps (.error m) q → Runs ts (.call r k) p ps (.error m) q

inductive Halts (ts : List Token) (a : Command) (p : Nat) :
    Except ParseError (Expr × List Token) → Prop
  | ok : Runs ts a p ps (.ok e) q → Halts ts a p (.ok (e, ts.drop q))
  | error : Runs ts a p ps (.error m) q → Halts ts a p (.error m)

variable {ts us : List Token} {a b : Command} {p q : Nat} {ps : List Nat}
  {x : Except ParseError Expr}

structure Advances (ts : List Token) (p : Nat) (ps : List Nat) (q : Nat) : Prop where
  forward : p ≤ q
  inside : q ≤ max p ts.length
  stepwise : ps = List.range' (p + 1) (q - p)

theorem Advances.refl (ts : List Token) (p : Nat) : Advances ts p [] p :=
  ⟨Nat.le_refl p, Nat.le_max_left .., by simp⟩

theorem Advances.trans {qs : List Nat} {r : Nat} (h : Advances ts p ps q)
    (h' : Advances ts q qs r) : Advances ts p (ps ++ qs) r := by
  have := h.forward
  have := h'.forward
  have := h.inside
  have := h'.inside
  refine ⟨by omega, by omega, ?_⟩
  have hlen : r - p = (q - p) + (r - q) := by omega
  have hmid : q + 1 = p + 1 + (q - p) := by omega
  rw [h.stepwise, h'.stepwise, hlen, hmid, List.range'_append_1]

theorem Advances.step {t : Token} (h : ts[p]? = some t) : Advances ts p [p + 1] (p + 1) := by
  obtain ⟨hlt, -⟩ := List.getElem?_eq_some_iff.1 h
  exact ⟨by omega, by omega, by simp⟩

theorem Runs.advances (h : Runs ts a p ps x q) : Advances ts p ps q := by
  induction h with
  | answer => exact .refl ts _
  | eaten ht _ ih => exact (Advances.step ht).trans ih
  | missing _ _ ih => exact ih
  | advance ht _ ih => exact (Advances.step ht).trans ih
  | finished _ _ ih => exact ih
  | call _ _ ih ih' => exact ih.trans ih'
  | fail _ ih => exact ih

theorem Runs.deterministic {ps' : List Nat} {x' : Except ParseError Expr} {q' : Nat}
    (h : Runs ts a p ps x q) (h' : Runs ts a p ps' x' q') : x = x' ∧ q = q' := by
  induction h generalizing ps' x' q' with
  | answer =>
    cases h'
    exact ⟨rfl, rfl⟩
  | eaten ht _ ih =>
    cases h' with
    | eaten _ h' => exact ih h'
    | missing ht' _ => exact absurd ht ht'
  | missing ht _ ih =>
    cases h' with
    | eaten ht' _ => exact absurd ht' ht
    | missing _ h' => exact ih h'
  | advance ht _ ih =>
    cases h' with
    | advance ht' h' =>
      cases ht.symm.trans ht'
      exact ih h'
    | finished ht' _ => cases ht.symm.trans ht'
  | finished ht _ ih =>
    cases h' with
    | advance ht' _ => cases ht.symm.trans ht'
    | finished _ h' => exact ih h'
  | call _ _ ih ih' =>
    cases h' with
    | call h' h'' =>
      obtain ⟨he, rfl⟩ := ih h'
      cases he
      exact ih' h''
    | fail h' => cases (ih h').1
  | fail _ ih =>
    cases h' with
    | call h' _ => cases (ih h').1
    | fail h' =>
      obtain ⟨hm, rfl⟩ := ih h'
      cases hm
      exact ⟨rfl, rfl⟩

def readAt (l : Level) (ts : List Token) : Except ParseError (Expr × List Token) := do
  let e ← parseAt l ts
  return (e.expr, e.rest)

def Chain.readTail (c : Chain) (ts : List Token) : Except ParseError (List Expr × List Token) := do
  let es ← c.tail ts
  return (es.exprs, es.rest)

theorem readAt_chain (c : Chain) (us : List Token) : readAt c.level us = do
    let e ← readAt c.operand us
    let es ← c.readTail e.2
    return (c.node (e.1 :: es.1), es.2) := by
  simp only [readAt, Chain.readTail, bind_assoc, pure_bind]
  cases c with
  | or =>
    simp only [Chain.level, parseAt, parseOr, bind_assoc, pure_bind]
    rfl
  | and =>
    simp only [Chain.level, parseAt, parseAnd, bind_assoc, pure_bind]
    rfl

theorem readTail_sign (c : Chain) (us : List Token) : c.readTail (c.sign :: us) = do
    let e ← readAt c.operand us
    let es ← c.readTail e.2
    return (e.1 :: es.1, es.2) := by
  simp only [readAt, Chain.readTail, bind_assoc, pure_bind]
  cases c with
  | or =>
    simp only [Chain.tail, Chain.sign, parseOrTail, bind_assoc, pure_bind]
    rfl
  | and =>
    simp only [Chain.tail, Chain.sign, parseAndTail, bind_assoc, pure_bind]
    rfl

theorem readTail_of_ne {c : Chain} (h : ∀ vs, us ≠ c.sign :: vs) : c.readTail us = .ok ([], us) := by
  cases c with
  | or =>
    rw [Chain.readTail, Chain.tail, parseOrTail.eq_2 us h]
    rfl
  | and =>
    rw [Chain.readTail, Chain.tail, parseAndTail.eq_2 us h]
    rfl

theorem readAt_not (us : List Token) : readAt .unary (.not :: us) = do
    let e ← readAt .unary us
    return (.not e.1, e.2) := by
  simp only [readAt, parseAt, parseUnary, bind_assoc, pure_bind]

theorem readAt_unary_of_ne (h : ∀ vs, us ≠ .not :: vs) : readAt .unary us = readAt .primary us := by
  rw [readAt, readAt, parseAt, parseAt, parseUnary.eq_2 us h]

def closeGroup : Expr × List Token → Except ParseError (Expr × List Token)
  | (e, .rparen :: us) => .ok (e, us)
  | (_, _) => .error .unclosed

theorem readAt_lparen (us : List Token) :
    readAt .primary (.lparen :: us) = readAt .or us >>= closeGroup := by
  simp only [readAt, parseAt, parsePrimary, bind_assoc, pure_bind]
  congr 1
  funext e
  split
  case h_1 vs hrest =>
    have hclose : closeGroup (e.expr, e.rest) = .ok (e.expr, vs) := by rw [hrest, closeGroup]
    rw [hclose]
    rfl
  case h_2 hrest =>
    rw [closeGroup]
    · rfl
    · exact hrest

theorem readAt_var (n : String) (us : List Token) :
    readAt .primary (.var n :: us) = .ok (.var n, us) := by
  rw [readAt, parseAt, parsePrimary]
  rfl

theorem readAt_unexpected {t : Token} (hvar : ∀ n, t ≠ .var n) (hparen : t ≠ .lparen)
    (us : List Token) : readAt .primary (t :: us) = .error (.unexpected t) := by
  rw [readAt, parseAt, parsePrimary]
  · rfl
  · exact hvar
  · exact hparen

theorem readAt_nil : readAt .primary [] = .error .unfinished := by
  rw [readAt, parseAt, parsePrimary]
  rfl

section

variable {t : Token} {r : Routine} {k : Expr → Command} {y : Except ParseError (Expr × List Token)}

theorem Halts.imp (h : Halts ts a p y)
    (hab : ∀ ps x q', Runs ts a p ps x q' → ∃ ps', Runs ts b q ps' x q') : Halts ts b q y := by
  cases h with
  | ok h =>
    obtain ⟨_, h⟩ := hab _ _ _ h
    exact .ok h
  | error h =>
    obtain ⟨_, h⟩ := hab _ _ _ h
    exact .error h

theorem Halts.read {e : Expr} (hp : ts.drop p = us) : Halts ts (.read e) p (.ok (e, us)) :=
  hp ▸ .ok .answer

theorem of_drop (hp : ts.drop p = t :: us) : ts[p]? = some t ∧ ts.drop (p + 1) = us := by
  rw [← List.head?_drop, ← List.tail_drop, hp]
  exact ⟨rfl, rfl⟩

theorem Halts.eaten (hp : ts.drop p = t :: us) (h : ts.drop (p + 1) = us → Halts ts a (p + 1) y) :
    Halts ts (.eat t a b) p y :=
  (h (of_drop hp).2).imp fun _ _ _ hrun => ⟨_, .eaten (of_drop hp).1 hrun⟩

theorem Halts.missing (hp : ∀ us, ts.drop p ≠ t :: us) (h : Halts ts b p y) :
    Halts ts (.eat t a b) p y := by
  have ht : ts[p]? ≠ some t := by
    rw [← List.head?_drop]
    intro ht
    obtain ⟨us, hus⟩ := List.head?_eq_some_iff.1 ht
    exact hp us hus
  exact h.imp fun _ _ _ hrun => ⟨_, .missing ht hrun⟩

theorem Halts.advance {k : Option Token → Command} (hp : ts.drop p = t :: us)
    (h : ts.drop (p + 1) = us → Halts ts (k (some t)) (p + 1) y) : Halts ts (.advance k) p y :=
  (h (of_drop hp).2).imp fun _ _ _ hrun => ⟨_, .advance (of_drop hp).1 hrun⟩

theorem Halts.finished {k : Option Token → Command} (hp : ts.drop p = [])
    (h : Halts ts (k none) p y) : Halts ts (.advance k) p y := by
  have ht : ts[p]? = none := by rw [← List.head?_drop, hp, List.head?_nil]
  exact h.imp fun _ _ _ hrun => ⟨_, .finished ht hrun⟩

theorem Halts.call {f : Expr × List Token → Except ParseError (Expr × List Token)}
    (h : Halts ts r.body p y)
    (hk : ∀ e q, y = .ok (e, ts.drop q) → Halts ts (k e) q (f (e, ts.drop q))) :
    Halts ts (.call r k) p (y >>= f) := by
  cases h with
  | error h => exact .error (.fail h)
  | ok h => exact (hk _ _ rfl).imp fun _ _ _ hrun => ⟨_, .call h hrun⟩

theorem Halts.last (h : Halts ts r.body p y) : Halts ts (.call r .read) p y := by
  have := h.call (k := .read) (f := pure) fun e q _ => .read rfl
  rwa [bind_pure] at this

end

def HaltsAt (ts : List Token) (l : Level) (us : List Token) : Prop :=
  ∀ p, ts.drop p = us → Halts ts (Routine.phrase l).body p (readAt l us)

def HaltsTail (ts : List Token) (c : Chain) (us : List Token) : Prop :=
  ∀ p es, ts.drop p = us → Halts ts (Routine.more c es).body p do
    let fs ← c.readTail us
    return (c.node (es ++ fs.1), fs.2)

theorem HaltsTail.behind {c : Chain} {l : Level} {e : Expr} {vs : List Token}
    (tail : ∀ e : Parsed us, HaltsTail ts c e.rest) (h : readAt l us = .ok (e, vs)) :
    HaltsTail ts c vs := by
  obtain ⟨e', -, h⟩ := bind_eq_ok.1 h
  cases h
  exact tail e'

theorem HaltsAt.chain {c : Chain} (operand : HaltsAt ts c.operand us)
    (tail : ∀ e : Parsed us, HaltsTail ts c e.rest) : HaltsAt ts c.level us := by
  intro p hp
  have hbody : (Routine.phrase c.level).body = .chain c := by cases c <;> rfl
  rw [hbody, readAt_chain]
  refine (operand p hp).call fun e q he => ?_
  exact (HaltsTail.behind tail he q [e] rfl).last

theorem HaltsTail.sign {c : Chain} (operand : HaltsAt ts c.operand us)
    (tail : ∀ e : Parsed us, HaltsTail ts c e.rest) : HaltsTail ts c (c.sign :: us) := by
  intro p es hp
  rw [readTail_sign, bind_assoc]
  refine .eaten hp fun hp => (operand _ hp).call fun e q he => ?_
  -- the operand joins those before it, and the loop goes on behind it
  simpa [bind_assoc] using (HaltsTail.behind tail he q (es ++ [e]) rfl).last

theorem HaltsTail.of_ne {c : Chain} (h : ∀ vs, us ≠ c.sign :: vs) : HaltsTail ts c us := by
  intro p es hp
  subst hp
  have hread : Halts ts (.read (c.node es)) p (.ok (c.node es, ts.drop p)) := .read rfl
  rw [readTail_of_ne h]
  change Halts ts _ p (.ok (c.node (es ++ []), ts.drop p))
  rw [List.append_nil]
  exact .missing h hread

theorem HaltsAt.not (h : HaltsAt ts .unary us) : HaltsAt ts .unary (.not :: us) := by
  intro p hp
  rw [readAt_not]
  exact .eaten hp fun hp => (h _ hp).call fun e q _ => .read rfl

theorem HaltsAt.ofPrimary (hus : ∀ vs, us ≠ .not :: vs) (h : HaltsAt ts .primary us) :
    HaltsAt ts .unary us := by
  intro p hp
  rw [readAt_unary_of_ne hus]
  exact .missing (hp ▸ hus) (h p hp).last

theorem HaltsAt.group (h : HaltsAt ts .or us) : HaltsAt ts .primary (.lparen :: us) := by
  intro p hp
  rw [readAt_lparen]
  refine .advance hp fun hp => (h _ hp).call fun e q _ => ?_
  by_cases hclose : ∃ vs, ts.drop q = .rparen :: vs
  · obtain ⟨vs, hvs⟩ := hclose
    rw [hvs, closeGroup]
    exact .eaten hvs fun hq => .read hq
  · rw [not_exists] at hclose
    rw [closeGroup]
    · exact .missing hclose (.error .answer)
    · exact hclose

theorem haltsAt_all (ts : List Token) : (∀ us, HaltsAt ts .or us) ∧ (∀ us, HaltsTail ts .or us) ∧
    (∀ us, HaltsAt ts .and us) ∧ (∀ us, HaltsTail ts .and us) ∧ (∀ us, HaltsAt ts .unary us) ∧
    ∀ us, HaltsAt ts .primary us := by
  -- a routine has no measure of its own, so the induction is that of the parser
  apply parseOr.mutual_induct
  case case1 => exact fun us operand tail => .chain (c := .or) operand tail
  case case2 => exact fun us operand tail => .sign (c := .or) operand tail
  case case3 => exact fun us hus => .of_ne (c := .or) hus
  case case4 => exact fun us operand tail => .chain (c := .and) operand tail
  case case5 => exact fun us operand tail => .sign (c := .and) operand tail
  case case6 => exact fun us hus => .of_ne (c := .and) hus
  case case7 => exact fun us h => h.not
  case case8 => exact fun us hus h => h.ofPrimary hus
  case case9 =>
    intro n us p hp
    rw [readAt_var]
    exact .advance hp fun hp => .read hp
  case case10 => exact fun us h => h.group
  case case11 =>
    intro t us hvar hparen p hp
    rw [readAt_unexpected hvar hparen]
    refine .advance hp fun _ => ?_
    rw [Command.operand]
    · exact .error .answer
    · exact hvar
    · exact hparen
  case case12 =>
    intro p hp
    rw [readAt_nil]
    exact .finished hp (.error .answer)

theorem haltsAt (ts : List Token) (l : Level) (us : List Token) : HaltsAt ts l us := by
  have ⟨hor, _, hand, _, hunary, hprimary⟩ := haltsAt_all ts
  cases l with
  | or => exact hor us
  | and => exact hand us
  | unary => exact hunary us
  | primary => exact hprimary us

/-- Between `p` and `q` there is a phrase with that tree, which `q` does not carry on. -/
structure Consumes (ts : List Token) (l : Level) (p : Nat) (e : Expr) (q : Nat) : Prop where
  progress : p < q
  phrase : Derives l ((ts.drop p).take (q - p)) e
  nested : Nested (((ts.drop p).take (q - p)).map Token.rise)
  munch : l.Ends (ts.drop q)

theorem consumes_of_parseAt {l : Level} {e : Parsed (ts.drop p)} (h : parseAt l (ts.drop p) = .ok e)
    (hpq : p ≤ q) (hrest : e.rest = ts.drop q) : Consumes ts l p e.expr q := by
  obtain ⟨us, hus, hderives, hends⟩ := Reads.of_parseAt h
  rw [hrest] at hus hends
  have hdrop : (ts.drop p).drop (q - p) = ts.drop q := by
    rw [List.drop_drop, Nat.add_sub_cancel' hpq]
  have hsplit : (ts.drop p).take (q - p) ++ ts.drop q = us ++ ts.drop q := by
    rw [← hus, ← hdrop, List.take_append_drop]
  have htake : (ts.drop p).take (q - p) = us := List.append_cancel_right hsplit
  have hprogress : p < q := by
    have := e.shorter
    rw [hrest, List.length_drop, List.length_drop] at this
    omega
  exact ⟨hprogress, htake ▸ hderives, htake ▸ hderives.nested, hends⟩

structure Course (ts : List Token) (l : Level) (p : Nat) (ps : List Nat)
    (x : Except ParseError Expr) (q : Nat) : Prop where
  runs : Runs ts (Routine.phrase l).body p ps x q
  only : ∀ ps' x' q', Runs ts (Routine.phrase l).body p ps' x' q' → ps' = ps ∧ x' = x ∧ q' = q
  advances : Advances ts p ps q
  outcome : Parsed.expr <$> parseAt l (ts.drop p) = x
  rest : ∀ e, parseAt l (ts.drop p) = .ok e → e.rest = ts.drop q
  consumes : ∀ e, x = .ok e → Consumes ts l p e q

theorem Runs.course {l : Level} (h : Runs ts (Routine.phrase l).body p ps x q)
    (outcome : Parsed.expr <$> parseAt l (ts.drop p) = x)
    (rest : ∀ e, parseAt l (ts.drop p) = .ok e → e.rest = ts.drop q) : Course ts l p ps x q where
  runs := h
  only ps' x' q' h' := by
    obtain ⟨rfl, rfl⟩ := h'.deterministic h
    exact ⟨h'.advances.stepwise.trans h.advances.stepwise.symm, rfl, rfl⟩
  advances := h.advances
  outcome := outcome
  rest := rest
  consumes e he := by
    subst he
    obtain ⟨e', he', rfl⟩ := map_eq_ok.1 outcome
    exact consumes_of_parseAt he' h.advances.forward (rest e' he')

/-- Each routine of the parser has a course from each position, be there a fault or not. -/
theorem exists_course (ts : List Token) (l : Level) (p : Nat) : ∃ ps x q, Course ts l p ps x q := by
  have h := haltsAt ts l (ts.drop p) p rfl
  cases hparse : parseAt l (ts.drop p) with
  | error m =>
    have hread : readAt l (ts.drop p) = .error m := by rw [readAt, hparse]; rfl
    rw [hread] at h
    cases h with
    | error hrun => exact ⟨_, _, _, hrun.course (by rw [hparse]; rfl) (by simp [hparse])⟩
  | ok e =>
    have hread : readAt l (ts.drop p) = .ok (e.expr, e.rest) := by rw [readAt, hparse]; rfl
    rw [hread] at h
    generalize hrest : e.rest = vs at h
    cases h with
    | ok hrun =>
      refine ⟨_, _, _, hrun.course (by rw [hparse]; rfl) fun e' he' => ?_⟩
      cases hparse.symm.trans he'
      exact hrest

end Targeting.Expr
