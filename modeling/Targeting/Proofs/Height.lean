import Targeting.Proofs.Brackets

namespace Targeting

namespace Expr

mutual

def height : Expr → Nat
  | .var _ => 1
  | .not e => e.height + 1
  | .and es => heightAll es + 1
  | .or es => heightAll es + 1

def heightAll : List Expr → Nat
  | [] => 0
  | e :: es => max e.height (heightAll es)

end

theorem heightAll_le_iff {es : List Expr} {n : Nat} : heightAll es ≤ n ↔ ∀ e ∈ es, e.height ≤ n := by
  induction es with
  | nil => simp [heightAll]
  | cons e es ih => rw [heightAll, Nat.max_le, ih, List.forall_mem_cons]

end Expr

def highest (rs : List Int) : Int := -lowest (rs.map (-·))

theorem highest_nonneg (rs : List Int) : 0 ≤ highest rs := by
  have := lowest_le_zero (rs.map (-·))
  rw [highest]
  omega

theorem highest_cons (r : Int) (rs : List Int) : highest (r :: rs) = max 0 (r + highest rs) := by
  rw [highest, highest, List.map_cons, lowest]
  omega

theorem highest_append (rs ss : List Int) :
    highest (rs ++ ss) = max (highest rs) (rs.sum + highest ss) := by
  have hsum : (rs.map (-·)).sum = -rs.sum := (List.sum_neg rs).symm
  rw [highest, highest, highest, List.map_append, lowest_append, hsum]
  omega

namespace Token

def nesting (ts : List Token) : Nat := (highest (ts.map rise)).toNat

theorem nesting_cons_of_rise {t : Token} (ht : t.rise = 0) (ts : List Token) :
    nesting (t :: ts) = nesting ts := by
  have := highest_nonneg (ts.map rise)
  rw [nesting, nesting, List.map_cons, highest_cons, ht]
  omega

theorem nesting_lt_group (ts : List Token) : nesting ts < nesting (.lparen :: ts ++ [.rparen]) := by
  have := highest_nonneg (ts.map rise)
  rw [nesting, nesting, List.cons_append, List.map_cons, List.map_append, highest_cons, highest_append,
    rise]
  omega

theorem nesting_le_append {pre : List Token} (hpre : Nested (pre.map rise)) (ts post : List Token) :
    nesting ts ≤ nesting (pre ++ ts ++ post) := by
  rw [nesting, nesting, List.map_append, List.map_append, highest_append, highest_append, hpre.sum]
  omega

def leadingNots (ts : List Token) : Nat := (ts.takeWhile (· = .not)).length

def longestNots : List Token → Nat
  | [] => 0
  | t :: ts => max (leadingNots (t :: ts)) (longestNots ts)

@[simp] theorem leadingNots_not (ts : List Token) :
    leadingNots (.not :: ts) = leadingNots ts + 1 := by
  simp [leadingNots]

@[simp] theorem leadingNots_of_ne {t : Token} (ht : t ≠ .not) (ts : List Token) :
    leadingNots (t :: ts) = 0 := by
  simp [leadingNots, ht]

theorem longestNots_of_ne {t : Token} (ht : t ≠ .not) (ts : List Token) :
    longestNots (t :: ts) = longestNots ts := by
  rw [longestNots, leadingNots_of_ne ht, Nat.zero_max]

theorem leadingNots_le (ts : List Token) : leadingNots ts ≤ longestNots ts := by
  cases ts with
  | nil => exact Nat.le_refl 0
  | cons t ts => exact Nat.le_max_left ..

theorem le_leadingNots_iff {n : Nat} {ts : List Token} :
    n ≤ leadingNots ts ↔ List.replicate n .not <+: ts := by
  induction ts generalizing n with
  | nil => simp [leadingNots]
  | cons t ts ih =>
    cases n with
    | zero => simp
    | succ n =>
      rw [List.replicate_succ, List.cons_prefix_cons, ← ih]
      by_cases ht : t = .not
      · subst ht
        simp
      · simp [ht, Ne.symm ht]

theorem le_longestNots_iff {n : Nat} {ts : List Token} :
    n ≤ longestNots ts ↔ List.replicate n .not <:+: ts := by
  induction ts with
  | nil => simp [longestNots]
  | cons t ts ih => rw [longestNots, le_max_iff, le_leadingNots_iff, ih, List.infix_cons_iff]

theorem longestNots_mono {ts us : List Token} (h : ts <:+: us) :
    longestNots ts ≤ longestNots us :=
  le_longestNots_iff.2 ((le_longestNots_iff.1 (Nat.le_refl _)).trans h)

end Token

namespace Expr

open Token

variable {r : Nat} {ts : List Token} {e : Expr}

theorem exists_around {t : Token} (ht : t.rise = 0) {ps : List (List Token × Expr)}
    (hps : ∀ p ∈ ps, Nested (p.1.map rise)) {p : List Token × Expr} (hp : p ∈ ps) :
    ∃ pre post, [t].intercalate (ps.map Prod.fst) = pre ++ p.1 ++ post ∧ Nested (pre.map rise) := by
  induction ps with
  | nil => cases hp
  | cons q ps ih =>
    rcases List.mem_cons.1 hp with rfl | hmem
    · exact ⟨[], joined t ps, by rw [List.map_cons, intercalate_eq_joined]; rfl, nested_nil⟩
    · obtain ⟨hq, hps⟩ := List.forall_mem_cons.1 hps
      obtain ⟨pre, post, heq, hpre⟩ := ih hps hmem
      cases ps with
      | nil => cases hmem
      | cons q' ps =>
        refine ⟨q.1 ++ t :: pre, post, ?_, ?_⟩
        · rw [List.map_cons, List.map_cons, List.intercalate_cons_cons, ← List.map_cons, heq]
          simp
        · rw [List.map_append, List.map_cons, ht]
          exact hq.append (nested_zero.append hpre)

/-- How high the tree of a phrase may be, where no run of `not` is longer than `r`. -/
def Level.room (r : Nat) (ts : List Token) : Level → Nat
  | .or => (nesting ts + 1) * (r + 2) + 1
  | .and => (nesting ts + 1) * (r + 2)
  | .unary => nesting ts * (r + 2) + leadingNots ts + 1
  | .primary => nesting ts * (r + 2) + 1

theorem heightAll_le_of_operands {t : Token} (ht : t.rise = 0) {l : Level}
    {ps : List (List Token × Expr)} (hps : ∀ p ∈ ps, Derives l p.1 p.2) {n : Nat → Nat}
    (hn : Monotone n) (hr : longestNots ([t].intercalate (ps.map Prod.fst)) ≤ r)
    (h : ∀ p ∈ ps, longestNots p.1 ≤ r → p.2.height ≤ n (nesting p.1)) :
    heightAll (ps.map Prod.snd) ≤ n (nesting ([t].intercalate (ps.map Prod.fst))) := by
  refine heightAll_le_iff.2 (List.forall_mem_map.2 fun p hp => ?_)
  obtain ⟨pre, post, heq, hpre⟩ := exists_around ht (fun q hq => (hps q hq).nested) hp
  have hinfix : p.1 <:+: [t].intercalate (ps.map Prod.fst) := ⟨pre, post, heq.symm⟩
  calc p.2.height ≤ n (nesting p.1) := h p hp ((longestNots_mono hinfix).trans hr)
    _ ≤ n (nesting (pre ++ p.1 ++ post)) := hn (nesting_le_append hpre p.1 post)
    _ = n (nesting ([t].intercalate (ps.map Prod.fst))) := by rw [heq]

theorem Derives.height_le {l : Level} (h : Derives l ts e) (hr : longestNots ts ≤ r) :
    e.height ≤ l.room r ts := by
  induction h with
  | or _ hps ih =>
    have hmono : Monotone fun d => (d + 1) * (r + 2) := fun _ _ hle =>
      Nat.mul_le_mul_right _ (Nat.succ_le_succ hle)
    exact Nat.succ_le_succ (heightAll_le_of_operands rfl hps hmono hr ih)
  | ofAnd _ ih => exact Nat.le_succ_of_le (ih hr)
  | @and ps _ hps ih =>
    have hmono : Monotone fun d => d * (r + 2) + (r + 1) := fun _ _ hle =>
      Nat.add_le_add_right (Nat.mul_le_mul_right _ hle) _
    have hoperands := heightAll_le_of_operands rfl hps hmono hr fun p hp hnots =>
      (ih p hp hnots).trans (by have := leadingNots_le p.1; simp only [Level.room]; omega)
    simp only [Level.room, height, Nat.succ_mul]
    omega
  | @ofUnary ts e _ ih =>
    have := (leadingNots_le ts).trans hr
    calc e.height ≤ nesting ts * (r + 2) + leadingNots ts + 1 := ih hr
      _ ≤ nesting ts * (r + 2) + (r + 2) := by omega
      _ = (nesting ts + 1) * (r + 2) := (Nat.succ_mul ..).symm
  | @not ts e _ ih =>
    have hrest := (longestNots_mono (List.suffix_cons _ ts).isInfix).trans hr
    calc e.height + 1 ≤ nesting ts * (r + 2) + leadingNots ts + 1 + 1 := Nat.succ_le_succ (ih hrest)
      _ = Level.unary.room r (.not :: ts) := by
        rw [Level.room, nesting_cons_of_rise (t := .not) rfl, leadingNots_not]
        omega
  | ofPrimary _ ih => exact (ih hr).trans (by simp only [Level.room]; omega)
  | var => exact Nat.le_add_left ..
  | @group ts e _ ih =>
    have hinside : longestNots ts ≤ longestNots (.lparen :: ts ++ [.rparen]) :=
      longestNots_mono ⟨[.lparen], [.rparen], rfl⟩
    calc e.height ≤ (nesting ts + 1) * (r + 2) + 1 := ih (hinside.trans hr)
      _ ≤ _ := Nat.succ_le_succ (Nat.mul_le_mul_right _ (nesting_lt_group ts))

end Expr

def Operator.Named (o : Operator) : Prop := o ∈ [.and, .or, .andNot]

instance (o : Operator) : Decidable o.Named := inferInstanceAs (Decidable (o ∈ _))

open Token

structure Token.FewNots (ts : List Token) : Prop where
  leading : leadingNots ts = 0
  longest : longestNots ts ≤ 1

theorem Token.FewNots.cons {ts : List Token} (h : FewNots ts) (t : Token) (ht : t ≠ .not) :
    FewNots (t :: ts) :=
  ⟨leadingNots_of_ne ht ts, longestNots_of_ne ht ts ▸ h.longest⟩

theorem Operator.Named.fewNots {o : Operator} (ho : o.Named) {ts : List Token} (h : FewNots ts) :
    FewNots (o.tokens ++ ts) := by
  simp only [Named, List.mem_cons, List.not_mem_nil, or_false] at ho
  rcases ho with rfl | rfl | rfl
  · exact h.cons .and nofun
  · exact h.cons .or nofun
  · refine ⟨leadingNots_of_ne (t := .and) nofun _, ?_⟩
    simp [tokens, longestNots_of_ne, longestNots, h.leading, h.longest]

namespace Assembly

theorem fewNots_termTokens (d : Descriptor) (name : String) {us : List Token} (h : FewNots us) :
    FewNots (termTokens true d name ++ us) := by
  have closed : FewNots ((if d.closes then [.rparen] else []) ++ us) := by
    split
    · exact h.cons .rparen nofun
    · exact h
  have opened : FewNots ((if d.opens then [.lparen] else []) ++
      .var name :: ((if d.closes then [.rparen] else []) ++ us)) := by
    split
    · exact (closed.cons (.var name) nofun).cons .lparen nofun
    · exact closed.cons (.var name) nofun
  simpa [termTokens] using opened

theorem Spells.fewNots {b : Table Bool} {ts : List Term} {us : List Token}
    (h : Spells b false ts us) (named : ∀ t ∈ ts, t.1.joint.Named) : FewNots us := by
  induction ts generalizing us with
  | nil =>
    cases h
    exact ⟨rfl, Nat.zero_le 1⟩
  | cons t ts ih =>
    obtain ⟨ht, hts⟩ := List.forall_mem_cons.1 named
    cases h with
    | @cons n _ _ us _ _ h =>
      rw [termTokens_false, List.append_assoc]
      exact ht.fewNots (fewNots_termTokens t.1 n (ih h hts))

theorem longestNots_ofTerms {ts : List Term} (named : ∀ t ∈ ts.tail, t.1.joint.Named) :
    longestNots (ofTerms ts).tokens ≤ 1 := by
  have h := spells_ofTerms ts
  generalize (ofTerms ts).tokens = us at h
  cases h with
  | nil => exact Nat.zero_le 1
  | @cons n t _ us _ _ h => exact (fewNots_termTokens t.1 n (h.fewNots named)).longest

/-- A tree is as high as its brackets are deep, each level adding at most one node for each operator
and those of a run of `not`. How many operands there are makes no difference. -/
theorem height_of_parse :
    (∀ ts e, Expr.parse ts = .ok e → e.height ≤ (nesting ts + 1) * (longestNots ts + 2) + 1) ∧
    ∀ (ts : List Term) (a : Assembled), (∀ t ∈ ts.tail, t.1.joint.Named) →
      (ofTerms ts).finish = .ok a → a.expr.height ≤ 3 * (nesting (ofTerms ts).tokens + 1) + 1 := by
  have parsed (ts : List Token) (e : Expr) (h : Expr.parse ts = .ok e) :
      e.height ≤ (nesting ts + 1) * (longestNots ts + 2) + 1 :=
    (Expr.parse_eq_ok.1 h).height_le (Nat.le_refl _)
  refine ⟨parsed, fun ts a named h => ?_⟩
  obtain ⟨e, he, rfl⟩ := eq_of_finish h
  have hnots := longestNots_ofTerms named
  calc e.height ≤ (nesting (ofTerms ts).tokens + 1) * (longestNots (ofTerms ts).tokens + 2) + 1 :=
        parsed _ e he
    _ ≤ (nesting (ofTerms ts).tokens + 1) * (1 + 2) + 1 :=
        Nat.succ_le_succ (Nat.mul_le_mul_left _ (Nat.add_le_add_right hnots 2))
    _ = 3 * (nesting (ofTerms ts).tokens + 1) + 1 := by rw [Nat.mul_comm]

theorem height_of_parse_full :
    let ts : List Term := [(.ofType "a", true), ((Descriptor.ofType "b").withOperator .or, true),
      (((Descriptor.ofType "c").withOperator .andNot).opened, true),
      ((Descriptor.ofType "d").withOperator .or, true),
      (((Descriptor.ofType "e").withOperator .andNot).closed, true)]
    (∀ t ∈ ts.tail, t.1.joint.Named) ∧ ∃ a, (ofTerms ts).finish = .ok a ∧
      Expr.parse (ofTerms ts).tokens = .ok a.expr ∧
      nesting (ofTerms ts).tokens = 1 ∧ longestNots (ofTerms ts).tokens = 1 ∧
      a.expr.height ≤ 3 * (nesting (ofTerms ts).tokens + 1) + 1 ∧
      a.expr.height = (nesting (ofTerms ts).tokens + 1) * (longestNots (ofTerms ts).tokens + 2) + 1 := by
  intro ts
  have named : ∀ t ∈ ts.tail, t.1.joint.Named := by decide
  let e : Expr := .or [.var "a_1", .and [.var "b_1",
    .not (.or [.var "c_1", .and [.var "d_1", .not (.var "e_1")]])]]
  have hparse : Expr.parse (ofTerms ts).tokens = .ok e := by cbv
  have hfinish : (ofTerms ts).finish = .ok ⟨(ofTerms ts).text, e, (ofTerms ts).bindings,
      (ofTerms ts).names⟩ := by
    rw [finish, hparse]
    rfl
  have hnesting : nesting (ofTerms ts).tokens = 1 := by cbv
  have hnots : longestNots (ofTerms ts).tokens = 1 := by cbv
  obtain ⟨parsed, assembled⟩ := height_of_parse
  refine ⟨named, _, hfinish, hparse, hnesting, hnots, assembled ts _ named hfinish, ?_⟩
  exact Nat.le_antisymm (parsed _ _ hparse) (by rw [hnesting, hnots]; decide)

end Assembly

end Targeting
