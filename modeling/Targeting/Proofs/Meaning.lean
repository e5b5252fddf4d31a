import Mathlib
import Targeting.Proofs.Grammar
import Targeting.Proofs.Spelling

namespace Targeting

def Operator.Joins (o : Operator) : Prop :=
  ∃ t n, (t = .and ∨ t = .or) ∧ o.tokens = t :: List.replicate n .not

def cut {α : Type u} (p : α → Bool) : List α → List (List α)
  | [] => []
  | [a] => [[a]]
  | a :: b :: as =>
    if p b then [a] :: cut p (b :: as) else (cut p (b :: as)).modifyHead (a :: ·)

namespace Term

def rise (t : Term) : Int := (if t.1.opens then 1 else 0) - (if t.1.closes then 1 else 0)

def Balanced (d : Int) : List Term → Prop
  | [] => d = 0
  | t :: ts => 0 ≤ d + t.rise ∧ Balanced (d + t.rise) ts

instance decidableBalanced : (d : Int) → (ts : List Term) → Decidable (Balanced d ts)
  | d, [] => inferInstanceAs (Decidable (d = 0))
  | d, t :: ts =>
    have := decidableBalanced (d + t.rise) ts
    inferInstanceAs (Decidable (0 ≤ d + t.rise ∧ Balanced (d + t.rise) ts))

/-- Cuts terms, the first of which starts at depth `d`, before each other one that starts at
depth zero. -/
def factors (d : Int) : List Term → List (List Term)
  | [] => []
  | t :: ts =>
    if d + t.rise = 0 then [t] :: factors 0 ts
    else match factors (d + t.rise) ts with
      | [] => [[t]]
      | f :: fs => (t :: f) :: fs

def unopened (t : Term) : Term := ({ t.1 with opens := false }, t.2)

def unclosed (t : Term) : Term := ({ t.1 with closes := false }, t.2)

def inside (f : List Term) : List Term := (f.modifyHead unopened).modifyLast unclosed

def joint (f : List Term) : List Token := (f.head?.map fun t => t.1.joint.tokens).getD []

def isOr (f : List Term) : Bool := (joint f).head? = some .or

def nots (f : List Term) : Nat := (joint f).count .not

def opening (ts : List Term) : Nat := ts.countP (·.1.opens)

theorem inside_cons_append (t : Term) (ts : List Term) (u : Term) :
    inside (t :: (ts ++ [u])) = t.unopened :: (ts ++ [u.unclosed]) :=
  List.modifyLast_concat unclosed u (t.unopened :: ts)

theorem flatten_factors (d : Int) (ts : List Term) : (factors d ts).flatten = ts := by
  fun_induction factors d ts with
  | case1 => rfl
  | case2 d t ts _ ih => simp [ih]
  | case3 d t ts _ h ih => simpa [h] using ih
  | case4 d t ts _ f fs h ih => simpa [h] using ih

theorem opening_le_of_mem {f ts : List Term} (h : f ∈ factors 0 ts) :
    opening f ≤ opening ts := by
  have : f.Sublist ts := flatten_factors 0 ts ▸ List.sublist_flatten_of_mem h
  exact this.countP_le

theorem opening_inside_lt {t : Term} {ts : List Term} (h : t.1.opens) (hts : ts ≠ []) :
    opening (inside (t :: ts)) < opening (t :: ts) := by
  obtain ⟨us, u, rfl⟩ := ts.eq_nil_or_concat'.resolve_left hts
  rw [inside_cons_append]
  simp [opening, unopened, unclosed, h]

mutual

/-- Some piece between the operators `||` has all its factors true. How the first factor is joined
has no part in this. -/
def meaning (ts : List Term) : Bool :=
  match _h : factors 0 ts with
  | [] => false
  | f :: fs =>
    (cut Prod.fst ((false, worth f) :: fs.attach.map fun g =>
      (isOr g.1, not^[nots g.1] (worth g.1)))).any (·.all Prod.snd)
  termination_by 2 * opening ts + 1
  decreasing_by
    · have : opening f ≤ opening ts := opening_le_of_mem (by simp [_h])
      omega
    · have : opening g.1 ≤ opening ts := opening_le_of_mem (by simp [_h, g.2])
      omega

def worth : List Term → Bool
  | [] => false
  | [t] => t.2
  | t :: u :: ts => if t.1.opens then meaning (inside (t :: u :: ts)) else false
  termination_by f => 2 * opening f
  decreasing_by
    have : opening (inside (t :: u :: ts)) < _ := opening_inside_lt ‹_› (List.cons_ne_nil u ts)
    omega

end

end Term

theorem cut_cons (p : α → Bool) (a : α) (as : List α) :
    ∃ bs cs, cut p (a :: as) = (a :: bs) :: cs := by
  cases as with
  | nil => exact ⟨[], [], rfl⟩
  | cons b as =>
    obtain ⟨bs, cs, h⟩ := cut_cons p b as
    rw [cut, h]
    split
    · exact ⟨[], _, rfl⟩
    · exact ⟨b :: bs, cs, rfl⟩

theorem cut_map (p : β → Bool) (f : α → β) (as : List α) :
    cut p (as.map f) = (cut (p ∘ f) as).map (List.map f) := by
  fun_induction cut (p ∘ f) as with
  | case1 => rfl
  | case2 => rfl
  | case3 a b as h ih => simp_all [cut]
  | case4 a b as h ih =>
    obtain ⟨bs, cs, hcut⟩ := cut_cons (p ∘ f) b as
    simp_all [cut]

theorem ne_nil_of_mem_cut {p : α → Bool} {as bs : List α} (h : bs ∈ cut p as) : bs ≠ [] := by
  fun_induction cut p as with
  | case1 => cases h
  | case2 => simp_all
  | case3 a b as _ ih => grind
  | case4 a b as _ ih =>
    obtain ⟨cs, ds, hcut⟩ := cut_cons p b as
    simp_all
    grind

theorem intercalate_append_cons (sep xs ys : List α) (zss : List (List α)) :
    sep.intercalate ((xs ++ ys) :: zss) = xs ++ sep.intercalate (ys :: zss) := by
  cases zss <;> simp

namespace Expr

variable {b : Table Bool} {as : List α} {f : α → Expr} {v : α → Bool}

theorem evalAnd_map (h : ∀ a ∈ as, (f a).eval b = .ok (v a)) :
    evalAnd b (as.map f) = .ok (as.all v) := by
  induction as with
  | nil => rfl
  | cons a as ih =>
    have ih := ih fun a' ha' => h a' (by simp [ha'])
    rw [List.map_cons, evalAnd, h a (by simp), ih]
    cases hv : v a <;> simp [bind, Except.bind, pure, Except.pure, hv]

theorem evalOr_map (h : ∀ a ∈ as, (f a).eval b = .ok (v a)) :
    evalOr b (as.map f) = .ok (as.any v) := by
  induction as with
  | nil => rfl
  | cons a as ih =>
    have ih := ih fun a' ha' => h a' (by simp [ha'])
    rw [List.map_cons, evalOr, h a (by simp), ih]
    cases hv : v a <;> simp [bind, Except.bind, pure, Except.pure, hv]

theorem eval_conj (h : ∀ a ∈ as, (f a).eval b = .ok (v a)) :
    (conj (as.map f)).eval b = .ok (as.all v) := by
  match as with
  | [] => exact evalAnd_map h
  | [a] => simpa [conj, chain] using h a (by simp)
  | a :: a' :: as => exact (eval.eq_3 b _).trans (evalAnd_map h)

theorem eval_disj (h : ∀ a ∈ as, (f a).eval b = .ok (v a)) :
    (disj (as.map f)).eval b = .ok (as.any v) := by
  match as with
  | [] => exact evalOr_map h
  | [a] => simpa [disj, chain] using h a (by simp)
  | a :: a' :: as => exact (eval.eq_4 b _).trans (evalOr_map h)

end Expr

/-- A factor that was read: how it is joined to the one before, and its tokens behind that. -/
structure Operand (b : Table Bool) where
  or : Bool
  tokens : List Token
  expr : Expr
  value : Bool
  derives : Expr.Derives .unary tokens expr
  eval : expr.eval b = .ok value

namespace Operand

variable {b : Table Bool}

def joint (x : Operand b) : Token := if x.or then .or else .and

theorem intercalate_cut (x : Operand b) (xs : List (Operand b)) :
    [.or].intercalate ((cut Operand.or (x :: xs)).map fun p => [.and].intercalate (p.map tokens)) =
      x.tokens ++ xs.flatMap fun y => y.joint :: y.tokens := by
  induction xs generalizing x with
  | nil => simp [cut]
  | cons y ys ih =>
    obtain ⟨zs, ps, hcut⟩ := cut_cons Operand.or y ys
    have ih := ih y
    rw [hcut] at ih
    rw [cut, hcut]
    split
    next hor => simp_all [joint]
    next hor =>
      -- the operand is joined by `&&`, so it goes before what is read behind it
      simp only [List.modifyHead_cons, List.map_cons, List.intercalate_cons_cons,
        intercalate_append_cons, List.flatMap_cons, joint, if_neg hor] at ih ⊢
      rw [ih]
      simp

def phrase (xs : List (Operand b)) : List Token × Expr :=
  ([.and].intercalate (xs.map tokens), Expr.conj (xs.map expr))

theorem derives_phrase {xs : List (Operand b)} (hxs : xs ≠ []) :
    Expr.Derives .and (phrase xs).1 (phrase xs).2 := by
  have h : ∀ p ∈ xs.map fun x => (x.tokens, x.expr), Expr.Derives .unary p.1 p.2 := by
    simp only [List.mem_map]
    rintro _ ⟨x, _, rfl⟩
    exact x.derives
  simpa [phrase, Function.comp_def] using Expr.Derives.conj (by simpa using hxs) h

theorem exists_derives (x : Operand b) (xs : List (Operand b)) :
    ∃ e, Expr.Derives .or (x.tokens ++ xs.flatMap fun y => y.joint :: y.tokens) e ∧
      e.eval b = .ok ((cut or (x :: xs)).any (·.all value)) := by
  obtain ⟨ys, ps, hcut⟩ := cut_cons Operand.or x xs
  refine ⟨Expr.disj ((cut Operand.or (x :: xs)).map fun p => Expr.conj (p.map expr)), ?_, ?_⟩
  · have h : ∀ p ∈ (cut Operand.or (x :: xs)).map phrase, Expr.Derives .and p.1 p.2 := by
      simp only [List.mem_map]
      rintro _ ⟨p, hp, rfl⟩
      exact derives_phrase (ne_nil_of_mem_cut hp)
    have := Expr.Derives.disj (by simp [hcut]) h
    rw [← intercalate_cut]
    simpa [phrase, Function.comp_def] using this
  · exact Expr.eval_disj fun p _ => Expr.eval_conj fun y _ => y.eval

end Operand

namespace Term

theorem meaning_of_factors {ts f : List Term} {fs : List (List Term)} (h : factors 0 ts = f :: fs) :
    meaning ts = (cut Prod.fst ((false, worth f) :: fs.map fun g =>
      (isOr g, not^[nots g] (worth g)))).any (·.all Prod.snd) := by
  rw [meaning]
  split
  next h' => simp [h] at h'
  next f' fs' h' =>
    obtain ⟨rfl, rfl⟩ : f = f' ∧ fs = fs' := by simpa [h] using h'
    simp

inductive Returns : Int → List Term → Prop
  | last {d : Int} {t : Term} : d + t.rise = 0 → Returns d [t]
  | step {d : Int} {t : Term} {ts : List Term} : 0 < d + t.rise → Returns (d + t.rise) ts → Returns d (t :: ts)

theorem Returns.of_factors {d : Int} {ts f : List Term} {fs : List (List Term)}
    (hts : Balanced d ts) (h : factors d ts = f :: fs) :
    Returns d f ∧ ∀ g ∈ fs, Returns 0 g := by
  induction ts generalizing d f fs with
  | nil => cases h
  | cons t ts ih =>
    obtain ⟨hle, hts⟩ := hts
    rw [factors] at h
    split at h
    next hzero =>
      obtain ⟨rfl, rfl⟩ := List.cons.inj h
      refine ⟨.last hzero, fun g hg => ?_⟩
      rw [hzero] at hts
      cases hfs : factors 0 ts with
      | nil => simp [hfs] at hg
      | cons f fs =>
        have ⟨hf, hfs'⟩ := ih hts hfs
        rw [hfs] at hg
        rcases List.mem_cons.1 hg with rfl | hg
        · exact hf
        · exact hfs' g hg
    next hne =>
      -- the factor goes on, since a list that is balanced cannot end above depth zero
      have hpos : 0 < d + t.rise := by omega
      split at h
      next hnil =>
        have : ts = [] := by simpa [hnil, eq_comm] using flatten_factors (d + t.rise) ts
        subst this
        exact absurd hts hne
      next f' fs' hfs =>
        obtain ⟨rfl, rfl⟩ := List.cons.inj h
        have ⟨hf, hfs'⟩ := ih hts hfs
        exact ⟨.step hpos hf, hfs'⟩

theorem Returns.ne_nil {d : Int} {f : List Term} (h : Returns d f) : f ≠ [] := by
  cases h <;> simp

theorem Returns.exists_append {d : Int} {f : List Term} (hd : 0 < d) (h : Returns d f) :
    ∃ ts u, f = ts ++ [u] ∧ u.1.opens = false ∧ u.1.closes = true ∧
      Balanced (d - 1) (ts ++ [u.unclosed]) := by
  induction h with
  | @last d u hzero =>
    obtain ⟨hopens, hcloses⟩ : u.1.opens = false ∧ u.1.closes = true := by
      simp only [rise] at hzero
      grind
    refine ⟨[], u, rfl, hopens, hcloses, ?_⟩
    simp only [rise] at hzero
    simp_all [Balanced, rise, unclosed]
    omega
  | @step d t f hpos _ ih =>
    obtain ⟨ts, u, rfl, hopens, hcloses, hts⟩ := ih hpos
    refine ⟨t :: ts, u, rfl, hopens, hcloses, ?_, ?_⟩
    · omega
    · have : d - 1 + t.rise = d + t.rise - 1 := by omega
      rw [this]
      exact hts

theorem Returns.cases_zero {f : List Term} (h : Returns 0 f) :
    (∃ t, f = [t] ∧ t.1.opens = t.1.closes) ∨
    ∃ t ts u, f = t :: (ts ++ [u]) ∧ (t.1.opens = true ∧ t.1.closes = false) ∧
      (u.1.opens = false ∧ u.1.closes = true) ∧ Balanced 0 (inside f) := by
  cases h with
  | @last _ t hzero =>
    refine .inl ⟨t, rfl, ?_⟩
    simp only [rise] at hzero
    grind
  | @step _ t f hpos hf =>
    obtain ⟨hopens, hcloses⟩ : t.1.opens = true ∧ t.1.closes = false := by
      simp only [rise] at hpos
      grind
    have hrise : t.rise = 1 := by simp [rise, hopens, hcloses]
    rw [hrise] at hf
    obtain ⟨ts, u, rfl, hu, hu', hts⟩ := hf.exists_append (by omega)
    refine .inr ⟨t, ts, u, rfl, ⟨hopens, hcloses⟩, ⟨hu, hu'⟩, ?_⟩
    rw [inside_cons_append]
    simpa [Balanced, rise, unopened, hcloses] using hts

end Term

def Expr.Denotes (b : Table Bool) (l : Expr.Level) (us : List Token) (v : Bool) : Prop :=
  ∃ e, Expr.Derives l us e ∧ e.eval b = .ok v

namespace Expr.Denotes

variable {b : Table Bool} {us : List Token} {v : Bool}

theorem var {n : String} (h : b.get? n = some v) : Denotes b .primary [.var n] v :=
  ⟨.var n, .var, by simp [eval, h]⟩

theorem group (h : Denotes b .or us v) : Denotes b .primary (.lparen :: us ++ [.rparen]) v := by
  obtain ⟨e, he, hv⟩ := h
  exact ⟨e, he.group, hv⟩

theorem ofPrimary (h : Denotes b .primary us v) : Denotes b .unary us v := by
  obtain ⟨e, he, hv⟩ := h
  exact ⟨e, he.ofPrimary, hv⟩

theorem ofUnary (h : Denotes b .unary us v) : Denotes b .or us v := by
  obtain ⟨e, he, hv⟩ := h
  exact ⟨e, he.ofUnary.ofAnd, hv⟩

theorem nots (n : Nat) (h : Denotes b .unary us v) :
    Denotes b .unary (List.replicate n .not ++ us) (Bool.not^[n] v) := by
  induction n with
  | zero => exact h
  | succ n ih =>
    obtain ⟨e, he, hv⟩ := ih
    refine ⟨.not e, he.not, ?_⟩
    rw [Function.iterate_succ_apply', eval, hv]
    rfl

end Expr.Denotes

namespace Assembly

open Term

variable {b : Table Bool} {us : List Token}

theorem Spells.denotes_singleton {t : Term} (ht : t.1.opens = t.1.closes)
    (h : Spells b true [t] us) : Expr.Denotes b .primary us t.2 := by
  cases h with
  | @cons n _ _ _ _ hn h =>
    cases h
    have hvar : Expr.Denotes b .primary [.var n] t.2 := .var hn
    cases hopens : t.1.opens with
    | false => simpa [termTokens, ← ht, hopens] using hvar
    | true => simpa [termTokens, ← ht, hopens] using hvar.ofPrimary.ofUnary.group

theorem Spells.exists_inside {t u : Term} {ts : List Term}
    (ht : t.1.opens = true ∧ t.1.closes = false) (hu : u.1.opens = false ∧ u.1.closes = true)
    (h : Spells b true (t :: (ts ++ [u])) us) :
    ∃ vs, us = .lparen :: vs ++ [.rparen] ∧ Spells b true (inside (t :: (ts ++ [u]))) vs := by
  rw [← List.cons_append] at h
  obtain ⟨xs, ys, rfl, hxs, hys⟩ := h.exists_append
  cases hxs with
  | @cons n _ _ zs _ hn hzs =>
    cases hys with
    | @cons m _ _ _ _ hm hnil =>
      cases hnil
      refine ⟨(.var n :: zs) ++ (u.1.joint.tokens ++ [.var m]), ?_, ?_⟩
      · simp [termTokens, ht, hu]
      · have hlast : Spells b false [u.unclosed] (termTokens false u.unclosed.1 m ++ []) :=
          .cons hm .nil
        have hhead : Spells b true (t.unopened :: ts) (termTokens true t.unopened.1 n ++ zs) :=
          .cons hn hzs
        rw [inside_cons_append]
        simpa [termTokens, unopened, unclosed, ht, hu, Descriptor.joint] using hhead.append hlast

def Joined (ts : List Term) : Prop := ∀ t ∈ ts.tail, t.1.joint.Joins

theorem Joined.inside {t u : Term} {ts : List Term} (h : Joined (t :: (ts ++ [u]))) :
    Joined (inside (t :: (ts ++ [u]))) := by
  rw [inside_cons_append]
  intro v hv
  rcases List.mem_append.1 hv with hv | hv
  · exact h v (List.mem_append_left _ hv)
  · cases List.mem_singleton.1 hv
    exact h u (by simp)

theorem Spells.exists_operand {f : List Term} (hne : f ≠ []) (hf : ∀ t ∈ f, t.1.joint.Joins)
    (hworth : ∀ vs, Spells b true f vs → Expr.Denotes b .primary vs (worth f))
    (h : Spells b false f us) :
    ∃ x : Operand b, us = x.joint :: x.tokens ∧
      (x.or, x.value) = (isOr f, not^[nots f] (worth f)) := by
  cases f with
  | nil => exact absurd rfl hne
  | cons t f =>
    obtain ⟨vs, rfl, hvs⟩ := h.of_false
    obtain ⟨o, n, ho, hjoint⟩ := hf t (by simp)
    obtain ⟨e, he, hv⟩ := (hworth vs hvs).ofPrimary.nots n
    have hcount : nots (t :: f) = n := by
      rcases ho with rfl | rfl <;> simp [nots, joint, hjoint]
    refine ⟨⟨o = .or, _, e, _, he, hv⟩, ?_, ?_⟩
    · rcases ho with rfl | rfl <;> simp [Operand.joint, hjoint]
    · simp [isOr, joint, hjoint, hcount]

theorem Spells.exists_operands {fs : List (List Term)}
    (hfs : ∀ f ∈ fs, f ≠ [] ∧ (∀ t ∈ f, t.1.joint.Joins) ∧
      ∀ us, Spells b true f us → Expr.Denotes b .primary us (worth f))
    (h : Spells b false fs.flatten us) :
    ∃ xs : List (Operand b), us = xs.flatMap (fun x => x.joint :: x.tokens) ∧
      xs.map (fun x => (x.or, x.value)) = fs.map fun f => (isOr f, not^[nots f] (worth f)) := by
  induction fs generalizing us with
  | nil =>
    cases h
    exact ⟨[], rfl, rfl⟩
  | cons f fs ih =>
    rw [List.flatten_cons] at h
    obtain ⟨vs, ws, rfl, hvs, hws⟩ := h.exists_append
    obtain ⟨hne, hjoins, hworth⟩ := hfs f (by simp)
    obtain ⟨x, rfl, hx⟩ := hvs.exists_operand hne hjoins hworth
    obtain ⟨xs, rfl, hxs⟩ := ih (fun g hg => hfs g (by simp [hg])) hws
    exact ⟨x :: xs, rfl, by rw [List.map_cons, List.map_cons, hx, hxs]⟩

theorem Spells.denotes {b : Table Bool} :
    (∀ ts, ts ≠ [] → Balanced 0 ts → Joined ts → ∀ us, Spells b true ts us →
      Expr.Denotes b .or us (meaning ts)) ∧
    (∀ f, Returns 0 f → Joined f → ∀ us, Spells b true f us →
      Expr.Denotes b .primary us (worth f)) := by
  apply meaning.mutual_induct
  case case1 =>
    intro ts hnil hne
    exact absurd (by simpa [hnil, eq_comm] using flatten_factors 0 ts) hne
  case case2 =>
    intro ts f fs hfs ihf ihfs _ hts joined us h
    have ⟨hf, hfs'⟩ := Returns.of_factors hts hfs
    obtain ⟨t, f, rfl⟩ := List.exists_cons_of_ne_nil hf.ne_nil
    obtain rfl : t :: f ++ fs.flatten = ts := by simpa [hfs] using flatten_factors 0 ts
    have joins : ∀ g ∈ fs, ∀ u ∈ g, u.1.joint.Joins := fun g hg u hu =>
      joined u (List.mem_append_right f (List.mem_flatten_of_mem hg hu))
    obtain ⟨vs, ws, rfl, hvs, hws⟩ := h.exists_append
    obtain ⟨e, he, hv⟩ :=
      (ihf hf (fun u hu => joined u (List.mem_append_left _ hu)) vs hvs).ofPrimary
    obtain ⟨xs, rfl, hxs⟩ := hws.exists_operands fun g hg => ⟨(hfs' g hg).ne_nil, joins g hg,
      ihfs ⟨g, hg⟩ (hfs' g hg) fun u hu => joins g hg u (List.mem_of_mem_tail hu)⟩
    -- the first factor is joined to nothing, and no cut depends on it
    let x : Operand b := ⟨false, vs, e, _, he, hv⟩
    have hcut : cut Prod.fst ((false, worth (t :: f)) :: xs.map fun y => (y.or, y.value)) =
        (cut Operand.or (x :: xs)).map (List.map fun y => (y.or, y.value)) :=
      cut_map Prod.fst (fun y : Operand b => (y.or, y.value)) (x :: xs)
    obtain ⟨e', he', hv'⟩ := x.exists_derives xs
    refine ⟨e', he', ?_⟩
    rw [hv', meaning_of_factors hfs, ← hxs, hcut]
    simp [List.any_map, Function.comp_def]
  case case3 =>
    intro hf
    cases hf
  case case4 =>
    intro t hf _ us h
    obtain ⟨_, heq, ht⟩ | ⟨_, _, _, heq, _⟩ := hf.cases_zero
    · cases heq
      rw [worth]
      exact h.denotes_singleton ht
    · simp at heq
  case case5 =>
    intro t u ts _ ih hf joined us h
    obtain ⟨_, heq, _⟩ | ⟨_, ts', u', heq, ht, hu, hinside⟩ := hf.cases_zero
    · simp at heq
    · obtain ⟨rfl, hts⟩ := List.cons.inj heq
      rw [worth, if_pos ht.1]
      -- the tokens between the brackets spell the group without them
      rw [hts] at ih h joined hinside ⊢
      obtain ⟨vs, rfl, hvs⟩ := h.exists_inside ht hu
      have hne : inside (t :: (ts' ++ [u'])) ≠ [] := by simp [inside_cons_append]
      exact (ih hne hinside joined.inside vs hvs).group
  case case6 =>
    intro t u ts hopens hf
    obtain ⟨_, heq, _⟩ | ⟨_, _, _, heq, ⟨ht, _⟩, _⟩ := hf.cases_zero
    · simp at heq
    · obtain ⟨rfl, _⟩ := List.cons.inj heq
      exact absurd ht hopens

/-- Terms with balanced brackets that are each joined to the one before are an expression, and
its value is their meaning, whatever their types are. -/
theorem finish_eval (ts : List Term) (hne : ts ≠ []) (joined : Joined ts)
    (balanced : Balanced 0 ts) :
    ∃ a, (ofTerms ts).finish = .ok a ∧ a.eval = .ok (meaning ts) := by
  obtain ⟨e, he, hv⟩ := Spells.denotes.1 ts hne balanced joined _ (spells_ofTerms ts)
  have hparse : Expr.parse (ofTerms ts).tokens = .ok e := Expr.parse_eq_ok.2 he
  refine ⟨⟨(ofTerms ts).text, e, (ofTerms ts).bindings, (ofTerms ts).names⟩, ?_, hv⟩
  rw [finish, hparse]
  rfl

theorem finish_eval_group :
    ∃ a, (ofTerms [(⟨"a", none, false, false, ∅⟩, false),
      (⟨"b", some (.raw "||!"), true, false, ∅⟩, true),
      (⟨"b", some .andNot, true, true, ∅⟩, true),
      (⟨"c", some .or, false, true, ∅⟩, false)]).finish = .ok a ∧ a.eval = .ok true := by
  have lex : Token.lex "||!" = [.or, .not] := by
    show Token.scan ['|', '|', '!'] = _
    simp [Token.scan]
  have joined : Joined [(⟨"a", none, false, false, ∅⟩, false),
      (⟨"b", some (.raw "||!"), true, false, ∅⟩, true),
      (⟨"b", some .andNot, true, true, ∅⟩, true),
      (⟨"c", some .or, false, true, ∅⟩, false)] := by
    intro t ht
    simp only [List.tail_cons, List.mem_cons, List.not_mem_nil, or_false] at ht
    rcases ht with rfl | rfl | rfl
    · exact ⟨.or, 1, .inr rfl, lex⟩
    · exact ⟨.and, 1, .inl rfl, rfl⟩
    · exact ⟨.or, 0, .inr rfl, rfl⟩
  obtain ⟨a, ha, hv⟩ := finish_eval _ (by simp) joined (by decide)
  refine ⟨a, ha, hv.trans (congrArg _ ?_)⟩
  cbv

end Assembly

end Targeting
