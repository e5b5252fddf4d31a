import Mathlib
import Targeting.Proofs.Evaluation
import Targeting.Proofs.Spelling

namespace Targeting

universe u

namespace Table

variable {α : Type u}

theorem put_perm {k : String} {es : List (String × α)} (h : es.lookup k = none) (a : α) :
    (put k a es).Perm ((k, a) :: es) := by
  fun_induction put k a es with
  | case1 => exact .refl _
  | case2 => exact .refl _
  | case3 e es _ hk => simp [lookup_cons_ite, hk] at h
  | case4 e es _ hne ih =>
    rw [lookup_cons_ite, if_neg hne] at h
    exact ((ih h).cons e).trans (.swap ..)

theorem keys_nodup (t : Table α) : t.keys.Nodup := by
  refine List.pairwise_map.2 (t.ordered.imp fun {d e} h hkey => ?_)
  rw [hkey] at h
  exact String.lt_irrefl _ h

end Table

namespace Token

def name? : Token → Option String
  | .var n => some n
  | _ => none

def names (ts : List Token) : List String := ts.filterMap name?

theorem mem_names {ts : List Token} {n : String} : n ∈ names ts ↔ .var n ∈ ts := by
  have h (t : Token) : t.name? = some n ↔ t = .var n := by
    cases t <;> simp [name?]
  simp [names, h]

@[simp] theorem names_append (ts us : List Token) : names (ts ++ us) = names ts ++ names us :=
  List.filterMap_append

theorem names_cons_of_none {t : Token} (h : t.name? = none) (ts : List Token) :
    names (t :: ts) = names ts := List.filterMap_cons_none h

end Token

namespace Expr

theorem names_intercalate {t : Token} (ht : t.name? = none) (ps : List (List Token × Expr)) :
    Token.names ([t].intercalate (ps.map Prod.fst)) = ps.flatMap fun p => Token.names p.1 := by
  induction ps with
  | nil => rfl
  | cons p ps ih =>
    cases ps with
    | nil => simp
    | cons q ps =>
      rw [List.map_cons] at ih
      rw [List.map_cons, List.map_cons, List.intercalate_cons_cons, List.append_assoc,
        Token.names_append, List.singleton_append, Token.names_cons_of_none ht, ih]
      rfl

theorem varsAll_of_intercalate {t : Token} (ht : t.name? = none) {ps : List (List Token × Expr)}
    (h : ∀ p ∈ ps, p.2.vars = Token.names p.1) :
    varsAll (ps.map Prod.snd) = Token.names ([t].intercalate (ps.map Prod.fst)) := by
  rw [varsAll_eq, List.flatMap_map, names_intercalate ht]
  exact List.flatMap_congr h

theorem Derives.vars_eq {l : Level} {ts : List Token} {e : Expr} (h : Derives l ts e) :
    e.vars = Token.names ts := by
  induction h with
  | or _ _ ih => exact varsAll_of_intercalate rfl ih
  | ofAnd _ ih => exact ih
  | and _ _ ih => exact varsAll_of_intercalate rfl ih
  | ofUnary _ ih => exact ih
  | not _ ih => exact ih
  | ofPrimary _ ih => exact ih
  | var => rfl
  | @group ts e _ ih =>
    rw [ih, Token.names_append, Token.names_cons_of_none rfl]
    exact (List.append_nil _).symm

end Expr

namespace Assembly

def given (a : Assembly) : List Term → List String
  | [] => []
  | t :: ts => (a.push t.1 t.2).2 :: (a.push t.1 t.2).1.given ts

theorem names_foldl (a : Assembly) (ts : List Term) :
    (ts.foldl (fun a t => (a.push t.1 t.2).1) a).names = a.names ++ a.given ts := by
  induction ts generalizing a with
  | nil => exact (List.append_nil _).symm
  | cons t ts ih =>
    rw [List.foldl_cons, ih, given]
    exact List.append_assoc ..

theorem names_ofTerms (ts : List Term) : (ofTerms ts).names = given ∅ ts := names_foldl ∅ ts

def outcomes (ts : List Term) : List (String × Bool) := (ofTerms ts).names.zip (ts.map Prod.snd)

theorem map_fst_outcomes (ts : List Term) : (outcomes ts).map Prod.fst = (ofTerms ts).names :=
  List.map_fst_zip (by simp [length_names_ofTerms])

theorem outcomes_append (ts : List Term) (t : Term) :
    outcomes (ts ++ [t]) =
      outcomes ts ++ [(variableName t.1.type ((ofTerms ts).next t.1.type), t.2)] := by
  rw [outcomes, ofTerms_append, List.map_append]
  exact List.zip_append (by simp [length_names_ofTerms])

theorem entries_ofTerms (ts : List Term) : (ofTerms ts).bindings.entries.Perm (outcomes ts) := by
  induction ts using List.reverseRecOn with
  | nil => exact .refl _
  | append_singleton ts t ih =>
    rw [outcomes_append, ofTerms_append]
    have fresh := get?_bindings_next ts t.1.type
    exact (Table.put_perm fresh t.2).trans ((ih.cons _).trans (List.perm_append_singleton ..).symm)

theorem get?_bindings {ts : List Term} {n : String} {v : Bool} :
    (ofTerms ts).bindings.get? n = some v ↔ (n, v) ∈ outcomes ts := by
  rw [← Table.mem_entries]
  exact (entries_ofTerms ts).mem_iff

theorem names_nodup (ts : List Term) : (ofTerms ts).names.Nodup := by
  rw [← map_fst_outcomes]
  exact ((entries_ofTerms ts).map Prod.fst).nodup_iff.1 (Table.keys_nodup _)

theorem contains_bindings {ts : List Term} {n : String} (h : n ∈ (ofTerms ts).names) :
    (ofTerms ts).bindings.contains n := by
  rw [← map_fst_outcomes] at h
  obtain ⟨p, hp, rfl⟩ := List.mem_map.1 h
  rw [Table.contains, get?_bindings.2 hp]
  rfl

theorem ordered_of_finish {ts : List Term} {a : Assembled} (h : (ofTerms ts).finish = .ok a) :
    a.ordered = outcomes ts := by
  obtain ⟨e, -, rfl⟩ := eq_of_finish h
  rw [Assembled.ordered, ← map_fst_outcomes, List.filterMap_map]
  refine (List.filterMap_eq_map_iff_forall_eq_some.2 fun p hp => ?_).trans (List.map_id _)
  simp [get?_bindings.2 hp]

/-- Every term has a variable of its own, under which its outcome is found. -/
theorem given_nodup (ts : List Term) :
    (given ∅ ts).length = ts.length ∧ (given ∅ ts).Nodup ∧
      (ofTerms ts).bindings.size = ts.length ∧
      (ofTerms ts).bindings.entries.Perm ((given ∅ ts).zip (ts.map Prod.snd)) ∧
      ∀ a, (ofTerms ts).finish = .ok a → a.ordered = (given ∅ ts).zip (ts.map Prod.snd) := by
  rw [← names_ofTerms]
  have entries := entries_ofTerms ts
  refine ⟨length_names_ofTerms ts, names_nodup ts, ?_, entries, fun a => ordered_of_finish⟩
  rw [Table.size, entries.length_eq, ← List.length_map Prod.fst, map_fst_outcomes,
    length_names_ofTerms]

theorem given_nodup_alike :
    let ts : List Term := [(.ofType "a", true), (.ofType "a_1", false), (.ofType "a", false),
      (.ofType "", true)]
    given ∅ ts = ["a_1", "a_1_1", "a_2", "_1"] ∧ (given ∅ ts).Nodup ∧
      ∃ a, (ofTerms ts).finish = .ok a ∧
        a.ordered = [("a_1", true), ("a_1_1", false), ("a_2", false), ("_1", true)] := by
  intro ts
  have names : given ∅ ts = ["a_1", "a_1_1", "a_2", "_1"] := by cbv
  have hfinish : (ofTerms ts).finish.isOk := by cbv
  obtain ⟨-, nodup, -, -, ordered⟩ := given_nodup ts
  cases h : (ofTerms ts).finish with
  | error f =>
    rw [h] at hfinish
    cases hfinish
  | ok a =>
    have := ordered a h
    rw [names] at this
    exact ⟨names, nodup, a, rfl, this⟩

theorem names_termTokens (first : Bool) (d : Descriptor) (name : String) :
    Token.names (termTokens first d name) =
      (if first then [] else Token.names d.joint.tokens) ++ [name] := by
  have bracket (b : Bool) {t : Token} (ht : t.name? = none) :
      Token.names (if b then [t] else []) = [] := by
    cases b with
    | false => rfl
    | true => exact Token.names_cons_of_none ht []
  simp only [termTokens, Token.names_append, bracket d.opens (t := .lparen) rfl,
    bracket d.closes (t := .rparen) rfl, List.append_nil]
  cases first <;> rfl

theorem names_tokens_append (ts : List Term) (t : Term) :
    Token.names (ofTerms (ts ++ [t])).tokens = Token.names (ofTerms ts).tokens ++
      ((if ts.isEmpty then [] else Token.names t.1.joint.tokens) ++
        [variableName t.1.type ((ofTerms ts).next t.1.type)]) := by
  rw [ofTerms_append, push, Token.names_append, names_termTokens, isEmpty_names_ofTerms]

theorem mem_names_tokens {ts : List Term} {n : String} (h : n ∈ Token.names (ofTerms ts).tokens) :
    n ∈ (ofTerms ts).names ∨ ∃ t ∈ ts.tail, .var n ∈ t.1.joint.tokens := by
  induction ts using List.reverseRecOn with
  | nil => cases h
  | append_singleton ts t ih =>
    rw [names_tokens_append, List.mem_append, List.mem_append] at h
    rw [ofTerms_append, push, List.tail_append]
    rcases h with h | h | h
    · rcases ih h with hname | ⟨u, hu, hvar⟩
      · exact .inl (List.mem_append_left _ hname)
      · cases ts with
        | nil => cases hu
        | cons _ _ => exact .inr ⟨u, List.mem_append_left _ hu, hvar⟩
    · cases ts with
      | nil => cases h
      | cons _ _ =>
        exact .inr ⟨t, List.mem_append_right _ (List.mem_singleton_self t), Token.mem_names.1 h⟩
    · exact .inl (List.mem_append_right _ h)

theorem names_tokens {ts : List Term} (h : ∀ t ∈ ts.tail, Token.names t.1.joint.tokens = []) :
    Token.names (ofTerms ts).tokens = (ofTerms ts).names := by
  induction ts using List.reverseRecOn with
  | nil => rfl
  | append_singleton ts t ih =>
    rw [List.tail_append] at h
    rw [names_tokens_append, ofTerms_append, push]
    cases ts with
    | nil => rfl
    | cons u ts =>
      simp only [List.isEmpty_cons, Bool.false_eq_true, if_false, List.forall_mem_append,
        List.forall_mem_singleton] at h ⊢
      rw [ih h.1, h.2]
      rfl

theorem raw_of_var_mem {o : Operator} {n : String} (h : .var n ∈ o.tokens) :
    ∃ s, o = .raw s := by
  cases o with
  | raw s => exact ⟨s, rfl⟩
  | _ => simp [Operator.tokens] at h

/-- Only an operator that is written out can name a variable that has no binding. -/
theorem eval_of_finish (ts : List Term) (a : Assembled) (h : (ofTerms ts).finish = .ok a) :
    (∀ f, a.eval = .error f → ∃ n, f = .unboundVariable n ∧ n ∉ given ∅ ts ∧
      ∃ t ∈ ts.tail, ∃ s, t.1.operator = some (.raw s) ∧ .var n ∈ (Operator.raw s).tokens) ∧
    ((∀ t ∈ ts.tail, ∀ n, .var n ∉ t.1.joint.tokens) →
      (∃ v, a.eval = .ok v) ∧ a.expr.vars = given ∅ ts) := by
  obtain ⟨e, he, rfl⟩ := eq_of_finish h
  have vars : e.vars = Token.names (ofTerms ts).tokens := (Expr.parse_eq_ok.1 he).vars_eq
  rw [← names_ofTerms]
  constructor
  · intro f hf
    obtain ⟨n, hn, hnone, rfl⟩ := Expr.exists_of_eval_error hf
    have unnamed : n ∉ (ofTerms ts).names := by
      intro hname
      have := contains_bindings hname
      rw [Table.contains, hnone] at this
      cases this
    rw [vars] at hn
    obtain ⟨t, ht, hvar⟩ := (mem_names_tokens hn).resolve_left unnamed
    obtain ⟨s, hs⟩ := raw_of_var_mem hvar
    refine ⟨n, rfl, unnamed, t, ht, s, ?_, hs ▸ hvar⟩
    cases ho : t.1.operator with
    | none => simp [Descriptor.joint, ho] at hs
    | some o => simpa [Descriptor.joint, ho] using hs
  · intro hops
    have none : ∀ t ∈ ts.tail, Token.names t.1.joint.tokens = [] := fun t ht =>
      List.eq_nil_iff_forall_not_mem.2 fun n hn => hops t ht n (Token.mem_names.1 hn)
    have hvars : e.vars = (ofTerms ts).names := vars.trans (names_tokens none)
    exact ⟨Expr.exists_eval_ok fun n hn => contains_bindings (hvars ▸ hn), hvars⟩

set_option maxRecDepth 4000 in
theorem eval_of_finish_other :
    let ts : List Term := [(.ofType "a", false),
      ((Descriptor.ofType "b").withOperator (.raw "||x&&"), true)]
    let us : List Term := [(.ofType "a", false), ((Descriptor.ofType "b").withOperator .or, true)]
    (∃ a, (ofTerms ts).finish = .ok a ∧ a.eval = .error (.unboundVariable "x") ∧
      "x" ∉ given ∅ ts) ∧
    ∃ a, (ofTerms us).finish = .ok a ∧ (∃ v, a.eval = .ok v) ∧ a.expr.vars = ["a_1", "b_1"] := by
  intro ts us
  have names : given ∅ us = ["a_1", "b_1"] := by cbv
  have hus : (ofTerms us).finish.isOk := by cbv
  have hts : (ofTerms ts).finish.map Assembled.eval = .ok (.error (.unboundVariable "x")) := by cbv
  have ops : ∀ t ∈ us.tail, ∀ n, .var n ∉ t.1.joint.tokens := by
    simp [us, Descriptor.joint, Descriptor.withOperator, Operator.tokens]
  constructor
  · cases h : (ofTerms ts).finish with
    | error f =>
      rw [h] at hts
      cases hts
    | ok a =>
      rw [h] at hts
      have heval : a.eval = .error (.unboundVariable "x") := Except.ok.inj hts
      obtain ⟨n, hn, unnamed, -⟩ := (eval_of_finish ts a h).1 _ heval
      cases hn
      exact ⟨a, rfl, heval, unnamed⟩
  · cases h : (ofTerms us).finish with
    | error f =>
      rw [h] at hus
      cases hus
    | ok a =>
      obtain ⟨value, vars⟩ := (eval_of_finish us a h).2 ops
      exact ⟨a, rfl, value, vars.trans names⟩

end Assembly

end Targeting
