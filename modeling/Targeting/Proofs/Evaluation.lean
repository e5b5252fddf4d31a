import Targeting.Expr.Eval
import Targeting.Proofs.Traversal

namespace Targeting

universe u

namespace Table

variable {α : Type u}

def Extends (u t : Table α) : Prop := ∀ k a, t.get? k = some a → u.get? k = some a

def CompletedBy (t : Table α) (σ : String → α) : Prop := ∀ k a, t.get? k = some a → σ k = a

end Table

namespace Expr

@[elab_as_elim, induction_eliminator]
theorem induction {motive : Expr → Prop} (var : ∀ n, motive (.var n))
    (not : ∀ e, motive e → motive (.not e)) (and : ∀ es, (∀ e ∈ es, motive e) → motive (.and es))
    (or : ∀ es, (∀ e ∈ es, motive e) → motive (.or es)) : ∀ e, motive e
  | .var n => var n
  | .not e => not e (induction var not and or e)
  | .and es => and es fun e _ => induction var not and or e
  | .or es => or es fun e _ => induction var not and or e

theorem varsAll_eq (es : List Expr) : varsAll es = es.flatMap vars := by
  induction es with
  | nil => rfl
  | cons e es ih => rw [varsAll, ih, List.flatMap_cons]

theorem mem_varsAll {n : String} {e : Expr} {es : List Expr} (he : e ∈ es) (hn : n ∈ e.vars) :
    n ∈ varsAll es := by
  rw [varsAll_eq]
  exact List.mem_flatMap_of_mem he hn

mutual

def truth (σ : String → Bool) : Expr → Bool
  | .var n => σ n
  | .not e => !e.truth σ
  | .and es => (truths σ es).all id
  | .or es => (truths σ es).any id

def truths (σ : String → Bool) : List Expr → List Bool
  | [] => []
  | e :: es => e.truth σ :: truths σ es

end

theorem truths_eq (σ : String → Bool) (es : List Expr) : truths σ es = es.map (truth σ) := by
  induction es with
  | nil => rfl
  | cons e es ih => rw [truths, ih, List.map_cons]

/-- The first result that is a fault or `stop` settles a chain. -/
def settle (stop : Bool) : List (Except Fault Bool) → Except Fault Bool
  | [] => .ok !stop
  | r :: rs => do if (← r) = stop then return stop else settle stop rs

theorem evalAnd_eq_settle (b : Table Bool) (es : List Expr) :
    evalAnd b es = settle false (es.map (eval b)) := by
  induction es with
  | nil => rfl
  | cons e es ih =>
    rw [evalAnd, List.map_cons, settle, ih]
    congr 1
    funext v
    cases v <;> rfl

theorem evalOr_eq_settle (b : Table Bool) (es : List Expr) :
    evalOr b es = settle true (es.map (eval b)) := by
  induction es with
  | nil => rfl
  | cons e es ih =>
    rw [evalOr, List.map_cons, settle, ih]

theorem settle_false (vs : List Bool) : settle false (vs.map .ok) = .ok (vs.all id) := by
  induction vs with
  | nil => rfl
  | cons v vs ih =>
    rw [List.map_cons, settle, ih]
    cases v <;> rfl

theorem settle_true (vs : List Bool) : settle true (vs.map .ok) = .ok (vs.any id) := by
  induction vs with
  | nil => rfl
  | cons v vs ih =>
    rw [List.map_cons, settle, ih]
    cases v <;> rfl

theorem settle_mono {stop : Bool} {es : List Expr} {f g : Expr → Except Fault Bool}
    (h : ∀ e ∈ es, ∀ v, f e = .ok v → g e = .ok v) {v : Bool}
    (hv : settle stop (es.map f) = .ok v) : settle stop (es.map g) = .ok v := by
  induction es with
  | nil => exact hv
  | cons e es ih =>
    simp only [List.forall_mem_cons] at h
    rw [List.map_cons, settle] at hv ⊢
    obtain ⟨w, hw, hv⟩ := bind_eq_ok.1 hv
    refine bind_eq_ok.2 ⟨w, h.1 w hw, ?_⟩
    split at hv
    next hstop => rwa [if_pos hstop]
    next hstop =>
      rw [if_neg hstop]
      exact ih h.2 hv

theorem exists_of_settle_error {stop : Bool} {es : List Expr} {f : Expr → Except Fault Bool}
    {fault : Fault} (h : settle stop (es.map f) = .error fault) : ∃ e ∈ es, f e = .error fault := by
  induction es with
  | nil => cases h
  | cons e es ih =>
    rw [List.map_cons, settle] at h
    rcases bind_eq_error.1 h with he | ⟨v, -, h⟩
    · exact ⟨e, List.mem_cons_self, he⟩
    · split at h
      next => cases h
      next =>
        obtain ⟨e', he', hf⟩ := ih h
        exact ⟨e', List.mem_cons_of_mem e he', hf⟩

structure Follows (b : Table Bool) (f : Expr → Except Fault Bool) : Prop where
  var : ∀ n v, b.get? n = some v → f (.var n) = .ok v
  not : ∀ e, f (.not e) = do return !(← f e)
  and : ∀ es, f (.and es) = settle false (es.map f)
  or : ∀ es, f (.or es) = settle true (es.map f)

theorem follows_eval {b c : Table Bool} (h : c.Extends b) : Follows b (eval c) where
  var n v hn := by rw [eval, h n v hn]
  not _ := rfl
  and es := evalAnd_eq_settle c es
  or es := evalOr_eq_settle c es

theorem follows_truth {b : Table Bool} {σ : String → Bool} (h : b.CompletedBy σ) :
    Follows b fun e => .ok (e.truth σ) where
  var n v hn := by rw [truth, h n v hn]
  not _ := rfl
  and es := by
    rw [truth, ← settle_false, truths_eq, List.map_map]
    rfl
  or es := by
    rw [truth, ← settle_true, truths_eq, List.map_map]
    rfl

theorem Follows.eq_ok {b : Table Bool} {f : Expr → Except Fault Bool} (h : Follows b f) {e : Expr}
    {v : Bool} (hv : e.eval b = .ok v) : f e = .ok v := by
  induction e generalizing v with
  | var n =>
    rw [eval] at hv
    split at hv
    next hn =>
      cases hv
      exact h.var n v hn
    next => cases hv
  | not e ih =>
    rw [eval] at hv
    obtain ⟨w, hw, hv⟩ := bind_eq_ok.1 hv
    rw [h.not]
    exact bind_eq_ok.2 ⟨w, ih hw, hv⟩
  | and es ih =>
    rw [eval, evalAnd_eq_settle] at hv
    rw [h.and]
    exact settle_mono (fun e he v => ih e he) hv
  | or es ih =>
    rw [eval, evalOr_eq_settle] at hv
    rw [h.or]
    exact settle_mono (fun e he v => ih e he) hv

theorem exists_of_eval_error {b : Table Bool} {e : Expr} {f : Fault} (h : e.eval b = .error f) :
    ∃ n ∈ e.vars, b.get? n = none ∧ f = .unboundVariable n := by
  induction e with
  | var n =>
    rw [eval] at h
    split at h
    next => cases h
    next hn =>
      cases h
      exact ⟨n, List.mem_singleton_self n, hn, rfl⟩
  | not e ih =>
    rw [eval] at h
    rcases bind_eq_error.1 h with he | ⟨v, -, h⟩
    · exact ih he
    · cases h
  | and es ih =>
    rw [eval, evalAnd_eq_settle] at h
    obtain ⟨e, he, hf⟩ := exists_of_settle_error h
    obtain ⟨n, hn, hnone⟩ := ih e he hf
    exact ⟨n, mem_varsAll he hn, hnone⟩
  | or es ih =>
    rw [eval, evalOr_eq_settle] at h
    obtain ⟨e, he, hf⟩ := exists_of_settle_error h
    obtain ⟨n, hn, hnone⟩ := ih e he hf
    exact ⟨n, mem_varsAll he hn, hnone⟩

theorem exists_eval_ok {b : Table Bool} {e : Expr} (h : ∀ n ∈ e.vars, b.contains n) :
    ∃ v, e.eval b = .ok v := by
  cases he : e.eval b with
  | ok v => exact ⟨v, rfl⟩
  | error f =>
    obtain ⟨n, hn, hnone, -⟩ := exists_of_eval_error he
    have hbound := h n hn
    rw [Table.contains, hnone] at hbound
    cases hbound

/-- A value is final, and a fault names a variable that a binding was missing for. -/
theorem eval_settled (e : Expr) (b : Table Bool) :
    (∀ v, e.eval b = .ok v →
      (∀ c, c.Extends b → e.eval c = .ok v) ∧ ∀ σ, b.CompletedBy σ → e.truth σ = v) ∧
    (∀ f, e.eval b = .error f → ∃ n ∈ e.vars, b.get? n = none ∧ f = .unboundVariable n) ∧
    ((∀ n ∈ e.vars, b.contains n) → ∃ v, e.eval b = .ok v) := by
  refine ⟨fun v hv => ⟨fun c hc => ?_, fun σ hσ => ?_⟩, fun f hf => ?_, fun h => ?_⟩
  · exact (follows_eval hc).eq_ok hv
  · exact Except.ok.inj ((follows_truth hσ).eq_ok hv)
  · exact exists_of_eval_error hf
  · exact exists_eval_ok h

theorem eval_settled_missing :
    let b : Table Bool := (∅ : Table Bool).insert "off" false
    let c : Table Bool := b.insert "missing" true
    let e : Expr := .or [.and [.var "off", .var "missing"], .not (.or [])]
    let e' : Expr := .and [.not (.var "off"), .var "missing"]
    e.eval b = .ok true ∧ c.Extends b ∧ e.eval c = .ok true ∧
      b.CompletedBy (fun _ => false) ∧ e.truth (fun _ => false) = true ∧
      e'.eval b = .error (.unboundVariable "missing") ∧
      (∃ n ∈ e'.vars, b.get? n = none ∧ .unboundVariable "missing" = Fault.unboundVariable n) ∧
      (∀ n ∈ e'.vars, c.contains n) ∧ ∃ v, e'.eval c = .ok v := by
  intro b c e e'
  have hv : e.eval b = .ok true := rfl
  have hf : e'.eval b = .error (.unboundVariable "missing") := rfl
  have extends_b : c.Extends b := by
    intro n v hn
    have : n = "off" ∧ v = false := by simpa [b, eq_comm] using hn
    rw [this.1, this.2]
    rfl
  have completed : b.CompletedBy fun _ => false := by
    intro n v hn
    have : n = "off" ∧ v = false := by simpa [b, eq_comm] using hn
    exact this.2.symm
  have bound : ∀ n ∈ e'.vars, c.contains n := by decide
  obtain ⟨value, -, -⟩ := eval_settled e b
  obtain ⟨-, fault, -⟩ := eval_settled e' b
  exact ⟨hv, extends_b, (value _ hv).1 c extends_b, completed, (value _ hv).2 _ completed, hf,
    fault _ hf, bound, (eval_settled e' c).2.2 bound⟩

end Expr

end Targeting
