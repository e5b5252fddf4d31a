import Mathlib.Data.List.Forall2
import Targeting.Proofs.Grammar

namespace Targeting

section

variable {x : Except ε α} {f : α → Except ε β} {e : ε}

theorem bind_eq_error :
    x >>= f = .error e ↔ x = .error e ∨ ∃ a, x = .ok a ∧ f a = .error e := by
  cases x <;> simp [bind, Except.bind]

theorem map_eq_ok {f : α → β} {b : β} : f <$> x = .ok b ↔ ∃ a, x = .ok a ∧ f a = b := by
  cases x <;> simp [Functor.map, Except.map]

theorem toOption_eq_some {a : α} : x.toOption = some a ↔ x = .ok a := by
  cases x <;> simp [Except.toOption]

theorem mapError_eq_ok {f : ε → ε'} {a : α} : x.mapError f = .ok a ↔ x = .ok a := by
  cases x <;> simp [Except.mapError]

theorem mapError_eq_error {f : ε → ε'} {e' : ε'} :
    x.mapError f = .error e' ↔ ∃ e, x = .error e ∧ f e = e' := by
  cases x <;> simp [Except.mapError]

theorem mapError_bind {h : ε → ε'} :
    (x >>= f).mapError h = x.mapError h >>= fun a => (f a).mapError h := by
  cases x <;> rfl

end

section

variable {p : Prop} [Decidable p] {x : Except ε α} {e e' : ε} {a : α}

theorem ite_throw_eq_ok : (if p then throw e else x) = .ok a ↔ ¬ p ∧ x = .ok a := by
  by_cases hp : p <;> simp [hp, throw, throwThe, MonadExceptOf.throw]

theorem ite_throw_eq_error :
    (if p then throw e else x) = .error e' ↔ p ∧ e = e' ∨ ¬ p ∧ x = .error e' := by
  by_cases hp : p <;> simp [hp, throw, throwThe, MonadExceptOf.throw]

theorem check_bind_eq_ok {y : Except ε Unit} :
    (y >>= fun _ => x) = .ok a ↔ y = .ok () ∧ x = .ok a := by
  cases y <;> simp [bind, Except.bind]

theorem check_bind_eq_error {y : Except ε Unit} :
    (y >>= fun _ => x) = .error e ↔ y = .error e ∨ y = .ok () ∧ x = .error e := by
  cases y <;> simp [bind, Except.bind]

end

section

variable {P : List α → α → Prop} {x : α} {xs : List α}

theorem exists_split_cons : (∃ pre y post, x :: xs = pre ++ y :: post ∧ P pre y) ↔
    P [] x ∨ ∃ pre y post, xs = pre ++ y :: post ∧ P (x :: pre) y := by
  constructor
  · rintro ⟨pre, y, post, h, hy⟩
    cases pre with
    | nil =>
      cases h
      exact .inl hy
    | cons z pre =>
      cases h
      exact .inr ⟨pre, y, post, rfl, hy⟩
  · rintro (hx | ⟨pre, y, post, rfl, hy⟩)
    · exact ⟨[], x, xs, rfl, hx⟩
    · exact ⟨x :: pre, y, post, rfl, hy⟩

theorem forall_split_cons : (∀ pre y post, x :: xs = pre ++ y :: post → P pre y) ↔
    P [] x ∧ ∀ pre y post, xs = pre ++ y :: post → P (x :: pre) y := by
  simpa [not_or] using (exists_split_cons (P := fun pre y => ¬ P pre y)).not

end

section

variable {f : α → Except ε β} {xs : List α}

theorem mapM_eq_ok {ys : List β} :
    xs.mapM f = .ok ys ↔ List.Forall₂ (fun x y => f x = .ok y) xs ys := by
  induction xs generalizing ys with
  | nil => simp [pure, Except.pure, eq_comm]
  | cons x xs ih =>
    simp only [List.mapM_cons, Expr.bind_eq_ok, ih, List.forall₂_cons_left_iff]
    constructor
    · rintro ⟨y, hy, ys, hys, h⟩
      cases h
      exact ⟨y, ys, hy, hys, rfl⟩
    · rintro ⟨y, ys, hy, hys, rfl⟩
      exact ⟨y, hy, ys, hys, rfl⟩

theorem exists_of_mem_mapM {ys : List β} (h : xs.mapM f = .ok ys) {y : β} (hy : y ∈ ys) :
    ∃ x ∈ xs, f x = .ok y := by
  rw [mapM_eq_ok] at h
  induction h with
  | nil => cases hy
  | @cons x _ xs _ hx _ ih =>
    rcases List.mem_cons.1 hy with rfl | hy
    · exact ⟨x, List.mem_cons_self, hx⟩
    · obtain ⟨w, hw, hfw⟩ := ih hy
      exact ⟨w, List.mem_cons_of_mem x hw, hfw⟩

theorem exists_mapM_ok : (∃ ys, xs.mapM f = .ok ys) ↔ ∀ x ∈ xs, ∃ y, f x = .ok y := by
  induction xs with
  | nil => simp [pure, Except.pure]
  | cons x xs ih =>
    simp only [List.forall_mem_cons, ← ih, mapM_eq_ok, List.forall₂_cons_left_iff]
    constructor
    · rintro ⟨-, y, ys, hy, hys, rfl⟩
      exact ⟨⟨y, hy⟩, ys, hys⟩
    · rintro ⟨⟨y, hy⟩, ys, hys⟩
      exact ⟨_, y, ys, hy, hys, rfl⟩

/-- The fault is that of the first item that has one. -/
theorem mapM_eq_error {e : ε} : xs.mapM f = .error e ↔
    ∃ pre x post, xs = pre ++ x :: post ∧ (∀ w ∈ pre, ∃ y, f w = .ok y) ∧ f x = .error e := by
  induction xs with
  | nil => simp [pure, Except.pure]
  | cons x xs ih =>
    rw [List.mapM_cons, bind_eq_error, exists_split_cons]
    constructor
    · rintro (hx | ⟨y, hy, h⟩)
      · exact .inl ⟨nofun, hx⟩
      · rcases bind_eq_error.1 h with h | ⟨ys, -, h⟩
        · obtain ⟨pre, w, post, hxs, hpre, hw⟩ := ih.1 h
          exact .inr ⟨pre, w, post, hxs, List.forall_mem_cons.2 ⟨⟨y, hy⟩, hpre⟩, hw⟩
        · cases h
    · rintro (⟨-, hx⟩ | ⟨pre, w, post, hxs, hpre, hw⟩)
      · exact .inl hx
      · obtain ⟨⟨y, hy⟩, hpre⟩ := List.forall_mem_cons.1 hpre
        exact .inr ⟨y, hy, bind_eq_error.2 (.inl (ih.2 ⟨pre, w, post, hxs, hpre, hw⟩))⟩

end

theorem foldlM_keeps {step : δ → α → Except ε δ} {p : δ → Prop} {xs : List α} {d e : δ}
    (hstep : ∀ x ∈ xs, ∀ d e, p d → step d x = .ok e → p e) (hd : p d)
    (h : xs.foldlM step d = .ok e) : p e := by
  induction xs generalizing d with
  | nil =>
    cases h
    exact hd
  | cons x xs ih =>
    obtain ⟨hx, hxs⟩ := List.forall_mem_cons.1 hstep
    rw [List.foldlM_cons] at h
    obtain ⟨c, hc, h⟩ := Expr.bind_eq_ok.1 h
    exact ih hxs (hx d c hd hc) h

end Targeting
