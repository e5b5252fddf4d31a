import Targeting.Expr.Assembly
import Mathlib.Data.List.Induction

namespace Targeting

abbrev Term := Descriptor × Bool

namespace Assembly

theorem toList_variableName (type : String) (n : Nat) :
    (variableName type n).toList = type.toList ++ '_' :: Nat.toDigits 10 n := by
  have h : variableName type n = type ++ "_" ++ n.repr := rfl
  simp [h, Nat.toList_repr]

theorem underscore_notMem_toDigits (n : Nat) : '_' ∉ Nat.toDigits 10 n := fun h =>
  absurd (Nat.isDigit_of_mem_toDigits (by decide) (by decide) h) (by decide)

theorem toDigits_injective {m n : Nat} (h : Nat.toDigits 10 m = Nat.toDigits 10 n) : m = n := by
  simpa using congrArg (Nat.ofDigitChars 10 · 0) h

theorem append_cons_inj {α : Type u} {a : α} {xs ys us vs : List α} (hus : a ∉ us) (hvs : a ∉ vs)
    (h : xs ++ a :: us = ys ++ a :: vs) : xs = ys ∧ us = vs := by
  rcases List.append_eq_append_iff.1 h with ⟨zs, rfl, h⟩ | ⟨zs, rfl, h⟩
  · cases zs with
    | nil => simpa using h
    | cons z zs => simp_all
  · cases zs with
    | nil => simpa [eq_comm] using h
    | cons z zs => simp_all

theorem variableName_inj {type type' : String} {m n : Nat} :
    variableName type m = variableName type' n ↔ type = type' ∧ m = n := by
  constructor
  · intro h
    have h := congrArg String.toList h
    rw [toList_variableName, toList_variableName] at h
    have ⟨htype, hn⟩ := append_cons_inj (underscore_notMem_toDigits m)
      (underscore_notMem_toDigits n) h
    exact ⟨String.toList_inj.1 htype, toDigits_injective hn⟩
  · rintro ⟨rfl, rfl⟩
    rfl

theorem ofTerms_append (ts : List Term) (t : Term) :
    ofTerms (ts ++ [t]) = ((ofTerms ts).push t.1 t.2).1 := by
  simp [ofTerms]

theorem next_push (a : Assembly) (d : Descriptor) (outcome : Bool) (type : String) :
    (a.push d outcome).1.next type = if type = d.type then a.next type + 1 else a.next type := by
  simp only [push, next, Table.get?_insert]
  split <;> simp_all

theorem length_names_ofTerms (ts : List Term) : (ofTerms ts).names.length = ts.length := by
  induction ts using List.reverseRecOn with
  | nil => rfl
  | append_singleton ts t ih => simp [ofTerms_append, push, ih]

theorem isEmpty_names_ofTerms (ts : List Term) : (ofTerms ts).names.isEmpty = ts.isEmpty := by
  rw [Bool.eq_iff_iff, List.isEmpty_iff_length_eq_zero, List.isEmpty_iff_length_eq_zero,
    length_names_ofTerms]

theorem of_get?_bindings {ts : List Term} {name : String} {v : Bool}
    (h : (ofTerms ts).bindings.get? name = some v) :
    ∃ type n, name = variableName type n ∧ n < (ofTerms ts).next type := by
  induction ts using List.reverseRecOn generalizing v with
  | nil => cases h
  | append_singleton ts t ih =>
    rw [ofTerms_append] at h ⊢
    simp only [push, Table.get?_insert] at h
    split at h
    · next hname =>
      refine ⟨t.1.type, _, hname, ?_⟩
      simp [next_push]
    · obtain ⟨type, n, rfl, hn⟩ := ih h
      refine ⟨type, n, rfl, ?_⟩
      rw [next_push]
      split
      · exact Nat.lt_succ_of_lt hn
      · exact hn

theorem get?_bindings_next (ts : List Term) (type : String) :
    (ofTerms ts).bindings.get? (variableName type ((ofTerms ts).next type)) = none := by
  refine Option.eq_none_iff_forall_ne_some.2 fun v h => ?_
  obtain ⟨type', n, hname, hn⟩ := of_get?_bindings h
  obtain ⟨rfl, rfl⟩ := variableName_inj.1 hname
  exact Nat.lt_irrefl _ hn

theorem eq_of_finish {a : Assembly} {b : Assembled} (h : a.finish = .ok b) :
    ∃ e, Expr.parse a.tokens = .ok e ∧ b = ⟨a.text, e, a.bindings, a.names⟩ := by
  unfold finish at h
  cases hparse : Expr.parse a.tokens with
  | error e =>
    rw [hparse] at h
    cases h
  | ok e =>
    rw [hparse] at h
    cases h
    exact ⟨e, rfl, rfl⟩

/-- The tokens are those of the terms, and the variable of each is bound to its value. `first`
tells whether no term stands before. -/
inductive Spells (b : Table Bool) : Bool → List Term → List Token → Prop
  | nil : Spells b first [] []
  | cons : b.get? n = some t.2 → Spells b false ts us →
      Spells b first (t :: ts) (termTokens first t.1 n ++ us)

theorem Spells.mono {b c : Table Bool} {first : Bool} {ts : List Term} {us : List Token}
    (hbc : ∀ n v, b.get? n = some v → c.get? n = some v) (h : Spells b first ts us) :
    Spells c first ts us := by
  induction h with
  | nil => exact .nil
  | cons hn _ ih => exact .cons (hbc _ _ hn) ih

theorem Spells.append {b : Table Bool} {first : Bool} {ts ts' : List Term} {us us' : List Token}
    (h : Spells b first ts us) (h' : Spells b (first && ts.isEmpty) ts' us') :
    Spells b first (ts ++ ts') (us ++ us') := by
  induction h with
  | nil => simpa using h'
  | cons hn _ ih =>
    rw [List.cons_append, List.append_assoc]
    exact .cons hn (ih (by simpa using h'))

theorem Spells.exists_append {b : Table Bool} {first : Bool} {ts ts' : List Term} {us : List Token}
    (h : Spells b first (ts ++ ts') us) :
    ∃ vs ws, us = vs ++ ws ∧ Spells b first ts vs ∧ Spells b (first && ts.isEmpty) ts' ws := by
  induction ts generalizing first us with
  | nil => exact ⟨[], us, rfl, .nil, by simpa using h⟩
  | cons t ts ih =>
    cases h with
    | cons hn h =>
      obtain ⟨vs, ws, rfl, hvs, hws⟩ := ih h
      exact ⟨_, ws, (List.append_assoc ..).symm, .cons hn hvs, by simpa using hws⟩

theorem Spells.of_false {b : Table Bool} {t : Term} {ts : List Term} {us : List Token}
    (h : Spells b false (t :: ts) us) :
    ∃ vs, us = t.1.joint.tokens ++ vs ∧ Spells b true (t :: ts) vs := by
  cases h with
  | cons hn h => exact ⟨_, by simp [termTokens], .cons hn h⟩

theorem spells_ofTerms (ts : List Term) :
    Spells (ofTerms ts).bindings true ts (ofTerms ts).tokens := by
  induction ts using List.reverseRecOn with
  | nil => exact .nil
  | append_singleton ts t ih =>
    have fresh := get?_bindings_next ts t.1.type
    rw [ofTerms_append, push, isEmpty_names_ofTerms]
    -- the new variable is not bound yet, so what was bound stays
    refine (ih.mono fun n v hn => ?_).append ?_
    · have : n ≠ variableName t.1.type ((ofTerms ts).next t.1.type) := by
        rintro rfl
        simp [fresh] at hn
      simp [this, hn]
    · rw [← List.append_nil (termTokens ..)]
      exact .cons (by simp) .nil

end Assembly

end Targeting
