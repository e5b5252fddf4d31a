import Mathlib
import Targeting.Proofs.Grammar

namespace Targeting

def Token.plug (τ : String → List Token) (ts : List Token) : List Token := ts.flatMap fun
  | .var n => τ n
  | t => [t]

def Token.enclosed (ts : List Token) : Nat → List Token
  | 0 => ts
  | n + 1 => .lparen :: enclosed ts n ++ [.rparen]

namespace Expr

mutual

def subst (σ : String → Expr) : Expr → Expr
  | .var n => σ n
  | .not e => .not (e.subst σ)
  | .and es => .and (substAll σ es)
  | .or es => .or (substAll σ es)

def substAll (σ : String → Expr) : List Expr → List Expr
  | [] => []
  | e :: es => e.subst σ :: substAll σ es

end

theorem substAll_eq (σ : String → Expr) (es : List Expr) : substAll σ es = es.map (subst σ) := by
  induction es with
  | nil => rfl
  | cons e es ih => rw [substAll, ih, List.map_cons]

section

variable {τ : String → List Token} {σ : String → Expr}

theorem plug_append (ts us : List Token) :
    Token.plug τ (ts ++ us) = Token.plug τ ts ++ Token.plug τ us := List.flatMap_append

theorem plug_intercalate {t : Token} (ht : Token.plug τ [t] = [t]) (tss : List (List Token)) :
    Token.plug τ ([t].intercalate tss) = [t].intercalate (tss.map (Token.plug τ)) := by
  induction tss with
  | nil => rfl
  | cons ts tss ih =>
    cases tss with
    | nil => simp
    | cons us tss =>
      rw [List.intercalate_cons_cons, plug_append, plug_append, ht, ih]
      simp [List.intercalate_cons_cons]

theorem Derives.plug (hσ : ∀ n, Derives .primary (τ n) (σ n)) {l : Level} {ts : List Token} {e : Expr}
    (h : Derives l ts e) : Derives l (Token.plug τ ts) (e.subst σ) := by
  induction h with
  | @or ps hlen _ ih =>
    have hchain := @Derives.or (ps.map fun p => (Token.plug τ p.1, p.2.subst σ)) (by simpa)
      (List.forall_mem_map.2 ih)
    rw [plug_intercalate rfl, subst, substAll_eq]
    simpa [Function.comp_def] using hchain
  | ofAnd _ ih => exact .ofAnd ih
  | @and ps hlen _ ih =>
    have hchain := @Derives.and (ps.map fun p => (Token.plug τ p.1, p.2.subst σ)) (by simpa)
      (List.forall_mem_map.2 ih)
    rw [plug_intercalate rfl, subst, substAll_eq]
    simpa [Function.comp_def] using hchain
  | ofUnary _ ih => exact .ofUnary ih
  | not _ ih => exact .not ih
  | ofPrimary _ ih => exact .ofPrimary ih
  | @var n => simpa [Token.plug, subst] using hσ n
  | group _ ih =>
    rw [plug_append]
    exact .group ih

end

theorem Derives.enclosed {ts : List Token} {e : Expr} (h : Derives .or ts e) (n : Nat) :
    Derives .or (Token.enclosed ts n) e := by
  induction n with
  | zero => exact h
  | succ n ih => exact ih.group.ofPrimary.ofUnary.ofAnd

/-- A group in brackets is one operand: neither does it run into its surroundings, nor do brackets
leave anything in the tree. -/
theorem parse_plug {ts gs : List Token} {e g : Expr} (name : String) (he : parse ts = .ok e)
    (hg : parse gs = .ok g) :
    parse (Token.plug (Function.update (fun n => [.var n]) name (.lparen :: gs ++ [.rparen])) ts) =
        .ok (e.subst (Function.update .var name g)) ∧
      ∀ n, parse (Token.enclosed gs n) = .ok g := by
  rw [parse_eq_ok] at he hg
  simp only [parse_eq_ok]
  refine ⟨he.plug fun n => ?_, hg.enclosed⟩
  by_cases h : n = name
  · subst h
    simpa using hg.group
  · simpa [h] using Derives.var

theorem parse_plug_own :
    let ts : List Token := [.not, .var "x", .or, .var "x", .or, .var "a", .and, .var "x"]
    let gs : List Token := [.var "b", .or, .var "x"]
    let g : Expr := .or [.var "b", .var "x"]
    parse ts = .ok (.or [.not (.var "x"), .var "x", .and [.var "a", .var "x"]]) ∧
      parse gs = .ok g ∧
      parse (Token.plug (Function.update (fun n => [.var n]) "x" (.lparen :: gs ++ [.rparen])) ts) =
        .ok (.or [.not g, g, .and [.var "a", g]]) ∧
      parse (Token.enclosed gs 2) = .ok g := by
  intro ts gs g
  have he : parse ts = .ok (.or [.not (.var "x"), .var "x", .and [.var "a", .var "x"]]) := by cbv
  have hg : parse gs = .ok g := by cbv
  obtain ⟨hplug, henclosed⟩ := parse_plug "x" he hg
  exact ⟨he, hg, hplug, henclosed 2⟩

end Expr

end Targeting
