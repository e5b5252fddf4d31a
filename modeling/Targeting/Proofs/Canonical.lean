import Targeting.Proofs.Printing

namespace Targeting.Token

inductive Canonical : Token → Prop
  | and : Canonical .and
  | or : Canonical .or
  | not : Canonical .not
  | lparen : Canonical .lparen
  | rparen : Canonical .rparen
  | var : IsName n → Canonical (.var n)
  | raw : lex s = [.raw s] → Canonical (.raw s)

theorem Stable.lex_text {t : Token} (h : t.Stable) : lex t.text = [t] := by
  have := h [] (by simp [Stops])
  simpa [lex, scan] using this

theorem stable_of_lex_text {t : Token} (h : lex t.text = [t]) : t.Stable :=
  stable_scan t.text.toList t (by simp [show scan t.text.toList = [t] from h])

theorem Canonical.stable {t : Token} (h : t.Canonical) : t.Stable := by
  cases h with
  | and => exact stable_and
  | or => exact stable_or
  | not => exact stable_not
  | lparen => exact stable_lparen
  | rparen => exact stable_rparen
  | var hname => exact hname.stable
  | raw hlex => exact stable_of_lex_text hlex

theorem canonical_of_mem_lex {s : String} {t : Token} (h : t ∈ lex s) : t.Canonical := by
  cases t with
  | and => exact .and
  | or => exact .or
  | not => exact .not
  | lparen => exact .lparen
  | rparen => exact .rparen
  | var n => exact .var (isName_of_mem_scan h)
  | raw r => exact .raw (stable_scan s.toList _ h).lex_text

/-- Lists of canonical tokens are what texts are read as, and their own texts are read as them. -/
theorem lex_join_canonical :
    (∀ s, ∀ t ∈ lex s, t.Canonical) ∧
      (∀ ts : List Token, (∀ t ∈ ts, t.Canonical) → lex (join ts) = ts) ∧
      ∀ s, lex (join (lex s)) = lex s := by
  have hread : ∀ s, ∀ t ∈ lex s, t.Canonical := fun s t => canonical_of_mem_lex
  have hprint : ∀ ts : List Token, (∀ t ∈ ts, t.Canonical) → lex (join ts) = ts :=
    fun ts h => lex_join fun t ht => (h t ht).stable
  exact ⟨hread, hprint, fun s => hprint (lex s) (hread s)⟩

theorem lex_join_canonical_signs :
    let ts : List Token := [.raw "&", .raw "&", .var "nor", .raw "^!&&||", .not]
    (∀ t ∈ ts, t.Canonical) ∧ join ts = "& & nor ^!&&|| not" ∧ lex (join ts) = ts ∧
      lex "&\t&nor^!&&|| !" = ts ∧ lex (join (lex "&\t&nor^!&&|| !")) = ts := by
  intro ts
  have hlex : lex "&\t&nor^!&&|| !" = ts := by decide +kernel
  obtain ⟨hread, hprint, hagain⟩ := lex_join_canonical
  have hts : ∀ t ∈ ts, t.Canonical := hlex ▸ hread "&\t&nor^!&&|| !"
  exact ⟨hts, by decide +kernel, hprint ts hts, hlex, (hagain _).trans hlex⟩

end Targeting.Token
