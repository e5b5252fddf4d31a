import Mathlib.Data.List.TakeWhile
import Targeting.Json.Text

namespace Targeting.Json

inductive Digits : List Char → List ℕ → Prop
  | run {c : Char} {cs : List Char} : (∀ d ∈ c :: cs, d.isDigit = true) →
      Digits (c :: cs) ((c :: cs).map digitOf)

inductive Fraction : List Char → List ℕ → Prop
  | absent : Fraction [] []
  | point {us : List Char} {ds : List ℕ} : Digits us ds → Fraction ('.' :: us) ds

inductive Sign : List Char → Bool → Prop
  | absent : Sign [] false
  | plus : Sign ['+'] false
  | minus : Sign ['-'] true

inductive Exponent : List Char → Option (Bool × List ℕ) → Prop
  | absent : Exponent [] none
  | present {c : Char} {ss us : List Char} {negative : Bool} {ds : List ℕ} : c = 'e' ∨ c = 'E' →
      Sign ss negative → Digits us ds → Exponent (c :: ss ++ us) (some (negative, ds))

inductive Unsigned (negative : Bool) : List Char → Numeral → Prop
  | parts {ws fs es : List Char} {whole fraction : List ℕ} {exponent : Option (Bool × List ℕ)} :
      Digits ws whole → (∀ ds, whole = 0 :: ds → ds = []) → Fraction fs fraction →
      Exponent es exponent → Unsigned negative (ws ++ fs ++ es) ⟨negative, whole, fraction, exponent⟩

inductive Pieces : List Char → List Piece → Prop
  | nil : Pieces [] []
  | plain {c : Char} {us : List Char} {ps : List Piece} : ¬ c < ' ' → c ≠ '"' → c ≠ '\\' →
      Pieces us ps → Pieces (c :: us) (.char c :: ps)
  | escape {c d : Char} {us : List Char} {ps : List Piece} : escaped? c = some d → Pieces us ps →
      Pieces ('\\' :: c :: us) (.char d :: ps)
  | unit {a b c d : Char} {k : ℕ} {us : List Char} {ps : List Piece} : unit? a b c d = some k →
      Pieces us ps → Pieces ('\\' :: 'u' :: a :: b :: c :: d :: us) (.ofUnit k :: ps)

def Stops (p : Char → Bool) (cs : List Char) : Prop := ∀ c ∈ cs.head?, p c = false

section

variable {p q : Char → Bool} {c : Char} {cs us rest : List Char}

theorem stops_cons (h : p c = false) : Stops p (c :: cs) := by
  rintro d ⟨⟩
  exact h

theorem Stops.mono (h : Stops p cs) (hpq : ∀ c, q c = true → p c = true) : Stops q cs := by
  intro c hc
  have hp := h c hc
  by_contra hq
  rw [hpq c (by simpa using hq)] at hp
  cases hp

theorem takeWhile_run (h : ∀ c ∈ us, p c = true) (hrest : Stops p rest) :
    (us ++ rest).takeWhile p = us ∧ (us ++ rest).dropWhile p = rest := by
  rw [List.takeWhile_append_of_pos h, List.dropWhile_append_of_pos h]
  cases rest with
  | nil => simp
  | cons c rest => simp [hrest c rfl]

end

def continues (c : Char) : Bool := c.isDigit || c == '.' || c == 'e' || c == 'E'

def taken {n : ℕ} (r : Option (α × Below Char n)) : Option (α × List Char) :=
  r.map fun p => (p.1, p.2.1)

theorem taken_eq_some {n : ℕ} {r : Option (α × Below Char n)} {a : α} {rest : List Char} :
    taken r = some (a, rest) ↔ ∃ t, r = some (a, t) ∧ t.1 = rest := by
  constructor
  · intro h
    obtain ⟨⟨b, t⟩, hr, hp⟩ := Option.map_eq_some_iff.1 h
    cases hp
    exact ⟨t, hr, rfl⟩
  · rintro ⟨t, rfl, rfl⟩
    rfl

section

variable {n : ℕ} {cs us rest : List Char} {ds : List ℕ}

theorem readDigits?_eq (hcs : cs = us ++ rest) (h : Digits us ds) (hrest : Stops Char.isDigit rest) :
    taken (readDigits? cs) = some (ds, rest) := by
  subst hcs
  cases h with
  | @run c us hus =>
    obtain ⟨hc, hus⟩ := List.forall_mem_cons.1 hus
    obtain ⟨htake, hdrop⟩ := takeWhile_run hus hrest
    rw [List.cons_append, readDigits?, if_pos hc]
    simp [taken, htake, Below.dropWhile, Below.ofList, hdrop]

theorem of_readDigits? {t : Below Char cs.length} (h : readDigits? cs = some (ds, t)) :
    ∃ us, cs = us ++ t.1 ∧ Digits us ds := by
  cases cs with
  | nil => cases h
  | cons c cs =>
    rw [readDigits?] at h
    split at h
    case isFalse => cases h
    case isTrue hc =>
      cases h
      refine ⟨c :: cs.takeWhile Char.isDigit, ?_, .run (List.forall_mem_cons.2 ⟨hc, ?_⟩)⟩
      · exact congrArg (List.cons c) List.takeWhile_append_dropWhile.symm
      · exact fun _ => List.mem_takeWhile_imp

theorem readWhole?_eq (hcs : cs = us ++ rest) (h : Digits us ds)
    (hzero : ∀ es, ds = 0 :: es → es = []) (hrest : Stops Char.isDigit rest) :
    taken (readWhole? cs) = some (ds, rest) := by
  obtain ⟨t, ht, hrest⟩ := taken_eq_some.1 (readDigits?_eq hcs h hrest)
  rw [readWhole?, ht]
  refine taken_eq_some.2 ⟨t, ?_, hrest⟩
  match ds, hzero with
  | [], _ => rfl
  | [0], _ => rfl
  | 0 :: d :: ds, hzero => cases hzero _ rfl
  | (d + 1) :: ds, _ => rfl

theorem of_readWhole? {t : Below Char cs.length} (h : readWhole? cs = some (ds, t)) :
    readDigits? cs = some (ds, t) ∧ ∀ es, ds = 0 :: es → es = [] := by
  rw [readWhole?] at h
  obtain ⟨⟨es, u⟩, hdigits, h⟩ := Option.bind_eq_some_iff.1 h
  match es, hdigits, h with
  | [], hdigits, h | [0], hdigits, h | (_ + 1) :: _, hdigits, h =>
    cases h
    exact ⟨hdigits, by simp⟩

theorem Fraction.stops (h : Fraction us ds) (hrest : Stops (fun c => c.isDigit || c == '.') rest) :
    Stops Char.isDigit (us ++ rest) := by
  cases h with
  | absent => exact hrest.mono (by simp +contextual)
  | point h => exact stops_cons rfl

theorem readFraction?_eq {r : Below Char n} (hr : r.1 = us ++ rest) (h : Fraction us ds)
    (hrest : Stops (fun c => c.isDigit || c == '.') rest) :
    taken (readFraction? r) = some (ds, rest) := by
  cases h with
  | absent =>
    rw [readFraction?]
    split
    case h_1 t ht =>
      rw [← List.nil_append rest, ← hr, Below.uncons_eq_some.1 ht] at hrest
      cases hrest _ rfl
    case h_2 => exact congrArg (fun t => some ([], t)) hr
  | point h =>
    rw [List.cons_append] at hr
    obtain ⟨t, ht, hus⟩ := Below.exists_uncons hr
    have hdigits := readDigits?_eq hus h (hrest.mono (by simp +contextual))
    obtain ⟨u, hu, rfl⟩ := taken_eq_some.1 hdigits
    simp only [readFraction?, ht, hu]
    rfl

theorem of_readFraction? {r t : Below Char n} (h : readFraction? r = some (ds, t)) :
    ∃ us, r.1 = us ++ t.1 ∧ Fraction us ds := by
  rw [readFraction?] at h
  split at h
  case h_1 u hu =>
    obtain ⟨⟨es, v⟩, hread, h⟩ := Option.bind_eq_some_iff.1 h
    cases h
    obtain ⟨us, hus, hdigits⟩ := of_readDigits? hread
    refine ⟨'.' :: us, ?_, .point hdigits⟩
    exact (Below.uncons_eq_some.1 hu).trans (congrArg (List.cons '.') hus)
  case h_2 =>
    cases h
    exact ⟨[], rfl, .absent⟩

theorem readSign_eq {r : Below Char n} {ss : List Char} {negative : Bool} (h : Sign ss negative)
    (hdigits : Digits us ds) (hr : r.1 = ss ++ (us ++ rest)) :
    (readSign r).1 = negative ∧ (readSign r).2.1 = us ++ rest := by
  rw [readSign]
  cases h with
  | plus | minus =>
    rw [List.cons_append] at hr
    obtain ⟨t, ht, hus⟩ := Below.exists_uncons hr
    rw [ht]
    exact ⟨rfl, hus⟩
  | absent =>
    have hdigit {c : Char} {t : Below Char n} (ht : r.uncons = some (c, t)) : c.isDigit = true := by
      rw [Below.uncons_eq_some.1 ht] at hr
      cases hdigits with
      | run hus =>
        obtain ⟨rfl, -⟩ := List.cons.inj hr
        exact hus c List.mem_cons_self
    split
    case h_1 t ht => cases hdigit ht
    case h_2 t ht => cases hdigit ht
    case h_3 => exact ⟨rfl, hr⟩

theorem exists_sign (r : Below Char n) :
    ∃ ss, r.1 = ss ++ (readSign r).2.1 ∧ Sign ss (readSign r).1 := by
  rw [readSign]
  split
  case h_1 t ht => exact ⟨['-'], Below.uncons_eq_some.1 ht, .minus⟩
  case h_2 t ht => exact ⟨['+'], Below.uncons_eq_some.1 ht, .plus⟩
  case h_3 => exact ⟨[], rfl, .absent⟩

variable {e : Option (Bool × List ℕ)}

theorem Exponent.stops (h : Exponent us e) (hrest : Stops continues rest) :
    Stops (fun c => c.isDigit || c == '.') (us ++ rest) := by
  cases h with
  | absent => exact hrest.mono (by simp +contextual [continues])
  | present hc => rcases hc with rfl | rfl <;> exact stops_cons rfl

theorem readExponent?_eq {r : Below Char n} (hr : r.1 = us ++ rest) (h : Exponent us e)
    (hrest : Stops continues rest) : taken (readExponent? r) = some (e, rest) := by
  rw [readExponent?]
  cases h with
  | absent =>
    split
    case h_1 c t ht =>
      rw [← List.nil_append rest, ← hr, Below.uncons_eq_some.1 ht] at hrest
      have hc := hrest c rfl
      simp only [continues, Bool.or_eq_false_iff] at hc
      rw [hc.1.2, hc.2]
      exact congrArg (fun t => some (none, t)) hr
    case h_2 => exact congrArg (fun t => some (none, t)) hr
  | @present c ss us negative ds hc hsign h =>
    rw [List.cons_append, List.cons_append, List.append_assoc] at hr
    obtain ⟨t, ht, hus⟩ := Below.exists_uncons hr
    obtain ⟨hnegative, hdigits⟩ := readSign_eq hsign h hus
    have hread := readDigits?_eq hdigits h (hrest.mono (by simp +contextual [continues]))
    obtain ⟨u, hu, rfl⟩ := taken_eq_some.1 hread
    have hc : (c == 'e' || c == 'E') = true := by simpa using hc
    simp only [ht, hc, if_true, hu, hnegative]
    rfl

theorem of_readExponent? {r t : Below Char n} (h : readExponent? r = some (e, t)) :
    ∃ us, r.1 = us ++ t.1 ∧ Exponent us e := by
  rw [readExponent?] at h
  split at h
  case h_1 c u hu =>
    split at h
    case isTrue hc =>
      obtain ⟨⟨es, v⟩, hread, h⟩ := Option.bind_eq_some_iff.1 h
      cases h
      obtain ⟨us, hus, hdigits⟩ := of_readDigits? hread
      obtain ⟨ss, hss, hsign⟩ := exists_sign u
      refine ⟨c :: ss ++ us, ?_, .present (by simpa using hc) hsign hdigits⟩
      calc r.1 = c :: u.1 := Below.uncons_eq_some.1 hu
        _ = c :: (ss ++ (us ++ v.1)) := congrArg (List.cons c) (hss.trans (congrArg (ss ++ ·) hus))
        _ = c :: ss ++ us ++ v.1 := by simp
    case isFalse =>
      cases h
      exact ⟨[], rfl, .absent⟩
  case h_2 =>
    cases h
    exact ⟨[], rfl, .absent⟩

variable {negative : Bool} {m : Numeral}

theorem readNumeral?_eq (hcs : cs = us ++ rest) (h : Unsigned negative us m)
    (hrest : Stops continues rest) : taken (readNumeral? negative cs) = some (m, rest) := by
  cases h with
  | parts hwhole hzero hfraction hexponent =>
    have hpoint := hexponent.stops hrest
    have hdigit := hfraction.stops hpoint
    rw [List.append_assoc, List.append_assoc] at hcs
    obtain ⟨t, ht, hfs⟩ := taken_eq_some.1 (readWhole?_eq hcs hwhole hzero hdigit)
    obtain ⟨u, hu, hes⟩ := taken_eq_some.1 (readFraction?_eq hfs hfraction hpoint)
    obtain ⟨v, hv, rfl⟩ := taken_eq_some.1 (readExponent?_eq hes hexponent hrest)
    simp only [readNumeral?, ht, Option.bind_eq_bind, Option.bind_some, hu, hv]
    rfl

theorem of_readNumeral? {t : Below Char cs.length} (h : readNumeral? negative cs = some (m, t)) :
    ∃ us, cs = us ++ t.1 ∧ Unsigned negative us m := by
  rw [readNumeral?] at h
  obtain ⟨⟨whole, r⟩, hread, h⟩ := Option.bind_eq_some_iff.1 h
  obtain ⟨⟨fraction, u⟩, hfraction, h⟩ := Option.bind_eq_some_iff.1 h
  obtain ⟨⟨exponent, v⟩, hexponent, h⟩ := Option.bind_eq_some_iff.1 h
  cases h
  obtain ⟨hdigits, hzero⟩ := of_readWhole? hread
  obtain ⟨ws, hws, hwhole⟩ := of_readDigits? hdigits
  obtain ⟨fs, hfs, hfraction⟩ := of_readFraction? hfraction
  obtain ⟨es, hes, hexponent⟩ := of_readExponent? hexponent
  refine ⟨ws ++ fs ++ es, ?_, .parts hwhole hzero hfraction hexponent⟩
  calc cs = ws ++ r.1 := hws
    _ = ws ++ (fs ++ (es ++ t.1)) := congrArg (ws ++ ·) (hfs.trans (congrArg (fs ++ ·) hes))
    _ = ws ++ fs ++ es ++ t.1 := by simp

end

section

variable {cs us rest : List Char} {ps : List Piece} {done : List Piece}

theorem readPieces_append (h : Pieces us ps) (rest : List Char) (done : List Piece) :
    readPieces done (us ++ '"' :: rest) = some (done.reverse ++ ps, rest) := by
  induction h generalizing done with
  | nil => simp [readPieces]
  | plain hc hquote hslash _ ih =>
    rw [List.cons_append, readPieces]
    · simp [hc, hslash, ih]
    all_goals simp_all
  | escape hc _ ih =>
    rw [List.cons_append, List.cons_append, readPieces]
    · simp [hc, ih]
    · rintro a b c d _ ⟨⟩
      cases hc
  | unit hk _ ih => simp [readPieces, hk, ih]

theorem of_readPieces (h : readPieces done cs = some (ps, rest)) :
    ∃ us qs, cs = us ++ '"' :: rest ∧ Pieces us qs ∧ ps = done.reverse ++ qs := by
  fun_induction readPieces done cs with
  | case1 => cases h
  | case2 done cs =>
    cases h
    exact ⟨[], [], rfl, .nil, (List.append_nil _).symm⟩
  | case3 done a b c d cs k hk ih =>
    obtain ⟨us, qs, rfl, hus, rfl⟩ := ih h
    exact ⟨_, _, rfl, .unit hk hus, by simp⟩
  | case4 => cases h
  | case5 done c cs _ d hd ih =>
    obtain ⟨us, qs, rfl, hus, rfl⟩ := ih h
    exact ⟨_, _, rfl, .escape hd hus, by simp⟩
  | case6 => cases h
  | case7 => cases h
  | case8 done c cs hquote _ _ hc ih =>
    obtain ⟨us, qs, rfl, hus, rfl⟩ := ih h
    simp only [Bool.or_eq_true, decide_eq_true_eq, beq_iff_eq, not_or] at hc
    exact ⟨_, _, rfl, .plain hc.1 hquote hc.2 hus, by simp⟩

theorem taken_readString (cs : List Char) :
    taken (readString cs) = (readPieces [] cs).map fun p => (joinPieces [] p.1, p.2) := by
  rw [readString]
  split
  case h_1 h => simp [taken, h]
  case h_2 h => simp [taken, h]

theorem readString_append (h : Pieces us ps) (rest : List Char) :
    taken (readString (us ++ '"' :: rest)) = some (joinPieces [] ps, rest) := by
  rw [taken_readString, readPieces_append h]
  rfl

theorem of_readString {s : Option String} (h : taken (readString cs) = some (s, rest)) :
    ∃ us ps, cs = us ++ '"' :: rest ∧ Pieces us ps ∧ s = joinPieces [] ps := by
  rw [taken_readString] at h
  obtain ⟨⟨ps, ds⟩, hpieces, hp⟩ := Option.map_eq_some_iff.1 h
  obtain ⟨us, qs, hcs, hus, rfl⟩ := of_readPieces hpieces
  cases hp
  exact ⟨us, _, hcs, hus, rfl⟩

end

end Targeting.Json
