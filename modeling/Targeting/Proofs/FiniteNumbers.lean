import Targeting.Json.Text
import Targeting.Proofs.Doubles

namespace Targeting.Json

namespace Numeral

theorem log2_pow_le {n a b : ℕ} (hn : n ≠ 0) (h : n ^ a ≤ 2 ^ b) (e : ℕ) :
    a * (n ^ e).log2 ≤ b * e := by
  have hle : (2 ^ (n ^ e).log2) ^ a ≤ (2 ^ b) ^ e :=
    calc (2 ^ (n ^ e).log2) ^ a ≤ (n ^ e) ^ a :=
          Nat.pow_le_pow_left (Nat.log2_self_le (pow_ne_zero e hn)) a
      _ = (n ^ a) ^ e := by rw [← pow_mul, ← pow_mul, mul_comm]
      _ ≤ (2 ^ b) ^ e := Nat.pow_le_pow_left h e
  rw [← pow_mul, ← pow_mul, Nat.pow_le_pow_iff_right (by decide), mul_comm] at hle
  exact hle

theorem large_power_mid {e : ℕ} (h : 22 < e) (h' : e < 308) : Double.large (power e) = true := by
  have hlog : (1 * 2 ^ 53 * 10 ^ e).log2 = (10 ^ e).log2 + 53 := by
    rw [one_mul, mul_comm, Double.log2_mul_two_pow (by positivity)]
  have hleast : 1 ≤ (10 ^ e).log2 := by
    rw [Nat.le_log2 (by positivity), pow_one]
    exact (by decide : 2 ≤ 10 ^ 1).trans (Nat.pow_le_pow_right (by decide) (by omega))
  have hmost : (10 ^ e).log2 < 1023 := by
    have := log2_pow_le (by decide) (by decide : 10 ^ 59 ≤ 2 ^ 196) e
    omega
  have hpower : power e = Double.ofParts (Float.Model.UnpackedFloat.roundWithAccuracy
      .binary64 .positive (1 * 2 ^ 53 * 10 ^ e) (-53) .exact) := by
    rw [power, Float.ofScientific, dif_neg fun h => by omega,
      ← Double.ofScientific_eq (by decide) (by omega)]
    rfl
  obtain ⟨n, f, hn, hparts, -, -, hsize⟩ :=
    Double.parts_round (m := 1 * 2 ^ 53 * 10 ^ e) (e := -53) (by omega) (by omega) (by omega)
      .positive .exact
  rw [Double.large, hpower, hparts]
  exact decide_eq_true (by omega)

theorem large_power {e : ℕ} (h : 0 < e) (h' : e ≤ 308) : Double.large (power e) = true := by
  rcases Nat.lt_or_ge 22 e with hmid | hsmall
  · rcases Nat.lt_or_eq_of_le h' with hlt | rfl
    · exact large_power_mid hmid hlt
    · decide +kernel
  · have htable : ∀ e < 22, Double.large (power (e + 1)) = true := by decide +kernel
    obtain ⟨k, rfl⟩ := Nat.exists_eq_succ_of_ne_zero (Nat.ne_of_gt h)
    exact htable k (by omega)

theorem isFinite_power {e : ℕ} (h : e ≤ 308) : (power e).isFinite = true := by
  rcases Nat.eq_zero_or_pos e with rfl | hpos
  · rfl
  · exact Double.isFinite_of_large (large_power hpos h)

theorem isFinite_scale {x y : Float} {e : ℤ} (hx : x.isFinite = true) (h : scale x e = some y) :
    y.isFinite = true := by
  fun_induction scale x e with
  | case1 x e he product hinf => cases h
  | case2 x e he product hinf =>
    rw [← Option.some.inj h]
    exact Double.isFinite_mul hx (isFinite_power he) (by simpa using hinf)
  | case3 x e he hzero =>
    cases h
    exact hx
  | case4 x e he hzero => cases h
  | case5 x e he =>
    cases h
    exact Double.isFinite_div hx (large_power (Nat.succ_pos e) he)
  | case6 x e he hzero =>
    cases h
    exact hx
  | case7 x e he hzero ih =>
    exact ih (Double.isFinite_div hx (large_power (by decide) (by decide))) h

theorem absorb_lt {n : ℕ} (hn : n < UInt64.size) (ds : List ℕ) : (absorb n ds).1 < UInt64.size := by
  fun_induction absorb n ds with
  | case1 n => exact hn
  | case2 n d ds hlt ih => exact ih hlt
  | case3 n d ds hlt => exact hn

theorem float?_eq (m : Numeral) : m.float? =
    if m.negative then ({ m with negative := false } : Numeral).float?.map (- ·)
    else ({ m with negative := false } : Numeral).float? := rfl

theorem isFinite_float? {m : Numeral} {x : Float} (h : m.float? = some x) : x.isFinite = true := by
  have hunsigned {y : Float} (hy : ({ m with negative := false } : Numeral).float? = some y) :
      y.isFinite = true := by
    simp only [float?, Bool.false_eq_true, if_false] at hy
    generalize hdigits : (absorb (absorb 0 m.whole).1 m.fraction).1 = n at hy
    have hn : n < 2 ^ 64 := hdigits ▸ absorb_lt (absorb_lt (by decide) _) _
    have hfinite := (Double.nearest_ofNat (Double.log2_le_of_lt hn)).finite
    split at hy
    · exact isFinite_scale hfinite hy
    · split_ifs at hy
      · exact isFinite_scale hfinite hy
      · exact isFinite_scale hfinite hy
      · cases hy
        rfl
  rw [float?_eq] at h
  split at h
  · obtain ⟨y, hy, rfl⟩ := Option.map_eq_some_iff.1 h
    exact Double.isFinite_neg (hunsigned hy)
  · exact hunsigned h

theorem log2_integer? {m : Numeral} {i : ℤ} (h : m.integer? = some i) : i.natAbs.log2 ≤ 1022 := by
  refine Double.log2_le_of_lt ?_
  rw [integer?] at h
  simp only [UInt64.size, Bool.and_eq_true, decide_eq_true_eq] at h
  split_ifs at h with _ hnegative hrange hrange <;> cases h <;> omega

theorem isFinite_number? {m : Numeral} {n : Number} (h : m.number? = some n) :
    n.toFloat.isFinite = true := by
  rw [number?] at h
  split at h
  case h_1 i hi =>
    cases h
    exact (Double.nearest_ofInt (log2_integer? hi)).finite
  case h_2 =>
    obtain ⟨x, hx, rfl⟩ := Option.map_eq_some_iff.1 h
    exact isFinite_float? hx

end Numeral

mutual

def Finite : Json → Prop
  | .number n => n.toFloat.isFinite = true
  | .array js => FiniteAll js
  | .object ms => FiniteMembers ms
  | _ => True

def FiniteAll : List Json → Prop
  | [] => True
  | j :: js => j.Finite ∧ FiniteAll js

def FiniteMembers : List (Option String × Json) → Prop
  | [] => True
  | (_, j) :: ms => j.Finite ∧ FiniteMembers ms

end

theorem finiteAll_iff {js : List Json} : FiniteAll js ↔ ∀ j ∈ js, j.Finite := by
  induction js with
  | nil => simp [FiniteAll]
  | cons j js ih => rw [FiniteAll, ih, List.forall_mem_cons]

theorem finiteMembers_iff {ms : List (Option String × Json)} :
    FiniteMembers ms ↔ ∀ m ∈ ms, m.2.Finite := by
  induction ms with
  | nil => simp [FiniteMembers]
  | cons m ms ih => rw [FiniteMembers, ih, List.forall_mem_cons]

theorem finite_readNumber (negative : Bool) (cs : List Char) :
    (readNumber negative cs).value.Finite := by
  rw [readNumber]
  split
  case h_1 m r _ =>
    cases hn : m.number? with
    | none => trivial
    | some n => exact Numeral.isFinite_number? hn
  case h_2 => trivial

theorem finite_readText (cs : List Char) : (readText cs).value.Finite := by
  rw [readText]
  split
  case h_1 s r _ => cases s <;> trivial
  case h_2 => trivial

mutual

theorem finite_readTree (cs : List Char) : (readTree cs).value.Finite := by
  rw [readTree.eq_def]
  split
  case h_4 cs => exact finite_readText cs
  case h_5 cs => exact finite_readNumber true cs
  case h_6 cs =>
    have hlt := ((Below.ofList cs).dropWhile isSpace).2
    dsimp only
    split
    · trivial
    · exact finite_readElements ((Below.ofList cs).dropWhile isSpace).1
  case h_7 cs =>
    have hlt := ((Below.ofList cs).dropWhile isSpace).2
    dsimp only
    split
    · trivial
    · exact finite_readMembers ((Below.ofList cs).dropWhile isSpace).1
  case h_8 => exact finite_readNumber false _
  all_goals trivial
termination_by 2 * cs.length
decreasing_by
  all_goals
    subst_vars
    simp only [List.length_cons]
    omega

theorem finite_readElements (cs : List Char) : FiniteAll (readElements cs).value := by
  rw [readElements.eq_def]
  have htree := finite_readTree cs
  dsimp only
  split
  case h_1 => exact ⟨htree, trivial⟩
  case h_2 =>
    split
    case h_1 => exact ⟨htree, trivial⟩
    case h_2 r _ =>
      have hlt := (r.dropWhile isSpace).2
      exact ⟨htree, finite_readElements (r.dropWhile isSpace).1⟩
    case h_3 => exact ⟨htree, trivial, trivial⟩
termination_by 2 * cs.length + 1
decreasing_by all_goals omega

theorem finite_readMembers (cs : List Char) : FiniteMembers (readMembers cs).value := by
  rw [readMembers.eq_def]
  split
  case h_2 => exact ⟨trivial, trivial⟩
  case h_1 cs =>
    split
    case h_1 => exact ⟨trivial, trivial⟩
    case h_2 key r _ =>
      split
      case h_2 => exact ⟨trivial, trivial⟩
      case h_1 r _ =>
        have hlt := (r.dropWhile isSpace).2
        have htree := finite_readTree (r.dropWhile isSpace).1
        dsimp only
        split
        case h_1 => exact ⟨htree, trivial⟩
        case h_2 t _ =>
          split
          case h_1 => exact ⟨htree, trivial⟩
          case h_2 u _ =>
            have hlt' := (u.dropWhile isSpace).2
            exact ⟨htree, finite_readMembers (u.dropWhile isSpace).1⟩
          case h_3 => exact ⟨htree, trivial, trivial⟩
termination_by 2 * cs.length
decreasing_by
  all_goals
    subst_vars
    simp only [List.length_cons]
    omega

end

mutual

theorem Finite.prune : ∀ {j : Json} (n : ℕ), j.Finite → (j.prune n).Finite
  | .null, _, h | .bool _, _, h | .number _, _, h | .string _, _, h => h
  | .unfit, _, h | .broken, _, h => h
  | .array js, 0, _ => by
    rw [Json.prune]
    split <;> trivial
  | .array js, n + 1, h => FiniteAll.prune n h
  | .object ms, 0, _ => by
    rw [Json.prune]
    split <;> trivial
  | .object ms, n + 1, h => FiniteMembers.prune n h

theorem FiniteAll.prune : ∀ {js : List Json} (n : ℕ), FiniteAll js → FiniteAll (pruneAll n js)
  | [], _, _ => trivial
  | _ :: _, n, h => ⟨Finite.prune n h.1, FiniteAll.prune n h.2⟩

theorem FiniteMembers.prune : ∀ {ms : List (Option String × Json)} (n : ℕ), FiniteMembers ms →
    FiniteMembers (pruneMembers n ms)
  | [], _, _ => trivial
  | _ :: _, n, h => ⟨Finite.prune n h.1, FiniteMembers.prune n h.2⟩

end

theorem finite_ofText (s : String) : (ofText s).1.Finite := finite_readTree _

end Targeting.Json
