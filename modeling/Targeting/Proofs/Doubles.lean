import Mathlib

/-!
Doubles as rationals. An operation rounds once, to the nearest double. Main statements: an integer becomes
the double nearest to it, and products and quotients that do not overflow are finite.
-/

namespace Targeting.Double

open Float.Model UnpackedFloat

variable {m k : ℕ} {e : ℤ} {s : Sign} {a : Accuracy} {em : ExtendedMantissa} {x y : Float}

theorem mantissa_shiftRight (em : ExtendedMantissa) (k : ℕ) :
    (em >>> k).mantissa = em.mantissa / 2 ^ k := by
  induction k with
  | zero => simp [HShiftRight.hShiftRight, Nat.repeat]
  | succ k ih =>
    change (em >>> k).mantissa / 2 = _
    rw [ih, Nat.div_div_eq_div_mul, pow_succ]

theorem roundedMantissa_bounds (em : ExtendedMantissa) :
    em.mantissa ≤ em.roundedMantissa ∧ em.roundedMantissa ≤ em.mantissa + 1 := by
  obtain ⟨m, round, sticky⟩ := em
  cases round <;> cases sticky <;>
    simp only [ExtendedMantissa.roundedMantissa, ExtendedMantissa.accuracy,
      Accuracy.roundToNearestEven] <;> omega

structure Keeps (em : ExtendedMantissa) (m k : ℕ) : Prop where
  mantissa : em.mantissa = m / 2 ^ k
  round : em.roundBit = true ↔ 2 ^ k ≤ 2 * (m % 2 ^ k)
  sticky : em.stickyBit = true ↔ m % 2 ^ k ≠ 0 ∧ 2 * (m % 2 ^ k) ≠ 2 ^ k

theorem Keeps.shiftRightOne (h : Keeps em m k) : Keeps em.shiftRightOne m (k + 1) := by
  have hmod : m % 2 ^ (k + 1) = m % 2 ^ k + 2 ^ k * (m / 2 ^ k % 2) := Nat.mod_pow_succ
  have hpow : 2 ^ (k + 1) = 2 * 2 ^ k := Nat.pow_succ'
  have hlt : m % 2 ^ k < 2 ^ k := Nat.mod_lt _ (Nat.two_pow_pos k)
  have hround := h.round
  have hsticky := h.sticky
  refine ⟨?_, ?_, ?_⟩
  · rw [ExtendedMantissa.shiftRightOne, h.mantissa, Nat.div_div_eq_div_mul, Nat.pow_succ]
  · rw [hmod, hpow, ExtendedMantissa.shiftRightOne, h.mantissa]
    rcases Nat.mod_two_eq_zero_or_one (m / 2 ^ k) with hbit | hbit
    · simp [hbit]
      omega
    · simp [hbit]
  · rw [hmod, hpow, ExtendedMantissa.shiftRightOne, Bool.or_eq_true, hround, hsticky]
    rcases Nat.mod_two_eq_zero_or_one (m / 2 ^ k) with hbit | hbit <;> simp only [hbit] <;> omega

theorem keeps_shiftRight (m k : ℕ) :
    Keeps (ExtendedMantissa.ofMantissaAndAccuracy m .exact >>> k) m k := by
  induction k with
  | zero =>
    change Keeps ⟨m, false, false⟩ m 0
    constructor <;> simp [Nat.mod_one]
  | succ k ih => exact ih.shiftRightOne

theorem Keeps.rounded (h : Keeps em m k) :
    (em.roundedMantissa = m / 2 ^ k ∧ 2 * (m % 2 ^ k) ≤ 2 ^ k ∨
      em.roundedMantissa = m / 2 ^ k + 1 ∧ 2 ^ k ≤ 2 * (m % 2 ^ k)) ∧
    (2 * (m % 2 ^ k) = 2 ^ k → em.roundedMantissa % 2 = 0) := by
  have hpos : 0 < 2 ^ k := Nat.two_pow_pos k
  obtain ⟨q, round, sticky⟩ := em
  obtain ⟨hq, hround, hsticky⟩ := h
  cases round <;> cases sticky <;>
    simp only [Bool.false_eq_true, false_iff, true_iff, ExtendedMantissa.roundedMantissa,
      ExtendedMantissa.accuracy, Accuracy.roundToNearestEven] at hq hround hsticky ⊢ <;> omega

theorem Keeps.two_mul_dist_le (h : Keeps em m k) :
    2 * |(em.roundedMantissa : ℤ) * 2 ^ k - m| ≤ 2 ^ k ∧
      (2 * |(em.roundedMantissa : ℤ) * 2 ^ k - m| = 2 ^ k → em.roundedMantissa % 2 = 0) := by
  have hm : (m : ℤ) = (m / 2 ^ k : ℕ) * 2 ^ k + (m % 2 ^ k : ℕ) := by
    exact_mod_cast (Nat.div_add_mod' m (2 ^ k)).symm
  have hlt : ((m % 2 ^ k : ℕ) : ℤ) < 2 ^ k := by exact_mod_cast Nat.mod_lt _ (Nat.two_pow_pos k)
  obtain ⟨hrounded, heven⟩ := h.rounded
  rcases hrounded with ⟨hr, hle⟩ | ⟨hr, hle⟩
  · have hdist : (em.roundedMantissa : ℤ) * 2 ^ k - m = -(m % 2 ^ k : ℕ) := by
      rw [hr, hm]
      ring
    rw [hdist, abs_neg, Nat.abs_cast]
    exact ⟨by exact_mod_cast hle, fun htie => heven (by exact_mod_cast htie)⟩
  · have hdist : (em.roundedMantissa : ℤ) * 2 ^ k - m = 2 ^ k - (m % 2 ^ k : ℕ) := by
      rw [hr, hm]
      push_cast
      ring
    have hle' : (2 : ℤ) ^ k ≤ 2 * (m % 2 ^ k : ℕ) := by exact_mod_cast hle
    rw [hdist, abs_of_nonneg (by omega)]
    refine ⟨by omega, fun htie => heven ?_⟩
    have htie' : (2 * (m % 2 ^ k : ℕ) : ℤ) = 2 ^ k := by omega
    exact_mod_cast htie'

theorem Keeps.dist_le (h : Keeps em m k) {z : ℤ} (hz : z ≠ em.roundedMantissa) :
    |(em.roundedMantissa : ℤ) * 2 ^ k - m| ≤ |z * 2 ^ k - m| ∧
      (|z * 2 ^ k - m| = |(em.roundedMantissa : ℤ) * 2 ^ k - m| → em.roundedMantissa % 2 = 0) := by
  obtain ⟨hle, heven⟩ := h.two_mul_dist_le
  have hunit : (2 : ℤ) ^ k ≤ |z * 2 ^ k - em.roundedMantissa * 2 ^ k| := by
    rw [← sub_mul, abs_mul, abs_of_pos (a := (2 : ℤ) ^ k) (by positivity)]
    exact le_mul_of_one_le_left (by positivity) (Int.one_le_abs (sub_ne_zero.2 hz))
  have htriangle := abs_sub_le (z * 2 ^ k) m (em.roundedMantissa * 2 ^ k)
  rw [abs_sub_comm (m : ℤ)] at htriangle
  exact ⟨by omega, fun htie => heven (by omega)⟩

def excess (m : ℕ) (e : ℤ) : ℕ := (max (m.log2 + e - 52) (-1074) - e).toNat

theorem targetExponent_eq (t : ℤ) : Format.binary64.targetExponent t = max (t - 53) (-1074) := by
  simp only [Format.targetExponent, Format.mantissaBits, Format.minExponent]
  omega

theorem shiftToTargetExponent_eq (m : ℕ) (e : ℤ) (a : Accuracy) :
    shiftToTargetExponent Format.binary64 m e a =
      (ExtendedMantissa.ofMantissaAndAccuracy m a >>> excess m e, e + excess m e) := by
  have htarget : Format.binary64.targetExponent (totalExponent m e) =
      max (m.log2 + e - 52) (-1074) := by
    rw [targetExponent_eq, totalExponent]
    congr 1
    omega
  rw [shiftToTargetExponent, htarget]
  rfl

theorem shiftToTargetExponent_rounded (hm : m ≤ 2 ^ 53) (he : -1074 ≤ e) :
    shiftToTargetExponent Format.binary64 m e .exact =
      if m < 2 ^ 53 then (⟨m, false, false⟩, e) else (⟨2 ^ 52, false, false⟩, e + 1) := by
  rw [shiftToTargetExponent_eq]
  split
  case isTrue hlt =>
    have hlog : m.log2 ≤ 52 := by
      by_cases hzero : m = 0
      · simp [hzero]
      · exact Nat.le_of_lt_succ ((Nat.log2_lt hzero).2 hlt)
    have hexcess : excess m e = 0 := by
      rw [excess]
      omega
    rw [hexcess]
    simp [HShiftRight.hShiftRight, Nat.repeat, ExtendedMantissa.ofMantissaAndAccuracy]
  case isFalse hlt =>
    obtain rfl : m = 2 ^ 53 := by omega
    have hexcess : excess (2 ^ 53) e = 1 := by
      rw [excess, Nat.log2_two_pow]
      omega
    rw [hexcess]
    rfl

theorem mantissa_ofMantissaAndAccuracy (m : ℕ) (a : Accuracy) :
    (ExtendedMantissa.ofMantissaAndAccuracy m a).mantissa = m := by
  fun_cases ExtendedMantissa.ofMantissaAndAccuracy <;> rfl

def rounded (m : ℕ) (e : ℤ) (a : Accuracy) : ℕ :=
  (ExtendedMantissa.ofMantissaAndAccuracy m a >>> excess m e).roundedMantissa

theorem rounded_bounds (m : ℕ) (e : ℤ) (a : Accuracy) :
    m / 2 ^ excess m e ≤ rounded m e a ∧ rounded m e a ≤ m / 2 ^ excess m e + 1 := by
  have h := roundedMantissa_bounds (ExtendedMantissa.ofMantissaAndAccuracy m a >>> excess m e)
  rwa [mantissa_shiftRight, mantissa_ofMantissaAndAccuracy] at h

theorem rounded_le (m : ℕ) (e : ℤ) (a : Accuracy) : rounded m e a ≤ 2 ^ 53 := by
  have hlog : m.log2 + 1 ≤ 53 + excess m e := by
    rw [excess]
    omega
  have hlt : m / 2 ^ excess m e < 2 ^ 53 := by
    rw [Nat.div_lt_iff_lt_mul (Nat.two_pow_pos _), ← Nat.pow_add]
    exact Nat.lt_log2_self.trans_le (Nat.pow_le_pow_right (by decide) hlog)
  have := (rounded_bounds m e a).2
  omega

theorem least_exponent_le (m : ℕ) (e : ℤ) : -1074 ≤ e + excess m e := by
  rw [excess]
  omega

theorem roundWithAccuracy_eq (s : Sign) (m : ℕ) (e : ℤ) (a : Accuracy) :
    roundWithAccuracy Format.binary64 s m e a =
      if h : rounded m e a = 0 then .zero s
      else if rounded m e a < 2 ^ 53 then
        .finite s (rounded m e a) (e + excess m e) (Nat.pos_of_ne_zero h)
      else .finite s (2 ^ 52) (e + excess m e + 1) (by decide) := by
  have hfirst := shiftToTargetExponent_eq m e a
  have hsecond := shiftToTargetExponent_rounded (rounded_le m e a) (least_exponent_le m e)
  rw [rounded] at hsecond ⊢
  rw [roundWithAccuracy, hfirst]
  simp only [hsecond]
  split
  case isTrue hlt => simp
  case isFalse hlt =>
    have hne : (ExtendedMantissa.ofMantissaAndAccuracy m a >>> excess m e).roundedMantissa ≠ 0 := by
      omega
    simp [hne]

def parts (x : Float) : UnpackedFloat := x.toModel.unpack

def ofParts (u : UnpackedFloat) : Float := .ofModel (.pack u)

structure Canonical (m : ℕ) (e : ℤ) : Prop where
  pos : 0 < m
  lt : m < 2 ^ 53
  least : -1074 ≤ e
  greatest : e ≤ 971
  normal : 2 ^ 52 ≤ m ∨ e = -1074

theorem unpackSign_packComponents {f : Format} (s : Sign) (n : BitVec f.exponentBits)
    (b : BitVec f.mantissaBitsWithoutImplicit) : unpackSign (packComponents f s n b) = s.toBitVec := by
  ext i hi
  obtain rfl : i = 0 := by omega
  simp [unpackSign, packComponents, BitVec.getLsbD_append, BitVec.getElem_append]

theorem ofBitVec_toBitVec (s : Sign) : Sign.ofBitVec s.toBitVec = s := by
  cases s <;> rfl

theorem toNat_one_append (b : BitVec 52) : (1#1 ++ b).toNat = 2 ^ 52 + b.toNat := by
  rw [BitVec.toNat_append, ← Nat.shiftLeft_add_eq_or_of_lt b.isLt]
  rfl

theorem unpack_eq (b : BitVec Format.binary64.numBits) :
    UnpackedFloat.unpack Format.binary64 b =
      if (unpackExponent b).toNat = 2047 then
        if (unpackMantissa b).toNat = 0 then .infinity (.ofBitVec (unpackSign b)) else .notANumber
      else if (unpackExponent b).toNat = 0 then
        if h : (unpackMantissa b).toNat = 0 then .zero (.ofBitVec (unpackSign b))
        else .finite (.ofBitVec (unpackSign b)) (unpackMantissa b).toNat (-1074) (Nat.pos_of_ne_zero h)
      else .finite (.ofBitVec (unpackSign b)) (2 ^ 52 + (unpackMantissa b).toNat)
        ((unpackExponent b).toNat - 1075) (by omega) := by
  have hmax : unpackExponent b = -1#11 ↔ (unpackExponent b).toNat = 2047 := BitVec.toNat_inj.symm
  have hmin : unpackExponent b = 0#11 ↔ (unpackExponent b).toNat = 0 := BitVec.toNat_inj.symm
  have hzero : unpackMantissa b = 0#52 ↔ (unpackMantissa b).toNat = 0 := BitVec.toNat_inj.symm
  simp only [UnpackedFloat.unpack, hmax, hmin, hzero, toNat_one_append]
  split_ifs with _ _ h
  · rfl
  · rfl
  · rfl
  · rw [h]
    rfl
  · rfl

theorem pack_eq {hm : 0 < m} :
    UnpackedFloat.pack Format.binary64 (.finite s m e hm) =
      if 971 < e then packedInfinity Format.binary64 s
      else packComponents Format.binary64 s
        (if m.log2 = 52 then BitVec.ofNat 11 (e + 1075).toNat else 0#11) (BitVec.ofNat 52 m) := by
  have hbiased : (e + Format.binary64.exponentBias + Format.binary64.mantissaBitsWithoutImplicit).toNat
      = (e + 1075).toNat := by
    simp only [Format.exponentBias]
    omega
  have hmax : 2 ^ Format.binary64.exponentBits ≤ (e + 1075).toNat + 1 ↔ 971 < e := by
    change 2 ^ 11 ≤ (e + 1075).toNat + 1 ↔ 971 < e
    omega
  have hnormal : m.log2 + 1 = Format.binary64.mantissaBits ↔ m.log2 = 52 := by
    change m.log2 + 1 = 1 + 52 ↔ m.log2 = 52
    omega
  simp only [UnpackedFloat.pack, hbiased, hmax, hnormal]
  split_ifs <;> rfl

theorem unpack_packComponents (s : Sign) (n : BitVec 11) (b : BitVec 52) :
    UnpackedFloat.unpack Format.binary64 (packComponents Format.binary64 s n b) =
      if n.toNat = 2047 then if b.toNat = 0 then .infinity s else .notANumber
      else if n.toNat = 0 then
        if h : b.toNat = 0 then .zero s else .finite s b.toNat (-1074) (Nat.pos_of_ne_zero h)
      else .finite s (2 ^ 52 + b.toNat) (n.toNat - 1075) (by omega) := by
  rw [unpack_eq]
  simp only [unpackExponent_packComponents, unpackMantissa_packComponents, unpackSign_packComponents,
    ofBitVec_toBitVec]

theorem parts_ofParts_of_lt {hm : 0 < m} (h : 971 < e) :
    parts (ofParts (.finite s m e hm)) = .infinity s := by
  change UnpackedFloat.unpack Format.binary64 (UnpackedFloat.pack Format.binary64 _) = _
  rw [pack_eq, if_pos h, packedInfinity, unpack_packComponents]
  rfl

theorem isFinite_ofParts {hm : 0 < m} (h : e ≤ 971) :
    (ofParts (.finite s m e hm)).isFinite = true := by
  change (UnpackedFloat.unpack Format.binary64 (UnpackedFloat.pack Format.binary64 _)).isFinite = true
  have hmax : (if m.log2 = 52 then BitVec.ofNat 11 (e + 1075).toNat else 0#11).toNat ≠ 2047 := by
    split
    case isTrue =>
      rw [BitVec.toNat_ofNat, Nat.mod_eq_of_lt (by omega)]
      omega
    case isFalse => decide
  rw [pack_eq, if_neg (by omega), unpack_packComponents, if_neg hmax]
  split_ifs <;> rfl

theorem parts_ofParts (h : Canonical m e) (s : Sign) :
    parts (ofParts (.finite s m e h.pos)) = .finite s m e h.pos := by
  obtain ⟨hpos, hlt, hleast, hgreatest, hnormal⟩ := h
  change UnpackedFloat.unpack Format.binary64 (UnpackedFloat.pack Format.binary64 _) = _
  rw [pack_eq, if_neg (by omega), unpack_packComponents]
  by_cases hm : 2 ^ 52 ≤ m
  case pos =>
    have hlog : m.log2 = 52 := (Nat.log2_eq_iff (by omega)).2 ⟨hm, hlt⟩
    have hn : (BitVec.ofNat 11 (e + 1075).toNat).toNat = (e + 1075).toNat := by
      rw [BitVec.toNat_ofNat, Nat.mod_eq_of_lt (by omega)]
    have hb : (BitVec.ofNat 52 m).toNat = m - 2 ^ 52 := by
      rw [BitVec.toNat_ofNat]
      omega
    simp only [hlog, if_true, hn, hb]
    rw [if_neg (by omega), if_neg (by omega), UnpackedFloat.finite.injEq]
    exact ⟨rfl, by omega, by omega⟩
  case neg =>
    have hlog : m.log2 ≠ 52 := fun hlog => hm (hlog ▸ Nat.log2_self_le (by omega))
    have hb : (BitVec.ofNat 52 m).toNat = m := by
      rw [BitVec.toNat_ofNat, Nat.mod_eq_of_lt (by omega)]
    obtain rfl : e = -1074 := hnormal.resolve_left hm
    simp [hlog, hb, Nat.ne_of_gt hpos]

theorem canonical_of_unpack {b : BitVec Format.binary64.numBits} {hm : 0 < m}
    (h : UnpackedFloat.unpack Format.binary64 b = .finite s m e hm) : Canonical m e := by
  have hb : (unpackMantissa b).toNat < 2 ^ 52 := (unpackMantissa b).isLt
  have hn : (unpackExponent b).toNat < 2 ^ 11 := (unpackExponent b).isLt
  rw [unpack_eq] at h
  split_ifs at h with hmax hzero hmin hzero
  · cases h
    exact ⟨hm, by omega, by omega, by omega, .inr rfl⟩
  · cases h
    exact ⟨hm, by omega, by omega, by omega, .inl (by omega)⟩

theorem canonical_of_parts {hm : 0 < m} (h : parts x = .finite s m e hm) : Canonical m e :=
  canonical_of_unpack h

theorem isFinite_iff : x.isFinite = true ↔
    (∃ s, parts x = .zero s) ∨ ∃ s m e hm, parts x = .finite s m e hm := by
  change (parts x).isFinite = true ↔ _
  cases parts x with
  | infinity s => simp [UnpackedFloat.isFinite]
  | notANumber => simp [UnpackedFloat.isFinite]
  | zero s => simp [UnpackedFloat.isFinite]
  | finite s m e hm => simp [UnpackedFloat.isFinite, hm]

theorem isFinite_zero (s : Sign) : (ofParts (.zero s)).isFinite = true := by
  cases s <;> rfl

theorem isFinite_roundWithAccuracy (s : Sign) (m : ℕ) (e : ℤ) (a : Accuracy) :
    (roundWithAccuracy Format.binary64 s m e a).isFinite = true := by
  rw [roundWithAccuracy_eq]
  split_ifs <;> rfl

theorem isFinite_or_isInf {u : UnpackedFloat} (h : u.isFinite = true) :
    (ofParts u).isFinite = true ∨ (ofParts u).isInf = true := by
  cases u with
  | infinity s => cases h
  | notANumber => cases h
  | zero s => exact .inl (isFinite_zero s)
  | finite s m e hm =>
    rcases Int.lt_or_le 971 e with he | he
    · exact .inr (congrArg UnpackedFloat.isInf (parts_ofParts_of_lt he))
    · exact .inl (isFinite_ofParts he)

theorem isFinite_mul (hx : x.isFinite = true) (hy : y.isFinite = true)
    (h : (x * y).isInf = false) : (x * y).isFinite = true := by
  have hmul : (UnpackedFloat.mul Format.binary64 (parts x) (parts y)).isFinite = true := by
    rcases isFinite_iff.1 hx with ⟨s, hs⟩ | ⟨s, m, e, hm, hs⟩ <;>
      rcases isFinite_iff.1 hy with ⟨s', hs'⟩ | ⟨s', m', e', hm', hs'⟩ <;> rw [hs, hs']
    · rfl
    · rfl
    · rfl
    · exact isFinite_roundWithAccuracy _ _ _ _
  refine (isFinite_or_isInf hmul).resolve_right fun hinf => ?_
  cases h.symm.trans hinf

theorem isFinite_round (h : (m.log2 : ℤ) + e ≤ 1022) (he : e ≤ 970) (s : Sign) (a : Accuracy) :
    (ofParts (roundWithAccuracy Format.binary64 s m e a)).isFinite = true := by
  have hexponent : e + excess m e ≤ 970 := by
    rw [excess]
    omega
  rw [roundWithAccuracy_eq]
  split_ifs
  · exact isFinite_zero s
  · exact isFinite_ofParts (by omega)
  · exact isFinite_ofParts (by omega)

theorem log2_mul_two_pow (h : m ≠ 0) (k : ℕ) : (m * 2 ^ k).log2 = m.log2 + k := by
  induction k with
  | zero => rw [pow_zero, mul_one, add_zero]
  | succ k ih => rw [pow_succ, ← mul_assoc, mul_comm, Nat.log2_two_mul (by positivity), ih, add_assoc]

theorem log2_shiftLeft_div_le (n k d : ℕ) :
    (n <<< k / d).log2 ≤ n.log2 + k - d.log2 := by
  by_cases hq : n <<< k / d = 0
  · simp [hq]
  have hd : d ≠ 0 := fun h => hq (by simp [h])
  have hn : n ≠ 0 := fun h => hq (by simp [h])
  have hle : 2 ^ ((n <<< k / d).log2 + d.log2) ≤ n * 2 ^ k := by
    rw [Nat.pow_add, ← Nat.shiftLeft_eq n]
    exact (Nat.mul_le_mul (Nat.log2_self_le hq) (Nat.log2_self_le hd)).trans
      (Nat.div_mul_le_self _ _)
  have hlog := (Nat.le_log2 (by positivity)).2 hle
  rw [log2_mul_two_pow hn] at hlog
  omega

def large (x : Float) : Bool :=
  match parts x with
  | .finite _ m e _ => decide (1 ≤ m.log2 + e)
  | _ => false

theorem isFinite_of_large (h : large x = true) : x.isFinite = true := by
  rw [large] at h
  split at h
  case h_1 s m e hm hs => exact isFinite_iff.2 (.inr ⟨s, m, e, hm, hs⟩)
  case h_2 => cases h

theorem isFinite_div (hx : x.isFinite = true) (hy : large y = true) : (x / y).isFinite = true := by
  change (ofParts (UnpackedFloat.div Format.binary64 (parts x) (parts y))).isFinite = true
  rw [large] at hy
  split at hy
  case h_2 => cases hy
  case h_1 s m e hm hparts =>
    have hlarge : 1 ≤ m.log2 + e := of_decide_eq_true hy
    rcases isFinite_iff.1 hx with ⟨s', hs'⟩ | ⟨s', n, f, hn, hs'⟩
    · rw [hs', hparts]
      exact isFinite_zero (s' / s)
    · have hlog : n.log2 < 53 := (Nat.log2_lt (by omega)).2 (canonical_of_parts hs').lt
      have hf := (canonical_of_parts hs').greatest
      rw [hs', hparts]
      simp only [UnpackedFloat.div, divCore, targetExponent_eq, totalExponent]
      refine isFinite_round ?_ (by omega) _ _
      generalize hg : min (f - e) (max (n.log2 + 1 + f - (m.log2 + 1 + e) - 53) (-1074)) = g
      have := log2_shiftLeft_div_le n (f - e - g).toNat m
      omega

theorem isFinite_neg (h : x.isFinite = true) : (-x).isFinite = true := by
  change (ofParts (parts x).neg).isFinite = true
  rcases isFinite_iff.1 h with ⟨s, hs⟩ | ⟨s, m, e, hm, hs⟩
  · rw [hs]
    exact isFinite_zero (-s)
  · rw [hs]
    exact isFinite_ofParts (canonical_of_parts hs).greatest

def rat (x : Float) : ℚ :=
  match parts x with
  | .finite s m e _ => s.apply m * 2 ^ e
  | _ => 0

def significand (x : Float) : ℕ :=
  match parts x with
  | .finite _ m _ _ => m
  | _ => 0

/-- No finite double is nearer, and another that is equally near does not have the even mantissa. -/
structure Nearest (v : ℚ) (x : Float) : Prop where
  finite : x.isFinite = true
  le : ∀ y : Float, y.isFinite = true → |rat x - v| ≤ |rat y - v|
  even : ∀ y : Float, y.isFinite = true → |rat y - v| = |rat x - v| → rat y ≠ rat x →
    significand x % 2 = 0

theorem rat_eq_or_lt (h : y.isFinite = true) (t : ℤ) :
    (∃ z : ℤ, rat y = z * 2 ^ t) ∨ rat y < 2 ^ 52 * 2 ^ t := by
  rcases isFinite_iff.1 h with ⟨s, hs⟩ | ⟨s, m, e, hm, hs⟩
  · exact .inl ⟨0, by simp [rat, hs]⟩
  · rcases Int.lt_or_le e t with hlt | hle
    · right
      have hsign : s.apply m ≤ m := by cases s <;> simp [Sign.apply]
      have hsplit : (2 : ℚ) ^ 52 * 2 ^ t = 2 ^ 53 * 2 ^ (t - 1) := by
        rw [zpow_sub_one₀ (by norm_num)]
        ring
      rw [rat, hs, hsplit]
      calc (s.apply m : ℚ) * 2 ^ e ≤ m * 2 ^ e :=
            mul_le_mul_of_nonneg_right (by exact_mod_cast hsign) (by positivity)
        _ < 2 ^ 53 * 2 ^ e :=
            mul_lt_mul_of_pos_right (by exact_mod_cast (canonical_of_parts hs).lt) (by positivity)
        _ ≤ 2 ^ 53 * 2 ^ (t - 1) :=
            mul_le_mul_of_nonneg_left (zpow_le_zpow_right₀ (by norm_num) (by omega)) (by positivity)
    · left
      refine ⟨s.apply m * 2 ^ (e - t).toNat, ?_⟩
      rw [rat, hs]
      push_cast
      rw [mul_assoc, ← zpow_natCast, ← zpow_add₀ (by norm_num)]
      congr 2
      omega

theorem two_pow_le_rounded (h : 52 ≤ m.log2) (h' : -1022 ≤ m.log2 + e) (a : Accuracy) :
    2 ^ 52 ≤ rounded m e a := by
  have hexcess : excess m e = m.log2 - 52 := by
    rw [excess]
    omega
  refine le_trans ?_ (rounded_bounds m e a).1
  rw [Nat.le_div_iff_mul_le (Nat.two_pow_pos _), ← Nat.pow_add, hexcess, Nat.add_sub_cancel' h]
  exact Nat.log2_self_le fun hm => by simp [hm] at h

theorem parts_round (h : 52 ≤ m.log2) (hlow : -1022 ≤ m.log2 + e) (hhigh : m.log2 + e ≤ 1022)
    (s : Sign) (a : Accuracy) : ∃ n f, ∃ hn : 0 < n,
      parts (ofParts (roundWithAccuracy Format.binary64 s m e a)) = .finite s n f hn ∧
      (n : ℚ) * 2 ^ f = rounded m e a * 2 ^ (e + excess m e) ∧
      (rounded m e a % 2 = 0 → n % 2 = 0) ∧ m.log2 + e ≤ n.log2 + f := by
  have hexponent : e + excess m e = m.log2 + e - 52 := by
    rw [excess]
    omega
  have hleast := two_pow_le_rounded h hlow a
  have hmost := rounded_le m e a
  rw [roundWithAccuracy_eq, dif_neg (by omega)]
  split
  case isTrue hlt =>
    have hcanonical : Canonical (rounded m e a) (e + excess m e) :=
      ⟨by omega, hlt, by omega, by omega, .inl hleast⟩
    have hlog : 52 ≤ (rounded m e a).log2 := (Nat.le_log2 (by omega)).2 hleast
    exact ⟨_, _, hcanonical.pos, parts_ofParts hcanonical s, rfl, id, by omega⟩
  case isFalse hlt =>
    have hcanonical : Canonical (2 ^ 52) (e + excess m e + 1) :=
      ⟨by decide, by decide, by omega, by omega, .inl le_rfl⟩
    have hrounded : rounded m e a = 2 * 2 ^ 52 := by omega
    have hlog : (2 ^ 52).log2 = 52 := Nat.log2_two_pow
    refine ⟨_, _, hcanonical.pos, parts_ofParts hcanonical s, ?_, fun _ => by decide, by omega⟩
    rw [hrounded, zpow_add_one₀ (by norm_num)]
    push_cast
    ring

/-- Doubles that are no multiples of `2 ^ t` are too far below `v` to be nearer than those that are. -/
theorem Nearest.of_grid {v : ℚ} {t : ℤ} (hx : x.isFinite = true) (hv : 2 ^ 52 * 2 ^ t ≤ v)
    (hle : ∀ z : ℤ, |rat x - v| ≤ |z * 2 ^ t - v|)
    (heven : ∀ z : ℤ, |z * 2 ^ t - v| = |rat x - v| → z * 2 ^ t ≠ rat x → significand x % 2 = 0) :
    Nearest v x := by
  have hfar {y : Float} (hy : rat y < 2 ^ 52 * 2 ^ t) : |rat x - v| < |rat y - v| := by
    have hleast := hle (2 ^ 52)
    rw [Int.cast_pow, Int.cast_ofNat, abs_of_nonpos (sub_nonpos.2 hv)] at hleast
    rw [abs_of_neg (sub_neg.2 (hy.trans_le hv))]
    linarith
  refine ⟨hx, fun y hy => ?_, fun y hy htie hne => ?_⟩
  · rcases rat_eq_or_lt hy t with ⟨z, hz⟩ | hlt
    · rw [hz]
      exact hle z
    · exact (hfar hlt).le
  · rcases rat_eq_or_lt hy t with ⟨z, hz⟩ | hlt
    · rw [hz] at htie hne
      exact heven z htie hne
    · exact absurd htie.symm (hfar hlt).ne

theorem nearest_round (h : 52 ≤ m.log2) (hlow : -1022 ≤ m.log2 + e) (hhigh : m.log2 + e ≤ 1022) :
    Nearest (m * 2 ^ e) (ofParts (roundWithAccuracy Format.binary64 .positive m e .exact)) := by
  obtain ⟨n, f, hn, hparts, hvalue, hparity, -⟩ := parts_round h hlow hhigh .positive .exact
  generalize ofParts (roundWithAccuracy Format.binary64 .positive m e .exact) = x at hparts
  have hkeeps : Keeps (ExtendedMantissa.ofMantissaAndAccuracy m .exact >>> excess m e) m (excess m e) :=
    keeps_shiftRight m (excess m e)
  have hunit : (0 : ℚ) < 2 ^ e := by positivity
  have hsplit : (2 : ℚ) ^ (e + excess m e) = 2 ^ excess m e * 2 ^ e := by
    rw [zpow_add₀ (by norm_num), zpow_natCast, mul_comm]
  have hrat : rat x = (rounded m e .exact : ℤ) * 2 ^ (e + excess m e) := by
    rw [rat, hparts]
    exact_mod_cast hvalue
  -- distances are counted in units of `2 ^ e`
  have hdist (z : ℤ) : |(z : ℚ) * 2 ^ (e + excess m e) - m * 2 ^ e| =
      (|z * 2 ^ excess m e - m| : ℤ) * 2 ^ e := by
    rw [hsplit, ← mul_assoc, ← sub_mul, abs_mul, abs_of_pos hunit]
    push_cast
    rfl
  have hbelow : (2 ^ 52 : ℚ) * 2 ^ (e + excess m e) ≤ m * 2 ^ e := by
    have hexcess : 52 + excess m e = m.log2 := by
      rw [excess]
      omega
    have hm : 2 ^ 52 * 2 ^ excess m e ≤ m := by
      rw [← Nat.pow_add, hexcess]
      exact Nat.log2_self_le fun hm => by simp [hm] at h
    rw [hsplit, ← mul_assoc]
    exact mul_le_mul_of_nonneg_right (by exact_mod_cast hm) hunit.le
  refine .of_grid (isFinite_iff.2 (.inr ⟨_, _, _, _, hparts⟩)) hbelow (fun z => ?_) fun z htie hne => ?_
  · by_cases hz : z = rounded m e .exact
    · rw [hz, hrat]
    · rw [hrat, hdist, hdist]
      exact mul_le_mul_of_nonneg_right (by exact_mod_cast (hkeeps.dist_le hz).1) hunit.le
  · have hz : z ≠ rounded m e .exact := fun hz => hne (by rw [hz, hrat])
    rw [hrat, hdist, hdist] at htie
    rw [significand, hparts]
    exact hparity ((hkeeps.dist_le hz).2 (by exact_mod_cast mul_right_cancel₀ hunit.ne' htie))

theorem log2_normalized (h : 0 < m) (hlt : m < 2 ^ 53) : (m * 2 ^ (52 - m.log2)).log2 = 52 := by
  have hlog : m.log2 < 53 := (Nat.log2_lt (by omega)).2 hlt
  rw [log2_mul_two_pow (by omega)]
  omega

theorem round_eq (h : 0 < m) (hlt : m < 2 ^ 53) (s : Sign) :
    UnpackedFloat.round Format.binary64 s m 0 =
      .finite s (m * 2 ^ (52 - m.log2)) (m.log2 - 52) (by positivity) := by
  have hlog : m.log2 < 53 := (Nat.log2_lt (by omega)).2 hlt
  have htarget : Format.binary64.targetExponent (totalExponent m 0) = m.log2 - 52 := by
    rw [targetExponent_eq, totalExponent]
    omega
  have hamount : (0 - ((m.log2 : ℤ) - 52)).toNat = 52 - m.log2 := by omega
  have hexponent : (0 : ℤ) - (52 - m.log2 : ℕ) = m.log2 - 52 := by omega
  have hlog' := log2_normalized h hlt
  have hexcess : excess (m * 2 ^ (52 - m.log2)) (m.log2 - 52) = 0 := by
    rw [excess]
    omega
  have hrounded : rounded (m * 2 ^ (52 - m.log2)) (m.log2 - 52) .exact = m * 2 ^ (52 - m.log2) := by
    rw [rounded, hexcess]
    rfl
  have hm : m * 2 ^ (52 - m.log2) < 2 ^ 53 := (Nat.log2_lt (by positivity)).1 (by omega)
  simp only [UnpackedFloat.round, htarget, decreaseExponent, Nat.shiftLeft_eq, hamount, hexponent,
    roundWithAccuracy_eq, hrounded, hexcess]
  rw [dif_neg (by positivity), if_pos hm]
  simp

theorem parts_ofUInt64 (h : 0 < m) (hlt : m < 2 ^ 53) : parts m.toUInt64.toFloat =
    .finite .positive (m * 2 ^ (52 - m.log2)) (m.log2 - 52) (by positivity) := by
  have hlog : m.log2 < 53 := (Nat.log2_lt (by omega)).2 hlt
  have hm : m.toUInt64.toNat = m := Nat.mod_eq_of_lt (by omega)
  have hcanonical : Canonical (m * 2 ^ (52 - m.log2)) (m.log2 - 52) := by
    have hbounds := (Nat.log2_eq_iff (by positivity)).1 (log2_normalized h hlt)
    exact ⟨by positivity, hbounds.2, by omega, by omega, .inl hbounds.1⟩
  change parts (ofParts (UnpackedFloat.normalize Format.binary64 m.toUInt64.toNat 0 .positive)) = _
  rw [hm, UnpackedFloat.normalize, Int.compare_eq_gt.2 (by omega)]
  simp only [Int.toNat_natCast, round_eq h hlt]
  exact parts_ofParts hcanonical .positive

theorem nearest_mul {n : ℕ} {f : ℤ} {hm : 0 < m} {hn : 0 < n} (hx : parts x = .finite .positive m e hm)
    (hy : parts y = .finite .positive n f hn) (h : 52 ≤ (m * n).log2)
    (hlow : -1022 ≤ (m * n).log2 + (e + f)) (hhigh : (m * n).log2 + (e + f) ≤ 1022) :
    Nearest (m * 2 ^ e * (n * 2 ^ f)) (x * y) := by
  change Nearest _ (ofParts (UnpackedFloat.mul Format.binary64 (parts x) (parts y)))
  have hvalue : (m * 2 ^ e * (n * 2 ^ f) : ℚ) = (m * n : ℕ) * 2 ^ (e + f) := by
    rw [zpow_add₀ (by norm_num)]
    push_cast
    ring
  rw [hx, hy, hvalue]
  exact nearest_round h hlow hhigh

theorem cast_mul_two_pow (m k : ℕ) : ((m * 2 ^ k : ℕ) : ℚ) * 2 ^ (-k : ℤ) = m := by
  rw [zpow_neg, zpow_natCast]
  push_cast
  exact mul_inv_cancel_right₀ (by positivity) _

theorem nearest_zero : Nearest 0 (Float.ofNat 0) := by
  have hrat : rat (Float.ofNat 0) = 0 := rfl
  refine ⟨rfl, fun y _ => ?_, fun _ _ _ _ => rfl⟩
  rw [hrat, sub_zero, abs_zero]
  exact abs_nonneg _

theorem ofScientific_eq (h : m ≠ 0) (hk : k ≤ 2048) : UnpackedFloat.ofScientific Format.binary64 m k =
    roundWithAccuracy Format.binary64 .positive (m * 2 ^ 53 * 10 ^ k) (-53) .exact := by
  have hbits : Format.binary64.mantissaBits = 53 := rfl
  have hmax : ¬ (k : ℤ) > 2 ^ Format.binary64.exponentBits := by
    change ¬ (k : ℤ) > 2 ^ 11
    omega
  rw [UnpackedFloat.ofScientific, dif_neg h, if_neg hmax, if_neg (by omega), if_pos (by omega)]
  simp only [UnpackedFloat.mul, hbits, Int.toNat_natCast, Nat.shiftLeft_eq, add_zero]
  rfl

theorem log2_le_of_lt (h : m < 2 ^ 64) : m.log2 ≤ 1022 := by
  rcases Nat.eq_zero_or_pos m with rfl | hm
  · decide
  · have hlog : m.log2 < 64 := (Nat.log2_lt hm.ne').2 h
    omega

theorem nearest_ofNat (h : m.log2 ≤ 1022) : Nearest m (Float.ofNat m) := by
  by_cases hzero : m = 0
  · subst hzero
    exact_mod_cast nearest_zero
  -- small integers are doubles, which are multiplied by one
  by_cases hlt : m < 2 ^ 53
  · have hlog : m.log2 < 53 := (Nat.log2_lt hzero).2 hlt
    have hscale : Float.ofNat m = m.toUInt64.toFloat * Float.ofBits 0x3FF0000000000000 := by
      change Float.ofScientific m false 0 = _
      rw [Float.ofScientific, dif_pos ⟨hlt, by decide⟩]
      rfl
    have hlog' : (m * 2 ^ (52 - m.log2) * 2 ^ 52).log2 = 104 := by
      rw [log2_mul_two_pow (by positivity), log2_normalized (by omega) hlt]
    have hexponent : (m.log2 : ℤ) - 52 = -(52 - m.log2 : ℕ) := by omega
    have hvalue : (m : ℚ) = (m * 2 ^ (52 - m.log2) : ℕ) * 2 ^ ((m.log2 : ℤ) - 52) *
        ((2 ^ 52 : ℕ) * 2 ^ (-52 : ℤ)) := by
      rw [hexponent, cast_mul_two_pow]
      norm_num
    rw [hscale, hvalue]
    exact nearest_mul (f := -52) (parts_ofUInt64 (by omega) hlt) rfl (by omega) (by omega) (by omega)
  · have hscale : Float.ofNat m =
        ofParts (roundWithAccuracy Format.binary64 .positive (m * 2 ^ 53) (-53) .exact) := by
      have hround := ofScientific_eq hzero (k := 0) (by decide)
      rw [pow_zero, mul_one] at hround
      change Float.ofScientific m false 0 = _
      rw [Float.ofScientific, dif_neg fun h => hlt h.1, ← hround]
      rfl
    have hlog' : (m * 2 ^ 53).log2 = m.log2 + 53 := log2_mul_two_pow hzero 53
    rw [hscale, ← cast_mul_two_pow m 53]
    exact nearest_round (by omega) (by omega) (by omega)

theorem parts_neg (h : x.isFinite = true) : parts (-x) = (parts x).neg := by
  change parts (ofParts (parts x).neg) = _
  rcases isFinite_iff.1 h with ⟨s, hs⟩ | ⟨s, m, e, hm, hs⟩ <;> rw [hs]
  · cases s <;> rfl
  · exact parts_ofParts (canonical_of_parts hs) (-s)

theorem rat_neg (h : x.isFinite = true) : rat (-x) = -rat x := by
  rw [rat, parts_neg h, rat]
  rcases isFinite_iff.1 h with ⟨s, hs⟩ | ⟨s, m, e, hm, hs⟩ <;> rw [hs]
  · exact neg_zero.symm
  · have hsign : (-s).apply m = -s.apply m := by
      cases s
      · exact (neg_neg _).symm
      · rfl
    simp only [UnpackedFloat.neg, hsign]
    push_cast
    ring

theorem significand_neg (h : x.isFinite = true) : significand (-x) = significand x := by
  rw [significand, parts_neg h, significand]
  rcases isFinite_iff.1 h with ⟨s, hs⟩ | ⟨s, m, e, hm, hs⟩ <;> rw [hs] <;> rfl

theorem Nearest.neg {v : ℚ} (h : Nearest v x) : Nearest (-v) (-x) := by
  have hdist (y : Float) (hy : y.isFinite = true) : |rat (-y) - v| = |rat y - -v| := by
    rw [rat_neg hy, ← abs_neg]
    congr 1
    ring
  have hx : |rat (-x) - -v| = |rat x - v| := by
    rw [rat_neg h.finite, ← abs_neg]
    congr 1
    ring
  refine ⟨isFinite_neg h.finite, fun y hy => ?_, fun y hy htie hne => ?_⟩
  · rw [hx, ← hdist y hy]
    exact h.le (-y) (isFinite_neg hy)
  · rw [significand_neg h.finite]
    refine h.even (-y) (isFinite_neg hy) ?_ fun heq => hne ?_
    · rw [hdist y hy, htie, hx]
    · rw [rat_neg h.finite, ← heq, rat_neg hy, neg_neg]

theorem nearest_ofInt {i : ℤ} (h : i.natAbs.log2 ≤ 1022) : Nearest i (Float.ofInt i) := by
  cases i with
  | ofNat n => exact_mod_cast nearest_ofNat h
  | negSucc n =>
    have hvalue : ((Int.negSucc n : ℤ) : ℚ) = -(n + 1 : ℕ) := by rw [Int.negSucc_eq]; push_cast; rfl
    rw [hvalue]
    exact (nearest_ofNat (m := n + 1) h).neg

end Targeting.Double
