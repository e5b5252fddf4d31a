import Targeting.Json.Plain
import Targeting.Proofs.FiniteNumbers
import Targeting.Proofs.JsonTexts

namespace Targeting

namespace Table

variable {α β : Type*}

theorem put_map (f : α → β) (k : String) (a : α) (es : List (String × α)) :
    put k (f a) (es.map fun e => (e.1, f e.2)) = (put k a es).map fun e => (e.1, f e.2) := by
  fun_induction put k a es with
  | case1 => rfl
  | case2 e es hk => simp [put, hk]
  | case3 e es _ hk => simp [put, hk]
  | case4 e es hlt hne ih => simp [put, hlt, hne, ih]

theorem insert_map (f : α → β) (t : Table α) (k : String) (a : α) :
    (t.map f).insert k (f a) = (t.insert k a).map f := by
  simp only [Table.map, insert, mk.injEq]
  exact put_map f k a t.entries

theorem get?_map (f : α → β) (t : Table α) (k : String) : (t.map f).get? k = (t.get? k).map f := by
  simp only [get?, Table.map]
  induction t.entries with
  | nil => rfl
  | cons e es ih =>
    rw [List.map_cons, lookup_cons_ite, lookup_cons_ite, ih]
    split <;> rfl

end Table

namespace Json

mutual

def fit : Json → Bool
  | .array js => fitAll js
  | .object ms => fitMembers ms
  | .unfit | .broken => false
  | _ => true

def fitAll : List Json → Bool
  | [] => true
  | j :: js => j.fit && fitAll js

def fitMembers : List (Option String × Json) → Bool
  | [] => true
  | (k, j) :: ms => k.isSome && j.fit && fitMembers ms

end

theorem toTable_map (es : List (String × Json)) (t : Table Value) :
    toTable t (es.map fun (k, j) => (some k, j)) =
      t.insertAll (es.map fun e => (e.1, e.2.toValue)) := by
  induction es generalizing t with
  | nil => rfl
  | cons e es ih => exact ih (t.insert e.1 e.2.toValue)

theorem valueOfPlain_object (ms : List (Option String × Json)) :
    (Json.object ms).valueOfPlain = .ofTable ((plainTable ∅ ms).map toValue) := by
  rw [valueOfPlain, plain, toValue, toTable_map]
  exact congrArg Value.ofTable (Table.ofList_entries ((plainTable ∅ ms).map toValue))

theorem valueOfPlain_array (js : List Json) :
    (Json.array js).valueOfPlain = .array (js.map valueOfPlain) := by
  have hall : toValues (plainAll js) = js.map valueOfPlain := by
    induction js with
    | nil => rfl
    | cons j js ih => exact congrArg (j.valueOfPlain :: ·) ih
  exact congrArg Value.array hall

mutual

theorem value_eq : ∀ j : Json, j.value = if j.fit then .ok j.valueOfPlain else .error .malformed
  | .null | .bool _ | .number _ | .string _ | .unfit | .broken => rfl
  | .array js => by
    rw [value, values_eq js, fit]
    split <;> rfl
  | .object ms => by
    have hentries := entries_eq ms ∅
    rw [value, valueOfPlain_object, fit]
    change (Value.ofTable <$> entries (Table.map toValue ∅) ms) = _
    rw [hentries]
    split <;> rfl

theorem values_eq : ∀ js : List Json,
    values js = if fitAll js then .ok (toValues (plainAll js)) else .error .malformed
  | [] => rfl
  | j :: js => by
    rw [values, value_eq j, values_eq js, fitAll]
    cases j.fit <;> cases fitAll js <;> rfl

theorem entries_eq : ∀ (ms : List (Option String × Json)) (t : Table Json),
    entries (t.map toValue) ms =
      if fitMembers ms then .ok ((plainTable t ms).map toValue) else .error .malformed
  | [], t => rfl
  | (none, j) :: ms, t => rfl
  | (some k, j) :: ms, t => by
    have hentries := entries_eq ms (t.insert k j.plain)
    rw [← Table.insert_map] at hentries
    rw [entries, value_eq j, fitMembers]
    cases j.fit with
    | false => rfl
    | true => exact hentries

end

mutual

theorem untagged_eq : ∀ j : Json, j.untagged = j.value.toOption
  | .null | .bool _ | .number _ | .string _ => by
    rw [untagged]
    rfl
  | .unfit | .broken => by
    rw [untagged]
    · rfl
    all_goals nofun
  | .array js => by
    rw [untagged, value, untaggedAll_eq js]
    cases values js <;> rfl
  | .object ms => by
    rw [untagged, value, untaggedEntries_eq ms]
    cases entries ∅ ms <;> rfl

theorem untaggedAll_eq : ∀ js : List Json, untaggedAll js = (values js).toOption
  | [] => rfl
  | j :: js => by
    rw [untaggedAll, values, untagged_eq j, untaggedAll_eq js]
    cases j.value with
    | error e => rfl
    | ok v => cases values js <;> rfl

theorem untaggedEntries_eq : ∀ (ms : List (Option String × Json)) (t : Table Value),
    untaggedEntries t ms = (entries t ms).toOption
  | [], _ => rfl
  | (k, j) :: ms, t => by
    rw [untaggedEntries, entries, untagged_eq j]
    cases k with
    | none => rfl
    | some k =>
      cases j.value with
      | error e => rfl
      | ok v => exact untaggedEntries_eq ms (t.insert k v)

end

theorem get?_plainTable (ms : List (Option String × Json)) (t : Table Json) (k : String)
    (h : fitMembers ms = true) :
    (plainTable t ms).get? k = ((ms.reverse.lookup (some k)).map plain).or (t.get? k) := by
  induction ms generalizing t with
  | nil => rfl
  | cons m ms ih =>
    obtain ⟨key, j⟩ := m
    cases key with
    | none => cases h
    | some key =>
      have hms : fitMembers ms = true := by
        rw [fitMembers, Bool.and_eq_true] at h
        exact h.2
      rw [plainTable, ih _ hms, List.reverse_cons, List.lookup_append, Table.get?_insert]
      by_cases hk : k = key
      · simp [hk]
      · have hkey : (some k == some key) = false := by simpa using hk
        simp [hk, List.lookup_cons, hkey]

mutual

def depth : Json → ℕ
  | .array js => depthAll js + 1
  | .object ms => depthMembers ms + 1
  | _ => 0

def depthAll : List Json → ℕ
  | [] => 0
  | j :: js => max j.depth (depthAll js)

def depthMembers : List (Option String × Json) → ℕ
  | [] => 0
  | (_, j) :: ms => max j.depth (depthMembers ms)

end

mutual

theorem fit_prune : ∀ (j : Json) (n : ℕ),
    (j.prune n).fit = true ↔ j.fit = true ∧ j.depth ≤ n
  | .null, _ | .bool _, _ | .number _, _ | .string _, _ => by simp [prune, fit, depth]
  | .unfit, _ | .broken, _ => by simp [prune, fit]
  | .array js, 0 | .object js, 0 => by
    rw [prune]
    split <;> simp [fit, depth]
  | .array js, n + 1 => by
    rw [prune, fit, fitAll_prune js n, fit, depth, Nat.add_le_add_iff_right]
  | .object ms, n + 1 => by
    rw [prune, fit, fitMembers_prune ms n, fit, depth, Nat.add_le_add_iff_right]

theorem fitAll_prune : ∀ (js : List Json) (n : ℕ),
    fitAll (pruneAll n js) = true ↔ fitAll js = true ∧ depthAll js ≤ n
  | [], _ => by simp [pruneAll, fitAll, depthAll]
  | j :: js, n => by
    simp only [pruneAll, fitAll, depthAll, Bool.and_eq_true, max_le_iff, fit_prune j n,
      fitAll_prune js n]
    exact and_and_and_comm

theorem fitMembers_prune : ∀ (ms : List (Option String × Json)) (n : ℕ),
    fitMembers (pruneMembers n ms) = true ↔ fitMembers ms = true ∧ depthMembers ms ≤ n
  | [], _ => by simp [pruneMembers, fitMembers, depthMembers]
  | (k, j) :: ms, n => by
    simp only [pruneMembers, fitMembers, depthMembers, Bool.and_eq_true, max_le_iff, fit_prune j n,
      fitMembers_prune ms n, and_assoc]
    tauto

end

mutual

theorem prune_of_fit : ∀ (j : Json) (n : ℕ), (j.prune n).fit = true → j.prune n = j
  | .null, _, _ | .bool _, _, _ | .number _, _, _ | .string _, _, _ => rfl
  | .unfit, _, _ | .broken, _, _ => rfl
  | .array js, 0, h => by
    rw [prune] at h
    split at h <;> cases h
  | .array js, n + 1, h => by
    rw [prune, fit] at h
    rw [prune, pruneAll_of_fit js n h]
  | .object ms, 0, h => by
    rw [prune] at h
    split at h <;> cases h
  | .object ms, n + 1, h => by
    rw [prune, fit] at h
    rw [prune, pruneMembers_of_fit ms n h]

theorem pruneAll_of_fit : ∀ (js : List Json) (n : ℕ), fitAll (pruneAll n js) = true →
    pruneAll n js = js
  | [], _, _ => rfl
  | j :: js, n, h => by
    rw [pruneAll, fitAll, Bool.and_eq_true] at h
    rw [pruneAll, prune_of_fit j n h.1, pruneAll_of_fit js n h.2]

theorem pruneMembers_of_fit : ∀ (ms : List (Option String × Json)) (n : ℕ),
    fitMembers (pruneMembers n ms) = true → pruneMembers n ms = ms
  | [], _, _ => rfl
  | (k, j) :: ms, n, h => by
    rw [pruneMembers, fitMembers, Bool.and_eq_true, Bool.and_eq_true] at h
    rw [pruneMembers, prune_of_fit j n h.1.2, pruneMembers_of_fit ms n h.2]

end

def wellFormed (s : String) : Bool := (ofText s).2 && ((ofText s).1.prune levels).fit

theorem decode_value (s : String) : decode value s =
    if wellFormed s then .ok (ofText s).1.valueOfPlain else .error .malformed := by
  simp only [decode, wellFormed, value_eq, Bool.and_eq_true]
  by_cases hfit : ((ofText s).1.prune levels).fit = true
  · have hprune := prune_of_fit _ levels hfit
    rw [hprune] at hfit ⊢
    simp only [hfit, and_true, if_true]
    split <;> rfl
  · simp [hfit, bind, Except.bind]

theorem wellFormed_iff {s : String} :
    wellFormed s = true ↔ ∃ j, TextOf s j ∧ j.fit = true ∧ j.depth ≤ levels := by
  simp only [wellFormed, Bool.and_eq_true, fit_prune, ← ofText_eq_iff]
  constructor
  · rintro ⟨hclean, hfit⟩
    exact ⟨(ofText s).1, Prod.ext rfl hclean, hfit⟩
  · rintro ⟨j, hj, hfit⟩
    rw [hj]
    exact ⟨rfl, hfit⟩

theorem TextOf.decode_value {s : String} {j : Json} (h : TextOf s j) : decode value s =
    if j.fit = true ∧ j.depth ≤ levels then .ok j.valueOfPlain else .error .malformed := by
  rw [Json.decode_value, wellFormed, ofText_eq_iff.2 h, Bool.true_and]
  simp only [fit_prune]

theorem Spells.textOf {s : String} {j : Json} (h : Spells s.toList j) : TextOf s j :=
  ⟨[], s.toList, [], by simp, nofun, h, nofun⟩

theorem head_toDigits {n : ℕ} (h : 0 < n) (ds : List Char) : Nat.toDigits 10 n ≠ '0' :: ds := by
  induction n using Nat.strongRecOn generalizing ds with
  | ind n ih =>
    rw [Nat.toDigits_eq_if (by decide)]
    split
    case isTrue hlt =>
      interval_cases n <;> simp [Nat.digitChar]
    case isFalse hge =>
      intro heq
      cases hdigits : Nat.toDigits 10 (n / 10) with
      | nil => exact Nat.toDigits_ne_nil hdigits
      | cons c cs =>
        rw [hdigits] at heq
        obtain ⟨rfl, -⟩ := List.cons.inj heq
        exact ih (n / 10) (by omega) (by omega) cs hdigits

theorem valueOf_digitOf (cs : List Char) :
    Numeral.valueOf (cs.map digitOf) = Nat.ofDigitChars 10 cs 0 := by
  rw [Numeral.valueOf, List.foldl_map, Nat.ofDigitChars]
  simp only [digitOf, mul_comm]

theorem eq_zero_of_digitOf {c : Char} (h : c.isDigit = true) (hc : digitOf c = 0) : c = '0' := by
  simp only [Char.isDigit, Bool.and_eq_true, decide_eq_true_eq, ge_iff_le, UInt32.le_iff_toNat_le] at h
  have hzero : ('0' : Char).toNat = 48 := rfl
  have hle : 48 ≤ c.toNat := h.1
  rw [digitOf, hzero] at hc
  exact Char.toNat_inj.1 (by omega)

def literal (negative : Bool) (n : ℕ) : Numeral :=
  ⟨negative, (Nat.toDigits 10 n).map digitOf, [], none⟩

theorem unsigned_literal (negative : Bool) (n : ℕ) :
    Unsigned negative (Nat.toDigits 10 n) (literal negative n) := by
  have hdigit : ∀ c ∈ Nat.toDigits 10 n, c.isDigit = true :=
    fun c => Nat.isDigit_of_mem_toDigits (by decide) (by decide)
  have hzero : ∀ ds, (Nat.toDigits 10 n).map digitOf = 0 :: ds → ds = [] := by
    intro ds hds
    obtain ⟨c, cs, hcs, hc, rfl⟩ := List.map_eq_cons_iff.1 hds
    have hc : c = '0' := eq_zero_of_digitOf (hdigit c (hcs ▸ List.mem_cons_self)) hc
    rcases Nat.eq_zero_or_pos n with rfl | hn
    · cases hcs
      rfl
    · exact absurd (hc ▸ hcs) (head_toDigits hn cs)
  have hdigits : Digits (Nat.toDigits 10 n) ((Nat.toDigits 10 n).map digitOf) := by
    cases h : Nat.toDigits 10 n with
    | nil => exact absurd h Nat.toDigits_ne_nil
    | cons c cs => exact .run (h ▸ hdigit)
  have hparts : Unsigned negative (Nat.toDigits 10 n ++ [] ++ []) (literal negative n) :=
    .parts hdigits hzero .absent .absent
  simpa using hparts

theorem valueOf_literal (n : ℕ) : Numeral.valueOf ((Nat.toDigits 10 n).map digitOf) = n := by
  rw [valueOf_digitOf, Nat.ofDigitChars_toDigits (by decide) (by decide)]

theorem spells_literal {negative : Bool} {n : ℕ} {k : Number}
    (h : (literal negative n).number? = some k) :
    Spells ((if negative then ['-'] else []) ++ Nat.toDigits 10 n) (.number k) := by
  have hnumeral := unsigned_literal negative n
  cases negative with
  | false =>
    have hspells := Spells.number hnumeral
    rwa [h] at hspells
  | true =>
    have hspells := Spells.minus hnumeral
    rwa [h] at hspells

theorem spells_toString {i : ℤ} (h : -2 ^ 63 ≤ i) (h' : i < 2 ^ 64) :
    Spells (toString i).toList (.number (.integer i)) := by
  cases i with
  | ofNat n =>
    rw [Int.ofNat_eq_natCast] at h' ⊢
    have hn : n < UInt64.size := by
      rw [UInt64.size]
      omega
    have hnumber : (literal false n).number? = some (.integer n) := by
      simp [Numeral.number?, Numeral.integer?, literal, valueOf_literal, hn]
    have htext : (toString (n : ℤ)).toList = Nat.toDigits 10 n := String.toList_ofList
    rw [htext]
    exact spells_literal hnumber
  | negSucc n =>
    have hn : n + 1 ≤ UInt64.size / 2 := by
      rw [UInt64.size]
      omega
    have hnumber : (literal true (n + 1)).number? = some (.integer (.negSucc n)) := by
      simp [Numeral.number?, Numeral.integer?, literal, valueOf_literal, hn]
      omega
    have htext : (toString (Int.negSucc n)).toList = '-' :: Nat.toDigits 10 (n + 1) := by
      change ("-" ++ Nat.repr (n + 1)).toList = _
      rw [Nat.repr_eq_ofList_toDigits, String.toList_append, String.toList_ofList,
        String.toList_ofList]
      rfl
    rw [htext]
    exact spells_literal hnumber

theorem log2_natAbs {i : ℤ} (h : -2 ^ 63 ≤ i) (h' : i < 2 ^ 64) : i.natAbs.log2 ≤ 1022 :=
  Double.log2_le_of_lt (by omega)

theorem Numeral.scale_zero : scale (Float.ofNat 0) 0 = some 0 := by
  rw [scale.eq_def]
  rfl

theorem Numeral.number?_minusZero :
    (⟨true, [0], [], none⟩ : Numeral).number? = some (.float (-0)) := by
  have hfloat : (⟨true, [0], [], none⟩ : Numeral).float? = (scale (Float.ofNat 0) 0).map (- ·) := rfl
  rw [number?, hfloat, scale_zero]
  rfl

theorem spells_minusZero : Spells "-0".toList (.number (.float (-0))) :=
  have hnumber : (literal true 0).number? = some (.float (-0)) := Numeral.number?_minusZero
  spells_literal hnumber

theorem Spells.decode_value {s : String} {n : Number} (h : Spells s.toList (.number n)) :
    decode value s = .ok (.number n.toFloat) := by
  rw [h.textOf.decode_value, if_pos ⟨rfl, Nat.zero_le _⟩]
  rfl

/-- A text is read at once, variant by variant, as it is by way of its plain tree. Integers of 64 bits
become the nearest doubles, a zero keeps its sign, and of two members of a key the last one stays. -/
theorem value_eq_valueOfPlain :
    (∀ j : Json, j.value = if j.fit then .ok j.valueOfPlain else .error .malformed) ∧
    (∀ j : Json, j.untagged = if j.fit then some j.valueOfPlain else none) ∧
    (∀ (s : String) (j : Json), TextOf s j → decode value s =
      if j.fit = true ∧ j.depth ≤ levels then .ok j.valueOfPlain else .error .malformed) ∧
    (∀ s : String, (∀ j, ¬ TextOf s j) → decode value s = .error .malformed) ∧
    (∀ i : ℤ, -2 ^ 63 ≤ i → i < 2 ^ 64 → Spells (toString i).toList (.number (.integer i)) ∧
      (Json.number (.integer i)).valueOfPlain = .number (Float.ofInt i) ∧
      decode value (toString i) = .ok (.number (Float.ofInt i)) ∧ Double.Nearest i (Float.ofInt i)) ∧
    (Spells "-0".toList (.number (.float (-0))) ∧ decode value "-0" = .ok (.number (-0)) ∧
      (Json.number (.float (-0))).valueOfPlain = .number (-0)) ∧
    (∀ js : List Json, (Json.array js).valueOfPlain = .array (js.map valueOfPlain)) ∧
    ∀ ms : List (Option String × Json), (Json.object ms).fit = true →
      ∃ t : Table Value, (Json.object ms).valueOfPlain = .ofTable t ∧
        (∀ k, t.get? k = (ms.reverse.lookup (some k)).map valueOfPlain) ∧
        ∀ s, TextOf s (.object ms) → (Json.object ms).depth ≤ levels →
          decode value s = .ok (.ofTable t) := by
  refine ⟨value_eq, fun j => ?_, fun s j h => h.decode_value, fun s h => ?_, fun i h h' => ?_,
    ⟨spells_minusZero, spells_minusZero.decode_value, rfl⟩, valueOfPlain_array, fun ms h => ?_⟩
  · rw [untagged_eq, value_eq]
    split <;> rfl
  · rw [decode_value, if_neg]
    intro hwell
    obtain ⟨j, hj, -⟩ := wellFormed_iff.1 hwell
    exact h j hj
  · have hspells := spells_toString h h'
    exact ⟨hspells, rfl, hspells.decode_value, Double.nearest_ofInt (log2_natAbs h h')⟩
  · have hobject := valueOfPlain_object ms
    refine ⟨_, hobject, fun k => ?_, fun s hs hdepth => ?_⟩
    · rw [Table.get?_map, get?_plainTable ms ∅ k h, Table.get?_empty, Option.or_none, Option.map_map]
      rfl
    · rw [hs.decode_value, if_pos ⟨h, hdepth⟩, hobject]

theorem value_eq_valueOfPlain_repeated :
    let s := "\x7b\"a\":0,\"a\":[\x7b\"a\":null,\"a\":9007199254740993\x7d]\x7d"
    let v : Value := .array [.ofTable ⟨[("a", .number 9007199254740992)], by decide⟩]
    decode value s = .ok (.ofTable ⟨[("a", v)], by decide⟩) ∧
    (∃ t : Table Value, decode value s = .ok (.ofTable t) ∧ t.get? "a" = some v) ∧
    Double.Nearest 9007199254740993 9007199254740992 ∧
    decode value "[1,]" = .error .malformed := by
  intro s v
  obtain ⟨-, -, htext, hbroken, hinteger, -, -, hlast⟩ := value_eq_valueOfPlain
  obtain ⟨hlarge, -, -, hnearest⟩ := hinteger 9007199254740993 (by decide) (by decide)
  have hzero : Spells ['0'] (.number (.integer 0)) := (hinteger 0 (by decide) (by decide)).1
  have hgap : Space [] := nofun
  have hkey : Pieces ['a'] [.char 'a'] := .plain (by decide) (by decide) (by decide) .nil
  have hpair {us : List Char} {j : Json} (h : Spells us j) :
      Member ('"' :: 'a' :: '"' :: ':' :: us) (some "a", j) := .pair hkey hgap hgap h
  let inner : Json := .object [(some "a", .null), (some "a", .number (.integer 9007199254740993))]
  have hinner := Spells.object hgap (.more (hpair .null) hgap hgap (.last (hpair hlarge) hgap))
  let ms : List (Option String × Json) :=
    [(some "a", .number (.integer 0)), (some "a", .array [inner])]
  have hms : Spells s.toList (.object ms) := by
    have hspells := Spells.object hgap (.more (hpair hzero) hgap hgap
      (.last (hpair (.array hgap (.last hinner hgap))) hgap))
    convert hspells using 1
    decide +kernel
  have hfit : (Json.object ms).fit = true := by decide +kernel
  have hdepth : (Json.object ms).depth ≤ levels := by decide +kernel
  have hrounded : Float.ofInt 9007199254740993 = 9007199254740992 := by decide +kernel
  have hinside : inner.valueOfPlain = .ofTable ⟨[("a", .number 9007199254740992)], by decide⟩ :=
    congrArg (fun x : Float => Value.ofTable ⟨[("a", .number x)], List.pairwise_singleton _ _⟩) hrounded
  have hvalue : (Json.object ms).valueOfPlain = .ofTable ⟨[("a", v)], by decide⟩ :=
    congrArg (fun u : Value => Value.ofTable ⟨[("a", .array [u])], List.pairwise_singleton _ _⟩) hinside
  refine ⟨?_, ?_, ?_, ?_⟩
  · rw [htext s _ hms.textOf, if_pos ⟨hfit, hdepth⟩, hvalue]
  · obtain ⟨t, -, hget, hread⟩ := hlast ms hfit
    refine ⟨t, hread s hms.textOf hdepth, (hget "a").trans ?_⟩
    exact congrArg (fun u : Value => some (Value.array [u])) hinside
  · rw [hrounded] at hnearest
    exact_mod_cast hnearest
  · refine hbroken _ fun j hj => ?_
    have hclean : (ofText "[1,]").2 = false := by cbv
    rw [ofText_eq_iff.2 hj] at hclean
    cases hclean

/-- Twenty digits three do not fit 64 bits: the first nineteen are rounded, then ten times the result. -/
theorem decode_value_not_nearest :
    decode value "33333333333333333333" = .ok (.number 33333333333333336064) ∧
    Double.Nearest 33333333333333333333 33333333333333331968 ∧
    ¬ Double.Nearest 33333333333333333333 33333333333333336064 := by
  refine ⟨Spells.decode_value (n := .float 33333333333333336064) ?_, ?_, fun h => ?_⟩
  · have hnumeral : Unsigned false (List.replicate 20 '3') ⟨false, List.replicate 20 3, [], none⟩ := by
      have hdigits : Nat.toDigits 10 33333333333333333333 = List.replicate 20 '3' := by decide +kernel
      have hliteral := unsigned_literal false 33333333333333333333
      rwa [literal, hdigits] at hliteral
    have hinteger : (⟨false, List.replicate 20 3, [], none⟩ : Numeral).integer? = none := by
      decide +kernel
    have hfloat : (⟨false, List.replicate 20 3, [], none⟩ : Numeral).float? =
        some 33333333333333336064 := by decide +kernel
    have hspells := Spells.number hnumeral
    rwa [Numeral.number?, hinteger, hfloat] at hspells
  · have hrounded : Float.ofNat 33333333333333333333 = 33333333333333331968 := by decide +kernel
    rw [← hrounded]
    exact_mod_cast Double.nearest_ofNat (m := 33333333333333333333) (by decide +kernel)
  · have hfinite : (33333333333333331968 : Float).isFinite = true := by decide +kernel
    have hnear : Double.rat 33333333333333331968 = 33333333333333331968 := by decide +kernel
    have hfar : Double.rat 33333333333333336064 = 33333333333333336064 := by decide +kernel
    have hle := h.le 33333333333333331968 hfinite
    rw [hnear, hfar] at hle
    norm_num at hle

end Json

end Targeting
