import Targeting.Proofs.JsonTokens

namespace Targeting.Json

def Space (cs : List Char) : Prop := ∀ c ∈ cs, isSpace c = true

mutual

/-- A number out of range or half of a surrogate pair leaves an unfit leaf, or no key. -/
inductive Spells : List Char → Json → Prop
  | null : Spells ['n', 'u', 'l', 'l'] .null
  | true : Spells ['t', 'r', 'u', 'e'] (.bool true)
  | false : Spells ['f', 'a', 'l', 's', 'e'] (.bool false)
  | number {us : List Char} {m : Numeral} : Unsigned false us m →
      Spells us ((m.number?.map .number).getD .unfit)
  | minus {us : List Char} {m : Numeral} : Unsigned true us m →
      Spells ('-' :: us) ((m.number?.map .number).getD .unfit)
  | string {us : List Char} {ps : List Piece} : Pieces us ps →
      Spells ('"' :: us ++ ['"']) (((joinPieces [] ps).map .string).getD .unfit)
  | emptyArray {gap : List Char} : Space gap → Spells ('[' :: gap ++ [']']) (.array [])
  | array {gap us : List Char} {js : List Json} : Space gap → Elements us js →
      Spells ('[' :: gap ++ us) (.array js)
  | emptyObject {gap : List Char} : Space gap → Spells ('\x7b' :: gap ++ ['\x7d']) (.object [])
  | object {gap us : List Char} {ms : List (Option String × Json)} : Space gap → Members us ms →
      Spells ('\x7b' :: gap ++ us) (.object ms)

/-- The bracket that closes the array belongs to its elements. -/
inductive Elements : List Char → List Json → Prop
  | last {us gap : List Char} {j : Json} : Spells us j → Space gap → Elements (us ++ gap ++ [']']) [j]
  | more {us gap gap' vs : List Char} {j : Json} {js : List Json} : Spells us j → Space gap →
      Space gap' → Elements vs js → Elements (us ++ gap ++ ',' :: gap' ++ vs) (j :: js)

inductive Members : List Char → List (Option String × Json) → Prop
  | last {us gap : List Char} {m : Option String × Json} : Member us m → Space gap →
      Members (us ++ gap ++ ['\x7d']) [m]
  | more {us gap gap' vs : List Char} {m : Option String × Json} {ms : List (Option String × Json)} :
      Member us m → Space gap → Space gap' → Members vs ms →
      Members (us ++ gap ++ ',' :: gap' ++ vs) (m :: ms)

inductive Member : List Char → Option String × Json → Prop
  | pair {ks gap gap' us : List Char} {ps : List Piece} {j : Json} : Pieces ks ps → Space gap →
      Space gap' → Spells us j →
      Member ('"' :: ks ++ '"' :: gap ++ ':' :: gap' ++ us) (joinPieces [] ps, j)

end

def TextOf (s : String) (j : Json) : Prop :=
  ∃ gap us gap', s.toList = gap ++ (us ++ gap') ∧ Space gap ∧ Spells us j ∧ Space gap'

namespace Reading

variable {m n : ℕ}

def out (r : Reading n α) : α × Option (List Char) := (r.value, r.rest.map (·.1))

@[simp] theorem out_widen (r : Reading m α) (h : m ≤ n) : (r.widen h).out = r.out := by
  obtain ⟨a, _ | t⟩ := r <;> rfl

@[simp] theorem out_map (f : α → β) (r : Reading n α) : (r.map f).out = (f r.out.1, r.out.2) := rfl

end Reading

variable {cs ds us rest : List Char} {j : Json} {js : List Json} {ms : List (Option String × Json)}

theorem out_readNumber {negative : Bool} {m : Numeral} (hcs : cs = us ++ rest)
    (h : Unsigned negative us m) (hrest : Stops continues rest) :
    (readNumber negative cs).out = ((m.number?.map .number).getD .unfit, some rest) := by
  obtain ⟨t, ht, rfl⟩ := taken_eq_some.1 (readNumeral?_eq hcs h hrest)
  rw [readNumber, ht]
  rfl

theorem of_readNumber {negative : Bool} (h : (readNumber negative cs).out = (j, some rest)) :
    ∃ us m, cs = us ++ rest ∧ Unsigned negative us m ∧ j = (m.number?.map .number).getD .unfit := by
  rw [readNumber] at h
  split at h
  case h_1 m r hread =>
    cases h
    obtain ⟨us, hus, hm⟩ := of_readNumeral? hread
    exact ⟨us, m, hus, hm, rfl⟩
  case h_2 => cases h

theorem out_readText (cs : List Char) : (readText cs).out =
    match taken (readString cs) with
    | some (s, rest) => ((s.map .string).getD .unfit, some rest)
    | none => (.broken, none) := by
  rw [readText]
  cases readString cs <;> rfl

theorem of_readText (h : (readText cs).out = (j, some rest)) :
    ∃ us ps, cs = us ++ '"' :: rest ∧ Pieces us ps ∧
      j = ((joinPieces [] ps).map .string).getD .unfit := by
  rw [out_readText] at h
  split at h
  case h_1 hs =>
    obtain ⟨us, ps, hcs, hps, rfl⟩ := of_readString hs
    cases h
    exact ⟨us, ps, hcs, hps, rfl⟩
  case h_2 => cases h

theorem out_readTree_array (cs : List Char) : (readTree ('[' :: cs)).out =
    match cs.dropWhile isSpace with
    | ']' :: rest => (.array [], some rest)
    | ds => (.array (readElements ds).out.1, (readElements ds).out.2) := by
  rw [readTree]
  dsimp only
  generalize hr : (Below.ofList cs).dropWhile isSpace = r
  have hds : cs.dropWhile isSpace = r.1 := by rw [← hr]; rfl
  rw [hds]
  obtain ⟨_ | ⟨c, ds⟩, h⟩ := r
  · exact Reading.out_widen _ _
  · by_cases hc : c = ']'
    · subst hc
      rfl
    · simp [Below.uncons, hc]

theorem out_readTree_object (cs : List Char) : (readTree ('\x7b' :: cs)).out =
    match cs.dropWhile isSpace with
    | '\x7d' :: rest => (.object [], some rest)
    | ds => (.object (readMembers ds).out.1, (readMembers ds).out.2) := by
  rw [readTree]
  dsimp only
  generalize hr : (Below.ofList cs).dropWhile isSpace = r
  have hds : cs.dropWhile isSpace = r.1 := by rw [← hr]; rfl
  rw [hds]
  obtain ⟨_ | ⟨c, ds⟩, h⟩ := r
  · exact Reading.out_widen _ _
  · by_cases hc : c = '\x7d'
    · subst hc
      rfl
    · simp [Below.uncons, hc]

theorem out_readElements (cs : List Char) : (readElements cs).out =
    match (readTree cs).out with
    | (j, none) => ([j], none)
    | (j, some ds) =>
      match ds.dropWhile isSpace with
      | ']' :: rest => ([j], some rest)
      | ',' :: es =>
        (j :: (readElements (es.dropWhile isSpace)).out.1, (readElements (es.dropWhile isSpace)).out.2)
      | _ => ([j, .broken], none) := by
  rw [readElements]
  dsimp only
  generalize readTree cs = r
  obtain ⟨j, _ | ds⟩ := r
  · rfl
  · simp only [Reading.out, Option.map_some]
    generalize hr : ds.dropWhile isSpace = r
    have hds : ds.1.dropWhile isSpace = r.1 := by rw [← hr]; rfl
    rw [hds]
    obtain ⟨_ | ⟨c, es⟩, h⟩ := r
    · rfl
    · by_cases hc : c = ']'
      · subst hc
        rfl
      · by_cases hc' : c = ','
        · subst hc'
          exact Reading.out_widen _ _
        · simp [Below.uncons, hc, hc']

theorem out_readMembers (cs : List Char) : (readMembers ('"' :: cs)).out =
    match taken (readString cs) with
    | none => ([(some "", .broken)], none)
    | some (key, ds) =>
      match ds.dropWhile isSpace with
      | ':' :: es =>
        match (readTree (es.dropWhile isSpace)).out with
        | (j, none) => ([(key, j)], none)
        | (j, some fs) =>
          match fs.dropWhile isSpace with
          | '\x7d' :: rest => ([(key, j)], some rest)
          | ',' :: gs =>
            ((key, j) :: (readMembers (gs.dropWhile isSpace)).out.1,
              (readMembers (gs.dropWhile isSpace)).out.2)
          | _ => ([(key, j), (some "", .broken)], none)
      | _ => ([(key, .broken)], none) := by
  rw [readMembers]
  cases readString cs with
  | none => rfl
  | some p =>
    obtain ⟨key, r⟩ := p
    simp only [taken, Option.map_some]
    generalize ht : r.dropWhile isSpace = t
    have hds : r.1.dropWhile isSpace = t.1 := by rw [← ht]; rfl
    rw [hds]
    obtain ⟨_ | ⟨c, ds⟩, h⟩ := t
    · rfl
    · by_cases hc : c = ':'
      · subst hc
        simp only [Below.uncons]
        generalize hj : readTree (ds.dropWhile isSpace) = v
        simp only [Below.dropWhile, hj]
        obtain ⟨j, _ | t⟩ := v
        · rfl
        · generalize hu : Below.dropWhile isSpace t = u
          have hfs : t.1.dropWhile isSpace = u.1 := by rw [← hu]; rfl
          simp only [Reading.out, Option.map_some, Below.widen, hfs]
          obtain ⟨_ | ⟨c, gs⟩, hlt⟩ := u
          · rfl
          · by_cases hc : c = '\x7d'
            · subst hc
              rfl
            · by_cases hc' : c = ','
              · subst hc'
                exact Reading.out_widen _ _
              · simp [hc, hc']
      · simp [Below.uncons, hc, breakMember, Reading.out]

theorem readTree_of_isDigit {c : Char} (hcs : cs = c :: ds) (h : c.isDigit = true) :
    readTree cs = readNumber false cs := by
  rw [readTree.eq_def]
  split
  case h_8 => rfl
  all_goals
    obtain ⟨rfl, -⟩ := List.cons.inj hcs
    cases h

theorem dropWhile_space {gap : List Char} (h : Space gap) (hcs : Stops isSpace cs) :
    (gap ++ cs).dropWhile isSpace = cs := (takeWhile_run h hcs).2

theorem exists_space (h : cs.dropWhile isSpace = ds) : ∃ gap, cs = gap ++ ds ∧ Space gap :=
  ⟨cs.takeWhile isSpace, by rw [← h, List.takeWhile_append_dropWhile],
    fun _ => List.mem_takeWhile_imp⟩

theorem Space.stops {gap : List Char} (h : Space gap) (hcs : Stops continues cs) :
    Stops continues (gap ++ cs) := by
  cases gap with
  | nil => exact hcs
  | cons c gap =>
    have hc := h c List.mem_cons_self
    simp only [isSpace, Bool.or_eq_true, beq_iff_eq] at hc
    rcases hc with ((rfl | rfl) | rfl) | rfl <;> exact stops_cons rfl

theorem Unsigned.exists_digit {negative : Bool} {m : Numeral} (h : Unsigned negative us m) :
    ∃ c cs, us = c :: cs ∧ c.isDigit = true := by
  cases h with
  | parts hwhole =>
    cases hwhole with
    | run h => exact ⟨_, _, rfl, h _ List.mem_cons_self⟩

theorem not_isSpace_of_isDigit {c : Char} (h : c.isDigit = true) : isSpace c = false := by
  by_contra hc
  simp only [isSpace, Bool.not_eq_false, Bool.or_eq_true, beq_iff_eq] at hc
  rcases hc with ((rfl | rfl) | rfl) | rfl <;> cases h

def Opens (cs : List Char) : Prop := ∃ c ds, cs = c :: ds ∧ isSpace c = false ∧ c ≠ ']'

theorem Opens.stops (h : Opens cs) : Stops isSpace cs := by
  obtain ⟨c, ds, rfl, hc, -⟩ := h
  exact stops_cons hc

theorem Spells.opens (h : Spells us j) (rest : List Char) : Opens (us ++ rest) := by
  cases h with
  | number h =>
    obtain ⟨c, cs, rfl, hc⟩ := h.exists_digit
    refine ⟨c, cs ++ rest, rfl, not_isSpace_of_isDigit hc, ?_⟩
    rintro rfl
    cases hc
  | _ => exact ⟨_, _, rfl, rfl, by decide⟩

theorem Spells.length_pos (h : Spells us j) : 0 < us.length := by
  obtain ⟨c, cs, hcs, -⟩ := h.opens []
  rw [List.append_nil] at hcs
  simp [hcs]

theorem Elements.opens (h : Elements us js) (rest : List Char) : Opens (us ++ rest) := by
  cases h with
  | last h | more h =>
    simp only [List.append_assoc]
    exact h.opens _

theorem Members.exists_quote (h : Members us ms) : ∃ cs, us = '"' :: cs := by
  cases h with
  | last h | more h =>
    cases h
    exact ⟨_, rfl⟩

theorem Members.stops (h : Members us ms) (rest : List Char) : Stops isSpace (us ++ rest) := by
  obtain ⟨cs, rfl⟩ := h.exists_quote
  exact stops_cons rfl

mutual

theorem Spells.out_readTree : ∀ {us : List Char} {j : Json}, Spells us j → ∀ {rest : List Char},
    Stops continues rest → (readTree (us ++ rest)).out = (j, some rest)
  | _, _, .null, rest, _ | _, _, .true, rest, _ | _, _, .false, rest, _ => by
    simp only [List.cons_append, List.nil_append]
    rw [readTree]
    rfl
  | _, _, .number h, rest, hrest => by
    obtain ⟨c, cs, hcs, hc⟩ := h.exists_digit
    rw [readTree_of_isDigit (congrArg (· ++ rest) hcs) hc]
    exact out_readNumber rfl h hrest
  | _, _, .minus h, rest, hrest => by
    rw [List.cons_append, readTree, Reading.out_widen]
    exact out_readNumber rfl h hrest
  | _, _, .string h, rest, _ => by
    rw [List.append_assoc, List.cons_append, readTree, Reading.out_widen, out_readText,
      List.singleton_append, readString_append h]
  | _, _, .emptyArray hgap, rest, _ => by
    rw [List.append_assoc, List.cons_append, out_readTree_array, List.singleton_append,
      dropWhile_space hgap (stops_cons rfl)]
    rfl
  | _, _, .array hgap h, rest, _ => by
    have hopens := h.opens rest
    rw [List.append_assoc, List.cons_append, out_readTree_array, dropWhile_space hgap hopens.stops]
    split
    case h_1 heq =>
      obtain ⟨c, ds, hcs, -, hc⟩ := hopens
      rw [hcs] at heq
      exact absurd (List.cons.inj heq).1 hc
    case h_2 => rw [h.out_readElements]
  | _, _, .emptyObject hgap, rest, _ => by
    rw [List.append_assoc, List.cons_append, out_readTree_object, List.singleton_append,
      dropWhile_space hgap (stops_cons rfl)]
    rfl
  | _, _, .object hgap h, rest, _ => by
    obtain ⟨cs, hcs⟩ := h.exists_quote
    rw [List.append_assoc, List.cons_append, out_readTree_object, dropWhile_space hgap (h.stops rest)]
    split
    case h_1 heq =>
      rw [hcs] at heq
      cases heq
    case h_2 => rw [h.out_readMembers]

theorem Elements.out_readElements : ∀ {us : List Char} {js : List Json}, Elements us js →
    ∀ (rest : List Char), (readElements (us ++ rest)).out = (js, some rest)
  | _, _, .last h hgap, rest => by
    rw [List.append_assoc, List.append_assoc, List.singleton_append, Json.out_readElements,
      h.out_readTree (hgap.stops (stops_cons rfl))]
    simp only
    rw [dropWhile_space hgap (stops_cons rfl)]
    rfl
  | _, _, .more h hgap hgap' hjs, rest => by
    rw [List.append_assoc, List.append_assoc, List.append_assoc, List.cons_append,
      Json.out_readElements, h.out_readTree (hgap.stops (stops_cons rfl))]
    simp only
    rw [dropWhile_space hgap (stops_cons rfl)]
    simp only
    rw [dropWhile_space hgap' (hjs.opens rest).stops, hjs.out_readElements]

theorem Members.out_readMembers : ∀ {us : List Char} {ms : List (Option String × Json)},
    Members us ms → ∀ (rest : List Char), (readMembers (us ++ rest)).out = (ms, some rest)
  | _, _, .last h hgap, rest => by
    rw [List.append_assoc, List.append_assoc, List.singleton_append,
      h.out_readMembers (hgap.stops (stops_cons rfl)), dropWhile_space hgap (stops_cons rfl)]
    rfl
  | _, _, .more h hgap hgap' hms, rest => by
    rw [List.append_assoc, List.append_assoc, List.append_assoc, List.cons_append,
      h.out_readMembers (hgap.stops (stops_cons rfl)), dropWhile_space hgap (stops_cons rfl)]
    simp only
    rw [dropWhile_space hgap' (hms.stops rest), hms.out_readMembers]

theorem Member.out_readMembers : ∀ {us : List Char} {m : Option String × Json}, Member us m →
    ∀ {rest : List Char}, Stops continues rest → (readMembers (us ++ rest)).out =
      match rest.dropWhile isSpace with
      | '\x7d' :: rest => ([m], some rest)
      | ',' :: gs => (m :: (readMembers (gs.dropWhile isSpace)).out.1,
          (readMembers (gs.dropWhile isSpace)).out.2)
      | _ => ([m, (some "", .broken)], none)
  | _, _, .pair hks hgap hgap' h, rest, hrest => by
    rw [List.append_assoc, List.append_assoc, List.append_assoc, List.cons_append, List.cons_append,
      List.cons_append, Json.out_readMembers, readString_append hks]
    simp only
    rw [dropWhile_space hgap (stops_cons rfl)]
    simp only
    rw [dropWhile_space hgap' (h.opens rest).stops, h.out_readTree hrest]

end

theorem length_dropWhile_le (cs : List Char) : (cs.dropWhile isSpace).length ≤ cs.length :=
  (List.dropWhile_sublist _).length_le

theorem length_lt_of_dropWhile {c : Char} (h : cs.dropWhile isSpace = c :: ds) :
    ds.length < cs.length := by
  have hle := length_dropWhile_le cs
  rwa [h] at hle

mutual

theorem of_readTree {cs rest : List Char} {j : Json} (h : (readTree cs).out = (j, some rest)) :
    ∃ us, cs = us ++ rest ∧ Spells us j := by
  have htree := h
  rw [readTree.eq_def] at h
  split at h
  case h_4 cs =>
    rw [Reading.out_widen] at h
    obtain ⟨us, ps, rfl, hps, rfl⟩ := of_readText h
    exact ⟨_, by simp, .string hps⟩
  case h_5 cs =>
    rw [Reading.out_widen] at h
    obtain ⟨us, m, rfl, hm, rfl⟩ := of_readNumber h
    exact ⟨_, rfl, .minus hm⟩
  case h_6 cs =>
    -- the lengths are what the measure needs where the elements are read
    have hle := length_dropWhile_le cs
    rw [out_readTree_array] at htree
    split at htree
    case h_1 hds =>
      obtain ⟨gap, rfl, hgap⟩ := exists_space hds
      cases htree
      exact ⟨_, by simp, .emptyArray hgap⟩
    case h_2 =>
      obtain ⟨rfl, hrest⟩ := Prod.mk.inj htree
      obtain ⟨us, hus, hjs⟩ := of_readElements (Prod.ext rfl hrest)
      obtain ⟨gap, rfl, hgap⟩ := exists_space hus
      exact ⟨_, by simp, .array hgap hjs⟩
  case h_7 cs =>
    have hle := length_dropWhile_le cs
    rw [out_readTree_object] at htree
    split at htree
    case h_1 hds =>
      obtain ⟨gap, rfl, hgap⟩ := exists_space hds
      cases htree
      exact ⟨_, by simp, .emptyObject hgap⟩
    case h_2 =>
      obtain ⟨rfl, hrest⟩ := Prod.mk.inj htree
      obtain ⟨us, hus, hms⟩ := of_readMembers (Prod.ext rfl hrest)
      obtain ⟨gap, rfl, hgap⟩ := exists_space hus
      exact ⟨_, by simp, .object hgap hms⟩
  case h_8 =>
    obtain ⟨us, m, rfl, hm, rfl⟩ := of_readNumber h
    exact ⟨_, rfl, .number hm⟩
  all_goals
    cases h
    exact ⟨_, rfl, by constructor⟩
termination_by 2 * cs.length
decreasing_by
  all_goals
    subst_vars
    simp only [List.length_cons]
    omega

theorem of_readElements {cs rest : List Char} {js : List Json}
    (h : (readElements cs).out = (js, some rest)) : ∃ us, cs = us ++ rest ∧ Elements us js := by
  rw [out_readElements] at h
  split at h
  case h_1 => cases h
  case h_2 j ds htree =>
    obtain ⟨us, hus, hj⟩ := of_readTree htree
    have hlt : ds.length < cs.length := by simp [hus, hj.length_pos]
    split at h
    case h_1 hds =>
      obtain ⟨gap, rfl, hgap⟩ := exists_space hds
      cases h
      exact ⟨_, by simp [hus], .last hj hgap⟩
    case h_2 es hds =>
      have hlt' := length_lt_of_dropWhile hds
      have hle := length_dropWhile_le es
      obtain ⟨rfl, hrest⟩ := Prod.mk.inj h
      obtain ⟨vs, hvs, hjs⟩ := of_readElements (Prod.ext rfl hrest)
      obtain ⟨gap, rfl, hgap⟩ := exists_space hds
      obtain ⟨gap', rfl, hgap'⟩ := exists_space hvs
      exact ⟨_, by simp [hus], .more hj hgap hgap' hjs⟩
    case h_3 => cases h
termination_by 2 * cs.length + 1
decreasing_by all_goals omega

theorem of_readMembers {cs rest : List Char} {ms : List (Option String × Json)}
    (h : (readMembers cs).out = (ms, some rest)) : ∃ us, cs = us ++ rest ∧ Members us ms := by
  have hmembers := h
  rw [readMembers.eq_def] at h
  split at h
  case h_2 => cases h
  case h_1 cs =>
    clear h
    rw [out_readMembers] at hmembers
    split at hmembers
    case h_1 => cases hmembers
    case h_2 key ds hkey =>
      obtain ⟨ks, ps, hks, hps, rfl⟩ := of_readString hkey
      have hlt : ds.length < cs.length := by
        rw [hks, List.length_append, List.length_cons]
        omega
      split at hmembers
      case h_2 => cases hmembers
      case h_1 es hes =>
        have hlt' := length_lt_of_dropWhile hes
        have hle := length_dropWhile_le es
        split at hmembers
        case h_1 => cases hmembers
        case h_2 j fs htree =>
          obtain ⟨us, hus, hj⟩ := of_readTree htree
          have hle' : fs.length ≤ (es.dropWhile isSpace).length := by simp [hus]
          obtain ⟨gap, hds, hgap⟩ := exists_space hes
          obtain ⟨gap', hes, hgap'⟩ := exists_space hus
          have hmember := Member.pair hps hgap hgap' hj
          split at hmembers
          case h_1 hfs =>
            obtain ⟨gap, rfl, hgap⟩ := exists_space hfs
            cases hmembers
            exact ⟨_, by simp [hks, hds, hes], .last hmember hgap⟩
          case h_2 gs hfs =>
            have hlt'' := length_lt_of_dropWhile hfs
            have hle'' := length_dropWhile_le gs
            obtain ⟨rfl, hrest⟩ := Prod.mk.inj hmembers
            obtain ⟨vs, hvs, hms⟩ := of_readMembers (Prod.ext rfl hrest)
            obtain ⟨gap, rfl, hgap⟩ := exists_space hfs
            obtain ⟨gap', rfl, hgap'⟩ := exists_space hvs
            exact ⟨_, by simp [hks, hds, hes], .more hmember hgap hgap' hms⟩
          case h_3 => cases hmembers
termination_by 2 * cs.length
decreasing_by
  all_goals
    subst_vars
    simp only [List.length_cons]
    omega

end

theorem ofText_eq (s : String) : ofText s =
    ((readTree (s.toList.dropWhile isSpace)).out.1,
      ((readTree (s.toList.dropWhile isSpace)).out.2.map (·.all isSpace)).getD false) := by
  simp only [ofText, Reading.out, Option.map_map]
  rfl

theorem ofText_eq_iff {s : String} : ofText s = (j, true) ↔ TextOf s j := by
  rw [ofText_eq]
  constructor
  · intro h
    obtain ⟨hj, hclean⟩ := Prod.mk.inj h
    cases hrest : (readTree (s.toList.dropWhile isSpace)).out.2 with
    | none => simp [hrest] at hclean
    | some rest =>
      obtain ⟨us, hus, hspells⟩ := of_readTree (Prod.ext hj hrest)
      obtain ⟨gap, hs, hgap⟩ := exists_space hus
      rw [hrest] at hclean
      exact ⟨gap, us, rest, hs, hgap, hspells, List.all_eq_true.1 hclean⟩
  · rintro ⟨gap, us, gap', hs, hgap, hspells, hgap'⟩
    have hstops : Stops continues gap' := by
      rw [← List.append_nil gap']
      exact hgap'.stops nofun
    rw [hs, dropWhile_space hgap (hspells.opens gap').stops, hspells.out_readTree hstops]
    exact Prod.ext rfl (List.all_eq_true.2 hgap')

end Targeting.Json
