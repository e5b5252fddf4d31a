namespace Targeting

namespace Text

abbrev Ranges := List (Nat × Nat)

def Ranges.covers : Ranges → Nat → Bool
  | [], _ => false
  | (lo, hi) :: rs, n => lo ≤ n && (n ≤ hi || covers rs n)

/-- The property White_Space. -/
def blankRanges : Ranges :=
  [(0x9, 0xD), (0x20, 0x20), (0x85, 0x85), (0xA0, 0xA0), (0x1680, 0x1680), (0x2000, 0x200A),
   (0x2028, 0x2029), (0x202F, 0x202F), (0x205F, 0x205F), (0x3000, 0x3000)]

def isBlank (c : Char) : Bool := blankRanges.covers c.toNat

def isBlankText (s : String) : Bool := s.toList.all isBlank

end Text

universe u

abbrev Below (α : Type u) (n : Nat) := { r : List α // r.length < n }

namespace Below

variable {α : Type u} {m n : Nat}

def ofList (xs : List α) : Below α (xs.length + 1) := ⟨xs, Nat.lt_succ_self _⟩

def widen (r : Below α m) (h : m ≤ n) : Below α n := ⟨r.1, Nat.lt_of_lt_of_le r.2 h⟩

def dropWhile (p : α → Bool) (r : Below α n) : Below α n :=
  ⟨r.1.dropWhile p, Nat.lt_of_le_of_lt (List.dropWhile_sublist _).length_le r.2⟩

def uncons (r : Below α n) : Option (α × Below α n) :=
  match r with
  | ⟨[], _⟩ => none
  | ⟨x :: xs, h⟩ => some (x, ⟨xs, Nat.lt_of_succ_lt h⟩)

theorem uncons_eq_some {r t : Below α n} {x : α} : r.uncons = some (x, t) ↔ r.1 = x :: t.1 := by
  obtain ⟨_ | ⟨y, ys⟩, h⟩ := r
  · simp [uncons]
  · simp [uncons, Subtype.ext_iff]

theorem exists_uncons {r : Below α n} {x : α} {xs : List α} (h : r.1 = x :: xs) :
    ∃ t, r.uncons = some (x, t) ∧ t.1 = xs := by
  obtain ⟨ys, hlt⟩ := r
  cases h
  exact ⟨_, rfl, rfl⟩

end Below

end Targeting
