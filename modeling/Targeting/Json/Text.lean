import Targeting.Json.Number
import Targeting.Text.Basic

namespace Targeting.Json

def isSpace (c : Char) : Bool := c == ' ' || c == '\t' || c == '\n' || c == '\r'

/-- Halves of surrogate pairs are kept apart until the string is complete. -/
inductive Piece
  | char : Char → Piece
  | high : Nat → Piece
  | low : Nat → Piece
  deriving Repr

def Piece.ofUnit (n : Nat) : Piece :=
  if 0xD800 ≤ n && n < 0xDC00 then .high (n - 0xD800)
  else if 0xDC00 ≤ n && n < 0xE000 then .low (n - 0xDC00)
  else .char (Char.ofNat n)

def joinPieces (done : List Char) : List Piece → Option String
  | [] => some (String.ofList done.reverse)
  | .char c :: ps => joinPieces (c :: done) ps
  | .high h :: .low l :: ps => joinPieces (Char.ofNat (0x10000 + h * 0x400 + l) :: done) ps
  | _ => none

def hexDigit? (c : Char) : Option Nat :=
  if '0' ≤ c && c ≤ '9' then some (c.toNat - '0'.toNat)
  else if 'a' ≤ c && c ≤ 'f' then some (c.toNat - 'a'.toNat + 10)
  else if 'A' ≤ c && c ≤ 'F' then some (c.toNat - 'A'.toNat + 10)
  else none

def unit? (a b c d : Char) : Option Nat := do
  return (((← hexDigit? a) * 16 + (← hexDigit? b)) * 16 + (← hexDigit? c)) * 16 + (← hexDigit? d)

def escaped? : Char → Option Char
  | '"' => some '"'
  | '\\' => some '\\'
  | '/' => some '/'
  | 'b' => some '\x08'
  | 'f' => some '\x0c'
  | 'n' => some '\n'
  | 'r' => some '\r'
  | 't' => some '\t'
  | _ => none

def readPieces (done : List Piece) : List Char → Option (List Piece × List Char)
  | [] => none
  | '"' :: cs => some (done.reverse, cs)
  | '\\' :: 'u' :: a :: b :: c :: d :: cs =>
    match unit? a b c d with
    | some n => readPieces (.ofUnit n :: done) cs
    | none => none
  | '\\' :: c :: cs =>
    match escaped? c with
    | some c => readPieces (.char c :: done) cs
    | none => none
  | c :: cs => if c < ' ' || c == '\\' then none else readPieces (.char c :: done) cs

theorem length_of_readPieces {done ps : List Piece} {cs rest : List Char}
    (h : readPieces done cs = some (ps, rest)) : rest.length < cs.length := by
  fun_induction readPieces done cs with
  | case1 => simp at h
  | case2 done cs => simp_all
  | case3 done a b c d cs n hn ih => exact Nat.lt_trans (ih h) (by simp only [List.length_cons]; omega)
  | case4 => simp at h
  | case5 done c cs hc d hd ih => exact Nat.lt_trans (ih h) (by simp only [List.length_cons]; omega)
  | case6 => simp at h
  | case7 => simp at h
  | case8 done c cs _ _ _ _ ih => exact Nat.lt_trans (ih h) (by simp)

def readString (cs : List Char) : Option (Option String × Below Char cs.length) :=
  match h : readPieces [] cs with
  | some (ps, rest) => some (joinPieces [] ps, ⟨rest, length_of_readPieces h⟩)
  | none => none

def digitOf (c : Char) : Nat := c.toNat - '0'.toNat

def readDigits? (cs : List Char) : Option (List Nat × Below Char cs.length) :=
  match cs with
  | [] => none
  | c :: cs =>
    if c.isDigit then
      some ((c :: cs.takeWhile Char.isDigit).map digitOf, (Below.ofList cs).dropWhile Char.isDigit)
    else none

def readWhole? (cs : List Char) : Option (List Nat × Below Char cs.length) := do
  match ← readDigits? cs with
  | (0 :: _ :: _, _) => none
  | ds => return ds

def readFraction? {n : Nat} (r : Below Char n) : Option (List Nat × Below Char n) :=
  match r.uncons with
  | some ('.', r) => do
    let (digits, t) ← readDigits? r.1
    return (digits, t.widen (Nat.le_of_lt r.2))
  | _ => some ([], r)

def readSign {n : Nat} (r : Below Char n) : Bool × Below Char n :=
  match r.uncons with
  | some ('-', r) => (true, r)
  | some ('+', r) => (false, r)
  | _ => (false, r)

def readExponent? {n : Nat} (r : Below Char n) : Option (Option (Bool × List Nat) × Below Char n) :=
  match r.uncons with
  | some (c, t) =>
    if c == 'e' || c == 'E' then do
      let (negative, t) := readSign t
      let (digits, u) ← readDigits? t.1
      return (some (negative, digits), u.widen (Nat.le_of_lt t.2))
    else some (none, r)
  | none => some (none, r)

def readNumeral? (negative : Bool) (cs : List Char) : Option (Numeral × Below Char cs.length) := do
  let (whole, r) ← readWhole? cs
  let (fraction, r) ← readFraction? r
  let (exponent, r) ← readExponent? r
  return (⟨negative, whole, fraction, exponent⟩, r)

/-- What was read, and the text behind it if the text was JSON so far. -/
structure Reading (n : Nat) (α : Type) where
  value : α
  rest : Option (Below Char n)

namespace Reading

variable {m n : Nat} {α β : Type}

def map (f : α → β) (r : Reading n α) : Reading n β := ⟨f r.value, r.rest⟩

def widen (r : Reading m α) (h : m ≤ n) : Reading n α := ⟨r.value, r.rest.map (·.widen h)⟩

end Reading

def breakOff {n : Nat} : Reading n Json := ⟨.broken, none⟩

def readNumber (negative : Bool) (cs : List Char) : Reading cs.length Json :=
  match readNumeral? negative cs with
  | some (m, r) => ⟨(m.number?.map .number).getD .unfit, some r⟩
  | none => breakOff

def readText (cs : List Char) : Reading cs.length Json :=
  match readString cs with
  | some (s, r) => ⟨(s.map .string).getD .unfit, some r⟩
  | none => breakOff

def breakMember {n : Nat} (key : Option String) : Reading n (List (Option String × Json)) :=
  ⟨[(key, .broken)], none⟩

mutual

def readTree (cs : List Char) : Reading cs.length Json :=
  match cs with
  | 'n' :: 'u' :: 'l' :: 'l' :: cs => ⟨.null, some ⟨cs, by simp only [List.length_cons]; omega⟩⟩
  | 't' :: 'r' :: 'u' :: 'e' :: cs => ⟨.bool true, some ⟨cs, by simp only [List.length_cons]; omega⟩⟩
  | 'f' :: 'a' :: 'l' :: 's' :: 'e' :: cs =>
    ⟨.bool false, some ⟨cs, by simp only [List.length_cons]; omega⟩⟩
  | '"' :: cs => (readText cs).widen (Nat.le_succ _)
  | '-' :: cs => (readNumber true cs).widen (Nat.le_succ _)
  | '[' :: cs =>
    let r := (Below.ofList cs).dropWhile isSpace
    match r.uncons with
    | some (']', r) => ⟨.array [], some r⟩
    | _ =>
      let ⟨r, h⟩ := r
      ((readElements r).map .array).widen (Nat.le_of_lt h)
  | '\x7b' :: cs =>
    let r := (Below.ofList cs).dropWhile isSpace
    match r.uncons with
    | some ('\x7d', r) => ⟨.object [], some r⟩
    | _ =>
      let ⟨r, h⟩ := r
      ((readMembers r).map .object).widen (Nat.le_of_lt h)
  | cs => readNumber false cs
termination_by 2 * cs.length

def readElements (cs : List Char) : Reading cs.length (List Json) :=
  let e := readTree cs
  match e.rest with
  | none => ⟨[e.value], none⟩
  | some r =>
    match (r.dropWhile isSpace).uncons with
    | some (']', r) => ⟨[e.value], some r⟩
    | some (',', r) =>
      let ⟨r, h⟩ := r.dropWhile isSpace
      ((readElements r).map (e.value :: ·)).widen (Nat.le_of_lt h)
    | _ => ⟨[e.value, .broken], none⟩
termination_by 2 * cs.length + 1

def readMembers (cs : List Char) : Reading cs.length (List (Option String × Json)) :=
  match cs with
  | '"' :: cs =>
    match readString cs with
    | none => breakMember (some "")
    | some (key, r) =>
      match (r.dropWhile isSpace).uncons with
      | some (':', r) =>
        let ⟨r, h⟩ := r.dropWhile isSpace
        let v := readTree r
        match v.rest with
        | none => ⟨[(key, v.value)], none⟩
        | some t =>
          let t := t.widen (Nat.le_of_lt h)
          match (t.dropWhile isSpace).uncons with
          | some ('\x7d', t) => ⟨[(key, v.value)], some (t.widen (Nat.le_succ _))⟩
          | some (',', t) =>
            let ⟨t, h⟩ := t.dropWhile isSpace
            ((readMembers t).map ((key, v.value) :: ·)).widen (Nat.le_succ_of_le (Nat.le_of_lt h))
          | _ => ⟨[(key, v.value), (some "", .broken)], none⟩
      | _ => breakMember key
  | _ => breakMember (some "")
termination_by 2 * cs.length

end

def ofText (s : String) : Json × Bool :=
  let t := readTree (s.toList.dropWhile isSpace)
  (t.value, (t.rest.map fun r => r.1.all isSpace).getD false)

end Targeting.Json
