namespace Targeting.Yaml

/-- A place counts characters; a break of two characters ends one line. -/
structure Place where
  offset : Nat
  line : Nat
  column : Nat
  deriving DecidableEq, Repr

namespace Place

def start : Place := ⟨0, 0, 0⟩

def skip (p : Place) (n : Nat) : Place := ⟨p.offset + n, p.line, p.column + n⟩

def next (p : Place) : Place := p.skip 1

def newline (p : Place) (n : Nat) : Place := ⟨p.offset + n, p.line + 1, 0⟩

end Place

def isBreak (c : Char) : Bool :=
  c == '\n' || c == '\r' || c == '\u0085' || c == '\u2028' || c == '\u2029'

def breakChar (c : Char) : Char := if c == '\u2028' || c == '\u2029' then c else '\n'

def isPad (c : Char) : Bool := c == ' ' || c == '\t'

def atGap : List Char → Bool
  | [] => true
  | c :: _ => isPad c || isBreak c

def isFlowSign (c : Char) : Bool := c == ',' || c == '[' || c == ']' || c == '\x7b' || c == '\x7d'

def isNameChar (c : Char) : Bool := c.isAlphanum || c == '_' || c == '-'

def hexDigit? (c : Char) : Option Nat :=
  if '0' ≤ c && c ≤ '9' then some (c.toNat - '0'.toNat)
  else if 'a' ≤ c && c ≤ 'f' then some (c.toNat - 'a'.toNat + 10)
  else if 'A' ≤ c && c ≤ 'F' then some (c.toNat - 'A'.toNat + 10)
  else none

def hexValue? (cs : List Char) : Option Nat :=
  cs.foldlM (fun n c => (hexDigit? c).map (n * 16 + ·)) 0

def isAllowed (c : Char) : Bool :=
  let n := c.toNat
  n = 0x9 || n = 0xA || n = 0xD || (0x20 ≤ n && n ≤ 0x7E) || n = 0x85 || (0xA0 ≤ n && n ≤ 0xFFFD) ||
    0x10000 ≤ n

def atMark (sign : Char) (p : Place) : List Char → Bool
  | a :: b :: c :: cs => p.column = 0 && a == sign && b == sign && c == sign && atGap cs
  | _ => false

def atDocumentMark (p : Place) (cs : List Char) : Bool := atMark '-' p cs || atMark '.' p cs

inductive Style
  | plain : Style
  | quoted : Style
  | literal : Style
  | folded : Style
  deriving DecidableEq, Repr

inductive Token
  | version : (number : Nat × Nat) → Token
  | documentStart : Token
  | documentEnd : Token
  | blockSequence : Token
  | blockMapping : Token
  | blockEnd : Token
  | flowSequence : Token
  | flowSequenceEnd : Token
  | flowMapping : Token
  | flowMappingEnd : Token
  | entry : Token
  | comma : Token
  | key : Token
  | value : Token
  | alias : (name : String) → Token
  | anchor : (name : String) → Token
  | tag : (handle rest : String) → Token
  | scalar : Style → (text : String) → Token
  deriving DecidableEq, Repr

end Targeting.Yaml
