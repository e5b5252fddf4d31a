import Targeting.Yaml.Text

namespace Targeting.Yaml

structure Scanned where
  text : String
  place : Place
  rest : List Char

inductive Gap
  | pads : List Char → Gap
  | breaks : (first more : List Char) → Gap

namespace Gap

def none : Gap := .pads []

def isNone : Gap → Bool
  | .pads ps => ps.isEmpty
  | .breaks _ _ => false

def hasBreak : Gap → Bool
  | .pads _ => false
  | .breaks _ _ => true

def pad (c : Char) : Gap → Gap
  | .pads ps => .pads (c :: ps)
  | g => g

def newline (c : Char) : Gap → Gap
  | .pads _ => .breaks [breakChar c] []
  | .breaks first more => .breaks first (breakChar c :: more)

/-- What a gap becomes, in reverse: one break a space, and of more breaks all but the first. -/
def folded : Gap → List Char
  | .pads ps => ps
  | .breaks ['\n'] [] => [' ']
  | .breaks ['\n'] more => more
  | .breaks first more => more ++ first

end Gap

structure Plain extends Scanned where
  brokeLine : Bool

def Plain.ofReverse (done : List Char) (gap : Gap) (p : Place) (rest : List Char) : Plain :=
  ⟨⟨String.ofList done.reverse, p, rest⟩, gap.hasBreak⟩

def plain (flow : Bool) (margin : Nat) (done : List Char) (gap : Gap) (p : Place) :
    List Char → Option Plain
  | [] => some (.ofReverse done gap p [])
  | '\r' :: '\n' :: cs => plain flow margin done (gap.newline '\n') (p.newline 2) cs
  | c :: cs =>
    if isBreak c then plain flow margin done (gap.newline c) (p.newline 1) cs
    else if c == '\t' && gap.hasBreak && p.column < margin then .none
    else if isPad c then plain flow margin done (gap.pad c) p.next cs
    else if !gap.isNone &&
        ((!flow && p.column < margin) || atDocumentMark p (c :: cs) || c == '#') then
      some (.ofReverse done gap p (c :: cs))
    else if flow && c == ':' && cs.head?.any (fun d => isFlowSign d || d == '?') then .none
    else if (c == ':' && atGap cs) || (flow && isFlowSign c) then
      some (.ofReverse done gap p (c :: cs))
    else plain flow margin (c :: (gap.folded ++ done)) .none p.next cs

def singleQuoted (done : List Char) (gap : Gap) (p : Place) : List Char → Option Scanned
  | [] => none
  | '\r' :: '\n' :: cs => singleQuoted done (gap.newline '\n') (p.newline 2) cs
  | '\'' :: '\'' :: cs => singleQuoted ('\'' :: (gap.folded ++ done)) .none (p.skip 2) cs
  | '\'' :: cs => some ⟨String.ofList (gap.folded ++ done).reverse, p.next, cs⟩
  | c :: cs =>
    if isBreak c then singleQuoted done (gap.newline c) (p.newline 1) cs
    else if isPad c then singleQuoted done (gap.pad c) p.next cs
    else if atDocumentMark p (c :: cs) then none
    else singleQuoted (c :: (gap.folded ++ done)) .none p.next cs

def escaped? : Char → Option Char
  | '0' => some '\x00'
  | 'a' => some '\x07'
  | 'b' => some '\x08'
  | 't' | '\t' => some '\t'
  | 'n' => some '\n'
  | 'v' => some '\x0b'
  | 'f' => some '\x0c'
  | 'r' => some '\r'
  | 'e' => some '\x1b'
  | ' ' => some ' '
  | '"' => some '"'
  | '/' => some '/'
  | '\\' => some '\\'
  | 'N' => some '\u0085'
  | '_' => some '\u00a0'
  | 'L' => some '\u2028'
  | 'P' => some '\u2029'
  | _ => none

def numbered? (digits : List Char) : Option Char := do
  let n ← hexValue? digits
  if (0xD800 ≤ n && n ≤ 0xDFFF) || 0x10FFFF < n then none else some (Char.ofNat n)

def doubleQuoted (done : List Char) (gap : Gap) (p : Place) : List Char → Option Scanned
  | [] => none
  | '\r' :: '\n' :: cs => doubleQuoted done (gap.newline '\n') (p.newline 2) cs
  | '"' :: cs => some ⟨String.ofList (gap.folded ++ done).reverse, p.next, cs⟩
  | '\\' :: '\r' :: '\n' :: cs =>
    doubleQuoted (gap.folded ++ done) (.breaks [] []) (p.newline 3) cs
  | '\\' :: 'x' :: a :: b :: cs => do
    doubleQuoted ((← numbered? [a, b]) :: (gap.folded ++ done)) .none (p.skip 4) cs
  | '\\' :: 'u' :: a :: b :: c :: d :: cs => do
    doubleQuoted ((← numbered? [a, b, c, d]) :: (gap.folded ++ done)) .none (p.skip 6) cs
  | '\\' :: 'U' :: a :: b :: c :: d :: e :: f :: g :: h :: cs => do
    doubleQuoted ((← numbered? [a, b, c, d, e, f, g, h]) :: (gap.folded ++ done)) .none (p.skip 10) cs
  | '\\' :: c :: cs =>
    if isBreak c then doubleQuoted (gap.folded ++ done) (.breaks [] []) (p.newline 2) cs
    else do doubleQuoted ((← escaped? c) :: (gap.folded ++ done)) .none (p.skip 2) cs
  | c :: cs =>
    if isBreak c then doubleQuoted done (gap.newline c) (p.newline 1) cs
    else if isPad c then doubleQuoted done (gap.pad c) p.next cs
    else if atDocumentMark p (c :: cs) || c == '\\' then none
    else doubleQuoted (c :: (gap.folded ++ done)) .none p.next cs

inductive Chomp
  | strip : Chomp
  | clip : Chomp
  | keep : Chomp
  deriving DecidableEq, Repr

structure Header where
  chomp : Chomp
  indent : Nat
  place : Place
  rest : List Char

def chomp? : Char → Option Chomp
  | '-' => some .strip
  | '+' => some .keep
  | _ => none

def indent? (c : Char) : Option Nat :=
  if '1' ≤ c && c ≤ '9' then some (c.toNat - '0'.toNat) else none

def header (p : Place) (cs : List Char) : Header :=
  match cs with
  | a :: b :: cs =>
    match chomp? a, indent? a, chomp? b, indent? b with
    | some c, _, _, some i => ⟨c, i, p.skip 2, cs⟩
    | _, some i, some c, _ => ⟨c, i, p.skip 2, cs⟩
    | some c, _, _, _ => ⟨c, 0, p.next, b :: cs⟩
    | _, some i, _, _ => ⟨.clip, i, p.next, b :: cs⟩
    | _, _, _, _ => ⟨.clip, 0, p, a :: b :: cs⟩
  | [a] =>
    match chomp? a, indent? a with
    | some c, _ => ⟨c, 0, p.next, []⟩
    | _, some i => ⟨.clip, i, p.next, []⟩
    | _, _ => ⟨.clip, 0, p, [a]⟩
  | [] => ⟨.clip, 0, p, []⟩

def lineEnd (comment : Bool) (p : Place) : List Char → Option (Place × List Char)
  | [] => some (p, [])
  | '\r' :: '\n' :: cs => some (p.newline 2, cs)
  | c :: cs =>
    if isBreak c then some (p.newline 1, cs)
    else if comment || isPad c then lineEnd comment p.next cs
    else if c == '#' then lineEnd true p.next cs
    else none

structure Block where
  indent : Nat
  deepest : Nat
  done : List Char
  last : List Char
  empty : List Char
  padded : Bool

namespace Block

def startLine (literal : Bool) (b : Block) (c : Char) : Block :=
  let joint :=
    if !literal && b.last == ['\n'] && !b.padded && !isPad c then
      if b.empty.isEmpty then [' '] else []
    else b.last
  { b with done := c :: (b.empty ++ joint ++ b.done), last := [], empty := [], padded := isPad c }

def finish (chomp : Chomp) (b : Block) : String :=
  String.ofList (match chomp with
    | .strip => b.done
    | .clip => b.last ++ b.done
    | .keep => b.empty ++ b.last ++ b.done).reverse

end Block

/-- Reads the lines of a block scalar; `inLine` tells whether the indentation of the line is
behind. The scalar ends at the first line that is indented less. -/
def blockLines (literal : Bool) (chomp : Chomp) (margin : Nat) (b : Block) (inLine : Bool)
    (p : Place) : List Char → Option Scanned
  | [] => some ⟨b.finish chomp, p, []⟩
  | '\r' :: '\n' :: cs =>
    let b := if inLine then { b with last := ['\n'] } else { b with empty := '\n' :: b.empty }
    blockLines literal chomp margin b false (p.newline 2) cs
  | c :: cs =>
    if isBreak c then
      let b :=
        if inLine then { b with last := [breakChar c] }
        else { b with empty := breakChar c :: b.empty }
      blockLines literal chomp margin b false (p.newline 1) cs
    else if inLine then
      blockLines literal chomp margin { b with done := c :: b.done } true p.next cs
    else
      let before := b.indent = 0 || p.column < b.indent
      if before && c == ' ' then
        let b := if b.indent = 0 then { b with deepest := max b.deepest (p.column + 1) } else b
        blockLines literal chomp margin b false p.next cs
      else if before && c == '\t' then none
      else
        let indent := if b.indent = 0 then max (max b.deepest margin) 1 else b.indent
        if p.column = indent then
          blockLines literal chomp margin ({ b with indent }.startLine literal c) true p.next cs
        else some ⟨b.finish chomp, p, c :: cs⟩

def blockScalar (literal : Bool) (margin : Nat) (p : Place) (cs : List Char) : Option Scanned := do
  let h := header p cs
  let (p, cs) ← lineEnd false h.place h.rest
  let indent := if h.indent = 0 then 0 else margin - 1 + h.indent
  blockLines literal h.chomp margin ⟨indent, 0, [], [], [], false⟩ false p cs

end Targeting.Yaml
