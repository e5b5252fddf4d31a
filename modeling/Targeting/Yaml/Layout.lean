import Targeting.Yaml.Scalar

/-!
The tokens of a YAML text. Two things cannot be told from the characters at hand: where collections
laid out by indentation start and end, and whether a scalar is the key of a mapping. The first
follows from columns, the second is settled at the colon, which puts the missing tokens in front of
the key.
-/

namespace Targeting.Yaml

structure KeyPlace where
  /-- It has to be one, since it stands at the margin of a mapping. -/
  required : Bool
  index : Nat
  place : Place
  deriving Repr

structure Layout where
  place : Place
  rest : List Char
  done : List Token
  count : Nat
  margins : List Nat
  key : Option KeyPlace
  outer : List (Option KeyPlace)
  keyAllowed : Bool

namespace Layout

def ofText (s : String) : Layout :=
  let cs := match s.toList with
    | '\uFEFF' :: cs => cs
    | cs => cs
  ⟨.start, cs, [], 0, [], none, [], true⟩

def inFlow (l : Layout) : Bool := !l.outer.isEmpty

def margin (l : Layout) : Nat := l.margins.headD 0

def emit (l : Layout) (t : Token) : Layout := { l with done := t :: l.done, count := l.count + 1 }

def insert (l : Layout) (index : Nat) (t : Token) : Layout :=
  let after := l.count - index
  { l with done := l.done.take after ++ t :: l.done.drop after, count := l.count + 1 }

def skip (l : Layout) (n : Nat) : Layout :=
  { l with place := l.place.skip n, rest := l.rest.drop n }

def openBlock (l : Layout) (column index : Nat) (t : Token) : Layout :=
  if l.inFlow || column < l.margin then l
  else { l.insert index t with margins := (column + 1) :: l.margins }

def closeBeyond (l : Layout) (bound : Nat) : Layout :=
  if l.inFlow then l
  else
    let closed := l.margins.takeWhile (bound < ·)
    { l with
      done := List.replicate closed.length .blockEnd ++ l.done
      count := l.count + closed.length
      margins := l.margins.drop closed.length }

def dropKey (l : Layout) : Option Layout :=
  if l.key.any (·.required) then none else some { l with key := none }

def noteKey (l : Layout) : Option Layout := do
  if l.keyAllowed then
    let required := !l.inFlow && l.margin = l.place.column + 1
    return { ← l.dropKey with key := some ⟨required, l.count, l.place⟩ }
  else return l

def reaches (k : KeyPlace) (p : Place) : Bool :=
  p.line ≤ k.place.line && p.offset ≤ k.place.offset + 1024

/-- Tabs may not stand where a key could start. -/
def skipGap (flow allowed comment : Bool) (p : Place) : List Char → Bool × Place × List Char
  | [] => (allowed, p, [])
  | '\r' :: '\n' :: cs => skipGap flow (allowed || !flow) false (p.newline 2) cs
  | c :: cs =>
    if isBreak c then skipGap flow (allowed || !flow) false (p.newline 1) cs
    else if comment then skipGap flow allowed true p.next cs
    else if c == '\uFEFF' && p.column = 0 then skipGap flow allowed false p.next cs
    else if c == ' ' || (c == '\t' && (flow || !allowed)) then skipGap flow allowed false p.next cs
    else if c == '#' then skipGap flow allowed true p.next cs
    else (allowed, p, c :: cs)

def toToken (l : Layout) : Layout :=
  let (keyAllowed, place, rest) := skipGap l.inFlow l.keyAllowed false l.place l.rest
  { l with keyAllowed, place, rest }

def document (l : Layout) (n : Nat) (t : Token) : Option Layout := do
  return { ((← (l.closeBeyond 0).dropKey).emit t).skip n with keyAllowed := false }

def readNumber (cs : List Char) : Option (Nat × List Char) :=
  match cs.takeWhile Char.isDigit with
  | [] => none
  | ds =>
    if 9 < ds.length then none
    else some (ds.foldl (fun n d => n * 10 + (d.toNat - '0'.toNat)) 0, cs.drop ds.length)

def directive (l : Layout) : Option Layout := do
  let l ← (l.closeBeyond 0).dropKey
  match l.rest with
  | '%' :: 'Y' :: 'A' :: 'M' :: 'L' :: c :: cs =>
    if !isPad c then none
    else
      match ← readNumber (cs.dropWhile isPad) with
      | (major, '.' :: cs) =>
        let (minor, cs) ← readNumber cs
        if !atGap cs then none
        else
          let used := l.rest.length - cs.length
          let (place, rest) ← lineEnd false (l.place.skip used) cs
          return { l.emit (.version (major, minor)) with place, rest, keyAllowed := false }
      | _ => none
  | _ => none

def openFlow (l : Layout) (t : Token) : Option Layout := do
  let l ← l.noteKey
  return { (l.emit t).skip 1 with key := none, outer := l.key :: l.outer, keyAllowed := true }

def closeFlow (l : Layout) (t : Token) : Option Layout := do
  let l ← l.dropKey
  let (key, outer) := match l.outer with
    | [] => (none, [])
    | k :: ks => (k, ks)
  return { (l.emit t).skip 1 with key, outer, keyAllowed := false }

def comma (l : Layout) : Option Layout := do
  return { ((← l.dropKey).emit .comma).skip 1 with keyAllowed := true }

def entry (l : Layout) : Option Layout := do
  if !l.inFlow && !l.keyAllowed then none
  else
    let l ← (l.openBlock l.place.column l.count .blockSequence).dropKey
    return { (l.emit .entry).skip 1 with keyAllowed := true }

def explicitKey (l : Layout) : Option Layout := do
  if !l.inFlow && !l.keyAllowed then none
  else
    let l ← (l.openBlock l.place.column l.count .blockMapping).dropKey
    return { (l.emit .key).skip 1 with keyAllowed := !l.inFlow }

def colon (l : Layout) : Option Layout :=
  let bare : Option Layout :=
    if !l.inFlow && !l.keyAllowed then none
    else
      let l := l.openBlock l.place.column l.count .blockMapping
      some { (l.emit .value).skip 1 with keyAllowed := !l.inFlow }
  match l.key with
  | none => bare
  | some k =>
    if reaches k l.place then
      let l := { l.insert k.index .key with key := none }
      let l := l.openBlock k.place.column k.index .blockMapping
      some { (l.emit .value).skip 1 with keyAllowed := false }
    else if k.required then none
    else bare

def endsName : List Char → Bool
  | [] => true
  | c :: cs =>
    atGap (c :: cs) || c == '?' || c == ':' || c == ',' || c == ']' || c == '\x7d' || c == '%' ||
      c == '@' || c == '\x60'

def name (l : Layout) (t : String → Token) : Option Layout := do
  let l ← l.noteKey
  let cs := l.rest.drop 1
  let name := cs.takeWhile isNameChar
  if name.isEmpty || !endsName (cs.drop name.length) then none
  else return { (l.emit (t (String.ofList name))).skip (name.length + 1) with keyAllowed := false }

def isTagChar (c : Char) : Bool :=
  isNameChar c || [';', '/', '?', ':', '@', '&', '=', '+', '$', '.', '!', '~', '*', '\'', '(', ')'].contains c

def tagParts (cs : List Char) : Option (List Char × List Char × List Char) :=
  match cs with
  | '<' :: cs =>
    let uri := cs.takeWhile fun c => isTagChar c || c == ',' || c == '[' || c == ']'
    match uri, cs.drop uri.length with
    | _ :: _, '>' :: cs => some ([], uri, cs)
    | _, _ => none
  | cs =>
    let word := cs.takeWhile isNameChar
    match cs.drop word.length with
    | '!' :: cs =>
      let rest := cs.takeWhile isTagChar
      if rest.isEmpty then none else some ('!' :: word ++ ['!'], rest, cs.drop rest.length)
    | _ =>
      let rest := cs.takeWhile isTagChar
      if rest.isEmpty then some ([], ['!'], cs) else some (['!'], rest, cs.drop rest.length)

def tag (l : Layout) : Option Layout := do
  let l ← l.noteKey
  let (handle, word, cs) ← tagParts (l.rest.drop 1)
  let used := l.rest.length - cs.length
  if !(atGap cs || (l.inFlow && cs.head? == some ',')) then none
  else
    let t := Token.tag (String.ofList handle) (String.ofList word)
    return { (l.emit t).skip used with keyAllowed := false }

def put (l : Layout) (style : Style) (s : Scanned) (keyAllowed : Bool) : Layout :=
  { l.emit (.scalar style s.text) with place := s.place, rest := s.rest, keyAllowed }

def quoted (l : Layout)
    (read : List Char → Gap → Place → List Char → Option Scanned) : Option Layout := do
  let l ← l.noteKey
  let s ← read [] .none l.place.next (l.rest.drop 1)
  return l.put .quoted s false

def block (l : Layout) (literal : Bool) : Option Layout := do
  let l ← l.dropKey
  let s ← blockScalar literal l.margin l.place.next (l.rest.drop 1)
  return l.put (if literal then .literal else .folded) s true

def plainScalar (l : Layout) : Option Layout := do
  let l ← l.noteKey
  let s ← plain l.inFlow l.margin [] .none l.place l.rest
  return l.put .plain s.toScanned s.brokeLine

def isSign (c : Char) : Bool :=
  isFlowSign c || ['-', '?', ':', '#', '&', '*', '!', '|', '>', '\'', '"', '%', '@', '\x60'].contains c

def token (l : Layout) : List Char → Option Layout
  | [] => some l
  | c :: cs =>
    let p := l.place
    if p.column = 0 && c == '%' then l.directive
    else if atMark '-' p (c :: cs) then l.document 3 .documentStart
    else if atMark '.' p (c :: cs) then l.document 3 .documentEnd
    else match c with
      | '[' => l.openFlow .flowSequence
      | '\x7b' => l.openFlow .flowMapping
      | ']' => l.closeFlow .flowSequenceEnd
      | '\x7d' => l.closeFlow .flowMappingEnd
      | ',' => l.comma
      | '*' => l.name .alias
      | '&' => l.name .anchor
      | '!' => l.tag
      | '\'' => l.quoted singleQuoted
      | '"' => l.quoted doubleQuoted
      | c =>
        if c == '-' && atGap cs then l.entry
        else if c == '?' && (l.inFlow || atGap cs) then l.explicitKey
        else if c == ':' && (l.inFlow || atGap cs) then l.colon
        else if c == '|' && !l.inFlow then l.block true
        else if c == '>' && !l.inFlow then l.block false
        else if !(isPad c || isSign c) || c == '-' || (!l.inFlow && (c == '?' || c == ':')) then
          l.plainScalar
        else none

def finish (l : Layout) : Option (List Token) := do
  let l ← (l.closeBeyond 0).dropKey
  return l.done.reverse

/-- Every token takes a character at least, so the text bounds their number. -/
def tokens : Nat → Layout → Option (List Token)
  | 0, _ => none
  | fuel + 1, l =>
    let l := l.toToken
    let l := l.closeBeyond (l.place.column + 1)
    if l.rest.isEmpty then l.finish
    else do tokens fuel (← l.token l.rest)

end Layout

def Token.ofText? (s : String) : Option (List Token) :=
  if s.toList.all isAllowed then Layout.tokens (s.length + 1) (.ofText s) else none

end Targeting.Yaml
