import Targeting.Text.Basic
import Targeting.Yaml.Layout

namespace Targeting

inductive Yaml
  | scalar : (tag : Option String) → Yaml.Style → (text : String) → Yaml
  | sequence : (tag : Option String) → List Yaml → Yaml
  | mapping : (tag : Option String) → List (Yaml × Yaml) → Yaml
  /-- Has no value: an alias inside of what it stands for, or too many levels. -/
  | unfit : Yaml
  deriving Inhabited, Repr

namespace Yaml

def empty : Yaml := .scalar none .plain ""

mutual

def prune (levels : Nat) : Yaml → Yaml
  | .sequence tag ys =>
    match levels with
    | 0 => .unfit
    | n + 1 => .sequence tag (pruneAll n ys)
  | .mapping tag ps =>
    match levels with
    | 0 => .unfit
    | n + 1 => .mapping tag (prunePairs n ps)
  | y => y

def pruneAll (levels : Nat) : List Yaml → List Yaml
  | [] => []
  | y :: ys => y.prune levels :: pruneAll levels ys

def prunePairs (levels : Nat) : List (Yaml × Yaml) → List (Yaml × Yaml)
  | [] => []
  | (k, y) :: ps => (k.prune levels, y.prune levels) :: prunePairs levels ps

end

/-- The anchors met so far, the last one first; one that is still open has no tree yet. -/
abbrev Anchors := List (String × Option Yaml)

abbrev Building := StateT Anchors Option

def resolve (name : String) : Building Yaml := do
  match (← get).lookup name with
  | some (some y) => return y
  | some none => return .unfit
  | none => failure

def anchored {β : Type} (name : String) (build : Building (Yaml × β)) : Building (Yaml × β) := do
  let before := (← get).length
  modify ((name, none) :: ·)
  let (y, b) ← build
  modify fun as => as.set (as.length - 1 - before) (name, some y)
  return (y, b)

def tagName (handle word : String) : Building String :=
  match handle with
  | "" => return word
  | "!" => return "!" ++ word
  | "!!" => return "tag:yaml.org,2002:" ++ word
  | _ => failure

def endsBlockItem : List Token → Bool
  | .entry :: _ | .blockEnd :: _ => true
  | _ => false

def endsBlockPart : List Token → Bool
  | .key :: _ | .value :: _ | .blockEnd :: _ => true
  | _ => false

def endsFlowPart : List Token → Bool
  | .value :: _ | .comma :: _ | .flowSequenceEnd :: _ | .flowMappingEnd :: _ => true
  | _ => false

mutual

/-- Reads a tree. Block collections are not allowed in brackets, and only values of block mappings
may have sequences that are not indented. -/
def node (block indentless : Bool) (ts : List Token) : Building (Yaml × Below Token ts.length) :=
  match ts with
  | .alias name :: ts => return (← resolve name, ⟨ts, Nat.lt_succ_self _⟩)
  | .anchor name :: .tag handle word :: ts => do
    let tag ← tagName handle word
    let (y, r) ← anchored name (contentOrEmpty block indentless (some tag) ts)
    return (y, r.widen (by simp only [List.length_cons]; omega))
  | .tag handle word :: .anchor name :: ts => do
    let tag ← tagName handle word
    let (y, r) ← anchored name (contentOrEmpty block indentless (some tag) ts)
    return (y, r.widen (by simp only [List.length_cons]; omega))
  | .anchor name :: ts => anchored name (contentOrEmpty block indentless none ts)
  | .tag handle word :: ts => do
    let tag ← tagName handle word
    contentOrEmpty block indentless (some tag) ts
  | ts => do
    match ← content block indentless none ts with
    | some y => return y
    | none => failure
termination_by 7 * ts.length + 2

def contentOrEmpty (block indentless : Bool) (tag : Option String) (ts : List Token) :
    Building (Yaml × Below Token (ts.length + 1)) := do
  match ← content block indentless tag ts with
  | some (y, r) => return (y, r.widen (Nat.le_succ _))
  | none => return (.scalar tag .plain "", .ofList ts)
termination_by 7 * ts.length + 1

def content (block indentless : Bool) (tag : Option String) (ts : List Token) :
    Building (Option (Yaml × Below Token ts.length)) :=
  match ts with
  | .scalar style text :: ts => return some (.scalar tag style text, ⟨ts, Nat.lt_succ_self _⟩)
  | .flowSequence :: ts => do
    let (ys, r) ← flowItems ts
    return some (.sequence tag ys, r.widen (Nat.le_succ _))
  | .flowMapping :: ts => do
    let (ps, r) ← flowPairs ts
    return some (.mapping tag ps, r.widen (Nat.le_succ _))
  | .blockSequence :: ts => do
    if block then
      let (ys, r) ← blockItems ts
      return some (.sequence tag ys, r.widen (Nat.le_succ _))
    else return none
  | .blockMapping :: ts => do
    if block then
      let (ps, r) ← blockPairs ts
      return some (.mapping tag ps, r.widen (Nat.le_succ _))
    else return none
  | .entry :: ts => do
    if indentless then
      let (y, ⟨r, h⟩) ← indentlessItem ts
      let (ys, r) ← indentlessItems r
      return some (.sequence tag (y :: ys), r.widen (by simp only [List.length_cons]; omega))
    else return none
  | _ => return none
termination_by 7 * ts.length

def blockItem (ts : List Token) : Building (Yaml × Below Token (ts.length + 1)) := do
  if endsBlockItem ts then return (empty, .ofList ts)
  else
    let (y, r) ← node true false ts
    return (y, r.widen (Nat.le_succ _))
termination_by 7 * ts.length + 3

def blockItems (ts : List Token) : Building (List Yaml × Below Token ts.length) :=
  match ts with
  | .entry :: ts => do
    let (y, ⟨r, h⟩) ← blockItem ts
    let (ys, r) ← blockItems r
    return (y :: ys, r.widen (by simp only [List.length_cons]; omega))
  | .blockEnd :: ts => return ([], ⟨ts, Nat.lt_succ_self _⟩)
  | _ => failure
termination_by 7 * ts.length + 4

def indentlessItem (ts : List Token) : Building (Yaml × Below Token (ts.length + 1)) := do
  if endsBlockItem ts || endsBlockPart ts then return (empty, .ofList ts)
  else
    let (y, r) ← node true false ts
    return (y, r.widen (Nat.le_succ _))
termination_by 7 * ts.length + 3

def indentlessItems (ts : List Token) : Building (List Yaml × Below Token (ts.length + 1)) :=
  match ts with
  | .entry :: ts => do
    let (y, ⟨r, h⟩) ← indentlessItem ts
    let (ys, r) ← indentlessItems r
    return (y :: ys, r.widen (by simp only [List.length_cons]; omega))
  | ts => return ([], .ofList ts)
termination_by 7 * ts.length + 4

def blockPart (ts : List Token) : Building (Yaml × Below Token (ts.length + 1)) := do
  if endsBlockPart ts then return (empty, .ofList ts)
  else
    let (y, r) ← node true true ts
    return (y, r.widen (Nat.le_succ _))
termination_by 7 * ts.length + 3

def blockValue (ts : List Token) : Building (Yaml × Below Token (ts.length + 1)) :=
  match ts with
  | .value :: ts => do
    let (y, r) ← blockPart ts
    return (y, r.widen (Nat.le_succ _))
  | ts => return (empty, .ofList ts)
termination_by 7 * ts.length + 4

def blockPairs (ts : List Token) : Building (List (Yaml × Yaml) × Below Token ts.length) :=
  match ts with
  | .key :: ts => do
    let (k, ⟨r, h⟩) ← blockPart ts
    let (y, ⟨s, h'⟩) ← blockValue r
    let (ps, t) ← blockPairs s
    return ((k, y) :: ps, t.widen (by simp only [List.length_cons]; omega))
  | .blockEnd :: ts => return ([], ⟨ts, Nat.lt_succ_self _⟩)
  | _ => failure
termination_by 7 * ts.length + 4

def flowPart (ts : List Token) : Building (Yaml × Below Token (ts.length + 1)) := do
  if endsFlowPart ts then return (empty, .ofList ts)
  else
    let (y, r) ← node false false ts
    return (y, r.widen (Nat.le_succ _))
termination_by 7 * ts.length + 3

def flowValue (ts : List Token) : Building (Yaml × Below Token (ts.length + 1)) :=
  match ts with
  | .value :: ts => do
    let (y, r) ← flowPart ts
    return (y, r.widen (Nat.le_succ _))
  | ts => return (empty, .ofList ts)
termination_by 7 * ts.length + 4

def flowItems (ts : List Token) : Building (List Yaml × Below Token ts.length) :=
  match ts with
  | .flowSequenceEnd :: ts => return ([], ⟨ts, Nat.lt_succ_self _⟩)
  | ts => do
    let (y, ⟨r, h⟩) ← flowItem ts
    let (ys, s) ← moreFlowItems r
    return (y :: ys, s.widen (Nat.le_of_lt h))
termination_by 7 * ts.length + 6

def moreFlowItems (ts : List Token) : Building (List Yaml × Below Token ts.length) :=
  match ts with
  | .flowSequenceEnd :: ts => return ([], ⟨ts, Nat.lt_succ_self _⟩)
  | .comma :: ts => do
    let (ys, r) ← flowItems ts
    return (ys, r.widen (Nat.le_succ _))
  | _ => failure
termination_by 7 * ts.length

def flowItem (ts : List Token) : Building (Yaml × Below Token ts.length) :=
  match ts with
  | .key :: ts => do
    let (k, ⟨r, h⟩) ← node false false ts
    let (y, s) ← flowValue r
    return (.mapping none [(k, y)], s.widen (by simp only [List.length_cons]; omega))
  | ts => node false false ts
termination_by 7 * ts.length + 5

def flowPairs (ts : List Token) : Building (List (Yaml × Yaml) × Below Token ts.length) :=
  match ts with
  | .flowMappingEnd :: ts => return ([], ⟨ts, Nat.lt_succ_self _⟩)
  | ts => do
    let (p, ⟨r, h⟩) ← flowPair ts
    let (ps, s) ← moreFlowPairs r
    return (p :: ps, s.widen (Nat.le_of_lt h))
termination_by 7 * ts.length + 6

def moreFlowPairs (ts : List Token) : Building (List (Yaml × Yaml) × Below Token ts.length) :=
  match ts with
  | .flowMappingEnd :: ts => return ([], ⟨ts, Nat.lt_succ_self _⟩)
  | .comma :: ts => do
    let (ps, r) ← flowPairs ts
    return (ps, r.widen (Nat.le_succ _))
  | _ => failure
termination_by 7 * ts.length

def flowPair (ts : List Token) : Building ((Yaml × Yaml) × Below Token ts.length) :=
  match ts with
  | .key :: ts => do
    let (k, ⟨r, h⟩) ← flowPart ts
    let (y, s) ← flowValue r
    return ((k, y), s.widen (by simp only [List.length_cons]; omega))
  | ts => do
    let (k, r) ← node false false ts
    return ((k, empty), r)
termination_by 7 * ts.length + 5

end

def isEnd : List Token → Bool
  | [] => true
  | .documentEnd :: ts => isEnd ts
  | _ => false

def startsDocument : List Token → Bool
  | [] | .documentStart :: _ | .documentEnd :: _ | .version _ :: _ => true
  | _ => false

def body (ts : List Token) : Building Yaml := do
  if startsDocument ts then if isEnd ts then return empty else failure
  else
    let (y, r) ← node true false ts
    if isEnd r.1 then return y else failure

def document : List Token → Building Yaml
  | [] => return empty
  | .version (1, 1) :: .documentStart :: ts => body ts
  | .version (1, 2) :: .documentStart :: ts => body ts
  | .documentStart :: ts => body ts
  | ts => do
    let (y, r) ← node true false ts
    if isEnd r.1 then return y else failure

def ofText? (s : String) : Option Yaml := do
  return (← (document (← Token.ofText? s)).run []).1

end Yaml

end Targeting
