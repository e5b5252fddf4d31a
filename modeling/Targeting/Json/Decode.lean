import Targeting.Document.Basic
import Targeting.Json.Fault
import Targeting.Json.Text

/-!
JSON as a document format. Every reader walks its tree from left to right, so of two faults the
one that comes first in the text is told. Broken and unfit leaves are faults wherever a value is
asked for; what is passed over may be unfit but not broken.
-/

namespace Targeting

namespace Json

def text : Json → Except Error String
  | .string s => .ok s
  | j => .error (j.mismatch .text)

def path : Json → Except Error String
  | .string s => .ok s
  | j => .error (j.mismatch .path)

def flag : Json → Except Error Bool
  | .bool b => .ok b
  | j => .error (j.mismatch .flag)

def named {α : Type} (names : List (String × α)) (name : String) : Except Error α :=
  match names.lookup name with
  | some a => .ok a
  | none => .error (.unknownChoice name (names.map Prod.fst))

def choice {α : Type} (names : List (String × α)) : Json → Except Error α
  | .string s => named names s
  | .object ((some k, j) :: ms) => do
    let a ← named names k
    match j with
    | .null => if ms.isEmpty then return a else throw .malformed
    | j => throw (j.mismatch .unit)
  | _ => .error .malformed

def optional {α : Type} (read : Json → Except Error α) : Json → Except Error (Option α)
  | .null => .ok none
  | j => some <$> read j

def list {α : Type} (read : Json → Except Error α) : Json → Except Error (List α)
  | .array js => js.mapM read
  | j => .error (j.mismatch .list)

def key : Option String → Except Error String
  | some k => .ok k
  | none => .error .malformed

mutual

def value : Json → Except Error Value
  | .null => .ok .null
  | .bool b => .ok (.bool b)
  | .number n => .ok (.number n.toFloat)
  | .string s => .ok (.string s)
  | .array js => .array <$> values js
  | .object ms => .ofTable <$> entries ∅ ms
  | .unfit => .error .malformed
  | .broken => .error .malformed

def values : List Json → Except Error (List Value)
  | [] => .ok []
  | j :: js => do return (← value j) :: (← values js)

def entries (t : Table Value) : List (Option String × Json) → Except Error (Table Value)
  | [] => .ok t
  | (k, j) :: ms => do entries (t.insert (← key k) (← value j)) ms

end

mutual

/-- The first variant that accepts the tree gives the value. -/
def untagged (j : Json) : Option Value :=
  [match j with | .null => some .null | _ => none,
    match j with | .bool b => some (.bool b) | _ => none,
    match j with | .number n => some (.number n.toFloat) | _ => none,
    match j with | .string s => some (.string s) | _ => none,
    match j with | .array js => .array <$> untaggedAll js | _ => none,
    match j with | .object ms => .ofTable <$> untaggedEntries ∅ ms | _ => none].findSome? id

def untaggedAll : List Json → Option (List Value)
  | [] => some []
  | j :: js => do return (← untagged j) :: (← untaggedAll js)

def untaggedEntries (t : Table Value) : List (Option String × Json) → Option (Table Value)
  | [] => some t
  | (k, j) :: ms => do untaggedEntries (t.insert (← k) (← untagged j)) ms

end

def table : Json → Except Error (Table Value)
  | .object ms => entries ∅ ms
  | j => .error (j.mismatch .table)

def skip (j : Json) : Except Error Unit := if j.whole then .ok () else .error .malformed

/-- A record is an object, or an array of its fields in their order. Fields may be missing at the
end of the array; one that has to be there is then a fault of the array. -/
def record {δ α : Type} (shape : Shape) (take : δ → String → Json → Except Error δ)
    (finish : δ → Except Error α) (draft : δ) : Json → Except Error α
  | .object ms => do
    finish (← ms.foldlM (fun d (k, j) => do take d (← key k) j) draft)
  | .array js => do
    let d ← (shape.fields.zip js).foldlM (fun d (k, j) => take d k j) draft
    if shape.fields.length < js.length then throw .malformed
    (finish d).mapError fun
      | .missing _ => .tooShort js.length shape.name shape.fields.length
      | e => e
  | j => .error (j.mismatch (.record shape.name))

instance : Document Json Error where
  missing := .missing
  repeated := .repeated
  text := text
  path := path
  flag := flag
  choice := choice
  optional := optional
  list := list
  table := table
  skip := skip
  record := record

def levels : Nat := 127

def decode {α : Type} (read : Json → Except Error α) (s : String) : Except Error α := do
  let (j, clean) := ofText s
  let a ← read (j.prune levels)
  if clean then return a else throw .malformed

end Json

end Targeting
