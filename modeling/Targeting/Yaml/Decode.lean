import Targeting.Document.Basic
import Targeting.Yaml.Basic
import Targeting.Yaml.Meaning

namespace Targeting

namespace Yaml

def coreTag (name : String) : String := "tag:yaml.org,2002:" ++ name

def ownTag? (tag : Option String) : Option String :=
  match tag.map String.toList with
  | some ['!'] => some "!"
  | some ('!' :: cs) => some (String.ofList cs)
  | _ => none

def isEmpty : Yaml → Bool
  | .scalar _ .plain s => s.isEmpty
  | _ => false

def text : Yaml → Except Unit String
  | .scalar _ _ s => .ok s
  | _ => .error ()

def orRefuse {α : Type} : Option α → Except Unit α
  | some a => .ok a
  | none => .error ()

def flag : Yaml → Except Unit Bool
  | .scalar _ .plain s => orRefuse (Meaning.bool? s)
  | .scalar (some tag) .literal s =>
    if tag = coreTag "bool" then orRefuse (Meaning.bool? s) else .error ()
  | _ => .error ()

def choice {α : Type} (names : List (String × α)) (y : Yaml) : Except Unit α :=
  match y with
  | .scalar tag style s =>
    match ownTag? tag with
    | some name =>
      if style = .plain && (s.isEmpty || Meaning.isNull s) then orRefuse (names.lookup name)
      else .error ()
    | none => orRefuse (names.lookup s)
  | _ => .error ()

def optional {α : Type} (read : Yaml → Except Unit α) (y : Yaml) : Except Unit (Option α) :=
  match y with
  | .scalar none .plain s =>
    if s.isEmpty || Meaning.isNull s then .ok none else some <$> read y
  | .scalar (some tag) .plain s =>
    if tag = coreTag "null" then if Meaning.isNull s then .ok none else .error ()
    else some <$> read y
  | y => some <$> read y

def list {α : Type} (read : Yaml → Except Unit α) (y : Yaml) : Except Unit (List α) :=
  match y with
  | .sequence _ ys => ys.mapM read
  | y => if y.isEmpty then .ok [] else .error ()

def ofMeaning (s : String) : Meaning → Except Unit Value
  | .null => .ok .null
  | .bool b => .ok (.bool b)
  | .number x => .ok (.number x)
  | .text => .ok (.string s)
  | .tooLarge => .error ()

def tagged (tag s : String) : Except Unit Value :=
  if tag = coreTag "bool" then .bool <$> orRefuse (Meaning.bool? s)
  else if tag = coreTag "int" then do ofMeaning s (← orRefuse (Meaning.number? s))
  else if tag = coreTag "float" then .number <$> orRefuse (Meaning.float? s)
  else if tag = coreTag "null" then if Meaning.isNull s then .ok .null else .error ()
  else .ok (.string s)

def scalarValue (tag : Option String) (style : Style) (s : String) : Except Unit Value :=
  match tag with
  | some tag => tagged tag s
  | none => if style = .plain then ofMeaning s (.ofText s) else .ok (.string s)

def valueKey : Yaml → Except Unit String
  | .scalar tag style s =>
    if (ownTag? tag).isSome then .error ()
    else do
      match ← scalarValue tag style s with
      | .string k => return k
      | _ => .error ()
  | _ => .error ()

mutual

def value : Yaml → Except Unit Value
  | .scalar tag style s =>
    if (ownTag? tag).isSome then .error () else scalarValue tag style s
  | .sequence tag ys =>
    if (ownTag? tag).isSome then .error () else .array <$> values ys
  | .mapping tag ps =>
    if (ownTag? tag).isSome then .error () else .ofTable <$> entries ∅ ps
  | .unfit => .error ()

def values : List Yaml → Except Unit (List Value)
  | [] => .ok []
  | y :: ys => do return (← value y) :: (← values ys)

def entries (t : Table Value) : List (Yaml × Yaml) → Except Unit (Table Value)
  | [] => .ok t
  | (k, y) :: ps => do entries (t.insert (← valueKey k) (← value y)) ps

end

/-- The keys of a table are texts, whatever they mean. -/
def table (y : Yaml) : Except Unit (Table Value) :=
  match y with
  | .mapping _ ps => ps.foldlM (fun t (k, y) => do return t.insert (← text k) (← value y)) ∅
  | y => if y.isEmpty then .ok ∅ else .error ()

def record {δ α : Type} (_ : Shape) (take : δ → String → Yaml → Except Unit δ)
    (finish : δ → Except Unit α) (draft : δ) (y : Yaml) : Except Unit α :=
  match y with
  | .mapping _ ps => do finish (← ps.foldlM (fun d (k, y) => do take d (← text k) y) draft)
  | y => if y.isEmpty then finish draft else .error ()

instance : Document Yaml Unit where
  missing _ := ()
  repeated _ := ()
  text := text
  path := text
  flag := flag
  choice := choice
  optional := optional
  list := list
  table := table
  skip _ := .ok ()
  record := record

def levels : Nat := 128

def decode {α : Type} (read : Yaml → Except Unit α) (s : String) : Option α := do
  (read ((← ofText? s).prune levels)).toOption

end Yaml

end Targeting
