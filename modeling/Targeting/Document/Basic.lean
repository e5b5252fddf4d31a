import Targeting.Value

/-!
Documents: what a format has to offer so that records can be read from its trees. The records are
described once, in terms of this class, and then read from every format.
-/

namespace Targeting

structure Shape where
  name : String
  fields : List String
  deriving DecidableEq, Repr

class Document (σ : Type) (ε : outParam Type) where
  missing : String → ε
  repeated : String → ε
  text : σ → Except ε String
  path : σ → Except ε String
  flag : σ → Except ε Bool
  choice {α : Type} : List (String × α) → σ → Except ε α
  optional {α : Type} : (σ → Except ε α) → σ → Except ε (Option α)
  list {α : Type} : (σ → Except ε α) → σ → Except ε (List α)
  table : σ → Except ε (Table Value)
  skip : σ → Except ε Unit
  /-- Takes the fields one after another into a draft, then finishes it. -/
  record {δ α : Type} : Shape → (δ → String → σ → Except ε δ) → (δ → Except ε α) → δ → σ → Except ε α

namespace Document

variable {σ ε : Type} [Document σ ε]

def once {α : Type} (name : String) (old : Option α) (read : σ → Except ε α) (s : σ) :
    Except ε (Option α) :=
  match old with
  | some _ => throw (repeated σ name)
  | none => some <$> read s

def require {α : Type} (σ : Type) {ε : Type} [Document σ ε] (name : String) : Option α → Except ε α
  | some a => return a
  | none => throw (missing σ name)

end Document

end Targeting
