import Targeting.Failure

namespace Targeting

abbrev Files := String → Except ReadError String

def pathParts (path : String) : List String := path.splitOn "/"

def fileName? (path : String) : Option String :=
  match ((pathParts path).filter fun p => p ≠ "" && p ≠ ".").getLast? with
  | some ".." => none
  | name => name

def extension? (name : String) : Option String :=
  match (name.splitOn ".").reverse with
  | ext :: stem :: more => if stem = "" && more.isEmpty then none else some ext
  | _ => none

def toAsciiLower (s : String) : String := String.ofList (s.toList.map Char.toLower)

def isJson (path : String) : Bool :=
  ((fileName? path).bind extension?).any fun ext => toAsciiLower ext = "json"

inductive FileEntry
  | file : ByteArray → FileEntry
  | directory : FileEntry

structure FileTree where
  entries : List (List String × FileEntry)

namespace FileTree

def entry? (t : FileTree) (place : List String) : Option FileEntry :=
  match t.entries.find? (·.1 = place) with
  | some e => some e.2
  | none =>
    if place.isEmpty || t.entries.any (fun e => place.isPrefixOf e.1) then some .directory else none

/-- A path that has left the tree; out there only directories on the way to the tree are known. -/
def outside (parts : List String) : Except ReadError FileEntry :=
  if parts.all fun p => p = "" || p = "." || p = ".." then .ok .directory else .error .notFound

def follow (t : FileTree) (place : List String) : List String → Except ReadError FileEntry
  | [] =>
    match t.entry? place with
    | some e => .ok e
    | none => .error .notFound
  | p :: ps =>
    match t.entry? place with
    | some .directory =>
      if p = "" || p = "." then t.follow place ps
      else if p = ".." then if place.isEmpty then outside ps else t.follow place.dropLast ps
      else t.follow (place ++ [p]) ps
    | some (.file _) => .error .notDirectory
    | none => .error .notFound

def read (t : FileTree) : Files := fun path =>
  if path = "" || path.startsWith "/" then .error .notFound
  else
    match t.follow [] (pathParts path) with
    | .error e => .error e
    | .ok .directory => .error .isDirectory
    | .ok (.file bytes) =>
      match String.fromUTF8? bytes with
      | some s => .ok s
      | none => .error .notText

end FileTree

end Targeting
