import Targeting.Rule

namespace Targeting

structure Visitor where
  id : Option String
  data : Table Value
  rules : List Rule
  segments : List Segment
  loaded : Table Unit
  deriving Repr

namespace Visitor

def ofId (id : Option String) : Visitor := ⟨id, ∅, [], [], ∅⟩

def anonymous : Visitor := ofId none

def cookieName : String := "_pc_vis"

def ofCookies (cookies : Table String) : Visitor := ofId (cookies.get? cookieName)

def withData (v : Visitor) (data : Table Value) : Visitor := { v with data }

def hasId (v : Visitor) : Bool := v.id.any fun s => !s.isEmpty

def get? (v : Visitor) (k : String) : Option Value := v.data.get? k

/-- What is stored as null does not count. -/
def known? (v : Visitor) (k : String) : Option Value := (v.get? k).filter fun x => !x.isNull

def has (v : Visitor) (k : String) : Bool := (v.known? k).isSome

def getD (v : Visitor) (k : String) (default : Value) : Value := (v.known? k).getD default

def set (v : Visitor) (k : String) (x : Value) : Visitor := { v with data := v.data.insert k x }

def erase (v : Visitor) (k : String) : Visitor := { v with data := v.data.erase k }

def addRule (v : Visitor) (r : Rule) : Visitor := { v with rules := v.rules ++ [r] }

def withRules (v : Visitor) (rules : List Rule) : Visitor := { v with rules }

def addSegment (v : Visitor) (s : Segment) : Visitor := { v with segments := v.segments ++ [s] }

def withSegments (v : Visitor) (segments : List Segment) : Visitor := { v with segments }

def markLoaded (v : Visitor) (key : String) : Visitor :=
  { v with loaded := v.loaded.insert key () }

def isLoaded (v : Visitor) (key : String) : Bool := v.loaded.contains key

end Visitor

end Targeting
