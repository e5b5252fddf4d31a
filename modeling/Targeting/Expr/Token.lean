import Targeting.Text.Alphanumeric

namespace Targeting

inductive Token
  | var : String → Token
  | and : Token
  | or : Token
  | not : Token
  | lparen : Token
  | rparen : Token
  | raw : String → Token
  deriving DecidableEq, Repr

namespace Token

def text : Token → String
  | .var n => n
  | .and => "&&"
  | .or => "||"
  | .not => "not"
  | .lparen => "("
  | .rparen => ")"
  | .raw s => s

def join (ts : List Token) : String := " ".intercalate (ts.map text)

def isWordChar (c : Char) : Bool := Text.isAlphanumeric c || c == '_' || c == '.'

def isBracket (c : Char) : Bool := c == '(' || c == ')'

def isSign (c : Char) : Bool := !(Text.isBlank c || isWordChar c || isBracket c)

def ofWord : String → Token
  | "and" => .and
  | "or" => .or
  | "not" => .not
  | w => .var w

/-- A doubled `&` or `|` is an operator where a token starts; within a run of signs it is not. -/
def scan : List Char → List Token
  | [] => []
  | '(' :: cs => .lparen :: scan cs
  | ')' :: cs => .rparen :: scan cs
  | '!' :: cs => .not :: scan cs
  | '&' :: '&' :: cs => .and :: scan cs
  | '|' :: '|' :: cs => .or :: scan cs
  | c :: cs =>
    if Text.isBlank c then scan cs
    else if isWordChar c then
      ofWord (String.ofList (c :: cs.takeWhile isWordChar)) :: scan (cs.dropWhile isWordChar)
    else .raw (String.ofList (c :: cs.takeWhile isSign)) :: scan (cs.dropWhile isSign)
  termination_by cs => cs.length
  decreasing_by
    all_goals simp only [List.length_cons]
    all_goals first
      | omega
      | exact Nat.lt_succ_of_le (List.dropWhile_sublist _).length_le

def lex (s : String) : List Token := scan s.toList

end Token

end Targeting
