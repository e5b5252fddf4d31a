import Targeting.Table
import Targeting.Text.Basic

namespace Targeting

mutual

inductive Value
  | null : Value
  | bool : Bool → Value
  | number : Float → Value
  | string : String → Value
  | array : List Value → Value
  | object : Value.Entries none → Value
  deriving Repr

/-- Entries in strictly increasing key order, from above a bound on. -/
inductive Value.Entries : Option String → Type
  | nil {bound : Option String} : Value.Entries bound
  | cons {bound : Option String} : (key : String) → (∀ k ∈ bound, k < key) → Value →
      Value.Entries (some key) → Value.Entries bound
  deriving Repr

end

namespace Value

instance : Inhabited Value := ⟨.null⟩

namespace Entries

def toList {bound : Option String} : Entries bound → List (String × Value)
  | .nil => []
  | .cons k _ v es => (k, v) :: es.toList

theorem lt_of_mem : ∀ {bound : Option String} (es : Entries bound), ∀ k ∈ bound, ∀ e ∈ es.toList,
    k < e.1
  | _, .nil, _, _, _, he => by cases he
  | _, .cons key h v es, k, hk, e, he => by
    rcases List.mem_cons.1 he with rfl | he
    · exact h k hk
    · exact String.lt_trans (h k hk) (lt_of_mem es key rfl e he)

theorem ordered : ∀ {bound : Option String} (es : Entries bound),
    es.toList.Pairwise fun a b => a.1 < b.1
  | _, .nil => .nil
  | _, .cons key _ _ es => List.pairwise_cons.2 ⟨lt_of_mem es key rfl, ordered es⟩

def toTable (es : Entries none) : Table Value := ⟨es.toList, es.ordered⟩

def ofList {bound : Option String} : (es : List (String × Value)) →
    (∀ k ∈ bound, ∀ e ∈ es, k < e.1) → es.Pairwise (fun a b => a.1 < b.1) → Entries bound
  | [], _, _ => .nil
  | (key, v) :: es, h, ho =>
    .cons key (fun k hk => h k hk (key, v) List.mem_cons_self) v
      (ofList es (fun _ hk e he => Option.some.inj hk ▸ (List.pairwise_cons.1 ho).1 e he)
        (List.pairwise_cons.1 ho).2)

def ofTable (t : Table Value) : Entries none := ofList t.entries nofun t.ordered

theorem toList_ofList : ∀ {bound : Option String} (es : List (String × Value))
    (h : ∀ k ∈ bound, ∀ e ∈ es, k < e.1) (ho : es.Pairwise fun a b => a.1 < b.1),
    (ofList es h ho).toList = es
  | _, [], _, _ => rfl
  | _, _ :: es, _, _ => congrArg (List.cons _) (toList_ofList es _ _)

theorem ofList_toList : ∀ {bound : Option String} (es : Entries bound)
    (h : ∀ k ∈ bound, ∀ e ∈ es.toList, k < e.1) (ho : es.toList.Pairwise fun a b => a.1 < b.1),
    ofList es.toList h ho = es
  | _, .nil, _, _ => rfl
  | _, .cons key hkey v es, _, _ => congrArg (Entries.cons key hkey v) (ofList_toList es _ _)

@[simp] theorem toList_ofTable (t : Table Value) : (ofTable t).toList = t.entries :=
  toList_ofList t.entries _ _

@[simp] theorem ofTable_toTable (es : Entries none) : ofTable es.toTable = es :=
  ofList_toList es _ _

end Entries

def ofTable (t : Table Value) : Value := .object (.ofTable t)

def ofInt (i : Int) : Value := .number (Float.ofInt i)

mutual

def beq : Value → Value → Bool
  | .null, .null => true
  | .bool a, .bool b => a == b
  | .number a, .number b => a == b
  | .string a, .string b => a == b
  | .array as, .array bs => beqList as bs
  | .object as, .object bs => beqEntries as bs
  | _, _ => false

def beqList : List Value → List Value → Bool
  | [], [] => true
  | a :: as, b :: bs => beq a b && beqList as bs
  | _, _ => false

def beqEntries {bound bound' : Option String} : Entries bound → Entries bound' → Bool
  | .nil, .nil => true
  | .cons j _ a as, .cons k _ b bs => j == k && beq a b && beqEntries as bs
  | _, _ => false

end

instance : BEq Value := ⟨beq⟩

def isNull : Value → Bool
  | .null => true
  | _ => false

/-- Whether a condition could tell visitors apart by it: numbers and booleans always count. -/
def isEmpty : Value → Bool
  | .null => true
  | .bool _ => false
  | .number _ => false
  | .string s => Text.isBlankText s
  | .array vs => vs.isEmpty
  | .object es => es.toList.isEmpty

def text? : Value → Option String
  | .string s => some s
  | _ => none

def bool? : Value → Option Bool
  | .bool b => some b
  | _ => none

def number? : Value → Option Float
  | .number x => some x
  | _ => none

def array? : Value → Option (List Value)
  | .array vs => some vs
  | _ => none

def object? : Value → Option (Table Value)
  | .object es => some es.toTable
  | _ => none

end Value

end Targeting
