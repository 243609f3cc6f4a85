import ToolNodes.Decimal
import ToolNodes.Table

/-!
# JSON values

A number is an integer when its text is one and it fits 64 bits, signed or unsigned, and a binary64
value otherwise; the two never compare equal. The members of an object are listed as they print.
`Json.Sorted` says that every object of a value lists its members by key without repetition; the
reader makes only such values, while a document with a fixed order of fields need not be one.
-/

namespace ToolNodes

inductive Json.Number where
  /-- A whole number of 64 bits. -/
  | integer (value : Int)
  /-- A binary64 value by sign and magnitude. -/
  | double (negative : Bool) (magnitude : Decimal.Magnitude)
deriving DecidableEq, Repr

inductive Json where
  | null
  | bool (value : Bool)
  | number (value : Json.Number)
  | string (value : String)
  | array (items : List Json)
  | object (members : List (String × Json))

namespace Json

def get? (key : String) : Json → Option Json
  | object members => Entries.get? key members
  | _ => none

def string? : Json → Option String
  | string s => some s
  | _ => none

def members? : Json → Option (List (String × Json))
  | object members => some members
  | _ => none

def isObject (v : Json) : Bool := v.members?.isSome

def text? (key : String) (v : Json) : Option String := (v.get? key).bind string?

/-- The value as it prints for an optional text: the string, or null. -/
def ofText? : Option String → Json
  | some s => string s
  | none => null

mutual
/-- Every object of the value lists its members by key without repetition. -/
def Sorted : Json → Prop
  | array items => AllSorted items
  | object members => Entries.Ordered members ∧ MembersSorted members
  | _ => True

/-- `Sorted` for each item. -/
def AllSorted : List Json → Prop
  | [] => True
  | v :: rest => Sorted v ∧ AllSorted rest

/-- `Sorted` for each member. -/
def MembersSorted : List (String × Json) → Prop
  | [] => True
  | (_, v) :: rest => Sorted v ∧ MembersSorted rest
end

end Json

end ToolNodes
