import TypeEnv.Decimal.Shortest

/-! JSON values. Integers are kept apart from other numbers, and an object is the list of its
members, for their order has a meaning. No object that is read from a text repeats a key. -/

namespace TypeEnv

/-- Numbers without point and exponent are integers as long as 64 bits hold them. -/
inductive JsonNumber where
  | int (value : Int)
  | float (value : Binary64)
  deriving DecidableEq, Repr, Inhabited

inductive Json where
  | null
  | bool (value : Bool)
  | number (value : JsonNumber)
  | string (text : String)
  | array (items : List Json)
  | object (members : List (String × Json))
  deriving Inhabited

/-- Floats are written without an exponent from `0.00001` up to, and not at, `1e16`. -/
def JsonNumber.layout : Decimal.Layout := { positionalFrom := -5, positionalBelow := 16 }

def JsonNumber.render : JsonNumber → String
  | int value => toString value
  | float value => layout.write value

namespace Json

def isNull : Json → Bool
  | null => true
  | _ => false

mutual

/-- How many values there are in a value, itself among them. -/
def size : Json → Nat
  | array items => sizeItems items + 1
  | object members => sizeMembers members + 1
  | _ => 1

def sizeItems : List Json → Nat
  | [] => 0
  | item :: items => item.size + sizeItems items

def sizeMembers : List (String × Json) → Nat
  | [] => 0
  | (_, value) :: members => value.size + sizeMembers members

end

end Json

end TypeEnv
