import TypeEnv.Json.Basic
import TypeEnv.Text.Quoted

/-! What is wrong with a JSON value that does not fit its layout. -/

namespace TypeEnv

/-- What a layout wants at some place. -/
inductive Expected where
  | int64 | uint32 | float64 | boolean | text | sequence | map | unit
  | layout (name : String)
  deriving DecidableEq, Repr, Inhabited

inductive Fault where
  | mismatch (found : Json) (expected : Expected)
  | outOfRange (value : Int) (expected : Expected)
  | missingField (name : String)
  /-- An array ends before the item at `length`, which the layout requires. -/
  | tooShort (length : Nat) (layout : String) (size : Nat)
  /-- An array has more items than the layout has fields. -/
  | tooLong (length size : Nat)
  /-- The same, where fields are gathered before they are read. -/
  | tooLongGathered (length size : Nat)
  /-- A name that is none of the names expected. -/
  | unknownVariant (name : String) (variants : List String)
  | duplicateField (name : String)
  deriving Inhabited

def Expected.describe : Expected → String
  | int64 => "i64"
  | uint32 => "u32"
  | float64 => "f64"
  | boolean => "a boolean"
  | text => "a string"
  | sequence => "a sequence"
  | map => "a map"
  | unit => "unit"
  | layout name => s!"struct {name}"

/-- A number in a message. -/
def JsonNumber.describe : JsonNumber → String
  | int value => s!"integer `{value}`"
  | float value => s!"floating point `{layout.write value}`"

/-- A value in a message; of arrays and objects only the sort is told. -/
def Json.describe : Json → String
  | null => "null"
  | bool value => s!"boolean `{value}`"
  | number value => value.describe
  | string text => "string " ++ Text.quoted text
  | array _ => "sequence"
  | object _ => "map"

def counted (n : Nat) (noun : String) : String :=
  if n = 1 then s!"1 {noun}" else s!"{n} {noun}s"

def Fault.message : Fault → String
  | mismatch found expected => s!"invalid type: {found.describe}, expected {expected.describe}"
  | outOfRange value expected => s!"invalid value: integer `{value}`, expected {expected.describe}"
  | missingField name => s!"missing field `{name}`"
  | tooShort length layout size =>
    s!"invalid length {length}, expected struct {layout} with " ++ counted size "element"
  | tooLong length _ => s!"invalid length {length}, expected fewer elements in array"
  | tooLongGathered length size =>
    s!"invalid length {length}, expected " ++ counted size "element" ++ " in sequence"
  | unknownVariant name variants =>
    s!"unknown variant `{name}`, expected " ++
      " or ".intercalate (variants.map fun variant => s!"`{variant}`")
  | duplicateField name => s!"duplicate field `{name}`"

/-- The fault where fields were gathered before they were read. -/
def Fault.gathered : Fault → Fault
  | tooLong length size => tooLongGathered length size
  | fault => fault

end TypeEnv
