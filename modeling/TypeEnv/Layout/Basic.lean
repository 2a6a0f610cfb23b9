import TypeEnv.Layout.Fault
import TypeEnv.OrderedMap

/-! Layouts of JSON values. A layout lists named fields, each with a reader and a place in a record.
Written as an object, fields come in any order and under their names, and other names are passed
over; written as an array, they come in the order of the layout. Fields are read in the order in
which they are written and the first that does not fit is reported; only when all fit is a missing
one reported, the first of the layout. A field that is not required leaves the record as it was
blank.

A layout reads fields from values of any type `α`, since a value can have been looked into before
its fields are known. -/

namespace TypeEnv

structure Field (α ρ : Type) where
  name : String
  required : Bool := false
  /-- How the record changes when the field has this value. -/
  read : α → Except Fault (ρ → ρ)

/-- A field that may be left out, read by `read` and set by `put`. -/
def Field.optional {α γ ρ : Type} (name : String) (read : α → Except Fault γ) (put : γ → ρ → ρ) :
    Field α ρ where
  name
  read value := put <$> read value

/-- A field that has to be there. -/
def Field.needed {α γ ρ : Type} (name : String) (read : α → Except Fault γ) (put : γ → ρ → ρ) :
    Field α ρ :=
  { Field.optional name read put with required := true }

structure Layout (α ρ : Type) where
  /-- How messages call the record. -/
  name : String := ""
  fields : List (Field α ρ)
  blank : ρ

/-- The layout of one field that has to be there. -/
def Layout.single {α γ : Type} (name : String) (read : α → Except Fault γ) (blank : γ) :
    Layout α γ where
  fields := [.needed name read fun value _ => value]
  blank

/-- The layout of one field that may be left out. -/
def Layout.singleOptional {α γ : Type} (name : String) (read : α → Except Fault γ) (blank : γ) :
    Layout α γ where
  fields := [.optional name read fun value _ => value]
  blank

namespace Layout

variable {α ρ : Type} (layout : Layout α ρ)

def field? (name : String) : Option (Field α ρ) :=
  layout.fields.find? (·.name = name)

def readMembers : List (String × α) → ρ → Except Fault ρ
  | [], record => .ok record
  | (name, value) :: members, record =>
    match layout.field? name with
    | none => readMembers members record
    | some field => do
      let change ← field.read value
      readMembers members (change record)

/-- The first field that is required and not among `names`. -/
def missing? (names : List String) : Option (Field α ρ) :=
  layout.fields.find? fun field => field.required && !names.contains field.name

def ofMembers (members : List (String × α)) : Except Fault ρ := do
  let record ← layout.readMembers members layout.blank
  match layout.missing? (members.map Prod.fst) with
  | some field => .error (.missingField field.name)
  | none => return record

def readItems : List (Field α ρ) → List α → ρ → Except Fault ρ
  | field :: fields, item :: items, record => do
    let change ← field.read item
    readItems fields items (change record)
  | _, _, record => .ok record

def ofItems (items : List α) : Except Fault ρ := do
  let record ← readItems layout.fields items layout.blank
  let size := layout.fields.length
  match (layout.fields.drop items.length).findIdx? (·.required) with
  | some skipped => .error (.tooShort (items.length + skipped) layout.name size)
  | none =>
    if size < items.length then .error (.tooLong items.length size)
    else return record

end Layout

def Layout.read {ρ : Type} (layout : Layout Json ρ) : Json → Except Fault ρ
  | .object members => layout.ofMembers members
  | .array items => layout.ofItems items
  | json => .error (.mismatch json (.layout layout.name))

/-! ### Readers of single values -/

namespace Json

def readInt64 : Json → Except Fault Int
  | number (.int value) =>
    if -0x8000000000000000 ≤ value ∧ value < 0x8000000000000000 then .ok value else .error (.outOfRange value .int64)
  | json => .error (.mismatch json .int64)

def readUInt32 : Json → Except Fault UInt32
  | number (.int value) =>
    if 0 ≤ value ∧ value < 0x100000000 then .ok value.toNat.toUInt32
    else .error (.outOfRange value .uint32)
  | json => .error (.mismatch json .uint32)

def readFloat : Json → Except Fault Binary64
  | number (.int value) => .ok (.ofInt value)
  | number (.float value) => .ok value
  | json => .error (.mismatch json .float64)

def readBool : Json → Except Fault Bool
  | bool value => .ok value
  | json => .error (.mismatch json .boolean)

def readText : Json → Except Fault String
  | string text => .ok text
  | json => .error (.mismatch json .text)

variable {α : Type} (read : Json → Except Fault α)

def readNullable : Json → Except Fault (Option α)
  | null => .ok none
  | json => some <$> read json

def readList : Json → Except Fault (List α)
  | array items => items.mapM read
  | json => .error (.mismatch json .sequence)

def readMap : Json → Except Fault (OrderedMap String α)
  | object members => do
    return OrderedMap.ofList (← members.mapM fun member => return (member.1, ← read member.2))
  | json => .error (.mismatch json .map)

end Json

end TypeEnv
