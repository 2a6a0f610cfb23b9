import TypeEnv.LoadError
import TypeEnv.Record.Fields

/-! Reading a record: its kind, the fields of that kind, and the numbers that its references are.
A number past 32 bits names no record; it is reported at the field that holds it, and of several
the first in the order in which a record is taken in. -/

namespace TypeEnv

/-- The number of a record, if it is one. -/
def RecordId.ofInt? (n : Int) : Option RecordId := (word? n).map RecordId.mk

/-- The record that a required reference names. -/
def RecordId.check (place : String) (n : Int) : Except LoadError RecordId :=
  match RecordId.ofInt? n with
  | some id => .ok id
  | none => .error (.malformed place (.notAnId (.int n)))

namespace Record

/-- Checks every reference of a record. -/
def check (place : String) (record : NestedRecord Int) :
    Except LoadError (NestedRecord RecordId) := do
  let onType (field : String) := RecordId.check s!"{place}.{field}"
  let record ← record.traverse onType fun signature =>
    signature.traverse onType fun s => return .ofSignature s
  match record with
  | .tuple elements none =>
    if elements.length < 0x100000000 then return record else throw (.malformed place .tupleTooLong)
  | _ => return record

/-- The kind that the members of a record name. -/
def readKind (id : RecordId) (place : String) (members : List (String × Json)) :
    Except LoadError Kind :=
  match members.lookup "kind" with
  | none => .error (.malformed place .kindMissing)
  | some (.string tag) =>
    match Kind.ofTag? tag with
    | some kind => .ok kind
    | none => .error (.unknownKind id tag)
  | some _ => .error (.malformed place .kindNotText)

/-- Reads record `id`. -/
def read (id : RecordId) (json : Json) :
    Except LoadError (NestedRecord RecordId) := do
  let place := s!"data[{id.val}]"
  let .object members := json | throw (.malformed place .recordNotAnObject)
  let kind ← readKind id place members
  match readFields members kind with
  | .error fault => throw (.malformed place (.misfit fault))
  | .ok record => record.check place

end Record

end TypeEnv
