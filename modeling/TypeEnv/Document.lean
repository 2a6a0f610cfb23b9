import TypeEnv.Locations
import TypeEnv.Options.Basic

/-! Documents: an environment as it is written down. A document is an object with the data, an
array of records, and sections for the catalogs and the locations. The sections are read before the
records, and reading a document looks up nothing: what it names by number may not be there. -/

namespace TypeEnv

structure Document where
  globals : CatalogEntries
  types : CatalogEntries
  ambient : CatalogEntries
  locations : List LocationEntry
  /-- The record at each position; `none` where a null was skipped. -/
  records : List (Option (NestedRecord RecordId))
  deriving Inhabited

namespace Document

variable (members : List (String × Json))

/-- A section; null is as good as absent. -/
def section? (name : String) : Option Json :=
  (members.lookup name).filter (!·.isNull)

def requiredCatalog (name : String) : Except LoadError CatalogEntries :=
  match section? members name with
  | some json => Catalog.read name json
  | none => .error (.malformed name .sectionMissing)

/-- The array of records. Unlike other sections, null data is there, and is no array. -/
def readData : Except LoadError (List Json) :=
  match members.lookup "data" with
  | none => .error (.malformed "data" .sectionMissing)
  | some (.array records) => .ok records
  | some _ => .error (.malformed "data" .notAnArray)

/-- Reads what stands at position `id`. -/
def readRecord (options : LoadOptions) (id : RecordId) (json : Json) :
    Except LoadError (Option (NestedRecord RecordId)) :=
  if json.isNull then
    match options.nullRecords with
    | .reject => .error (.malformed s!"data[{id.val}]" .nullRecord)
    | .skip => .ok none
  else some <$> Record.read id json

/-- Reads what stands at position `index`; positions are numbers of 32 bits. -/
def readAt (options : LoadOptions) (index : Nat) (json : Json) :
    Except LoadError (Option (NestedRecord RecordId)) :=
  if index < 0x100000000 then readRecord options ⟨index.toUInt32⟩ json
  else .error (.malformed "data" .tooManyRecords)

/-- Reads the records from position `index` on. -/
def readRecords (options : LoadOptions) :
    Nat → List Json → Except LoadError (List (Option (NestedRecord RecordId)))
  | _, [] => return []
  | index, json :: jsons => do
    let record ← readAt options index json
    return record :: (← readRecords options (index + 1) jsons)

def read (options : LoadOptions) (json : Json) : Except LoadError Document := do
  let .object members := json | throw (.malformed "$" .notAnObject)
  let data ← readData members
  let globals ← requiredCatalog members "globals"
  let types ← requiredCatalog members "types"
  let ambient ← ((section? members "ambient").mapM (Catalog.read "ambient"))
  let locations ← ((section? members "locations").mapM Locations.read)
  let records ← readRecords options 0 data
  return { globals, types, ambient := ambient.getD [], locations := locations.getD [], records }

end Document

end TypeEnv
