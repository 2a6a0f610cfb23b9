import TypeEnv.Record.Reader

/-! Catalogs: qualified names of types. A document writes a catalog either as an array of entries,
each with its name and its record, or as a tree of objects whose leaves are records and whose
branches spell the names. Both give one list of entries, in the order in which they are written. -/

namespace TypeEnv

/-- Qualified names and the records they name. -/
abbrev CatalogEntries := List (List String × RecordId)

/-- Qualified names and the nodes they name, each once. -/
abbrev NameTable := OrderedMap (List String) TypeId

namespace Catalog

/-! ### Arrays -/

/-- An entry as it is written. -/
structure EntryFields where
  type : Int
  name : List String
  deriving DecidableEq, Repr, Inhabited

def entryLayout : Layout Json EntryFields where
  name := "RawNamedType"
  fields := [
    .needed "type" Json.readInt64 fun type e => { e with type },
    .needed "qName" (·.readList Json.readText) fun name e => { e with name }]
  blank := { type := 0, name := [] }

/-- Checks the entries from position `index` on. -/
def checkEntries (place : String) : Nat → List EntryFields → Except LoadError CatalogEntries
  | _, [] => return []
  | index, entry :: entries => do
    let entryPlace := s!"{place}[{index}]"
    if entry.name.isEmpty then
      throw (.malformed entryPlace .emptyName)
    let id ← RecordId.check entryPlace entry.type
    return (entry.name, id) :: (← checkEntries place (index + 1) entries)

def ofArray (place : String) (items : List Json) : Except LoadError CatalogEntries := do
  match items.mapM entryLayout.read with
  | .error fault => throw (.malformed place (.misfit fault))
  | .ok entries => checkEntries place 0 entries

/-! ### Trees -/

/-- The record that a leaf names. -/
def readLeaf (place : String) : Json → Except LoadError RecordId
  | .number number =>
    match number with
    | .int n => RecordId.check place n
    | .float _ => throw (.malformed place (.notAnId number))
  | _ => throw (.malformed place .leafNotAnId)

/-- The entries of trees that are yet to be looked at, each under the path that leads to it. A step
takes a leaf away or replaces a tree by its branches, so `budget` is enough if it is the size of all
trees. -/
def flatten (place : String) : Nat → List (List String × Json) → Except LoadError CatalogEntries
  | 0, _ | _, [] => return []
  | budget + 1, (path, .object branches) :: trees =>
    flatten place budget (branches.map (fun branch => (path ++ [branch.1], branch.2)) ++ trees)
  | budget + 1, (path, leaf) :: trees => do
    let id ← readLeaf (place ++ "." ++ ".".intercalate path) leaf
    return (path, id) :: (← flatten place budget trees)

def ofTree (place : String) (tree : Json) : Except LoadError CatalogEntries :=
  flatten place tree.size [([], tree)]

/-- The entries of the catalog written at `place`. -/
def read (place : String) : Json → Except LoadError CatalogEntries
  | .array items => ofArray place items
  | .object branches => ofTree place (.object branches)
  | _ => throw (.malformed place .notACatalog)

/-- Looks up the nodes of all entries. A name that repeats keeps its first place and names its last
node. -/
def resolve (entries : CatalogEntries) : Resolving NameTable := do
  let named ← entries.mapM fun entry => return (entry.1, ← Resolver.resolve entry.2)
  return OrderedMap.ofList named

end Catalog

namespace NameTable

/-- The paths are equally long, with the same segment in every place. -/
def samePath (path key : List String) : Bool :=
  path.length == key.length && (path.zip key).all fun segments => segments.1 == segments.2

/-- The node that a path names. -/
def find? (table : NameTable) (path : List String) : Option TypeId :=
  (table.entries.find? fun entry => samePath path entry.1).map Prod.snd

end NameTable

end TypeEnv
