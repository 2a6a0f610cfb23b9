import TypeEnv.Catalog

/-! Where types are declared: under the path of a file, and under a key within the file, a record,
the kind of its declaration and a text for debugging. -/

namespace TypeEnv

structure Location where
  type : TypeId
  kind : String
  debug : String
  deriving DecidableEq, Repr, Inhabited

abbrev Locations := OrderedMap String (OrderedMap String Location)

/-- A location whose record has not been looked up yet. -/
structure LocationEntry where
  file : String
  key : String
  id : RecordId
  kind : String
  debug : String
  deriving DecidableEq, Repr, Inhabited

namespace Locations

/-- A location as it is written. -/
structure Fields where
  kind : String
  type : Int
  debug : String
  deriving DecidableEq, Repr, Inhabited

def fieldsLayout : Layout Json Fields where
  name := "RawLocation"
  fields := [
    .needed "kind" Json.readText fun kind l => { l with kind },
    .needed "type" Json.readInt64 fun type l => { l with type },
    .optional "debug" Json.readText fun debug l => { l with debug }]
  blank := { kind := "", type := 0, debug := "" }

/-- The locations of one file. -/
def checkFile (file : String) (entries : OrderedMap String Fields) :
    Except LoadError (List LocationEntry) :=
  entries.entries.mapM fun (key, fields) => do
    let id ← RecordId.check s!"locations.{file}.{key}" fields.type
    return { file, key, id, kind := fields.kind, debug := fields.debug }

def read (json : Json) : Except LoadError (List LocationEntry) := do
  match json.readMap (·.readMap fieldsLayout.read) with
  | .error fault => throw (.malformed "locations" (.misfit fault))
  | .ok files => return (← files.entries.mapM fun (file, entries) => checkFile file entries).flatten

/-- Adds a location to its file, or to a new file after all others. -/
def add (locations : Locations) (pending : LocationEntry) (type : TypeId) : Locations :=
  locations.update pending.file ∅ fun file =>
    file.insert pending.key { type, kind := pending.kind, debug := pending.debug }

/-- Looks up the nodes of all locations and gathers the locations of each file. -/
def resolve (pending : List LocationEntry) : Resolving Locations :=
  pending.foldlM (fun locations p => return locations.add p (← Resolver.resolve p.id)) ∅

end Locations

end TypeEnv
