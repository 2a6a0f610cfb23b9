import TypeEnv.Document
import TypeEnv.Graph.Search
import TypeEnv.Graph.Views
import TypeEnv.Json.Reader

/-! Environments: the graph of a document with its catalogs and locations looked up in it, and a
global node, an interface whose properties are the global names. Loading takes in the records in
order of their positions, replaces what they mention by the nodes of the records mentioned, and
then looks up the catalogs and the locations. -/

namespace TypeEnv

structure Environment where
  graph : TypeGraph
  /-- The interface of the global names; the last node of the graph. -/
  global : TypeId
  globals : NameTable
  types : NameTable
  ambient : NameTable
  locations : Locations
  deriving Inhabited

namespace Environment

def lookup? (environment : Environment) (path : List String) : Option TypeId :=
  environment.types.find? path

/-! ### Taking in records -/

/-- The form of a record, with a handle for each record that it mentions. -/
def formOf (record : NestedRecord RecordId) :
    Resolving (TypeForm TypeId SignatureId) := do
  let onType (_ : String) := Resolver.resolve
  let record ← record.traverse onType (·.traverse onType Resolver.addSignature)
  return record.form

/-- Registers the records from position `index` on. -/
def registerFrom : Nat → List (Option (NestedRecord RecordId)) → Resolving Unit
  | _, [] => return
  | index, none :: records => registerFrom (index + 1) records
  | index, some record :: records => do
    let form ← formOf record
    discard <| Resolver.register ⟨index.toUInt32⟩ (.form form)
    registerFrom (index + 1) records

/-! ### Loading -/

/-- The catalogs and locations of a document, looked up. -/
structure Sections where
  globals : NameTable
  types : NameTable
  ambient : NameTable
  locations : Locations

def resolveDocument (document : Document) : Resolving Sections := do
  registerFrom 0 document.records
  Resolver.finish
  return {
    globals := ← Catalog.resolve document.globals
    types := ← Catalog.resolve document.types
    ambient := ← Catalog.resolve document.ambient
    locations := ← Locations.resolve document.locations }

/-- The name of one segment that a path is. -/
def flatName? : List String → Option String
  | [name] => some name
  | _ => none

/-- The properties of the global node; with flat globals required, all names are flat. -/
def globalProperties (options : LoadOptions) (globals : NameTable) :
    Except LoadError (OrderedMap String TypeId) :=
  match globals.keys.find? fun path => options.requireFlatGlobals && (flatName? path).isNone with
  | some path => .error (.qualifiedGlobal path)
  | none => .ok <| OrderedMap.ofList <| globals.entries.filterMap fun entry =>
      (flatName? entry.1).map (·, entry.2)

/-- Every node that is named, located or global. -/
def roots (environment : Environment) : List TypeId :=
  environment.globals.values ++ environment.types.values ++ environment.ambient.values ++
    environment.locations.values.flatMap (fun file => file.values.map (·.type)) ++
    [environment.global]

/-- Puts the graph and the sections together. -/
def assemble (options : LoadOptions) (graph : TypeGraph) (sections : Sections) :
    Except LoadError Environment := do
  let properties ← globalProperties options sections.globals
  let (global, graph) := graph.alloc (.form (.interface { declaredProperties := properties }))
  let environment : Environment := {
    graph, global
    globals := sections.globals
    types := sections.types
    ambient := sections.ambient
    locations := sections.locations }
  match graph.placeholderFrom? environment.roots with
  | some placeholder => throw (.placeholderLeft placeholder)
  | none => return environment

def ofDocument (options : LoadOptions) (document : Document) :
    Except LoadError Environment := do
  let (result, resolver) := (resolveDocument document).run.run {}
  match result, resolver.toGraph with
  | .error error, _ => throw (.resolution error)
  | _, .error error => throw (.resolution error)
  | .ok sections, .ok graph => assemble options graph sections

/-- The environment that a JSON value describes. -/
def ofJson (options : LoadOptions) (json : Json) : Except LoadError Environment := do
  ofDocument options (← Document.read options json)

/-- The environment that a text describes. -/
def ofText (options : LoadOptions) (text : String) : Except LoadError Environment :=
  match Json.parse? text with
  | some json => ofJson options json
  | none => .error .notJson

end Environment

end TypeEnv
