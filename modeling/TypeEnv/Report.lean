import TypeEnv.Environment

/-! Reports on an environment: counts, as text or as JSON, and the lines of its catalogs. -/

namespace TypeEnv

structure Summary where
  nodes : Nat
  signatures : Nat
  registered : Nat
  globals : Nat
  types : Nat
  ambient : Nat
  locationFiles : Nat
  locations : Nat
  /-- How many nodes there are of each kind, in the order in which the kinds first occur. -/
  kinds : OrderedMap Kind Nat
  deriving DecidableEq

namespace Summary

def countKinds (kinds : List Kind) : OrderedMap Kind Nat :=
  kinds.foldl (fun counts kind => counts.update kind 0 (· + 1)) ∅

def of (environment : Environment) : Summary :=
  let graph := environment.graph
  { nodes := graph.size
    signatures := graph.signatureCount
    registered := graph.registeredCount
    globals := environment.globals.size
    types := environment.types.size
    ambient := environment.ambient.size
    locationFiles := environment.locations.size
    locations := (environment.locations.values.flatMap (·.values)).length
    kinds := countKinds (graph.nodes.toList.filterMap Node.kind?) }

/-- The tag, with blanks up to a width of 16. -/
def paddedTag (kind : Kind) : String :=
  kind.tag ++ String.ofList (List.replicate (16 - kind.tag.length) ' ')

def lines (s : Summary) : List String :=
  [s!"{s.nodes} nodes ({s.registered} registered), {s.signatures} signatures",
    s!"globals: {s.globals}, types: {s.types}, ambient: {s.ambient}",
    s!"locations: {s.locations} in {s.locationFiles} files"] ++
  s.kinds.entries.map fun entry => s!"  {paddedTag entry.1} {entry.2}"

def render (s : Summary) : String :=
  String.join (s.lines.map (· ++ "\n"))

/-- Members of a JSON object on lines of their own, at a depth of indentation. -/
def renderObject (indent : Nat) (members : List (String × String)) : String :=
  let margin (n : Nat) := String.ofList (List.replicate n ' ')
  if members.isEmpty then "\x7b\x7d" else
  "\x7b\n" ++
    ",\n".intercalate (members.map fun member =>
      margin (indent + 2) ++ "\"" ++ member.1 ++ "\": " ++ member.2) ++
    "\n" ++ margin indent ++ "\x7d"

def renderJson (s : Summary) : String :=
  renderObject 0 [
    ("nodes", toString s.nodes),
    ("signatures", toString s.signatures),
    ("registered", toString s.registered),
    ("globals", toString s.globals),
    ("types", toString s.types),
    ("ambient", toString s.ambient),
    ("location_files", toString s.locationFiles),
    ("locations", toString s.locations),
    ("kinds", renderObject 2 (s.kinds.entries.map fun entry => (entry.1.tag, toString entry.2)))]

end Summary

/-- The tag of a node's kind; placeholders and handles of nothing have none. -/
def TypeGraph.tagAt (graph : TypeGraph) (id : TypeId) : String :=
  match (graph.node? id).bind Node.kind? with
  | some kind => kind.tag
  | none => "?"

/-- A line for each name of a catalog: the name, the kind and the handle of its node. -/
def NameTable.lines (graph : TypeGraph) (catalog : NameTable) : List String :=
  catalog.entries.map fun entry =>
    ".".intercalate entry.1 ++ "\t" ++ graph.tagAt entry.2 ++ s!"\t#{entry.2.val}"

/-- The segments of a dotted name: what stands between its dots. -/
def splitName (dotted : String) : List String :=
  (dotted.toList.splitOn '.').map String.ofList

end TypeEnv
