import TypeEnv.Graph.Basic

/-! From the numbers of a document to nodes of a graph, in two phases. While records are collected,
a record that is mentioned is stood in for by a placeholder node, one for each number; the node of
a record is registered under its number. Then every reference to a placeholder is exchanged, once
and for all, for a reference to the node registered under its number. A registered node can be a
placeholder itself; it is an alias, and references lead on to the first node behind it that is
none. -/

namespace TypeEnv

inductive Phase where
  | collecting
  | resolved
  deriving DecidableEq, Repr, Inhabited

inductive ResolveError where
  | duplicateId (id : RecordId)
  | unresolvedId (id : RecordId)
  /-- The aliases that start at `first` lead back to themselves. -/
  | endlessAlias (first : RecordId)
  | registeredLate (id : RecordId)
  | signatureLate
  | resolvedTwice
  | notResolved
  deriving DecidableEq, Repr

/-- What is wrong when an error is neither a repeated nor a missing number. -/
def ResolveError.violation? : ResolveError → Option String
  | duplicateId _ | unresolvedId _ => none
  | endlessAlias first =>
    some s!"placeholder chain starting at id {first.val} does not reach a type"
  | registeredLate id => some s!"cannot register id {id.val} after resolution"
  | signatureLate => some "cannot add signatures after resolution"
  | resolvedTwice => some "resolve_all called twice"
  | notResolved => some "graph requested before resolve_all"

def ResolveError.message (error : ResolveError) : String :=
  match error with
  | duplicateId id => s!"id {id.val} is already registered"
  | unresolvedId id => s!"id {id.val} does not exist"
  | _ => "invariant violation: " ++ error.violation?.getD ""

structure Resolver where
  phase : Phase := .collecting
  graph : TypeGraph := ∅
  /-- The node that stands in for each record mentioned so far. -/
  placeholders : Std.TreeMap RecordId TypeId := ∅
  deriving Inhabited

/-- Operations on a resolver. One that fails says so and leaves a state all the same. -/
abbrev Resolving := ExceptT ResolveError (StateM Resolver)

/-! ### Aliases -/

namespace TypeGraph

variable (graph : TypeGraph)

/-- The first node that is no placeholder among those that `id` leads to, on the way from `first`.
The hops are counted, since aliases can lead back to themselves. -/
def followAliases (first : RecordId) (id : RecordId) (hops : Nat) : Except ResolveError TypeId :=
  match graph.registered? id with
  | none => .error (.unresolvedId id)
  | some target =>
    match graph.node? target, hops with
    | some (.placeholder _), 0 => .error (.endlessAlias first)
    | some (.placeholder next), hops + 1 => followAliases first next hops
    | _, _ => .ok target

/-- More hops than there are registered records pass some record twice. -/
def terminal (first : RecordId) : Except ResolveError TypeId :=
  graph.followAliases first first (graph.registeredCount + 1)

/-- The node that each placeholder of the arena leads to. -/
def terminals : Except ResolveError (Std.TreeMap TypeId TypeId) :=
  graph.nodes.toList.zipIdx.foldlM (fun table entry =>
    match entry with
    | (.placeholder first, index) => return table.insert ⟨index.toUInt32⟩ (← graph.terminal first)
    | (.form _, _) => return table) ∅

/-- Exchanges every type reference of the graph, those of the registry included. -/
def mapTypes (f : TypeId → TypeId) : TypeGraph :=
  { graph with
    nodes := graph.nodes.map (·.mapTypes f)
    signatures := graph.signatures.map (·.mapTypes f)
    registry := graph.registry.map fun _ id => f id }

end TypeGraph

/-! ### Operations -/

namespace Resolver

def isRegistered (resolver : Resolver) (id : RecordId) : Bool :=
  resolver.graph.registry.contains id

def registeredCount (resolver : Resolver) : Nat :=
  resolver.graph.registeredCount

def add (node : Node) : Resolving TypeId :=
  modifyGet fun resolver =>
    let (id, graph) := resolver.graph.alloc node
    (id, { resolver with graph })

/-- Makes `node` the node of record `id`. -/
def register (id : RecordId) (node : Node) : Resolving TypeId := do
  if (← get).phase = .resolved then
    throw (.registeredLate id)
  if (← get).isRegistered id then
    throw (.duplicateId id)
  let handle ← add node
  modify fun resolver =>
    { resolver with graph.registry := resolver.graph.registry.insert id handle }
  return handle

/-- A handle for record `id`: its placeholder while records are collected, its node afterwards. -/
def resolve (id : RecordId) : Resolving TypeId := do
  let resolver ← get
  match resolver.phase with
  | .collecting =>
    if let some placeholder := resolver.placeholders[id]? then
      return placeholder
    let placeholder ← add (.placeholder id)
    modify fun resolver =>
      { resolver with placeholders := resolver.placeholders.insert id placeholder }
    return placeholder
  | .resolved =>
    match resolver.graph.registered? id with
    | some node => return node
    | none => throw (.unresolvedId id)

def addSignature (signature : StoredSignature) : Resolving SignatureId := do
  if (← get).phase = .resolved then
    throw .signatureLate
  modifyGet fun resolver =>
    let (id, graph) := resolver.graph.allocSignature signature
    (id, { resolver with graph })

/-- Ends the collection. If some placeholder leads nowhere, the collection goes on. -/
def finish : Resolving Unit := do
  let resolver ← get
  if resolver.phase = .resolved then
    throw .resolvedTwice
  let terminals ← resolver.graph.terminals
  set { resolver with
    phase := .resolved
    graph := resolver.graph.mapTypes fun id => terminals.getD id id }

/-- The graph, once all references are to nodes. -/
def toGraph (resolver : Resolver) : Except ResolveError TypeGraph :=
  match resolver.phase with
  | .collecting => .error .notResolved
  | .resolved => .ok resolver.graph

end Resolver

end TypeEnv
