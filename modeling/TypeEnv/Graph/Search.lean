import TypeEnv.Graph.Basic
import Std.Data.TreeSet

/-! Search for a placeholder among everything that a list of roots leads to. References of nodes and
of signatures are followed, each node and each signature once; a handle outside its arena leads
nowhere. Types are searched before signatures and the newest reference first, which decides the
placeholder that is found when there are several. -/

namespace TypeEnv

/-- What is left to look at, newest first, and what has been looked at. -/
structure PlaceholderSearch where
  types : List TypeId
  signatures : List SignatureId := []
  seenTypes : Std.TreeSet TypeId := ∅
  seenSignatures : Std.TreeSet SignatureId := ∅

namespace PlaceholderSearch

variable (graph : TypeGraph)

/-- Adds what a type or signature refers to. -/
def push (search : PlaceholderSearch) (types : List TypeId) (signatures : List SignatureId) :
    PlaceholderSearch :=
  { search with
    types := types.reverse ++ search.types
    signatures := signatures.reverse ++ search.signatures }

/-- Looks at one reference: the placeholder it leads to, or the search that is left, or `none` when
nothing is left. -/
def step (search : PlaceholderSearch) : Option (TypeId ⊕ PlaceholderSearch) :=
  match search.types, search.signatures with
  | id :: types, _ =>
    let rest := { search with types, seenTypes := search.seenTypes.insert id }
    if id ∈ search.seenTypes then some (.inr rest) else
    match graph.node? id with
    | none => some (.inr rest)
    | some (.placeholder _) => some (.inl id)
    | some node => some (.inr (rest.push node.typeRefs node.signatureRefs))
  | [], id :: signatures =>
    let rest := { search with signatures, seenSignatures := search.seenSignatures.insert id }
    if id ∈ search.seenSignatures then some (.inr rest) else
    match graph.signature? id with
    | none => some (.inr rest)
    | some signature => some (.inr (rest.push signature.typeRefs signature.signatureRefs))
  | [], [] => none

/-- At most `budget` steps. -/
def run : Nat → PlaceholderSearch → Option TypeId
  | 0, _ => none
  | budget + 1, search =>
    match search.step graph with
    | none => none
    | some (.inl id) => some id
    | some (.inr rest) => run budget rest

end PlaceholderSearch

namespace TypeGraph

variable (graph : TypeGraph)

/-- The references that all nodes and signatures hold. Each is looked at once at most, since no node
or signature is entered twice. -/
def referenceCount : Nat :=
  (graph.nodes.toList.flatMap (·.typeRefs)).length +
    (graph.nodes.toList.flatMap (·.signatureRefs)).length +
    (graph.signatures.toList.flatMap (·.typeRefs)).length +
    (graph.signatures.toList.flatMap (·.signatureRefs)).length

/-- The first placeholder that the search from `roots` meets; the last root is searched first. -/
def placeholderFrom? (roots : List TypeId) : Option TypeId :=
  PlaceholderSearch.run graph (roots.length + graph.referenceCount) { types := roots.reverse }

end TypeGraph

end TypeEnv
