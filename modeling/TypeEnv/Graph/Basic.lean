import TypeEnv.Form.References
import TypeEnv.Ident

/-! The graph of an environment: an arena of nodes and one of signatures. A handle is a position in
its arena, so two references are to the same type exactly when they hold the same handle, and types
that refer to each other or to themselves need no copies. Besides the arenas the graph keeps the
node of every registered record, and the views that were derived from its nodes. -/

namespace TypeEnv

/-- A node is a type, or stands in for a record that has not been looked up yet. -/
inductive Node where
  | form (form : TypeForm TypeId SignatureId)
  | placeholder (record : RecordId)
  deriving DecidableEq, Inhabited

abbrev StoredSignature := Signature TypeId SignatureId

namespace Node

def kind? : Node → Option Kind
  | form f => some f.kind
  | placeholder _ => none

def isPlaceholder : Node → Bool
  | form _ => false
  | placeholder _ => true

def class? : Node → Option (ClassForm TypeId SignatureId)
  | form f => f.class?
  | placeholder _ => none

def typeRefs : Node → List TypeId
  | form f => f.typeRefs
  | placeholder _ => []

def signatureRefs : Node → List SignatureId
  | form f => f.signatureRefs
  | placeholder _ => []

/-- The node with its type references exchanged; a placeholder has none. -/
def mapTypesM {m : Type → Type} [Monad m] (f : TypeId → m TypeId) : Node → m Node
  | form type => return .form (← type.mapTypesM f)
  | placeholder record => return .placeholder record

def mapTypes (f : TypeId → TypeId) (node : Node) : Node :=
  Id.run (node.mapTypesM (pure <| f ·))

end Node

/-- The derived views, each under the node it was derived from. -/
structure ViewTable where
  instances : Std.TreeMap TypeId TypeId := ∅
  instanceInterfaces : Std.TreeMap TypeId TypeId := ∅
  interfaceParts : Std.TreeMap TypeId TypeId := ∅
  deriving Inhabited

structure TypeGraph where
  nodes : Array Node := #[]
  signatures : Array StoredSignature := #[]
  registry : Std.TreeMap RecordId TypeId := ∅
  views : ViewTable := {}
  deriving Inhabited

/-- A look-up past the end of an arena of `size` entries. -/
structure OutOfBounds where
  size : Nat
  index : Nat
  deriving DecidableEq, Repr

def OutOfBounds.message (fault : OutOfBounds) : String :=
  s!"index out of bounds: the len is {fault.size} but the index is {fault.index}"

namespace TypeGraph

def empty : TypeGraph := {}

instance : EmptyCollection TypeGraph := ⟨empty⟩

variable (graph : TypeGraph)

def size : Nat := graph.nodes.size
def signatureCount : Nat := graph.signatures.size
def registeredCount : Nat := graph.registry.size
def isEmpty : Bool := graph.nodes.isEmpty

/-! ### Growing

A handle is the number of entries before it, cut down to 32 bits. -/

def alloc (node : Node) : TypeId × TypeGraph :=
  (⟨graph.size.toUInt32⟩, { graph with nodes := graph.nodes.push node })

def allocSignature (signature : StoredSignature) : SignatureId × TypeGraph :=
  (⟨graph.signatureCount.toUInt32⟩, { graph with signatures := graph.signatures.push signature })

/-- A new interface without members. -/
def allocEmptyInterface : TypeId × TypeGraph :=
  graph.alloc (.form (.interface {}))

/-! ### Looking up -/

def node? (id : TypeId) : Option Node := graph.nodes[id.val.toNat]?

def node (id : TypeId) : Except OutOfBounds Node :=
  match graph.node? id with
  | some node => .ok node
  | none => .error ⟨graph.size, id.val.toNat⟩

def signature? (id : SignatureId) : Option StoredSignature := graph.signatures[id.val.toNat]?

def signature (id : SignatureId) : Except OutOfBounds StoredSignature :=
  match graph.signature? id with
  | some signature => .ok signature
  | none => .error ⟨graph.signatureCount, id.val.toNat⟩

/-- The node registered for a record. -/
def registered? (id : RecordId) : Option TypeId := graph.registry[id]?

/-- The constructors of a class; no other node has any. -/
def constructors? (id : TypeId) : Option (List SignatureId) := do
  return (← (← graph.node? id).class?).shape.constructSignatures

end TypeGraph

end TypeEnv
