import TypeEnv.Graph.Basic

/-! Views derived from the nodes of a graph: the instance of a class, the interface that instances
of a class have, and the interface part of a generic type. A view is a new node; it is noted under
the node it was derived from, so asking twice gives the same handle. A look-up past the end of the
arena stops the derivation where it is: what it allocated and noted before that remains. -/

namespace TypeEnv

/-- Operations on a graph that a look-up past the end of an arena can stop. -/
abbrev Deriving := ExceptT OutOfBounds (StateM TypeGraph)

namespace TypeGraph

/-! ### Steps of a derivation -/

def lookUp (id : TypeId) : Deriving Node := do
  match (← get).node id with
  | .ok node => return node
  | .error fault => throw fault

def add (node : Node) : Deriving TypeId :=
  modifyGet fun graph => graph.alloc node

/-- Puts another node in the place of `id`. -/
def replace (id : TypeId) (node : Node) : Deriving Unit :=
  modify fun graph => { graph with nodes := graph.nodes.setIfInBounds id.val.toNat node }

def instanceInterface? (id : TypeId) : Deriving (Option TypeId) :=
  return (← get).views.instanceInterfaces[id]?

def noteInterface (source view : TypeId) : Deriving Unit :=
  modify fun graph =>
    { graph with views.instanceInterfaces := graph.views.instanceInterfaces.insert source view }

/-- The class that `id` is, if it is one; nothing is looked up past the end. -/
def classAt? (id : TypeId) : Deriving (Option (ClassForm TypeId SignatureId)) :=
  return (← get).node? id |>.bind Node.class?

/-! ### Class instances and erased generics -/

/-- The instance node of a class; `none` for any other node. -/
def instanceOf (source : TypeId) : Deriving (Option TypeId) := do
  if let some view := (← get).views.instances[source]? then
    return some view
  let some _ ← classAt? source | return none
  let view ← add (.form (.classInstance source))
  modify fun graph =>
    { graph with views.instances := graph.views.instances.insert source view }
  return some view

/-- The interface part of a generic type, without its target and arguments. -/
def interfacePart (source : TypeId) : Deriving (Option TypeId) := do
  if let some view := (← get).views.interfaceParts[source]? then
    return some view
  let some (.form (.generic shape _ _)) := (← get).node? source | return none
  let view ← add (.form (.interface shape))
  modify fun graph =>
    { graph with views.interfaceParts := graph.views.interfaceParts.insert source view }
  return some view

/-! ### Instance types

The views of a class and of all classes it inherits from are allocated before any list of base
types is filled in, so classes that inherit from each other come to an end. -/

/-- The interface of a class's instances, its base types left open. -/
def openInterface (form : ClassForm TypeId SignatureId) : Shape TypeId SignatureId where
  typeParameters := form.shape.typeParameters
  declaredProperties := form.instanceProperties
  stringIndex := form.shape.stringIndex
  numberIndex := form.shape.numberIndex

/-- The class that a base type names, directly or through a reference. -/
def baseClass? (base : TypeId) : Deriving (Option TypeId) := do
  match ← lookUp base with
  | .form (.classDeclaration _) => return some base
  | .form (.reference target _) => return (← lookUp target).class?.map fun _ => target
  | _ => return none

/-- Allocates the views of all classes that `worklist` leads to and that have none yet, and lists
them with their sources. Each entry of the worklist but the first is a base type of a class that
is given its view, so `budget` is enough if it is more than all base types of the graph. -/
def allocInterfaces : Nat → List TypeId → Deriving (List (TypeId × TypeId))
  | 0, _ | _, [] => return []
  | budget + 1, source :: worklist => do
    if (← instanceInterface? source).isSome then
      allocInterfaces budget worklist
    else
      match (← lookUp source).class? with
      | none => allocInterfaces budget worklist
      | some form =>
        let bases ← form.shape.baseTypes.filterMapM baseClass?
        let view ← add (.form (.interface (openInterface form)))
        noteInterface source view
        return (source, view) :: (← allocInterfaces budget (bases.reverse ++ worklist))

/-- A base type seen from the instance side: the view of a class, a new reference to the view of
the class that a reference is to, and any other type unchanged. -/
def instanceSide (base : TypeId) : Deriving TypeId := do
  match ← lookUp base with
  | .form (.classDeclaration _) => return (← instanceInterface? base).getD base
  | .form (.reference target typeArguments) =>
    if (← lookUp target).class?.isSome then
      if let some view ← instanceInterface? target then
        return ← add (.form (.reference view typeArguments))
    return base
  | _ => return base

/-- Fills in the base types of one view. -/
def fillInterface (source view : TypeId) : Deriving Unit := do
  let some form := (← lookUp source).class? | return
  let baseTypes ← form.shape.baseTypes.mapM instanceSide
  if let .form (.interface shape) ← lookUp view then
    replace view (.form (.interface { shape with baseTypes }))

/-- The base types that all classes of the graph name. -/
def baseTypeCount (graph : TypeGraph) : Nat :=
  (graph.nodes.toList.flatMap fun node =>
    (node.class?.map fun form => form.shape.baseTypes).getD []).length

/-- The interface that instances of a class have; `none` for any other node. -/
def instanceInterface (source : TypeId) : Deriving (Option TypeId) := do
  if let some view ← instanceInterface? source then
    return some view
  let some _ ← classAt? source | return none
  let pending ← allocInterfaces ((← get).baseTypeCount + 1) [source]
  for (source, view) in pending do
    fillInterface source view
  instanceInterface? source

end TypeGraph

end TypeEnv
