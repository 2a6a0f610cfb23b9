import TypeEnv.Form.References

/-! Records: types as a document writes them down. Most records spell out the whole form of their
type. A class may list constructors apart from its construct signatures and leave out the members
of its instances, and a tuple may leave out its least length; the form of such a record is filled
in. -/

namespace TypeEnv

/-- A class with what may be left out. -/
structure ClassRecord (τ σ : Type) where
  shape : Shape τ σ := {}
  /-- The members of instances, if they are not the declared properties. -/
  instanceProperties : Option (OrderedMap String τ) := none
  staticProperties : OrderedMap String τ := ∅
  /-- Constructors besides the construct signatures. -/
  constructors : List σ := []
  target : Option τ := none
  typeArguments : List τ := []
  deriving DecidableEq, Inhabited

inductive Record (τ σ : Type) where
  | whole (form : TypeForm τ σ)
  | classDeclaration (record : ClassRecord τ σ)
  | tuple (elementTypes : List τ) (minLength : Option UInt32)
  deriving DecidableEq, Inhabited

/-- A record with its signatures written out inside it. -/
abbrev NestedRecord (τ : Type) := Record τ (SignatureTree τ)

variable {α β σ ρ : Type}

def ClassRecord.form (record : ClassRecord α σ) : ClassForm α σ where
  shape := { record.shape with
    constructSignatures := record.shape.constructSignatures ++ record.constructors }
  instanceProperties := record.instanceProperties.getD record.shape.declaredProperties
  staticProperties := record.staticProperties
  target := record.target
  typeArguments := record.typeArguments

/-- The type that a record describes. -/
def Record.form : Record α σ → TypeForm α σ
  | .whole form => form
  | .classDeclaration record => .classDeclaration record.form
  | .tuple elements minLength => .tuple elements (minLength.getD elements.length.toUInt32)

/-! ### References

They come in the order in which a record is taken in: the constructors of a class after the rest of
its shape, and before anything in a signature its target and union members. -/

def ClassRecord.references (record : ClassRecord α σ) : List (α ⊕ σ) :=
  record.shape.references ++ record.constructors.map .inr ++
    ((record.instanceProperties.getD ∅).values ++ record.staticProperties.values ++
      record.target.toList ++ record.typeArguments).map .inl

def Record.references : Record α σ → List (α ⊕ σ)
  | .whole form => form.references
  | .classDeclaration record => record.references
  | .tuple elements _ => elements.map .inl

mutual

def SignatureTree.mentions : SignatureTree α → List α
  | .node header target unions =>
    mentionsOfTarget target ++ mentionsOfList unions ++
      (header.parameters.map (·.type) ++ header.typeParameters ++ [header.returns] ++
        header.isolated.toList)

def SignatureTree.mentionsOfTarget : Option (SignatureTree α) → List α
  | none => []
  | some tree => tree.mentions

def SignatureTree.mentionsOfList : List (SignatureTree α) → List α
  | [] => []
  | tree :: trees => tree.mentions ++ mentionsOfList trees

end

/-- Every reference of a record and of the signatures in it. -/
def Record.mentions (record : NestedRecord α) : List α :=
  record.references.flatMap fun
    | .inl type => [type]
    | .inr signature => signature.mentions

/-! ### Exchanging references -/

section Traversal

variable {m : Type → Type} [Monad m] (onType : String → α → m β)

def SignatureHeader.traverseInOrder (header : SignatureHeader α) : m (SignatureHeader β) := do
  let parameters ← header.parameters.mapM fun p =>
    return ⟨p.name, ← onType s!"parameters.{p.name}" p.type⟩
  return { header with
    parameters
    typeParameters := ← header.typeParameters.mapM (onType "typeParameters")
    returns := ← onType "resolvedReturnType" header.returns
    isolated := ← header.isolated.mapM (onType "isolatedSignatureType") }

section Signatures

variable (store : Signature β ρ → m ρ)

mutual

/-- Exchanges the references of a tree, inner signatures first, and stores every signature. -/
def SignatureTree.traverse : SignatureTree α → m ρ
  | .node header target unions => do
    let target ← traverseTarget target
    let unionSignatures ← traverseList unions
    let header ← header.traverseInOrder onType
    store { header, target, unionSignatures }

def SignatureTree.traverseTarget : Option (SignatureTree α) → m (Option ρ)
  | none => return none
  | some tree => return some (← tree.traverse)

def SignatureTree.traverseList : List (SignatureTree α) → m (List ρ)
  | [] => return []
  | tree :: trees => do
    let first ← tree.traverse
    return first :: (← traverseList trees)

end

end Signatures

variable (onSignature : σ → m ρ)

def ClassRecord.traverse (record : ClassRecord α σ) : m (ClassRecord β ρ) := do
  return {
    shape := ← record.shape.traverse onType onSignature
    constructors := ← record.constructors.mapM onSignature
    instanceProperties := ← record.instanceProperties.mapM fun properties =>
      properties.traverse fun name => onType s!"instanceProperties.{name}"
    staticProperties :=
      ← record.staticProperties.traverse fun name => onType s!"staticProperties.{name}"
    target := ← record.target.mapM (onType "target")
    typeArguments := ← record.typeArguments.mapM (onType "typeArguments") }

def Record.traverse : Record α σ → m (Record β ρ)
  | .whole form => return .whole (← form.traverse onType onSignature)
  | .classDeclaration record => return .classDeclaration (← record.traverse onType onSignature)
  | .tuple elements minLength =>
    return .tuple (← elements.mapM (onType "elementTypes")) minLength

end Traversal

end TypeEnv
