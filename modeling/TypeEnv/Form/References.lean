import TypeEnv.Form.Basic

/-! What a form refers to, and how its references are exchanged for others. `references` lists them
in the order of the fields; `traverse` visits them in that order, one visit per reference, and
puts the results in their places. Names, literals, bounds and the length of every list stay. -/

namespace TypeEnv

variable {α β σ ρ : Type}

/-! ### Listing -/

def Shape.references (shape : Shape α σ) : List (α ⊕ σ) :=
  (shape.typeParameters ++ shape.baseTypes ++ shape.declaredProperties.values).map .inl ++
    (shape.callSignatures ++ shape.constructSignatures).map .inr ++
    (shape.stringIndex.toList ++ shape.numberIndex.toList).map .inl

def ClassForm.references (form : ClassForm α σ) : List (α ⊕ σ) :=
  form.shape.references ++
    (form.instanceProperties.values ++ form.staticProperties.values ++ form.target.toList ++
      form.typeArguments).map .inl

def TypeForm.references : TypeForm α σ → List (α ⊕ σ)
  | .simple _ | .stringLiteral _ | .booleanLiteral _ | .numberLiteral _ | .anonymous => []
  | .interface shape => shape.references
  | .classDeclaration form => form.references
  | .classInstance classType => [.inl classType]
  | .generic shape target typeArguments =>
    shape.references ++ (target :: typeArguments).map .inl
  | .reference target typeArguments => (target :: typeArguments).map .inl
  | .tuple elements _ | .union elements | .intersection elements => elements.map .inl
  | .typeParameter constraint | .thisType constraint => constraint.toList.map .inl
  | .index type => [.inl type]
  | .indexedAccess objectType indexType => [.inl objectType, .inl indexType]

def TypeForm.typeRefs (form : TypeForm α σ) : List α :=
  form.references.filterMap Sum.getLeft?

def TypeForm.signatureRefs (form : TypeForm α σ) : List σ :=
  form.references.filterMap Sum.getRight?

def SignatureHeader.typeRefs (header : SignatureHeader α) : List α :=
  header.typeParameters ++ header.parameters.map (·.type) ++ [header.returns] ++
    header.isolated.toList

def Signature.typeRefs (signature : Signature α σ) : List α :=
  signature.header.typeRefs

def Signature.signatureRefs (signature : Signature α σ) : List σ :=
  signature.target.toList ++ signature.unionSignatures

/-! ### Exchanging

`onType` is given the field a reference stands in, with the name of the property after a dot. -/

variable {m : Type → Type} [Monad m]

section Forms

variable (onType : String → α → m β) (onSignature : σ → m ρ)

def Shape.traverse (shape : Shape α σ) : m (Shape β ρ) := do
  return {
    typeParameters := ← shape.typeParameters.mapM (onType "typeParameters")
    baseTypes := ← shape.baseTypes.mapM (onType "baseTypes")
    declaredProperties :=
      ← shape.declaredProperties.traverse fun name => onType s!"declaredProperties.{name}"
    callSignatures := ← shape.callSignatures.mapM onSignature
    constructSignatures := ← shape.constructSignatures.mapM onSignature
    stringIndex := ← shape.stringIndex.mapM (onType "declaredStringIndexType")
    numberIndex := ← shape.numberIndex.mapM (onType "declaredNumberIndexType") }

def ClassForm.traverse (form : ClassForm α σ) : m (ClassForm β ρ) := do
  return {
    shape := ← form.shape.traverse onType onSignature
    instanceProperties :=
      ← form.instanceProperties.traverse fun name => onType s!"instanceProperties.{name}"
    staticProperties :=
      ← form.staticProperties.traverse fun name => onType s!"staticProperties.{name}"
    target := ← form.target.mapM (onType "target")
    typeArguments := ← form.typeArguments.mapM (onType "typeArguments") }

def TypeForm.traverse : TypeForm α σ → m (TypeForm β ρ)
  | .simple kind => return .simple kind
  | .stringLiteral text => return .stringLiteral text
  | .booleanLiteral value => return .booleanLiteral value
  | .numberLiteral value => return .numberLiteral value
  | .interface shape => return .interface (← shape.traverse onType onSignature)
  | .classDeclaration form => return .classDeclaration (← form.traverse onType onSignature)
  | .classInstance classType => return .classInstance (← onType "classType" classType)
  | .generic shape target typeArguments =>
    return .generic (← shape.traverse onType onSignature) (← onType "target" target)
      (← typeArguments.mapM (onType "typeArguments"))
  | .reference target typeArguments =>
    return .reference (← onType "target" target) (← typeArguments.mapM (onType "typeArguments"))
  | .tuple elements minLength =>
    return .tuple (← elements.mapM (onType "elementTypes")) minLength
  | .union elements => return .union (← elements.mapM (onType "elements"))
  | .intersection elements => return .intersection (← elements.mapM (onType "elements"))
  | .typeParameter constraint =>
    return .typeParameter (← constraint.mapM (onType "constraint"))
  | .thisType constraint => return .thisType (← constraint.mapM (onType "constraint"))
  | .index type => return .index (← onType "type" type)
  | .indexedAccess objectType indexType =>
    return .indexedAccess (← onType "objectType" objectType) (← onType "indexType" indexType)
  | .anonymous => return .anonymous

end Forms

section Types

variable (f : α → m β)

/-- The form with its type references exchanged and its signatures kept. -/
def TypeForm.mapTypesM (form : TypeForm α σ) : m (TypeForm β σ) :=
  form.traverse (fun _ => f) pure

def SignatureHeader.mapTypesM (header : SignatureHeader α) : m (SignatureHeader β) := do
  return { header with
    typeParameters := ← header.typeParameters.mapM f
    parameters := ← header.parameters.mapM fun p => return ⟨p.name, ← f p.type⟩
    returns := ← f header.returns
    isolated := ← header.isolated.mapM f }

def Signature.mapTypesM (signature : Signature α σ) : m (Signature β σ) := do
  return { signature with header := ← signature.header.mapTypesM f }

end Types

def TypeForm.mapTypes (f : α → β) (form : TypeForm α σ) : TypeForm β σ :=
  Id.run (form.mapTypesM (pure <| f ·))

def Signature.mapTypes (f : α → β) (signature : Signature α σ) : Signature β σ :=
  Id.run (signature.mapTypesM (pure <| f ·))

end TypeEnv
