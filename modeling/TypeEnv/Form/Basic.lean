import TypeEnv.Binary64
import TypeEnv.Kind
import TypeEnv.OrderedMap

/-! What a type is made of. A form holds references to other types and to signatures, never the
types themselves; `τ` and `σ` are what it refers to them by. The same form is read from a document
with `τ` a number of the document, and stands in a graph with `τ` a handle of the arena, so moving a
type from the one to the other changes its references and nothing else. -/

namespace TypeEnv

/-- The members that interfaces, classes and generic types share. -/
structure Shape (τ σ : Type) where
  typeParameters : List τ := []
  baseTypes : List τ := []
  declaredProperties : OrderedMap String τ := ∅
  callSignatures : List σ := []
  constructSignatures : List σ := []
  stringIndex : Option τ := none
  numberIndex : Option τ := none
  deriving DecidableEq, Inhabited

/-- A class. Its construct signatures are its constructors; the members of its instances and those
of the class itself are kept apart. -/
structure ClassForm (τ σ : Type) where
  shape : Shape τ σ := {}
  instanceProperties : OrderedMap String τ := ∅
  staticProperties : OrderedMap String τ := ∅
  target : Option τ := none
  typeArguments : List τ := []
  deriving DecidableEq, Inhabited

inductive TypeForm (τ σ : Type) where
  | simple (kind : SimpleKind)
  | stringLiteral (text : String)
  | booleanLiteral (value : Bool)
  | numberLiteral (value : Binary64)
  | interface (shape : Shape τ σ)
  | classDeclaration (form : ClassForm τ σ)
  | classInstance (classType : τ)
  /-- An interface that is also an instance of the generic type `target`. -/
  | generic (shape : Shape τ σ) (target : τ) (typeArguments : List τ)
  /-- `target` applied to type arguments. -/
  | reference (target : τ) (typeArguments : List τ)
  | tuple (elementTypes : List τ) (minLength : UInt32)
  | union (elements : List τ)
  | intersection (elements : List τ)
  | typeParameter (constraint : Option τ)
  | thisType (constraint : Option τ)
  /-- The keys of `type`. -/
  | index (type : τ)
  /-- The type of the member of `objectType` that `indexType` names. -/
  | indexedAccess (objectType indexType : τ)
  | anonymous
  deriving DecidableEq, Inhabited

structure Parameter (τ : Type) where
  name : String
  type : τ
  deriving DecidableEq, Inhabited

/-- What a signature says about types. -/
structure SignatureHeader (τ : Type) where
  typeParameters : List τ := []
  parameters : List (Parameter τ) := []
  returns : τ
  minArgumentCount : UInt32 := 0
  hasRestParameter : Bool := false
  hasStringLiterals : Bool := false
  isolated : Option τ := none
  deriving DecidableEq, Inhabited

/-- A call or construct signature: its header, the signature it is an instance of, and the members
of the union it stands for. -/
structure Signature (τ σ : Type) where
  header : SignatureHeader τ
  target : Option σ := none
  unionSignatures : List σ := []
  deriving DecidableEq, Inhabited

/-- A signature with its target and union members written out inside it. -/
inductive SignatureTree (τ : Type) where
  | node (header : SignatureHeader τ) (target : Option (SignatureTree τ))
      (unionSignatures : List (SignatureTree τ))

namespace TypeForm

variable {τ σ : Type}

def kind : TypeForm τ σ → Kind
  | simple kind => .simple kind
  | stringLiteral _ => .stringLiteral
  | booleanLiteral _ => .booleanLiteral
  | numberLiteral _ => .numberLiteral
  | interface _ => .interface
  | classDeclaration _ => .classDeclaration
  | classInstance _ => .classInstance
  | generic .. => .generic
  | reference .. => .reference
  | tuple .. => .tuple
  | union _ => .union
  | intersection _ => .intersection
  | typeParameter _ => .typeParameter
  | thisType _ => .thisType
  | index _ => .index
  | indexedAccess .. => .indexedAccess
  | anonymous => .anonymous

def class? : TypeForm τ σ → Option (ClassForm τ σ)
  | classDeclaration form => some form
  | _ => none

/-- The construct signatures of a class. -/
def constructors? (form : TypeForm τ σ) : Option (List σ) :=
  form.class?.map (·.shape.constructSignatures)

end TypeForm

def SignatureTree.ofSignature {τ : Type} (s : Signature τ (SignatureTree τ)) : SignatureTree τ :=
  .node s.header s.target s.unionSignatures

end TypeEnv
