import TypeEnv.Record.Signature

/-! The layout of records. The kind of a record decides which fields it has; fields that the kind
does not know are passed over. The interface part of classes and generic types is read only after
their own fields, so a fault in it is reported last. -/

namespace TypeEnv.Record

abbrev SignatureTexts := SignatureTree Int

def shapeLayout : Layout Json (Shape Int SignatureTexts) where
  fields := [
    .optional "typeParameters" Json.readReferences fun typeParameters s =>
      { s with typeParameters },
    .optional "baseTypes" Json.readReferences fun baseTypes s => { s with baseTypes },
    .optional "declaredProperties" (·.readMap Json.readInt64) fun declaredProperties s =>
      { s with declaredProperties },
    .optional "declaredCallSignatures" readSignatures fun callSignatures s =>
      { s with callSignatures },
    .optional "declaredConstructSignatures" readSignatures fun constructSignatures s =>
      { s with constructSignatures },
    .optional "declaredStringIndexType" Json.readReference? fun stringIndex s =>
      { s with stringIndex },
    .optional "declaredNumberIndexType" Json.readReference? fun numberIndex s =>
      { s with numberIndex }]
  blank := {}

def classLayout : Layout Json (ClassRecord Int SignatureTexts) where
  fields := [
    .optional "instanceProperties" (·.readNullable (·.readMap Json.readInt64))
      fun instanceProperties c => { c with instanceProperties },
    .optional "staticProperties" (·.readMap Json.readInt64) fun staticProperties c =>
      { c with staticProperties },
    .optional "signatures" (·.readNullable readSignatures) fun constructors c =>
      { c with constructors := constructors.getD [] },
    .optional "target" Json.readReference? fun target c => { c with target },
    .optional "typeArguments" Json.readReferences fun typeArguments c =>
      { c with typeArguments }]
  blank := {}

/-- A target and the type arguments it is given. -/
structure Application where
  target : Int
  typeArguments : List Int

def applicationLayout : Layout Json Application where
  fields := [
    .needed "target" Json.readInt64 fun target a => { a with target },
    .optional "typeArguments" Json.readReferences fun typeArguments a => { a with typeArguments }]
  blank := { target := 0, typeArguments := [] }

def tupleLayout : Layout Json (List Int × Option UInt32) where
  fields := [
    .optional "elementTypes" Json.readReferences fun elements t => (elements, t.2),
    .optional "minLength" (·.readNullable Json.readUInt32) fun minLength t => (t.1, minLength)]
  blank := ([], none)

def accessLayout : Layout Json (Int × Int) where
  fields := [
    .needed "objectType" Json.readInt64 fun objectType a => (objectType, a.2),
    .needed "indexType" Json.readInt64 fun indexType a => (a.1, indexType)]
  blank := (0, 0)

variable (members : List (String × Json))

/-- The interface part of a class or generic type. -/
def readInterfacePart : Except Fault (Shape Int SignatureTexts) :=
  (shapeLayout.ofMembers members).mapError Fault.gathered

def readClass : Except Fault (ClassRecord Int SignatureTexts) := do
  let record ← classLayout.ofMembers members
  return { record with shape := ← readInterfacePart members }

def readGeneric : Except Fault (TypeForm Int SignatureTexts) := do
  let application ← applicationLayout.ofMembers members
  return .generic (← readInterfacePart members) application.target application.typeArguments

/-- The only field of a kind, which has to be there. -/
def readOnly {γ : Type} (name : String) (read : Json → Except Fault γ) (blank : γ) :
    Except Fault γ :=
  (Layout.single name read blank).ofMembers members

def readElements : Except Fault (List Int) :=
  (Layout.singleOptional "elements" Json.readReferences []).ofMembers members

def readConstraint : Except Fault (Option Int) :=
  (Layout.singleOptional "constraint" Json.readReference? none).ofMembers members

/-- The fields that a record of a kind has. -/
def readFields : Kind → Except Fault (NestedRecord Int)
  | .simple kind => return .whole (.simple kind)
  | .stringLiteral => return .whole (.stringLiteral (← readOnly members "text" Json.readText ""))
  | .booleanLiteral =>
    return .whole (.booleanLiteral (← readOnly members "value" Json.readBool false))
  | .numberLiteral =>
    return .whole (.numberLiteral (← readOnly members "value" Json.readFloat .zero))
  | .interface => return .whole (.interface (← shapeLayout.ofMembers members))
  | .classDeclaration => return .classDeclaration (← readClass members)
  | .classInstance =>
    return .whole (.classInstance (← readOnly members "classType" Json.readInt64 0))
  | .generic => return .whole (← readGeneric members)
  | .reference => do
    let application ← applicationLayout.ofMembers members
    return .whole (.reference application.target application.typeArguments)
  | .tuple => do
    let tuple ← tupleLayout.ofMembers members
    return .tuple tuple.1 tuple.2
  | .union => return .whole (.union (← readElements members))
  | .intersection => return .whole (.intersection (← readElements members))
  | .typeParameter => return .whole (.typeParameter (← readConstraint members))
  | .thisType => return .whole (.thisType (← readConstraint members))
  | .index => return .whole (.index (← readOnly members "type" Json.readInt64 0))
  | .indexedAccess => do
    let access ← accessLayout.ofMembers members
    return .whole (.indexedAccess access.1 access.2)
  | .anonymous => return .whole .anonymous

end TypeEnv.Record
