import TypeEnv.Layout.Basic
import TypeEnv.Record.Basic

/-! The layout of signatures. A signature can hold signatures as its target and union members, so a
value is offered to the layout together with the ways to read it as a signature and as a list of
them. References are integers as written; an optional one that is negative is none. -/

namespace TypeEnv

/-- Reads an optional reference: null, and any negative integer, is none. -/
def Json.readReference? (json : Json) : Except Fault (Option Int) := do
  return (← json.readNullable readInt64).filter (0 ≤ ·)

def Json.readReferences (json : Json) : Except Fault (List Int) :=
  json.readList readInt64

namespace Record

def parameterLayout : Layout Json (Parameter Int) where
  name := "RawParameter"
  fields := [
    .needed "name" Json.readText fun name p => { p with name },
    .needed "type" Json.readInt64 fun type p => { p with type }]
  blank := { name := "", type := 0 }

/-- A value, and what it is as a signature and as a list of signatures. -/
structure SignatureView where
  json : Json
  signature : Unit → Except Fault (SignatureTree Int)
  signatures : Unit → Except Fault (List (SignatureTree Int))

abbrev SignatureFields := Signature Int (SignatureTree Int)

def signatureLayout : Layout SignatureView SignatureFields where
  name := "RawSignature"
  fields := [
    .optional "typeParameters" (·.json.readReferences) fun typeParameters s =>
      { s with header.typeParameters := typeParameters },
    .optional "parameters" (·.json.readList parameterLayout.read) fun parameters s =>
      { s with header.parameters := parameters },
    .needed "resolvedReturnType" (·.json.readInt64) fun returns s =>
      { s with header.returns := returns },
    .optional "minArgumentCount" (·.json.readUInt32) fun count s =>
      { s with header.minArgumentCount := count },
    .optional "hasRestParameter" (·.json.readBool) fun rest s =>
      { s with header.hasRestParameter := rest },
    .optional "hasStringLiterals" (·.json.readBool) fun literals s =>
      { s with header.hasStringLiterals := literals },
    .optional "target" (fun v => if v.json.isNull then .ok none else some <$> v.signature ())
      fun target s => { s with target },
    .optional "unionSignatures" (·.signatures ()) fun unionSignatures s =>
      { s with unionSignatures },
    .optional "isolatedSignatureType" (·.json.readReference?) fun isolated s =>
      { s with header.isolated := isolated }]
  blank := { header := { returns := 0 } }

mutual

def readSignature : Json → Except Fault (SignatureTree Int)
  | .object members => .ofSignature <$> signatureLayout.ofMembers (viewMembers members)
  | .array items => .ofSignature <$> signatureLayout.ofItems (viewItems items)
  | json => .error (.mismatch json (.layout signatureLayout.name))
termination_by structural json => json

def readSignatures : Json → Except Fault (List (SignatureTree Int))
  | .array items => readSignatureItems items
  | json => .error (.mismatch json .sequence)
termination_by structural json => json

def readSignatureItems : List Json → Except Fault (List (SignatureTree Int))
  | [] => return []
  | item :: items => do
    let first ← readSignature item
    return first :: (← readSignatureItems items)
termination_by structural items => items

def viewMembers : List (String × Json) → List (String × SignatureView)
  | [] => []
  | (name, value) :: members =>
    (name, ⟨value, fun _ => readSignature value, fun _ => readSignatures value⟩) ::
      viewMembers members
termination_by structural members => members

def viewItems : List Json → List SignatureView
  | [] => []
  | value :: items =>
    ⟨value, fun _ => readSignature value, fun _ => readSignatures value⟩ :: viewItems items
termination_by structural items => items

end

end Record

end TypeEnv
