import TypeEnv.Proofs.Document.CanonicalForm
import TypeEnv.Proofs.Layout.FieldByField
import TypeEnv.Proofs.Record.Kinds

/-! What a record says, told by the values that it is written with. Each kind is read from fields of its own,
each field from the value under its name or from what stands for it where it is left out. Signatures and
parameters are read in the same way wherever they stand, and may be arrays of their fields as well. -/

namespace TypeEnv

open Reading

/-! ### Values of a sort -/

namespace FieldSort

variable {json : Json}

theorem read?_reference {n : Int} : read? .reference json = some n ↔ json = .number (.int n) ∧ HasInt64 n :=
  toOption_eq_some.trans Json.readInt64_eq_ok

/-- An optional reference is an integer, and none where it is negative. -/
theorem read?_optionalReference {reference : Option Int} : read? .optionalReference json = some reference ↔
    json = .null ∧ reference = none ∨
      ∃ n, json = .number (.int n) ∧ HasInt64 n ∧ reference = if 0 ≤ n then some n else none := by
  refine toOption_eq_some.trans ?_
  simp only [Json.readReference?, bind_eq_ok, Json.readNullable_eq_ok, Json.readInt64_eq_ok, pure_eq_ok]
  constructor
  · rintro ⟨_, ⟨rfl, rfl⟩ | ⟨-, n, ⟨rfl, hn⟩, rfl⟩, rfl⟩
    · exact .inl ⟨rfl, rfl⟩
    · exact .inr ⟨n, rfl, hn, by simp [Option.filter]⟩
  · rintro (⟨rfl, rfl⟩ | ⟨n, rfl, hn, rfl⟩)
    · exact ⟨none, .inl ⟨rfl, rfl⟩, rfl⟩
    · exact ⟨some n, .inr ⟨rfl, n, ⟨rfl, hn⟩, rfl⟩, by simp [Option.filter]⟩

theorem read?_references {ns : List Int} : read? .references json = some ns ↔
    json = .array (ns.map fun n => .number (.int n)) ∧ ∀ n ∈ ns, HasInt64 n := by
  refine (toOption_eq_some.trans Json.readList_eq_ok).trans ?_
  simp only [Json.readInt64_eq_ok, forall₂_eq_map_iff]
  constructor
  · rintro ⟨_, rfl, rfl, hns⟩
    exact ⟨rfl, hns⟩
  · rintro ⟨rfl, hns⟩
    exact ⟨_, rfl, rfl, hns⟩

theorem read?_properties (hdiffer : json.NamesDiffer) {properties : OrderedMap String Int} :
    read? .properties json = some properties ↔
      json = .object (properties.entries.map fun entry => (entry.1, .number (.int entry.2))) ∧
        ∀ n ∈ properties.values, HasInt64 n := by
  have hentry : ∀ (member : String × Json) (entry : String × Int), (member.1 = entry.1 ∧
      member.2.readInt64 = .ok entry.2) ↔ member = (entry.1, .number (.int entry.2)) ∧ HasInt64 entry.2 := by
    rintro ⟨name, value⟩ ⟨name', n⟩
    simp only [Json.readInt64_eq_ok, Prod.mk.injEq, and_assoc]
  refine (toOption_eq_some.trans (Json.readMap_eq_ok hdiffer)).trans ?_
  simp only [hentry, forall₂_eq_map_iff, OrderedMap.values, List.forall_mem_map]
  constructor
  · rintro ⟨_, rfl, rfl, hvalues⟩
    exact ⟨rfl, hvalues⟩
  · rintro ⟨rfl, hvalues⟩
    exact ⟨_, rfl, rfl, hvalues⟩

theorem read?_optionalProperties {properties : Option (OrderedMap String Int)} :
    read? .optionalProperties json = some properties ↔ json = .null ∧ properties = none ∨
      json.isNull = false ∧ ∃ given, read? .properties json = some given ∧ properties = some given :=
  (toOption_eq_some.trans Json.readNullable_eq_ok).trans <| or_congr_right <| and_congr_right fun _ =>
    exists_congr fun _ => and_congr_left fun _ => toOption_eq_some.symm

theorem read?_parameters {parameters : List (Parameter Int)} : read? .parameters json = some parameters ↔
    ∃ items, json = .array items ∧
      List.Forall₂ (fun item p => Record.parameterLayout.read item = .ok p) items parameters :=
  toOption_eq_some.trans Json.readList_eq_ok

theorem read?_signatures {trees : List (SignatureTree Int)} : read? .signatures json = some trees ↔
    ∃ items, json = .array items ∧
      List.Forall₂ (fun item tree => Record.readSignature item = .ok tree) items trees := by
  refine toOption_eq_some.trans ?_
  cases json with
  | array items => simp [Record.readSignatures_array, mapM_eq_ok]
  | _ => simp [Record.readSignatures]

theorem read?_target {target : Option (SignatureTree Int)} : read? .target json = some target ↔
    json = .null ∧ target = none ∨
      json.isNull = false ∧ ∃ tree, Record.readSignature json = .ok tree ∧ target = some tree :=
  toOption_eq_some.trans Json.readNullable_eq_ok

theorem read?_constructors_of_isNull (hnull : json.isNull = false) :
    read? .constructors json = read? .signatures json := by
  change (json.readNullable Record.readSignatures).toOption.map (·.getD []) = (Record.readSignatures json).toOption
  rw [readNullable_eq hnull, toOption_map, Option.map_map]
  exact Option.map_id'

theorem read?_constructors {trees : List (SignatureTree Int)} : read? .constructors json = some trees ↔
    json = .null ∧ trees = [] ∨ read? .signatures json = some trees := by
  cases hnull : json.isNull with
  | true =>
    cases json with
    | null =>
      constructor
      · intro h
        exact .inl ⟨rfl, (Option.some.inj h).symm⟩
      · rintro (⟨-, rfl⟩ | h)
        · rfl
        · cases h
    | _ => cases hnull
  | false =>
    have hne : json ≠ .null := by
      rintro rfl
      cases hnull
    rw [read?_constructors_of_isNull hnull]
    exact ⟨.inr, fun h => h.resolve_left fun hnone => hne hnone.1⟩

end FieldSort

theorem readField?_reference {members : List (String × Json)} {name : String} {n : Int} :
    readField? members name .reference = some n ↔ members.lookup name = some (.number (.int n)) ∧ HasInt64 n := by
  rw [readField?]
  cases members.lookup name with
  | none => simp [FieldSort.blank?]
  | some json => exact FieldSort.read?_reference.trans (and_congr_left fun _ => Option.some_inj.symm)

/-! ### Objects and arrays of fields -/

/-- The members of an object of the sort. An array has its items under the names of the fields. -/
inductive ObjectSort.Members (sort : ObjectSort) : Json → List (String × Json) → Prop where
  | object (members : List (String × Json)) : Members sort (.object members) members
  | array {items : List Json} (hlength : items.length ≤ sort.fields.length) :
    Members sort (.array items) ((sort.fields.map Prod.fst).zip items)

namespace Layout.Fits

variable {ρ : Type} {layout : Layout Json ρ} {sort : ObjectSort} (h : layout.Fits sort.fields) {json : Json}

include h

theorem read_eq_ok {r : ρ} :
    layout.read json = .ok r ↔ ∃ members, sort.Members json members ∧ layout.ofMembers members = .ok r := by
  cases json with
  | object members =>
    constructor
    · exact fun hread => ⟨members, .object members, hread⟩
    · rintro ⟨_, ⟨⟩, hread⟩
      exact hread
  | array items =>
    have hlength : layout.fields.length = sort.fields.length := h.fields.length_eq
    rw [Layout.read, ← toOption_eq_some, ofItems_eq h.lawful, h.names_eq, hlength, Option.ite_none_right_eq_some,
      toOption_eq_some]
    constructor
    · rintro ⟨hle, hread⟩
      exact ⟨_, .array hle, hread⟩
    · rintro ⟨_, ⟨⟩ | ⟨hle⟩, hread⟩
      exact ⟨hle, hread⟩
  | _ =>
    constructor
    · nofun
    · rintro ⟨_, ⟨⟩, -⟩

theorem nodup_of_members {members : List (String × Json)} (hmembers : sort.Members json members)
    (hdiffer : json.NamesDiffer) : (members.map Prod.fst).Nodup := by
  cases hmembers with
  | object members => exact hdiffer.1
  | array hlength =>
    rw [← h.names_eq, map_fst_zip]
    exact h.lawful.nodup.sublist (List.take_sublist _ _)

end Layout.Fits

/-! ### Fields of each object -/

namespace Record

/-- What a parameter is read from. -/
structure ReadsParameter (members : List (String × Json)) (parameter : Parameter Int) : Prop where
  name : members.lookup "name" = some (.string parameter.name)
  type : readField? members "type" .reference = some parameter.type

/-- What a signature is read from. -/
structure ReadsSignature (members : List (String × Json)) (signature : SignatureFields) : Prop where
  typeParameters : readField? members "typeParameters" .references = some signature.header.typeParameters
  parameters : readField? members "parameters" .parameters = some signature.header.parameters
  returns : readField? members "resolvedReturnType" .reference = some signature.header.returns
  minArgumentCount : (members.lookup "minArgumentCount").getD (.number (.int 0)) =
    .number (.int signature.header.minArgumentCount.toNat)
  hasRestParameter :
    (members.lookup "hasRestParameter").getD (.bool false) = .bool signature.header.hasRestParameter
  hasStringLiterals :
    (members.lookup "hasStringLiterals").getD (.bool false) = .bool signature.header.hasStringLiterals
  target : readField? members "target" .target = some signature.target
  unionSignatures : readField? members "unionSignatures" .signatures = some signature.unionSignatures
  isolated : readField? members "isolatedSignatureType" .optionalReference = some signature.header.isolated

/-- What the shape of an interface, a class or a generic type is read from. -/
structure ReadsShape (members : List (String × Json)) (shape : Shape Int SignatureTexts) : Prop where
  typeParameters : readField? members "typeParameters" .references = some shape.typeParameters
  baseTypes : readField? members "baseTypes" .references = some shape.baseTypes
  declaredProperties : readField? members "declaredProperties" .properties = some shape.declaredProperties
  callSignatures : readField? members "declaredCallSignatures" .signatures = some shape.callSignatures
  constructSignatures :
    readField? members "declaredConstructSignatures" .signatures = some shape.constructSignatures
  stringIndex : readField? members "declaredStringIndexType" .optionalReference = some shape.stringIndex
  numberIndex : readField? members "declaredNumberIndexType" .optionalReference = some shape.numberIndex

/-- What a class is read from. -/
structure ReadsClass (members : List (String × Json)) (record : ClassRecord Int SignatureTexts) : Prop where
  shape : ReadsShape members record.shape
  instanceProperties :
    readField? members "instanceProperties" .optionalProperties = some record.instanceProperties
  staticProperties : readField? members "staticProperties" .properties = some record.staticProperties
  constructors : readField? members "signatures" .constructors = some record.constructors
  target : readField? members "target" .optionalReference = some record.target
  typeArguments : readField? members "typeArguments" .references = some record.typeArguments

/-- What the record of a kind is read from. -/
inductive ReadsFields (members : List (String × Json)) : Kind → NestedRecord Int → Prop where
  | simple (kind : SimpleKind) : ReadsFields members (.simple kind) (.whole (.simple kind))
  | stringLiteral {text : String} (htext : members.lookup "text" = some (.string text)) :
    ReadsFields members .stringLiteral (.whole (.stringLiteral text))
  | booleanLiteral {value : Bool} (hvalue : members.lookup "value" = some (.bool value)) :
    ReadsFields members .booleanLiteral (.whole (.booleanLiteral value))
  | integerLiteral {n : Int} (hvalue : members.lookup "value" = some (.number (.int n))) :
    ReadsFields members .numberLiteral (.whole (.numberLiteral (.ofInt n)))
  | floatLiteral {value : Binary64} (hvalue : members.lookup "value" = some (.number (.float value))) :
    ReadsFields members .numberLiteral (.whole (.numberLiteral value))
  | interface {shape : Shape Int SignatureTexts} (hshape : ReadsShape members shape) :
    ReadsFields members .interface (.whole (.interface shape))
  | classDeclaration {record : ClassRecord Int SignatureTexts} (hrecord : ReadsClass members record) :
    ReadsFields members .classDeclaration (.classDeclaration record)
  | classInstance {n : Int} (htype : readField? members "classType" .reference = some n) :
    ReadsFields members .classInstance (.whole (.classInstance n))
  | generic {shape : Shape Int SignatureTexts} {target : Int} {typeArguments : List Int}
    (hshape : ReadsShape members shape) (htarget : readField? members "target" .reference = some target)
    (harguments : readField? members "typeArguments" .references = some typeArguments) :
    ReadsFields members .generic (.whole (.generic shape target typeArguments))
  | reference {target : Int} {typeArguments : List Int}
    (htarget : readField? members "target" .reference = some target)
    (harguments : readField? members "typeArguments" .references = some typeArguments) :
    ReadsFields members .reference (.whole (.reference target typeArguments))
  | tuple {elements : List Int} {minLength : Option UInt32}
    (helements : readField? members "elementTypes" .references = some elements)
    (hlength : (members.lookup "minLength").getD .null = lengthJson minLength) :
    ReadsFields members .tuple (.tuple elements minLength)
  | union {elements : List Int} (helements : readField? members "elements" .references = some elements) :
    ReadsFields members .union (.whole (.union elements))
  | intersection {elements : List Int} (helements : readField? members "elements" .references = some elements) :
    ReadsFields members .intersection (.whole (.intersection elements))
  | typeParameter {bound : Option Int}
    (hbound : readField? members "constraint" .optionalReference = some bound) :
    ReadsFields members .typeParameter (.whole (.typeParameter bound))
  | thisType {bound : Option Int} (hbound : readField? members "constraint" .optionalReference = some bound) :
    ReadsFields members .thisType (.whole (.thisType bound))
  | index {n : Int} (htype : readField? members "type" .reference = some n) :
    ReadsFields members .index (.whole (.index n))
  | indexedAccess {objectType indexType : Int}
    (hobject : readField? members "objectType" .reference = some objectType)
    (hindex : readField? members "indexType" .reference = some indexType) :
    ReadsFields members .indexedAccess (.whole (.indexedAccess objectType indexType))
  | anonymous : ReadsFields members .anonymous (.whole .anonymous)

theorem read_target (json : Json) : (if (view json).json.isNull then .ok none
      else some <$> (view json).signature () : Except Fault (Option (SignatureTree Int))).toOption =
    FieldSort.read? .target json := by
  cases json <;> rfl

section Layouts

variable {members : List (String × Json)} (hnodup : (members.map Prod.fst).Nodup)

include hnodup

theorem ofMembers_parameter_eq_ok {parameter : Parameter Int} :
    parameterLayout.ofMembers members = .ok parameter ↔ ReadsParameter members parameter := by
  rw [← toOption_eq_some, Layout.ofMembers_eq_readEach parameterLayout_fits.lawful hnodup]
  refine (Layout.readEach_needed (fun _ _ => Json.readText_eq_ok) fun _ =>
    Layout.readEach_field .reference (fun _ => toOption_map _ _) rfl fun _ => Iff.rfl).trans ?_
  constructor
  · rintro ⟨_, hname, _, htype, ⟨⟩⟩
    exact ⟨hname, htype⟩
  · rintro ⟨hname, htype⟩
    exact ⟨_, hname, _, htype, rfl⟩

theorem ofMembers_signature_eq_ok {signature : SignatureFields} :
    (signatureLayout.comap view).ofMembers members = .ok signature ↔ ReadsSignature members signature := by
  rw [← toOption_eq_some, Layout.ofMembers_eq_readEach signatureLayout_fits.lawful hnodup]
  refine (Layout.readEach_field .references (fun _ => toOption_map _ _) rfl fun _ =>
    Layout.readEach_field .parameters (fun _ => toOption_map _ _) rfl fun _ =>
    Layout.readEach_field .reference (fun _ => toOption_map _ _) rfl fun _ =>
    Layout.readEach_optional (fun _ _ => Json.readUInt32_eq_ok) rfl fun _ =>
    Layout.readEach_optional (fun _ _ => Json.readBool_eq_ok) rfl fun _ =>
    Layout.readEach_optional (fun _ _ => Json.readBool_eq_ok) rfl fun _ =>
    Layout.readEach_field .target (fun json => (toOption_map _ _).trans (congrArg (Option.map _) (read_target json)))
      rfl fun _ =>
    Layout.readEach_field .signatures (fun _ => toOption_map _ _) rfl fun _ =>
    Layout.readEach_field .optionalReference (fun _ => toOption_map _ _) rfl fun _ => Iff.rfl).trans ?_
  constructor
  · rintro ⟨_, h₁, _, h₂, _, h₃, _, h₄, _, h₅, _, h₆, _, h₇, _, h₈, _, h₉, ⟨⟩⟩
    exact ⟨h₁, h₂, h₃, h₄, h₅, h₆, h₇, h₈, h₉⟩
  · rintro ⟨h₁, h₂, h₃, h₄, h₅, h₆, h₇, h₈, h₉⟩
    exact ⟨_, h₁, _, h₂, _, h₃, _, h₄, _, h₅, _, h₆, _, h₇, _, h₈, _, h₉, rfl⟩

theorem ofMembers_shape_eq_ok {shape : Shape Int SignatureTexts} :
    shapeLayout.ofMembers members = .ok shape ↔ ReadsShape members shape := by
  rw [← toOption_eq_some, Layout.ofMembers_eq_readEach shapeLayout_fits.lawful hnodup]
  refine (Layout.readEach_field .references (fun _ => toOption_map _ _) rfl fun _ =>
    Layout.readEach_field .references (fun _ => toOption_map _ _) rfl fun _ =>
    Layout.readEach_field .properties (fun _ => toOption_map _ _) rfl fun _ =>
    Layout.readEach_field .signatures (fun _ => toOption_map _ _) rfl fun _ =>
    Layout.readEach_field .signatures (fun _ => toOption_map _ _) rfl fun _ =>
    Layout.readEach_field .optionalReference (fun _ => toOption_map _ _) rfl fun _ =>
    Layout.readEach_field .optionalReference (fun _ => toOption_map _ _) rfl fun _ => Iff.rfl).trans ?_
  constructor
  · rintro ⟨_, h₁, _, h₂, _, h₃, _, h₄, _, h₅, _, h₆, _, h₇, ⟨⟩⟩
    exact ⟨h₁, h₂, h₃, h₄, h₅, h₆, h₇⟩
  · rintro ⟨h₁, h₂, h₃, h₄, h₅, h₆, h₇⟩
    exact ⟨_, h₁, _, h₂, _, h₃, _, h₄, _, h₅, _, h₆, _, h₇, rfl⟩

theorem readInterfacePart_eq_ok {shape : Shape Int SignatureTexts} :
    readInterfacePart members = .ok shape ↔ ReadsShape members shape := by
  rw [← toOption_eq_some, readInterfacePart, toOption_mapError, toOption_eq_some, ofMembers_shape_eq_ok hnodup]

/-- A class is read from its fields, those of the shape among them. -/
theorem readClass_eq_ok {record : ClassRecord Int SignatureTexts} :
    readClass members = .ok record ↔ ReadsClass members record := by
  simp only [readClass, bind_eq_ok, pure_eq_ok, readInterfacePart_eq_ok hnodup]
  simp only [← toOption_eq_some, Layout.ofMembers_eq_readEach classLayout_fits.lawful hnodup]
  have hfields : ∀ c : ClassRecord Int SignatureTexts,
      Layout.readEach members classLayout.fields classLayout.blank = some c ↔ _ := fun _ =>
    Layout.readEach_field .optionalProperties (fun _ => toOption_map _ _) rfl fun _ =>
    Layout.readEach_field .properties (fun _ => toOption_map _ _) rfl fun _ =>
    Layout.readEach_field .constructors (fun json => (reads_constructors json).trans Option.map_eq_bind.symm) rfl
      fun _ =>
    Layout.readEach_field .optionalReference (fun _ => toOption_map _ _) rfl fun _ =>
    Layout.readEach_field .references (fun _ => toOption_map _ _) rfl fun _ => Iff.rfl
  simp only [hfields]
  constructor
  · rintro ⟨_, ⟨_, h₁, _, h₂, _, h₃, _, h₄, _, h₅, ⟨⟩⟩, shape, hshape, rfl⟩
    exact ⟨hshape, h₁, h₂, h₃, h₄, h₅⟩
  · rintro ⟨hshape, h₁, h₂, h₃, h₄, h₅⟩
    exact ⟨_, ⟨_, h₁, _, h₂, _, h₃, _, h₄, _, h₅, rfl⟩, _, hshape, rfl⟩

theorem ofMembers_application_eq_ok {application : Application} :
    applicationLayout.ofMembers members = .ok application ↔
      readField? members "target" .reference = some application.target ∧
        readField? members "typeArguments" .references = some application.typeArguments := by
  rw [← toOption_eq_some, Layout.ofMembers_eq_readEach applicationLayout_fits.lawful hnodup]
  refine (Layout.readEach_field .reference (fun _ => toOption_map _ _) rfl fun _ =>
    Layout.readEach_field .references (fun _ => toOption_map _ _) rfl fun _ => Iff.rfl).trans ?_
  constructor
  · rintro ⟨_, htarget, _, harguments, ⟨⟩⟩
    exact ⟨htarget, harguments⟩
  · rintro ⟨htarget, harguments⟩
    exact ⟨_, htarget, _, harguments, rfl⟩

theorem ofMembers_access_eq_ok {access : Int × Int} : accessLayout.ofMembers members = .ok access ↔
    readField? members "objectType" .reference = some access.1 ∧
      readField? members "indexType" .reference = some access.2 := by
  rw [← toOption_eq_some, Layout.ofMembers_eq_readEach accessLayout_fits.lawful hnodup]
  refine (Layout.readEach_field .reference (fun _ => toOption_map _ _) rfl fun _ =>
    Layout.readEach_field .reference (fun _ => toOption_map _ _) rfl fun _ => Iff.rfl).trans ?_
  constructor
  · rintro ⟨_, hobject, _, hindex, ⟨⟩⟩
    exact ⟨hobject, hindex⟩
  · rintro ⟨hobject, hindex⟩
    exact ⟨_, hobject, _, hindex, rfl⟩

/-- The only field of a kind. -/
theorem ofMembers_only_eq_ok (sort : FieldSort) {field : Field Json sort.Value} {blank value : sort.Value}
    (hread : ∀ json, (field.read json).toOption = (sort.read? json).map fun value _ => value)
    (hblank : (if field.required then none else some blank) = sort.blank?.map id) :
    ({ fields := [field], blank } : Layout Json sort.Value).ofMembers members = .ok value ↔
      readField? members field.name sort = some value := by
  rw [← toOption_eq_some, Layout.ofMembers_eq_readEach (Layout.lawful_single field blank) hnodup]
  refine (Layout.readEach_field sort hread hblank fun _ => Iff.rfl).trans ?_
  constructor
  · rintro ⟨_, h, ⟨⟩⟩
    exact h
  · exact fun h => ⟨_, h, rfl⟩

/-- The only field of a kind that refers to nothing. -/
theorem readOnly_eq_ok {γ : Type} {name : String} {read : Json → Except Fault γ} {blank value : γ} :
    readOnly members name read blank = .ok value ↔ ∃ json, members.lookup name = some json ∧ read json = .ok value := by
  rw [← toOption_eq_some, readOnly, Layout.single, Layout.ofMembers_eq_readEach (Layout.lawful_single _ _) hnodup]
  change ((members.lookup name).elim none _).bind _ = some value ↔ _
  cases members.lookup name with
  | none => simp
  | some json => simp [Field.needed, Field.optional, Layout.readEach, toOption_map, toOption_eq_some]

theorem readReference_eq_ok {name : String} {n : Int} : readOnly members name Json.readInt64 0 = .ok n ↔
    readField? members name .reference = some n :=
  ofMembers_only_eq_ok hnodup .reference (fun _ => toOption_map _ _) rfl

theorem readElements_eq_ok {elements : List Int} : readElements members = .ok elements ↔
    readField? members "elements" .references = some elements :=
  ofMembers_only_eq_ok hnodup .references (fun _ => toOption_map _ _) rfl

theorem readConstraint_eq_ok {bound : Option Int} : readConstraint members = .ok bound ↔
    readField? members "constraint" .optionalReference = some bound :=
  ofMembers_only_eq_ok hnodup .optionalReference (fun _ => toOption_map _ _) rfl

theorem readGeneric_eq_ok {form : TypeForm Int (SignatureTree Int)} : readGeneric members = .ok form ↔
    ∃ shape target typeArguments, ReadsShape members shape ∧
      readField? members "target" .reference = some target ∧
        readField? members "typeArguments" .references = some typeArguments ∧
          form = .generic shape target typeArguments := by
  simp only [readGeneric, bind_eq_ok, pure_eq_ok, ofMembers_application_eq_ok hnodup,
    readInterfacePart_eq_ok hnodup]
  constructor
  · rintro ⟨⟨target, typeArguments⟩, ⟨htarget, harguments⟩, shape, hshape, rfl⟩
    exact ⟨shape, target, typeArguments, hshape, htarget, harguments, rfl⟩
  · rintro ⟨shape, target, typeArguments, hshape, htarget, harguments, rfl⟩
    exact ⟨⟨target, typeArguments⟩, ⟨htarget, harguments⟩, shape, hshape, rfl⟩

variable {kind : Kind} {raw : NestedRecord Int}

theorem readsFields_of_readFields (h : readFields members kind = .ok raw) : ReadsFields members kind raw := by
  cases kind with
  | simple kind =>
    cases h
    exact .simple kind
  | stringLiteral =>
    obtain ⟨text, ⟨json, hjson, htext⟩, rfl⟩ := (bind_pure_eq_ok fun _ => readOnly_eq_ok hnodup).1 h
    exact .stringLiteral (Json.readText_eq_ok.1 htext ▸ hjson)
  | booleanLiteral =>
    obtain ⟨value, ⟨json, hjson, hvalue⟩, rfl⟩ := (bind_pure_eq_ok fun _ => readOnly_eq_ok hnodup).1 h
    exact .booleanLiteral (Json.readBool_eq_ok.1 hvalue ▸ hjson)
  | numberLiteral =>
    obtain ⟨value, ⟨json, hjson, hvalue⟩, rfl⟩ := (bind_pure_eq_ok fun _ => readOnly_eq_ok hnodup).1 h
    rcases Json.readFloat_eq_ok.1 hvalue with ⟨n, rfl, rfl⟩ | rfl
    · exact .integerLiteral hjson
    · exact .floatLiteral hjson
  | interface =>
    obtain ⟨shape, hshape, rfl⟩ := (bind_pure_eq_ok fun _ => ofMembers_shape_eq_ok hnodup).1 h
    exact .interface hshape
  | classDeclaration =>
    obtain ⟨record, hrecord, rfl⟩ := (bind_pure_eq_ok fun _ => readClass_eq_ok hnodup).1 h
    exact .classDeclaration hrecord
  | classInstance =>
    obtain ⟨n, htype, rfl⟩ := (bind_pure_eq_ok fun _ => readReference_eq_ok hnodup).1 h
    exact .classInstance htype
  | generic =>
    obtain ⟨_, ⟨_, _, _, hshape, htarget, harguments, rfl⟩, rfl⟩ :=
      (bind_pure_eq_ok fun _ => readGeneric_eq_ok hnodup).1 h
    exact .generic hshape htarget harguments
  | reference =>
    obtain ⟨_, ⟨htarget, harguments⟩, rfl⟩ := (bind_pure_eq_ok fun _ => ofMembers_application_eq_ok hnodup).1 h
    exact .reference htarget harguments
  | tuple =>
    obtain ⟨_, ⟨helements, hlength⟩, rfl⟩ := (bind_pure_eq_ok fun _ => ofMembers_tuple_eq_ok hnodup).1 h
    exact .tuple helements hlength
  | union =>
    obtain ⟨elements, helements, rfl⟩ := (bind_pure_eq_ok fun _ => readElements_eq_ok hnodup).1 h
    exact .union helements
  | intersection =>
    obtain ⟨elements, helements, rfl⟩ := (bind_pure_eq_ok fun _ => readElements_eq_ok hnodup).1 h
    exact .intersection helements
  | typeParameter =>
    obtain ⟨bound, hbound, rfl⟩ := (bind_pure_eq_ok fun _ => readConstraint_eq_ok hnodup).1 h
    exact .typeParameter hbound
  | thisType =>
    obtain ⟨bound, hbound, rfl⟩ := (bind_pure_eq_ok fun _ => readConstraint_eq_ok hnodup).1 h
    exact .thisType hbound
  | index =>
    obtain ⟨n, htype, rfl⟩ := (bind_pure_eq_ok fun _ => readReference_eq_ok hnodup).1 h
    exact .index htype
  | indexedAccess =>
    obtain ⟨_, ⟨hobject, hindex⟩, rfl⟩ := (bind_pure_eq_ok fun _ => ofMembers_access_eq_ok hnodup).1 h
    exact .indexedAccess hobject hindex
  | anonymous =>
    cases h
    exact .anonymous

theorem ReadsFields.readFields (h : ReadsFields members kind raw) : readFields members kind = .ok raw := by
  cases h with
  | simple kind => rfl
  | stringLiteral htext =>
    exact (bind_pure_eq_ok fun _ => readOnly_eq_ok hnodup).2 ⟨_, ⟨_, htext, rfl⟩, rfl⟩
  | booleanLiteral hvalue =>
    exact (bind_pure_eq_ok fun _ => readOnly_eq_ok hnodup).2 ⟨_, ⟨_, hvalue, rfl⟩, rfl⟩
  | integerLiteral hvalue =>
    exact (bind_pure_eq_ok fun _ => readOnly_eq_ok hnodup).2 ⟨_, ⟨_, hvalue, rfl⟩, rfl⟩
  | floatLiteral hvalue =>
    exact (bind_pure_eq_ok fun _ => readOnly_eq_ok hnodup).2 ⟨_, ⟨_, hvalue, rfl⟩, rfl⟩
  | interface hshape =>
    exact (bind_pure_eq_ok fun _ => ofMembers_shape_eq_ok hnodup).2 ⟨_, hshape, rfl⟩
  | classDeclaration hrecord =>
    exact (bind_pure_eq_ok fun _ => readClass_eq_ok hnodup).2 ⟨_, hrecord, rfl⟩
  | classInstance htype =>
    exact (bind_pure_eq_ok fun _ => readReference_eq_ok hnodup).2 ⟨_, htype, rfl⟩
  | generic hshape htarget harguments =>
    exact (bind_pure_eq_ok fun _ => readGeneric_eq_ok hnodup).2
      ⟨_, ⟨_, _, _, hshape, htarget, harguments, rfl⟩, rfl⟩
  | reference htarget harguments =>
    exact (bind_pure_eq_ok fun _ => ofMembers_application_eq_ok hnodup).2 ⟨⟨_, _⟩, ⟨htarget, harguments⟩, rfl⟩
  | tuple helements hlength =>
    exact (bind_pure_eq_ok fun _ => ofMembers_tuple_eq_ok hnodup).2 ⟨⟨_, _⟩, ⟨helements, hlength⟩, rfl⟩
  | union helements => exact (bind_pure_eq_ok fun _ => readElements_eq_ok hnodup).2 ⟨_, helements, rfl⟩
  | intersection helements => exact (bind_pure_eq_ok fun _ => readElements_eq_ok hnodup).2 ⟨_, helements, rfl⟩
  | typeParameter hbound => exact (bind_pure_eq_ok fun _ => readConstraint_eq_ok hnodup).2 ⟨_, hbound, rfl⟩
  | thisType hbound => exact (bind_pure_eq_ok fun _ => readConstraint_eq_ok hnodup).2 ⟨_, hbound, rfl⟩
  | index htype => exact (bind_pure_eq_ok fun _ => readReference_eq_ok hnodup).2 ⟨_, htype, rfl⟩
  | indexedAccess hobject hindex =>
    exact (bind_pure_eq_ok fun _ => ofMembers_access_eq_ok hnodup).2 ⟨⟨_, _⟩, ⟨hobject, hindex⟩, rfl⟩
  | anonymous => rfl

/-- A record is read from the fields of its kind. -/
theorem readFields_eq_ok : readFields members kind = .ok raw ↔ ReadsFields members kind raw :=
  ⟨readsFields_of_readFields hnodup, ReadsFields.readFields hnodup⟩

end Layouts

/-! ### Parameters, signatures and records -/

theorem readParameter_eq_ok {json : Json} (hdiffer : json.NamesDiffer) {parameter : Parameter Int} :
    parameterLayout.read json = .ok parameter ↔
      ∃ members, ObjectSort.parameter.Members json members ∧ ReadsParameter members parameter := by
  rw [parameterLayout_fits.read_eq_ok]
  exact exists_congr fun members => and_congr_right fun h =>
    ofMembers_parameter_eq_ok (parameterLayout_fits.nodup_of_members h hdiffer)

/-- A signature is read from its fields; those that are signatures in turn are read in the same way. -/
theorem readSignature_eq_ok {json : Json} (hdiffer : json.NamesDiffer) {tree : SignatureTree Int} :
    readSignature json = .ok tree ↔ ∃ members signature, ObjectSort.signature.Members json members ∧
      ReadsSignature members signature ∧ tree = .ofSignature signature := by
  rw [readSignature_eq, map_eq_ok]
  simp only [signatureLayout_fits.read_eq_ok]
  constructor
  · rintro ⟨signature, ⟨members, hmembers, hread⟩, rfl⟩
    have hnodup := signatureLayout_fits.nodup_of_members hmembers hdiffer
    exact ⟨members, signature, hmembers, (ofMembers_signature_eq_ok hnodup).1 hread, rfl⟩
  · rintro ⟨members, signature, hmembers, hread, rfl⟩
    have hnodup := signatureLayout_fits.nodup_of_members hmembers hdiffer
    exact ⟨signature, ⟨members, hmembers, (ofMembers_signature_eq_ok hnodup).2 hread⟩, rfl⟩

section Records

variable {members : List (String × Json)} (hnodup : (members.map Prod.fst).Nodup)

include hnodup

/-- An object spells the record that its fields say, those of the kind that it names. -/
theorem spells_iff {raw : NestedRecord Int} : Spells (.object members) raw ↔
    ∃ kind, members.lookup "kind" = some (.string (Kind.tag kind)) ∧ ReadsFields members kind raw := by
  simp only [← readFields_eq_ok hnodup]
  constructor
  · rintro ⟨_, tag, kind, ⟨⟩, htag, hkind, hread⟩
    exact ⟨kind, Kind.ofTag?_eq_some.1 hkind ▸ htag, hread⟩
  · rintro ⟨kind, hkind, hread⟩
    exact ⟨members, kind.tag, kind, rfl, hkind, Kind.ofTag?_tag kind, hread⟩

/-- The record that is read has the kind and the fields that are written, with records for their numbers. -/
theorem exists_readsFields_of_read {id : RecordId} {record : NestedRecord RecordId}
    (h : read id (.object members) = .ok record) : ∃ kind raw,
      members.lookup "kind" = some (.string (Kind.tag kind)) ∧ ReadsFields members kind raw ∧ HasLength raw ∧
        raw.Related RecordId.NumberOf (fun s s' => s.Becomes RecordId.NumberOf Copied s') record := by
  obtain ⟨raw, hspells, hcheck⟩ := read_eq_ok.1 h
  obtain ⟨kind, hkind, hfields⟩ := (spells_iff hnodup).1 hspells
  obtain ⟨hrefs, hlength⟩ := check_eq_ok.1 hcheck
  exact ⟨kind, raw, hkind, hfields, hlength, checkReferences_becomes hrefs⟩

/-- An object is read as a record when it names a kind and its fields are those of this kind, with numbers of
32 bits wherever it refers to records. -/
theorem exists_read_object_iff {id : RecordId} : (∃ record, read id (.object members) = .ok record) ↔
    ∃ kind raw, members.lookup "kind" = some (.string (Kind.tag kind)) ∧ ReadsFields members kind raw ∧
      HasLength raw ∧ ∀ n ∈ raw.mentions, ∃ i, RecordId.NumberOf n i := by
  have hread : (∃ record, read id (.object members) = .ok record ∧ ∀ i ∈ record.mentions, True) ↔ _ :=
    exists_read_iff
  simp only [implies_true, and_true, spells_iff hnodup] at hread
  rw [hread]
  constructor
  · rintro ⟨raw, ⟨kind, hkind, hfields⟩, hlength, hids⟩
    exact ⟨kind, raw, hkind, hfields, hlength, hids⟩
  · rintro ⟨kind, raw, hkind, hfields, hlength, hids⟩
    exact ⟨raw, ⟨kind, hkind, hfields⟩, hlength, hids⟩

end Records

end Record

end TypeEnv
