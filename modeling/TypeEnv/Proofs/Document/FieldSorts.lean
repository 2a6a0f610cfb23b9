import TypeEnv.Document
import TypeEnv.Proofs.Document.Catalogs
import TypeEnv.Proofs.Form.Related
import TypeEnv.Proofs.Layout.Members

/-! What the fields of a document hold, object by object: which of them refer to records and how, and
what is read from each. -/

namespace TypeEnv

open Reading

/-- What a field holds. -/
inductive FieldSort where
  /-- A value that refers to nothing and has to be there. -/
  | plain
  /-- A value that refers to nothing, and is `default` when it is left out. -/
  | defaulted (default : Json)
  | reference
  | optionalReference
  | references
  | properties
  /-- Properties or null. -/
  | optionalProperties
  | parameters
  /-- A signature or null. -/
  | target
  | signatures
  /-- Signatures or null. -/
  | constructors
  | records
  /-- A catalog, or null if it is optional. -/
  | catalog (optional : Bool)
  /-- Locations or null. -/
  | locations

/-- The objects that a document is made of. -/
inductive ObjectSort where
  /-- A record, of a kind if it names one. -/
  | record (kind : Option Kind)
  | signature
  | parameter
  | catalogEntry
  | location

/-! ### The fields of each object -/

def shapeFields : List (String × FieldSort) :=
  [("typeParameters", .references), ("baseTypes", .references),
    ("declaredProperties", .properties), ("declaredCallSignatures", .signatures),
    ("declaredConstructSignatures", .signatures),
    ("declaredStringIndexType", .optionalReference),
    ("declaredNumberIndexType", .optionalReference)]

def applicationFields : List (String × FieldSort) :=
  [("target", .reference), ("typeArguments", .references)]

def classFields : List (String × FieldSort) :=
  [("instanceProperties", .optionalProperties), ("staticProperties", .properties),
    ("signatures", .constructors), ("target", .optionalReference), ("typeArguments", .references)]

def Kind.fields : Kind → List (String × FieldSort)
  | .simple _ | .anonymous => []
  | .stringLiteral => [("text", .plain)]
  | .booleanLiteral | .numberLiteral => [("value", .plain)]
  | .interface => shapeFields
  | .classDeclaration => classFields ++ shapeFields
  | .classInstance => [("classType", .reference)]
  | .generic => applicationFields ++ shapeFields
  | .reference => applicationFields
  | .tuple => [("elementTypes", .references), ("minLength", .defaulted .null)]
  | .union | .intersection => [("elements", .references)]
  | .typeParameter | .thisType => [("constraint", .optionalReference)]
  | .index => [("type", .reference)]
  | .indexedAccess => [("objectType", .reference), ("indexType", .reference)]

def documentFields : List (String × FieldSort) :=
  [("data", .records), ("globals", .catalog false), ("types", .catalog false),
    ("ambient", .catalog true), ("locations", .locations)]

def ObjectSort.fields : ObjectSort → List (String × FieldSort)
  | .record kind => ("kind", .plain) :: (kind.map Kind.fields).getD []
  | .signature =>
    [("typeParameters", .references), ("parameters", .parameters),
      ("resolvedReturnType", .reference), ("minArgumentCount", .defaulted (.number (.int 0))),
      ("hasRestParameter", .defaulted (.bool false)),
      ("hasStringLiterals", .defaulted (.bool false)), ("target", .target),
      ("unionSignatures", .signatures), ("isolatedSignatureType", .optionalReference)]
  | .parameter => [("name", .plain), ("type", .reference)]
  | .catalogEntry => [("type", .reference), ("qName", .plain)]
  | .location => [("kind", .plain), ("type", .reference), ("debug", .defaulted (.string ""))]

/-- The kind that the members of a record name. -/
def Record.kind? (members : List (String × Json)) : Option Kind :=
  match members.lookup "kind" with
  | some (.string tag) => Kind.ofTag? tag
  | _ => none

/-! ### What is read from a field -/

namespace Record

/-- A record with the least length of a tuple filled in, which must have 32 bits. -/
def complete? : NestedRecord Int → Option (NestedRecord Int)
  | .tuple elements none =>
    if elements.length < 0x100000000 then some (.tuple elements (some elements.length.toUInt32))
    else none
  | record => some record

/-- The record that a value spells out, before its references are checked. -/
def spelled? : Json → Option (NestedRecord Int)
  | .object members => do
    let kind ← kind? members
    let record ← (readFields members kind).toOption
    record.complete?
  | _ => none

/-- The same, where null stands for no record. -/
def spelledOrNull? (json : Json) : Option (Option (NestedRecord Int)) :=
  if json.isNull then some none else some <$> spelled? json

end Record

namespace FieldSort

def Value : FieldSort → Type
  | plain | defaulted _ => Json
  | reference => Int
  | optionalReference => Option Int
  | references => List Int
  | properties => OrderedMap String Int
  | optionalProperties => Option (OrderedMap String Int)
  | parameters => List (Parameter Int)
  | target => Option (SignatureTree Int)
  | signatures | constructors => List (SignatureTree Int)
  | records => List (Option (NestedRecord Int))
  | catalog _ => List (List String × Int)
  | locations => OrderedMap String (OrderedMap String Locations.Fields)

def readProperties (json : Json) : Except Fault (OrderedMap String Int) :=
  json.readMap Json.readInt64

def read? : (sort : FieldSort) → Json → Option sort.Value
  | plain, json | defaulted _, json => some json
  | reference, json => json.readInt64.toOption
  | optionalReference, json => json.readReference?.toOption
  | references, json => json.readReferences.toOption
  | properties, json => (readProperties json).toOption
  | optionalProperties, json => (json.readNullable readProperties).toOption
  | parameters, json => (json.readList Record.parameterLayout.read).toOption
  | target, json => (json.readNullable Record.readSignature).toOption
  | signatures, json => (Record.readSignatures json).toOption
  | constructors, json => (json.readNullable Record.readSignatures).toOption.map (·.getD [])
  | records, .array items => items.mapM Record.spelledOrNull?
  | records, _ => none
  | catalog optional, json =>
    if optional && json.isNull then some ([] : List (List String × Int)) else Catalog.listing? json
  | locations, json =>
    if json.isNull then some (∅ : OrderedMap String (OrderedMap String Locations.Fields))
    else (json.readMap (·.readMap Locations.fieldsLayout.read)).toOption

/-- What is read from a field that is left out. -/
def blank? : (sort : FieldSort) → Option sort.Value
  | defaulted default => some default
  | optionalReference => some none
  | references => some ([] : List Int)
  | properties => some (∅ : OrderedMap String Int)
  | optionalProperties => some none
  | parameters => some ([] : List (Parameter Int))
  | target => some none
  | signatures | constructors => some ([] : List (SignatureTree Int))
  | catalog true => some ([] : List (List String × Int))
  | locations => some (∅ : OrderedMap String (OrderedMap String Locations.Fields))
  | plain | reference | records | catalog false => none

end FieldSort

variable {ρ γ : Type}

/-- What the field reads is a change by `put` of what its sort reads. -/
def Field.Reads (field : Field Json ρ) (sort : FieldSort) (put : sort.Value → Option (ρ → ρ)) :
    Prop :=
  ∀ json, (field.read json).toOption = (sort.read? json).bind put

/-- The field reads what its sort says, and what is read from a field left out leaves the record
blank. -/
def Field.Fits (field : Field Json ρ) (sort : FieldSort) (blank : ρ) : Prop :=
  ∃ put, field.Reads sort put ∧ ∀ value, sort.blank? = some value →
    field.required = false ∧ ∃ c, put value = some c ∧ c blank = blank

namespace Field.Fits

variable {name : String} {sort : FieldSort} {put : sort.Value → ρ → ρ} {blank : ρ}
  {read : Json → Except Fault sort.Value}

theorem reads_of_put {field : Field Json ρ} (hfield : field.read = fun json => put <$> read json)
    (hread : ∀ json, (read json).toOption = sort.read? json) :
    field.Reads sort fun value => some (put value) := by
  intro json
  rw [hfield, toOption_map, hread]
  cases sort.read? json <;> rfl

theorem optional (hread : ∀ json, (read json).toOption = sort.read? json) {value : sort.Value}
    (hvalue : sort.blank? = some value) (hblank : put value blank = blank) :
    (Field.optional name read put).Fits sort blank := by
  refine ⟨_, reads_of_put rfl hread, fun value' hvalue' => ⟨rfl, _, rfl, ?_⟩⟩
  rw [← Option.some.inj (hvalue.symm.trans hvalue')]
  exact hblank

theorem needed (hread : ∀ json, (read json).toOption = sort.read? json) (hblank : sort.blank? = none) :
    (Field.needed name read put).Fits sort blank :=
  ⟨_, reads_of_put rfl hread, fun _ hvalue => by simp [hblank] at hvalue⟩

theorem plain (field : Field Json ρ) : field.Fits .plain blank :=
  ⟨fun json => (field.read json).toOption, fun _ => rfl, nofun⟩

theorem defaulted {field : Field Json ρ} {default : Json} {c : ρ → ρ} (hreq : field.required = false)
    (hread : field.read default = .ok c) (hblank : c blank = blank) :
    field.Fits (.defaulted default) blank := by
  refine ⟨fun json => (field.read json).toOption, fun _ => rfl, ?_⟩
  rintro _ ⟨⟩
  exact ⟨hreq, c, toOption_eq_some.2 hread, hblank⟩

end Field.Fits

/-- The layout has the fields `fields`, in this order. -/
structure Layout.Fits (layout : Layout Json ρ) (fields : List (String × FieldSort)) : Prop where
  lawful : layout.Lawful
  fields : List.Forall₂ (fun field entry => field.name = entry.1 ∧ field.Fits entry.2 layout.blank)
    layout.fields fields

/-- Each field of the layout is among `fields`, with its sort. -/
structure Layout.FitsIn (layout : Layout Json ρ) (fields : List (String × FieldSort)) : Prop where
  lawful : layout.Lawful
  field : ∀ field ∈ layout.fields, ∃ sort, fields.lookup field.name = some sort ∧
    field.Fits sort layout.blank

namespace Layout.Fits

variable {layout : Layout Json ρ} {fields : List (String × FieldSort)}

theorem names_eq (h : layout.Fits fields) : layout.fields.map Field.name = fields.map Prod.fst := by
  have hfields := h.fields
  clear h
  generalize layout.fields = l at hfields
  induction hfields with
  | nil => rfl
  | cons hentry _ ih => rw [List.map_cons, List.map_cons, ih, hentry.1]

theorem fitsIn (h : layout.Fits fields) {all : List (String × FieldSort)} (hsub : fields ⊆ all)
    (hnodup : (all.map Prod.fst).Nodup) : layout.FitsIn all where
  lawful := h.lawful
  field field hfield := by
    obtain ⟨i, hi⟩ := List.mem_iff_getElem?.1 hfield
    have hlen : i < fields.length := h.fields.length_eq ▸ (List.getElem?_eq_some_iff.1 hi).1
    obtain ⟨hname, hfits⟩ := getElem?_of_forall₂ h.fields hi (List.getElem?_eq_getElem hlen)
    exact ⟨_, hname ▸ lookup_of_mem hnodup (hsub (List.getElem_mem hlen)), hfits⟩

theorem fitsIn_self (h : layout.Fits fields) : layout.FitsIn fields :=
  h.fitsIn (fun _ => id) (h.names_eq ▸ h.lawful.nodup)

end Layout.Fits

/-! ### Layouts -/

theorem Field.commute_of_put {γ δ : Type} {f g : Field Json ρ} {readf : Json → Except Fault γ}
    {readg : Json → Except Fault δ} {putf : γ → ρ → ρ} {putg : δ → ρ → ρ}
    (hf : f.read = fun json => putf <$> readf json) (hg : g.read = fun json => putg <$> readg json)
    (h : ∀ x y r, putf x (putg y r) = putg y (putf x r)) : f.Commute g := by
  intro v w c d hc hd r
  rw [hf] at hc
  rw [hg] at hd
  obtain ⟨x, -, rfl⟩ := map_eq_ok.1 hc
  obtain ⟨y, -, rfl⟩ := map_eq_ok.1 hd
  exact h x y r

open Record

theorem shapeLayout_fits : shapeLayout.Fits shapeFields where
  lawful.nodup := by decide
  lawful.commute := by
    simp only [shapeLayout, List.pairwise_cons, List.forall_mem_cons]
    and_intros
    all_goals first
      | exact Field.commute_of_put rfl rfl fun _ _ _ => rfl
      | simp
  fields :=
    .cons ⟨rfl, .optional (fun _ => rfl) rfl rfl⟩ <|
    .cons ⟨rfl, .optional (fun _ => rfl) rfl rfl⟩ <|
    .cons ⟨rfl, .optional (fun _ => rfl) rfl rfl⟩ <|
    .cons ⟨rfl, .optional (fun _ => rfl) rfl rfl⟩ <|
    .cons ⟨rfl, .optional (fun _ => rfl) rfl rfl⟩ <|
    .cons ⟨rfl, .optional (fun _ => rfl) rfl rfl⟩ <|
    .cons ⟨rfl, .optional (fun _ => rfl) rfl rfl⟩ .nil

theorem reads_constructors : (Field.optional "signatures" (·.readNullable readSignatures)
      fun constructors (c : ClassRecord Int SignatureTexts) =>
        { c with constructors := constructors.getD [] }).Reads .constructors
      fun constructors => some fun c => { c with constructors } := by
  intro json
  simp only [Field.optional, toOption_map, FieldSort.read?]
  cases (json.readNullable readSignatures).toOption <;> rfl

theorem constructors_fits : (Field.optional "signatures" (·.readNullable readSignatures)
      fun constructors (c : ClassRecord Int SignatureTexts) =>
        { c with constructors := constructors.getD [] }).Fits .constructors classLayout.blank := by
  refine ⟨_, reads_constructors, ?_⟩
  rintro _ ⟨⟩
  exact ⟨rfl, _, rfl, rfl⟩

theorem classLayout_fits : classLayout.Fits classFields where
  lawful.nodup := by decide
  lawful.commute := by
    simp only [classLayout, List.pairwise_cons, List.forall_mem_cons]
    and_intros
    all_goals first
      | exact Field.commute_of_put rfl rfl fun _ _ _ => rfl
      | simp
  fields :=
    .cons ⟨rfl, .optional (fun _ => rfl) rfl rfl⟩ <|
    .cons ⟨rfl, .optional (fun _ => rfl) rfl rfl⟩ <|
    .cons ⟨rfl, constructors_fits⟩ <|
    .cons ⟨rfl, .optional (fun _ => rfl) rfl rfl⟩ <|
    .cons ⟨rfl, .optional (fun _ => rfl) rfl rfl⟩ .nil

theorem applicationLayout_fits : applicationLayout.Fits applicationFields where
  lawful.nodup := by decide
  lawful.commute := List.pairwise_pair.2 (Field.commute_of_put rfl rfl fun _ _ _ => rfl)
  fields :=
    .cons ⟨rfl, .needed (fun _ => rfl) rfl⟩ <|
    .cons ⟨rfl, .optional (fun _ => rfl) rfl rfl⟩ .nil

theorem tupleLayout_fits : tupleLayout.Fits Kind.tuple.fields where
  lawful.nodup := by decide
  lawful.commute := List.pairwise_pair.2 (Field.commute_of_put rfl rfl fun _ _ _ => rfl)
  fields :=
    .cons ⟨rfl, .optional (fun _ => rfl) rfl rfl⟩ <|
    .cons ⟨rfl, .defaulted rfl rfl rfl⟩ .nil

theorem accessLayout_fits : accessLayout.Fits Kind.indexedAccess.fields where
  lawful.nodup := by decide
  lawful.commute := List.pairwise_pair.2 (Field.commute_of_put rfl rfl fun _ _ _ => rfl)
  fields :=
    .cons ⟨rfl, .needed (fun _ => rfl) rfl⟩ <|
    .cons ⟨rfl, .needed (fun _ => rfl) rfl⟩ .nil

theorem parameterLayout_fits : parameterLayout.Fits ObjectSort.parameter.fields where
  lawful.nodup := by decide
  lawful.commute := List.pairwise_pair.2 (Field.commute_of_put rfl rfl fun _ _ _ => rfl)
  fields := .cons ⟨rfl, .plain _⟩ <| .cons ⟨rfl, .needed (fun _ => rfl) rfl⟩ .nil

theorem entryLayout_fits : Catalog.entryLayout.Fits ObjectSort.catalogEntry.fields where
  lawful.nodup := by decide
  lawful.commute := List.pairwise_pair.2 (Field.commute_of_put rfl rfl fun _ _ _ => rfl)
  fields := .cons ⟨rfl, .needed (fun _ => rfl) rfl⟩ <| .cons ⟨rfl, .plain _⟩ .nil

theorem fieldsLayout_fits : Locations.fieldsLayout.Fits ObjectSort.location.fields where
  lawful.nodup := by decide
  lawful.commute := by
    simp only [Locations.fieldsLayout, List.pairwise_cons, List.forall_mem_cons]
    and_intros
    all_goals first
      | exact Field.commute_of_put rfl rfl fun _ _ _ => rfl
      | simp
  fields :=
    .cons ⟨rfl, .plain _⟩ <|
    .cons ⟨rfl, .needed (fun _ => rfl) rfl⟩ <|
    .cons ⟨rfl, .defaulted rfl rfl rfl⟩ .nil

/-! ### Signatures -/

/-- A value with the ways to read it. -/
def Record.view (json : Json) : SignatureView :=
  ⟨json, fun _ => readSignature json, fun _ => readSignatures json⟩

theorem signatureLayout_fits : (signatureLayout.comap view).Fits ObjectSort.signature.fields where
  lawful.nodup := by decide
  lawful.commute := by
    simp only [Layout.comap, Field.comap, signatureLayout, List.map_cons, List.map_nil, List.pairwise_cons,
      List.forall_mem_cons]
    and_intros
    all_goals first
      | exact Field.commute_of_put rfl rfl fun _ _ _ => rfl
      | simp
  fields :=
    .cons ⟨rfl, .optional (fun _ => rfl) rfl rfl⟩ <|
    .cons ⟨rfl, .optional (fun _ => rfl) rfl rfl⟩ <|
    .cons ⟨rfl, .needed (fun _ => rfl) rfl⟩ <|
    .cons ⟨rfl, .defaulted rfl rfl rfl⟩ <|
    .cons ⟨rfl, .defaulted rfl rfl rfl⟩ <|
    .cons ⟨rfl, .defaulted rfl rfl rfl⟩ <|
    .cons ⟨rfl, .optional (fun json => by cases json <;> rfl) rfl rfl⟩ <|
    .cons ⟨rfl, .optional (fun _ => rfl) rfl rfl⟩ <|
    .cons ⟨rfl, .optional (fun _ => rfl) rfl rfl⟩ .nil

end TypeEnv
