import TypeEnv.Proofs.Document.RenumberedFields

/-! Records with other numbers, layout by layout and kind by kind. A signature is read like the one
renumbered if the signatures inside it are. -/

namespace TypeEnv

open Reading

variable {h : Int → Int}

/-! ### Signatures -/

namespace Record

/-- Related fields of signatures, but for a return type that has not been read. -/
def SignaturesRead (h : Int → Int) (seen : Set String) (s s' : SignatureFields) : Prop :=
  ("resolvedReturnType" ∈ seen → h s.header.returns = s'.header.returns) ∧
    ∀ n, Signature.Related (h · = ·) (SignatureTree.Alike (h · = ·))
      { s with header.returns := n } { s' with header.returns := h n }

/-- Signatures, and lists of them, that are read like those renumbered. -/
def SignaturesFollow (h : Int → Int) (value : Json) : Prop :=
  Follows (SignatureTree.Alike (h · = ·)) (readSignature value)
      (readSignature (ObjectSort.signature.renumber h value)) ∧
    Follows (List.Forall₂ (SignatureTree.Alike (h · = ·))) (readSignatures value)
      (readSignatures (FieldSort.signatures.renumber h value))

theorem follows_target {value : Json} (hvalue : SignaturesFollow h value) :
    Follows (Option.Rel (SignatureTree.Alike (h · = ·)))
      (if value.isNull then .ok none else some <$> readSignature value)
      (if (FieldSort.target.renumber h value).isNull then .ok none
        else some <$> readSignature (FieldSort.target.renumber h value)) := by
  have hsort : FieldSort.target.renumber h value = ObjectSort.signature.renumber h value := by
    cases value <;> rfl
  have hnull : (ObjectSort.signature.renumber h value).isNull = value.isNull := by cases value <;> rfl
  rw [hsort, hnull]
  split
  · exact .ok .none
  · exact hvalue.1.map fun _ _ => .some

theorem signatureLayout_renumbers (hkeeps : KeepsRange h) : (signatureLayout.comap view).Renumbers h
    (SignaturesFollow h) (SignaturesRead h) ObjectSort.signature.fields :=
  .cons ⟨rfl, fun value _ => Field.agrees_optional (follows_references hkeeps value)
    fun _ _ _ _ _ hx hs => ⟨unless_read hs.1 (by decide), fun n =>
      { hs.2 n with header := { (hs.2 n).header with typeParameters := hx } }⟩⟩ <|
  .cons ⟨rfl, fun value _ => Field.agrees_optional (follows_parameters hkeeps value)
    fun _ _ _ _ _ hx hs => ⟨unless_read hs.1 (by decide), fun n =>
      { hs.2 n with header := { (hs.2 n).header with parameters := hx } }⟩⟩ <|
  .cons ⟨rfl, fun value _ => Field.agrees_needed (follows_reference hkeeps value)
    fun _ _ _ _ _ hx hs => ⟨fun _ => hx, hs.2⟩⟩ <|
  .cons ⟨rfl, fun value _ => Field.agrees_optional (follows_defaulted h Json.readUInt32 _ value)
    fun _ _ _ _ _ hx hs => ⟨unless_read hs.1 (by decide), fun n =>
      { hs.2 n with header := { (hs.2 n).header with minArgumentCount := hx } }⟩⟩ <|
  .cons ⟨rfl, fun value _ => Field.agrees_optional (follows_defaulted h Json.readBool _ value)
    fun _ _ _ _ _ hx hs => ⟨unless_read hs.1 (by decide), fun n =>
      { hs.2 n with header := { (hs.2 n).header with hasRestParameter := hx } }⟩⟩ <|
  .cons ⟨rfl, fun value _ => Field.agrees_optional (follows_defaulted h Json.readBool _ value)
    fun _ _ _ _ _ hx hs => ⟨unless_read hs.1 (by decide), fun n =>
      { hs.2 n with header := { (hs.2 n).header with hasStringLiterals := hx } }⟩⟩ <|
  .cons ⟨rfl, fun value hvalue => Field.agrees_optional (follows_target hvalue)
    fun _ _ _ _ _ hx hs => ⟨unless_read hs.1 (by decide), fun n => { hs.2 n with target := hx }⟩⟩ <|
  .cons ⟨rfl, fun value hvalue => Field.agrees_optional hvalue.2
    fun _ _ _ _ _ hx hs => ⟨unless_read hs.1 (by decide), fun n =>
      { hs.2 n with unionSignatures := hx }⟩⟩ <|
  .cons ⟨rfl, fun value _ => Field.agrees_optional (follows_optionalReference hkeeps value)
    fun _ _ _ _ _ hx hs => ⟨unless_read hs.1 (by decide), fun n =>
      { hs.2 n with header := { (hs.2 n).header with isolated := hx } }⟩⟩ .nil

/-- A signature is read like the one renumbered, at any depth. -/
theorem signaturesFollow (hkeeps : KeepsRange h) (json : Json) : SignaturesFollow h json := by
  induction json using Json.inside_induction with
  | _ json ih =>
    constructor
    · rw [readSignature_eq, readSignature_eq]
      refine ((signatureLayout_renumbers hkeeps).read signatureLayout_fits.lawful ⟨nofun, fun n => ?_⟩ rfl
        ih).map ?_
      · exact ⟨⟨.nil, .nil, rfl, rfl, rfl, rfl, .none⟩, .none, .nil⟩
      · rintro s s' ⟨seen, hseen, hreturns, hrelated⟩
        have hs := hrelated s.header.returns
        rw [hreturns (hseen _ (List.mem_cons_of_mem _ (List.mem_cons_of_mem _ List.mem_cons_self)) rfl)] at hs
        exact .node hs.header hs.target hs.unionSignatures
    · cases json with
      | array items =>
        rw [FieldSort.renumber, renumberObjects_eq, readSignatures_array, readSignatures_array]
        exact .mapM (List.forall₂_map_right_iff.2 (List.forall₂_same.2 fun item hitem =>
          (ih item (.item hitem)).1))
      | _ => exact .error _

theorem follows_signatures (hkeeps : KeepsRange h) (json : Json) :
    Follows (List.Forall₂ (SignatureTree.Alike (h · = ·))) (readSignatures json)
      (readSignatures (FieldSort.signatures.renumber h json)) :=
  (signaturesFollow hkeeps json).2

theorem follows_constructors (hkeeps : KeepsRange h) (json : Json) :
    Follows (Option.Rel (List.Forall₂ (SignatureTree.Alike (h · = ·)))) (json.readNullable readSignatures)
      ((FieldSort.constructors.renumber h json).readNullable readSignatures) := by
  have hsort : FieldSort.constructors.renumber h json = FieldSort.signatures.renumber h json := by
    cases json <;> rfl
  rw [hsort]
  exact follows_readNullable (follows_signatures hkeeps json) (by cases json <;> rfl)

/-! ### Layouts of records -/

section Layouts

variable (hkeeps : KeepsRange h)

include hkeeps

theorem shapeLayout_renumbers : shapeLayout.Renumbers h (fun _ => True)
    (fun _ => Shape.Related (h · = ·) (SignatureTree.Alike (h · = ·))) shapeFields :=
  .cons ⟨rfl, fun value _ => Field.agrees_optional (follows_references hkeeps value)
    fun _ _ _ _ _ hx hs => { hs with typeParameters := hx }⟩ <|
  .cons ⟨rfl, fun value _ => Field.agrees_optional (follows_references hkeeps value)
    fun _ _ _ _ _ hx hs => { hs with baseTypes := hx }⟩ <|
  .cons ⟨rfl, fun value _ => Field.agrees_optional (follows_properties hkeeps value)
    fun _ _ _ _ _ hx hs => { hs with declaredProperties := hx }⟩ <|
  .cons ⟨rfl, fun value _ => Field.agrees_optional (follows_signatures hkeeps value)
    fun _ _ _ _ _ hx hs => { hs with callSignatures := hx }⟩ <|
  .cons ⟨rfl, fun value _ => Field.agrees_optional (follows_signatures hkeeps value)
    fun _ _ _ _ _ hx hs => { hs with constructSignatures := hx }⟩ <|
  .cons ⟨rfl, fun value _ => Field.agrees_optional (follows_optionalReference hkeeps value)
    fun _ _ _ _ _ hx hs => { hs with stringIndex := hx }⟩ <|
  .cons ⟨rfl, fun value _ => Field.agrees_optional (follows_optionalReference hkeeps value)
    fun _ _ _ _ _ hx hs => { hs with numberIndex := hx }⟩ .nil

theorem classLayout_renumbers : classLayout.Renumbers h (fun _ => True)
    (fun _ => ClassRecord.Related (h · = ·) (SignatureTree.Alike (h · = ·))) classFields :=
  .cons ⟨rfl, fun value _ => Field.agrees_optional (follows_optionalProperties hkeeps value)
    fun _ _ _ _ _ hx hc => { hc with instanceProperties := hx }⟩ <|
  .cons ⟨rfl, fun value _ => Field.agrees_optional (follows_properties hkeeps value)
    fun _ _ _ _ _ hx hc => { hc with staticProperties := hx }⟩ <|
  .cons ⟨rfl, fun value _ => Field.agrees_optional (follows_constructors hkeeps value)
    fun _ _ _ _ _ hx hc => { hc with constructors := by cases hx with
      | none => exact .nil
      | some hx => exact hx }⟩ <|
  .cons ⟨rfl, fun value _ => Field.agrees_optional (follows_optionalReference hkeeps value)
    fun _ _ _ _ _ hx hc => { hc with target := hx }⟩ <|
  .cons ⟨rfl, fun value _ => Field.agrees_optional (follows_references hkeeps value)
    fun _ _ _ _ _ hx hc => { hc with typeArguments := hx }⟩ .nil

theorem applicationLayout_renumbers : applicationLayout.Renumbers h (fun _ => True)
    (fun seen a a' => ("target" ∈ seen → h a.target = a'.target) ∧
      List.Forall₂ (h · = ·) a.typeArguments a'.typeArguments) applicationFields :=
  .cons ⟨rfl, fun value _ => Field.agrees_needed (follows_reference hkeeps value)
    fun _ _ _ _ _ hx ha => ⟨fun _ => hx, ha.2⟩⟩ <|
  .cons ⟨rfl, fun value _ => Field.agrees_optional (follows_references hkeeps value)
    fun _ _ _ _ _ hx ha => ⟨unless_read ha.1 (by decide), hx⟩⟩ .nil

theorem tupleLayout_renumbers : tupleLayout.Renumbers h (fun _ => True)
    (fun _ t t' => List.Forall₂ (h · = ·) t.1 t'.1 ∧ t.2 = t'.2) Kind.tuple.fields :=
  .cons ⟨rfl, fun value _ => Field.agrees_optional (follows_references hkeeps value)
    fun _ _ _ _ _ hx ht => ⟨hx, ht.2⟩⟩ <|
  .cons ⟨rfl, fun value _ => Field.agrees_optional (follows_defaulted h _ _ value)
    fun _ _ _ _ _ hx ht => ⟨ht.1, hx⟩⟩ .nil

theorem accessLayout_renumbers : accessLayout.Renumbers h (fun _ => True)
    (fun seen a a' => ("objectType" ∈ seen → h a.1 = a'.1) ∧ ("indexType" ∈ seen → h a.2 = a'.2))
    Kind.indexedAccess.fields :=
  .cons ⟨rfl, fun value _ => Field.agrees_needed (follows_reference hkeeps value)
    fun _ _ _ _ _ hx ha => ⟨fun _ => hx, unless_read ha.2 (by decide)⟩⟩ <|
  .cons ⟨rfl, fun value _ => Field.agrees_needed (follows_reference hkeeps value)
    fun _ _ _ _ _ hx ha => ⟨unless_read ha.1 (by decide), fun _ => hx⟩⟩ .nil

end Layouts

/-! ### Kinds -/

section Single

variable {γ : Type} {V : γ → γ → Prop} {name : String} {sort : FieldSort} {all : List (String × FieldSort)}
  {read : Json → Except Fault γ} {blank : γ}
  (hread : ∀ value, Follows V (read value) (read (sort.renumber h value)))
  (hsub : [(name, sort)] ⊆ all) (hnodup : (all.map Prod.fst).Nodup) (members : List (String × Json))

include hread hsub hnodup

theorem follows_single : Follows V ((Layout.single name read blank).ofMembers members)
    ((Layout.single name read blank).ofMembers (renumberMembers h all members)) := by
  have hlayout : (Layout.single name read blank).Renumbers h (fun _ => True)
      (fun seen v v' => name ∈ seen → V v v') [(name, sort)] :=
    .cons ⟨rfl, fun value _ => Field.agrees_needed (hread value) fun _ _ _ _ _ hx _ _ => hx⟩ .nil
  refine (hlayout.ofMembers ⟨List.nodup_singleton _, List.pairwise_singleton _ _⟩ nofun hsub hnodup
    fun _ _ => trivial).imp ?_
  rintro v v' ⟨seen, hseen, hv⟩
  exact hv (hseen _ List.mem_cons_self rfl)

theorem follows_singleOptional (hblank : V blank blank) :
    Follows V ((Layout.singleOptional name read blank).ofMembers members)
      ((Layout.singleOptional name read blank).ofMembers (renumberMembers h all members)) := by
  have hlayout : (Layout.singleOptional name read blank).Renumbers h (fun _ => True) (fun _ => V)
      [(name, sort)] :=
    .cons ⟨rfl, fun value _ => Field.agrees_optional (hread value) fun _ _ _ _ _ hx _ => hx⟩ .nil
  refine (hlayout.ofMembers ⟨List.nodup_singleton _, List.pairwise_singleton _ _⟩ hblank hsub hnodup
    fun _ _ => trivial).imp ?_
  rintro v v' ⟨-, -, hv⟩
  exact hv

end Single

section Fields

variable (hkeeps : KeepsRange h) {all : List (String × FieldSort)} (hnodup : (all.map Prod.fst).Nodup)
  (members : List (String × Json))

include hkeeps hnodup

theorem follows_shape (hsub : shapeFields ⊆ all) :
    Follows (Shape.Related (h · = ·) (SignatureTree.Alike (h · = ·))) (shapeLayout.ofMembers members)
      (shapeLayout.ofMembers (renumberMembers h all members)) := by
  refine ((shapeLayout_renumbers hkeeps).ofMembers shapeLayout_fits.lawful ?_ hsub hnodup
    fun _ _ => trivial).imp ?_
  · exact ⟨.nil, .nil, .nil, .nil, .nil, .none, .none⟩
  · rintro s s' ⟨-, -, hs⟩
    exact hs

theorem follows_interfacePart (hsub : shapeFields ⊆ all) :
    Follows (Shape.Related (h · = ·) (SignatureTree.Alike (h · = ·))) (readInterfacePart members)
      (readInterfacePart (renumberMembers h all members)) :=
  (follows_shape hkeeps hnodup members hsub).of_toOption (toOption_mapError _ _).symm
    (toOption_mapError _ _).symm

theorem follows_class (hsub : classFields ⊆ all) (hsub' : shapeFields ⊆ all) :
    Follows (ClassRecord.Related (h · = ·) (SignatureTree.Alike (h · = ·))) (readClass members)
      (readClass (renumberMembers h all members)) := by
  have hall : ∀ member ∈ members, True := fun _ _ => trivial
  have hclass := (classLayout_renumbers hkeeps).ofMembers classLayout_fits.lawful
    ⟨⟨.nil, .nil, .nil, .nil, .nil, .none, .none⟩, .none, .nil, .nil, .none, .nil⟩ hsub hnodup hall
  refine hclass.bind fun c c' ⟨_, _, hc⟩ => ?_
  exact (follows_interfacePart hkeeps hnodup members hsub').bind fun s s' hs => .ok { hc with shape := hs }

theorem follows_application (hsub : applicationFields ⊆ all) :
    Follows (fun a a' => h a.target = a'.target ∧ List.Forall₂ (h · = ·) a.typeArguments a'.typeArguments)
      (applicationLayout.ofMembers members)
      (applicationLayout.ofMembers (renumberMembers h all members)) := by
  refine ((applicationLayout_renumbers hkeeps).ofMembers applicationLayout_fits.lawful ⟨nofun, .nil⟩ hsub
    hnodup fun _ _ => trivial).imp ?_
  rintro a a' ⟨seen, hseen, htarget, harguments⟩
  exact ⟨htarget (hseen _ List.mem_cons_self rfl), harguments⟩

theorem follows_generic (hsub : applicationFields ⊆ all) (hsub' : shapeFields ⊆ all) :
    Follows (TypeForm.Related (h · = ·) (SignatureTree.Alike (h · = ·))) (readGeneric members)
      (readGeneric (renumberMembers h all members)) :=
  (follows_application hkeeps hnodup members hsub).bind fun _ _ ha =>
    (follows_interfacePart hkeeps hnodup members hsub').bind fun _ _ hs => .ok (.generic hs ha.1 ha.2)

theorem follows_tuple (hsub : Kind.tuple.fields ⊆ all) :
    Follows (fun t t' => List.Forall₂ (h · = ·) t.1 t'.1 ∧ t.2 = t'.2) (tupleLayout.ofMembers members)
      (tupleLayout.ofMembers (renumberMembers h all members)) := by
  refine ((tupleLayout_renumbers hkeeps).ofMembers tupleLayout_fits.lawful ⟨.nil, rfl⟩ hsub hnodup
    fun _ _ => trivial).imp ?_
  rintro t t' ⟨-, -, ht⟩
  exact ht

theorem follows_access (hsub : Kind.indexedAccess.fields ⊆ all) :
    Follows (fun a a' => h a.1 = a'.1 ∧ h a.2 = a'.2) (accessLayout.ofMembers members)
      (accessLayout.ofMembers (renumberMembers h all members)) := by
  refine ((accessLayout_renumbers hkeeps).ofMembers accessLayout_fits.lawful ⟨nofun, nofun⟩ hsub hnodup
    fun _ _ => trivial).imp ?_
  rintro a a' ⟨seen, hseen, hobject, hindex⟩
  exact ⟨hobject (hseen _ List.mem_cons_self rfl),
    hindex (hseen _ (List.mem_cons_of_mem _ List.mem_cons_self) rfl)⟩

end Fields

/-- The fields of a kind are read like those renumbered. -/
theorem follows_readFields (hkeeps : KeepsRange h) (kind : Kind) (members : List (String × Json)) :
    Follows (Record.Related (h · = ·) (SignatureTree.Alike (h · = ·))) (readFields members kind)
      (readFields (renumberMembers h (ObjectSort.record (some kind)).fields members) kind) := by
  have hown : kind.fields ⊆ (ObjectSort.record (some kind)).fields := List.subset_cons_self _ _
  cases kind with
  | simple kind => exact .ok (.whole (.simple kind))
  | anonymous => exact .ok (.whole .anonymous)
  | stringLiteral =>
    exact (follows_single (follows_plain h _) hown (by decide) members).bind fun _ _ hv =>
      .ok (hv ▸ .whole (.stringLiteral _))
  | booleanLiteral =>
    exact (follows_single (follows_plain h _) hown (by decide) members).bind fun _ _ hv =>
      .ok (hv ▸ .whole (.booleanLiteral _))
  | numberLiteral =>
    exact (follows_single (follows_plain h _) hown (by decide) members).bind fun _ _ hv =>
      .ok (hv ▸ .whole (.numberLiteral _))
  | interface =>
    exact (follows_shape hkeeps (by decide) members hown).bind fun _ _ hs => .ok (.whole (.interface hs))
  | classDeclaration =>
    exact (follows_class hkeeps (by decide) members (List.append_subset.1 hown).1
      (List.append_subset.1 hown).2).bind fun _ _ hc => .ok (.classDeclaration hc)
  | classInstance =>
    exact (follows_single (follows_reference hkeeps) hown (by decide) members).bind fun _ _ hv =>
      .ok (.whole (.classInstance hv))
  | generic =>
    exact (follows_generic hkeeps (by decide) members (List.append_subset.1 hown).1
      (List.append_subset.1 hown).2).bind fun _ _ hform => .ok (.whole hform)
  | reference =>
    exact (follows_application hkeeps (by decide) members hown).bind fun _ _ ha =>
      .ok (.whole (.reference ha.1 ha.2))
  | tuple =>
    refine (follows_tuple hkeeps (by decide) members hown).bind fun t t' ht => .ok ?_
    rw [ht.2]
    exact .tuple _ ht.1
  | union =>
    exact (follows_singleOptional (follows_references hkeeps) hown (by decide) members .nil).bind
      fun _ _ hv => .ok (.whole (.union hv))
  | intersection =>
    exact (follows_singleOptional (follows_references hkeeps) hown (by decide) members .nil).bind
      fun _ _ hv => .ok (.whole (.intersection hv))
  | typeParameter =>
    exact (follows_singleOptional (follows_optionalReference hkeeps) hown (by decide) members .none).bind
      fun _ _ hv => .ok (.whole (.typeParameter hv))
  | thisType =>
    exact (follows_singleOptional (follows_optionalReference hkeeps) hown (by decide) members .none).bind
      fun _ _ hv => .ok (.whole (.thisType hv))
  | index =>
    exact (follows_single (follows_reference hkeeps) hown (by decide) members).bind fun _ _ hv =>
      .ok (.whole (.index hv))
  | indexedAccess =>
    exact (follows_access hkeeps (by decide) members hown).bind fun _ _ ha =>
      .ok (.whole (.indexedAccess ha.1 ha.2))

end Record

end TypeEnv
