import TypeEnv.Proofs.Form.Fields

/-! The same for records and for what signatures say about types, and for whole signature trees as
long as storing a signature has no effect. A record that is related to another describes a related
type. -/

namespace TypeEnv

variable {α β σ ρ : Type} {A : α → β → Prop} {S : σ → ρ → Prop}

theorem ClassRecord.Related.form {x : ClassRecord α σ} {y : ClassRecord β ρ} (h : x.Related A S y) :
    x.form.Related A S y.form where
  shape := { h.shape with
    constructSignatures := List.rel_append h.shape.constructSignatures h.constructors }
  instanceProperties := by
    have hproperties := h.instanceProperties
    simp only [ClassRecord.form]
    generalize x.instanceProperties = a at hproperties ⊢
    generalize y.instanceProperties = b at hproperties ⊢
    cases hproperties with
    | none => exact h.shape.declaredProperties
    | some h => exact h
  staticProperties := h.staticProperties
  target := h.target
  typeArguments := h.typeArguments

theorem Record.Related.form {x : Record α σ} {y : Record β ρ} (h : x.Related A S y) :
    x.form.Related A S y.form := by
  cases h with
  | whole h => exact h
  | classDeclaration h => exact .classDeclaration h.form
  | tuple minLength h =>
    simp only [Record.form, h.length_eq]
    exact .tuple _ h

theorem Record.mentions_eq (record : NestedRecord α) : record.mentions =
    record.references.flatMap (Sum.elim (fun id => [id]) SignatureTree.mentions) := by
  rw [mentions]
  congr 1; funext ref
  cases ref <;> rfl

/-- A type refers to what its record refers to. -/
theorem Record.mem_references_form {record : Record α σ} {ref : α ⊕ σ} :
    ref ∈ record.form.references ↔ ref ∈ record.references := by
  cases record with
  | whole form => rfl
  | tuple elements minLength => rfl
  | classDeclaration record =>
    have hempty : (∅ : OrderedMap String α).values = [] := rfl
    simp only [form, references, ClassRecord.form, ClassRecord.references, TypeForm.references,
      ClassForm.references, Shape.references]
    cases record.instanceProperties with
    | some properties => cases ref <;> simp
    | none =>
      cases ref with
      | inr signature => simp
      | inl type =>
        simp only [Option.getD_none, hempty, List.mem_append, List.mem_map, List.not_mem_nil, Sum.inl.injEq,
          exists_eq_right, reduceCtorEq, and_false, exists_false, or_false, false_or]
        tauto

theorem Record.mem_mentions_iff {record record' : NestedRecord α} (h : record.form = record'.form) {a : α} :
    a ∈ record.mentions ↔ a ∈ record'.mentions := by
  simp only [mentions_eq, List.mem_flatMap, ← mem_references_form, h]

/-- The references of a header in the order in which a record is taken in. -/
def SignatureHeader.mentions (x : SignatureHeader α) : List α :=
  x.parameters.map (·.type) ++ x.typeParameters ++ [x.returns] ++ x.isolated.toList

/-- A parameter list with other types. -/
def retype (parameters : List (Parameter α)) (types : List β) : List (Parameter β) :=
  List.zipWith (fun p b => ⟨p.name, b⟩) parameters types

theorem types_retype {parameters : List (Parameter α)} {bs : List β}
    (h : bs.length = parameters.length) : (retype parameters bs).map (·.type) = bs := by
  simpa [retype, List.zip, List.map_zipWith] using List.map_snd_zip (Nat.le_of_eq h)

theorem retype_related {parameters : List (Parameter α)} {bs : List β}
    (h : List.Forall₂ A (parameters.map (·.type)) bs) :
    List.Forall₂ (fun p q => p.name = q.name ∧ A p.type q.type) parameters
      (retype parameters bs) := by
  induction parameters generalizing bs with
  | nil => simp [retype]
  | cons p parameters ih =>
    obtain _ | ⟨h1, h2⟩ := h
    exact .cons ⟨rfl, h1⟩ (ih h2)

/-- Instance properties, present or not, with the same names. -/
def SameNames (x : Option (OrderedMap String α)) (y : Option (OrderedMap String β)) : Prop :=
  y.map (·.keys) = x.map (·.keys)

theorem SameNames.length_values {x : Option (OrderedMap String α)}
    {y : Option (OrderedMap String β)} (h : SameNames x y) :
    (y.getD ∅).values.length = (x.getD ∅).values.length := by
  rcases x with _ | x <;> rcases y with _ | y
  · rfl
  · simp [SameNames] at h
  · simp [SameNames] at h
  · exact OrderedMap.length_values (by simpa [SameNames] using h)

theorem SameNames.related {x : Option (OrderedMap String α)} {y : Option (OrderedMap String β)}
    (h : SameNames x y) (hvalues : List.Forall₂ A (x.getD ∅).values (y.getD ∅).values) :
    Option.Rel (OrderedMap.Related A) x y := by
  rcases x with _ | x <;> rcases y with _ | y
  · exact .none
  · simp [SameNames] at h
  · simp [SameNames] at h
  · exact .some (OrderedMap.related_iff.2 ⟨by simpa [SameNames] using h, hvalues⟩)

variable {m : Type → Type} [Monad m] [LawfulMonad m]

theorem Traverses.optionalProperties [Inhabited β] {onType : String → α → m β} {onSignature : σ → m ρ}
    (field : String → String) (x : Option (OrderedMap String α)) :
    Traverses onType onSignature ((x.getD ∅).entries.map fun e => (field e.1, .inl e.2))
      (x.mapM fun properties => properties.traverse fun name => onType (field name))
      fun results y => results = (y.getD ∅).values.map .inl ∧ SameNames x y := by
  cases x with
  | none =>
    refine (Traverses.pure (none : Option (OrderedMap String β))).imp ?_
    rintro _ _ ⟨rfl, rfl⟩
    exact ⟨rfl, rfl⟩
  | some properties =>
    refine ((Traverses.properties field properties).map some).imp ?_
    rintro _ _ ⟨y, ⟨rfl, h⟩, rfl⟩
    exact ⟨rfl, by simpa [SameNames] using h⟩

section Exchanges

variable [Inhabited β] (onType : String → α → m β) (onSignature : σ → m ρ)

theorem SignatureHeader.exchanges (x : SignatureHeader α) :
    Exchanges onType onSignature (x.mentions.map .inl) (x.traverseInOrder onType)
      (fun y => y.mentions.map .inl) fun A _ y => x.Related A y := by
  refine ⟨_, ?_, (Traverses.each x.parameters (fun p => s!"parameters.{p.name}") (·.type)
    (fun p b => (⟨p.name, b⟩ : Parameter β)) |>.bind fun _ => .bind (.types _ _) fun _ =>
    .bind (.type _ _) fun _ => .bind (.optional _ _) fun _ => .pure _).imp ?_⟩
  · simp [mentions, Function.comp_def]
  · rintro _ _ ⟨_, _, _, rfl, ⟨bs, rfl, h1, rfl⟩, _, _, _, rfl, ⟨rfl, h2⟩, _, _, _, rfl, rfl,
      _, _, _, rfl, ⟨rfl, h3⟩, rfl, rfl⟩
    have htypes := types_retype h1
    refine ⟨?_, fun A S h => ?_⟩
    · change List.map _ ((retype x.parameters bs).map (·.type) ++ _ ++ _ ++ _) = _
      rw [htypes]
      simp
    simp (disch := simp [*]) only [mentions, List.map_append, List.append_assoc, List.map_cons,
      forall₂_append_iff, forall₂_inl, forall₂_toList, List.append_nil,
      List.singleton_append, List.forall₂_cons, Sum.liftRel_inl_inl] at h
    obtain ⟨r1, r2, r3, r4⟩ := h
    exact ⟨r2, retype_related r1, r3, rfl, rfl, rfl, r4⟩

theorem ClassRecord.exchanges (x : ClassRecord α σ) :
    Exchanges onType onSignature x.references (x.traverse onType onSignature) references
      fun A S y => x.Related A S y := by
  obtain ⟨places, hplaces, hshape⟩ := x.shape.exchanges onType onSignature
  refine ⟨_, ?_, (hshape.length.bind fun _ => .bind (.signatures _) fun _ =>
    .bind (.optionalProperties (fun name => s!"instanceProperties.{name}") _) fun _ =>
    .bind (.properties (fun name => s!"staticProperties.{name}") _) fun _ =>
    .bind (.optional _ _) fun _ => .bind (.types _ _) fun _ => .pure _).imp ?_⟩
  · simp [ClassRecord.references, hplaces, OrderedMap.values, Function.comp_def]
  · rintro _ _ ⟨_, _, _, rfl, ⟨h1, rfl, hrel⟩, _, _, _, rfl, ⟨rfl, h2⟩, _, _, _, rfl, ⟨rfl, h3⟩,
      _, _, _, rfl, ⟨rfl, h4⟩, _, _, _, rfl, ⟨rfl, h5⟩, _, _, _, rfl, ⟨rfl, h6⟩, rfl, rfl⟩
    refine ⟨by simp [ClassRecord.references], fun A S h => ?_⟩
    rw [← List.length_map Prod.snd, hplaces] at h1
    have h3' := h3.length_values
    have h4' := OrderedMap.length_values h4
    simp (disch := simp [*]) only [ClassRecord.references, List.map_append, List.append_assoc,
      forall₂_append_iff, forall₂_inl, forall₂_inr, forall₂_toList, List.append_nil] at h
    obtain ⟨r1, r2, r3, r4, r5, r6⟩ := h
    exact ⟨hrel A S r1, h3.related r3, OrderedMap.related_iff.2 ⟨h4, r4⟩, r2, r5, r6⟩

theorem Record.exchanges (x : Record α σ) :
    Exchanges onType onSignature x.references (x.traverse onType onSignature) references
      fun A S y => x.Related A S y := by
  cases x with
  | whole form =>
    exact (form.exchanges onType onSignature).wrap Record.whole (fun _ => rfl) fun _ _ _ => .whole
  | classDeclaration record =>
    exact (record.exchanges onType onSignature).wrap Record.classDeclaration (fun _ => rfl)
      fun _ _ _ => .classDeclaration
  | tuple elements minLength =>
    exact (Exchanges.types "elementTypes" elements).wrap (Record.tuple · minLength) (fun _ => rfl)
      fun _ _ _ => .tuple minLength

end Exchanges

theorem SignatureTree.mentions_node (header : SignatureHeader α) (target : Option (SignatureTree α))
    (unions : List (SignatureTree α)) : (node header target unions).mentions =
      mentionsOfTarget target ++ (mentionsOfList unions ++ header.mentions) := by
  simp [mentions, SignatureHeader.mentions]

/-- A tree made of a signature, and of the trees that are its target and union members. -/
def Copied (signature : Signature β (SignatureTree β)) (tree : SignatureTree β) : Prop :=
  tree = .ofSignature signature

section Trees

variable (onType : String → α → m β) (onSignature : σ → m ρ)

mutual

theorem SignatureTree.exchanges [Inhabited β] : ∀ tree : SignatureTree α,
    Exchanges onType onSignature (tree.mentions.map .inl)
      (tree.traverse onType fun s => pure (.ofSignature s)) (fun y => y.mentions.map .inl)
      fun A _ y => tree.Becomes A Copied y
  | .node header target unions => by
    obtain ⟨places, hplaces, htarget⟩ := SignatureTree.exchangesTarget target
    obtain ⟨places', hplaces', hunions⟩ := SignatureTree.exchangesList unions
    obtain ⟨places'', hplaces'', hheader⟩ := header.exchanges onType onSignature
    refine ⟨_, ?_, (htarget.length.bind fun _ => hunions.length.bind fun _ =>
      hheader.bind fun _ => .pure _).imp ?_⟩
    · simp [hplaces, hplaces', hplaces'', mentions_node]
    · rintro _ _ ⟨_, _, _, rfl, ⟨h1, rfl, htarget⟩, _, _, _, rfl, ⟨h2, rfl, hunions⟩,
        _, _, _, rfl, ⟨rfl, hheader⟩, rfl, rfl⟩
      refine ⟨by simp [ofSignature, mentions_node], fun A S h => ?_⟩
      rw [← List.length_map Prod.snd, hplaces] at h1
      rw [← List.length_map Prod.snd, hplaces'] at h2
      rw [mentions_node, List.map_append, List.map_append, List.append_nil, forall₂_append_iff h1,
        forall₂_append_iff h2] at h
      exact ⟨_, rfl, hheader A S h.2.2, htarget A S h.1, hunions A S h.2.1⟩

theorem SignatureTree.exchangesTarget [Inhabited β] : ∀ target : Option (SignatureTree α),
    Exchanges onType onSignature ((mentionsOfTarget target).map .inl)
      (traverseTarget onType (fun s => pure (.ofSignature s)) target)
      (fun y => (mentionsOfTarget y).map .inl) fun A _ y => targetBecomes A Copied target y
  | none => .none _ rfl fun _ _ => rfl
  | some tree => (SignatureTree.exchanges tree).wrap some (fun _ => rfl) fun _ _ _ h => ⟨_, rfl, h⟩

theorem SignatureTree.exchangesList [Inhabited β] : ∀ trees : List (SignatureTree α),
    Exchanges onType onSignature ((mentionsOfList trees).map .inl)
      (traverseList onType (fun s => pure (.ofSignature s)) trees)
      (fun y => (mentionsOfList y).map .inl) fun A _ y => listBecomes A Copied trees y
  | [] => .none _ rfl fun _ _ => rfl
  | tree :: trees => by
    rw [mentionsOfList, List.map_append]
    exact (SignatureTree.exchanges tree).both (SignatureTree.exchangesList trees) List.cons
      (fun _ _ => by simp [mentionsOfList]) fun _ _ _ _ h h' => ⟨_, _, rfl, h, h'⟩

end

end Trees

section Copies

variable {γ τ : Type} {B : β → γ → Prop} {C : α → γ → Prop} {made : Signature γ τ → τ → Prop}

mutual

/-- What a copy of a tree becomes, the tree becomes too. -/
theorem SignatureTree.becomes_trans (hA : ∀ a b c, A a b → B b c → C a c) :
    ∀ (tree : SignatureTree α) (copy : SignatureTree β) (s : τ), tree.Becomes A Copied copy →
      copy.Becomes B made s → tree.Becomes C made s
  | .node _ target unions, _, _, ⟨signature, rfl, hheader, htarget, hunions⟩,
      ⟨signature', hs, hheader', htarget', hunions'⟩ =>
    ⟨signature', hs, hheader.trans hA hheader',
      SignatureTree.targetBecomes_trans hA target signature.target _ htarget htarget',
      SignatureTree.listBecomes_trans hA unions signature.unionSignatures _ hunions hunions'⟩

theorem SignatureTree.targetBecomes_trans (hA : ∀ a b c, A a b → B b c → C a c) :
    ∀ (target : Option (SignatureTree α)) (copy : Option (SignatureTree β)) (s : Option τ),
      targetBecomes A Copied target copy → targetBecomes B made copy s → targetBecomes C made target s
  | none, _, _, rfl, h => h
  | some tree, _, _, ⟨copy, rfl, h⟩, ⟨s, hs, h'⟩ => ⟨s, hs, SignatureTree.becomes_trans hA tree copy s h h'⟩

theorem SignatureTree.listBecomes_trans (hA : ∀ a b c, A a b → B b c → C a c) :
    ∀ (trees : List (SignatureTree α)) (copies : List (SignatureTree β)) (ss : List τ),
      listBecomes A Copied trees copies → listBecomes B made copies ss → listBecomes C made trees ss
  | [], _, _, rfl, h => h
  | tree :: trees, _, _, ⟨copy, copies, rfl, h, hrest⟩, ⟨s, ss, hss, h', hrest'⟩ =>
    ⟨s, ss, hss, SignatureTree.becomes_trans hA tree copy s h h',
      SignatureTree.listBecomes_trans hA trees copies ss hrest hrest'⟩

end

end Copies

end TypeEnv
